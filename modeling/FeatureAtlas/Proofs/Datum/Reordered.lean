import FeatureAtlas.Proofs.Datum.Plain
import FeatureAtlas.Proofs.Text.Order

/-!
# Plain forms and the order of sets

A set has no order, but a program goes through its elements in one. Its plain form is sorted by the compact
texts of the elements, and as such a text is read back, elements that it does not tell apart are the same. So
the form does not depend on the order of any set, at whatever depth, as far as values go. Keys are another
matter: a key with a set in it becomes the text that shows it, elements in the order they come in. That is the
only way in which the order shows.
-/

namespace FeatureAtlas.Datum

/-- The same datum, gone through in another order: the elements of each set in it, also of those in keys, may
come in any order. -/
inductive Reordered : Datum → Datum → Prop
  | refl (d : Datum) : Reordered d d
  | list {ps : List (Datum × Datum)} (h : ∀ p ∈ ps, Reordered p.1 p.2) :
    Reordered (list (ps.map Prod.fst)) (list (ps.map Prod.snd))
  | tuple {ps : List (Datum × Datum)} (h : ∀ p ∈ ps, Reordered p.1 p.2) :
    Reordered (tuple (ps.map Prod.fst)) (tuple (ps.map Prod.snd))
  | set {ps : List (Datum × Datum)} {ys : List Datum} (h : ∀ p ∈ ps, Reordered p.1 p.2)
    (hperm : (ps.map Prod.snd).Perm ys) : Reordered (set (ps.map Prod.fst)) (set ys)
  | frozenSet {ps : List (Datum × Datum)} {ys : List Datum} (h : ∀ p ∈ ps, Reordered p.1 p.2)
    (hperm : (ps.map Prod.snd).Perm ys) : Reordered (frozenSet (ps.map Prod.fst)) (frozenSet ys)
  | map {ps : List ((Datum × Datum) × Datum × Datum)} (hkeys : ∀ p ∈ ps, Reordered p.1.1 p.2.1)
    (hvalues : ∀ p ∈ ps, Reordered p.1.2 p.2.2) :
    Reordered (map (ps.map Prod.fst)) (map (ps.map Prod.snd))

theorem Reordered.ofPerm {xs ys : List Datum} (h : xs.Perm ys) :
    Reordered (.set xs) (.set ys) ∧ Reordered (.frozenSet xs) (.frozenSet ys) := by
  have hfst : (xs.map fun x ↦ (x, x)).map Prod.fst = xs := List.map_map.trans (List.map_id xs)
  have hsnd : (xs.map fun x ↦ (x, x)).map Prod.snd = xs := List.map_map.trans (List.map_id xs)
  have hself : ∀ p ∈ xs.map fun x ↦ (x, x), Reordered p.1 p.2 := by
    intro p hp
    obtain ⟨x, -, rfl⟩ := List.mem_map.mp hp
    exact .refl x
  have hperm : ((xs.map fun x ↦ (x, x)).map Prod.snd).Perm ys := hsnd.symm ▸ h
  have hset := Reordered.set hself hperm
  have hfrozen := Reordered.frozenSet hself hperm
  rw [hfst] at hset hfrozen
  exact ⟨hset, hfrozen⟩

/-- A table of one entry, its key and its value in another order. -/
theorem Reordered.entry {k k' v v' : Datum} (hk : Reordered k k') (hv : Reordered v v') :
    Reordered (.map [(k, v)]) (.map [(k', v')]) := by
  have hkeys : ∀ p ∈ [((k, v), k', v')], Reordered p.1.1 p.2.1 := by simpa using hk
  exact .map hkeys (by simpa using hv)

/-- Each key shows one text, in whatever order the sets in it come. -/
def KeysSettled (d : Datum) : Prop :=
  ∀ entries, map entries ∈ d.parts → ∀ e ∈ entries, ∀ k, Reordered e.1 k → k.shown = e.1.shown

/-- These are the elements of a set in the datum. -/
def HasSet (d : Datum) (xs : List Datum) : Prop := set xs ∈ d.parts ∨ frozenSet xs ∈ d.parts

/-- No element of a set holds a table. -/
def SetsWithoutTables (d : Datum) : Prop :=
  ∀ xs, d.HasSet xs → ∀ x ∈ xs, ∀ entries, map entries ∉ x.parts

/-! ## What is seen of a form -/

/-- A way to look at JSON that goes through arrays and objects. -/
structure IsView (g : Json → Json) : Prop where
  arr : ∀ xs ys : List Json, ys.map g = xs.map g → g (.arr ys) = g (.arr xs)
  obj : ∀ fields others : List (String × Json),
    (others.map fun f ↦ (f.1, g f.2)) = (fields.map fun f ↦ (f.1, g f.2)) →
      g (.obj (Table.ofEntries others)) = g (.obj (Table.ofEntries fields))

theorem isView_id : IsView id where
  arr xs ys h := by
    rw [List.map_id, List.map_id] at h
    rw [h]
  obj fields others h := by simpa using congrArg (fun es ↦ Json.obj (Table.ofEntries es)) h

theorem isView_sorted : IsView Json.sorted where
  arr xs ys h := by rw [Json.sorted, Json.sorted, Json.sortedItems_eq, Json.sortedItems_eq, h]
  obj fields others h := by
    rw [Json.sorted, Json.sorted, Json.sortedFields_eq, Json.sortedFields_eq,
      ← Table.ofEntries_map_values, ← Table.ofEntries_map_values, h]

section

variable (g : Json → Json) {d d' x : Datum}

/-- Where the first datum has a form, the second has one that looks the same. -/
def Alike (d d' : Datum) : Prop := ∀ j, d.plain? = some j → ∃ j', d'.plain? = some j' ∧ g j' = g j

/-- The forms of elements look the same when they are sorted, in whatever order they come. -/
def SeenInOrder (xs : List Datum) : Prop :=
  ∀ ys zs, plainItems? xs = some ys → (zs.map g).Perm (ys.map g) →
    (inTextOrder zs).map g = (inTextOrder ys).map g

/-- Neither the keys nor the sets of a datum let their order be seen. -/
structure Settled (d : Datum) : Prop where
  keys : d.KeysSettled
  sets : ∀ xs, d.HasSet xs → SeenInOrder g xs

variable {g}

theorem Settled.child (h : Settled g d) (hx : x ∈ d.children) : Settled g x where
  keys entries he := h.keys entries (mem_parts_of_child hx he)
  sets xs hxs := h.sets xs (hxs.imp (mem_parts_of_child hx) (mem_parts_of_child hx))

end

/-! ## Elements and entries in another order -/

section

variable {g : Json → Json} {ys : List Json}

theorem exists_plainItems? {ps : List (Datum × Datum)} (h : ∀ p ∈ ps, Alike g p.1 p.2)
    (hys : plainItems? (ps.map Prod.fst) = some ys) :
    ∃ zs, plainItems? (ps.map Prod.snd) = some zs ∧ zs.map g = ys.map g := by
  induction ps generalizing ys with
  | nil => exact ⟨ys, hys, rfl⟩
  | cons p ps ih =>
    obtain ⟨hp, hps⟩ := List.forall_mem_cons.mp h
    obtain ⟨j, js, hj, hjs, rfl⟩ := plainItems?_cons_eq_some.mp hys
    obtain ⟨j', hj', heq⟩ := hp j hj
    obtain ⟨js', hjs', heqs⟩ := ih hps hjs
    refine ⟨j' :: js', plainItems?_cons_eq_some.mpr ⟨j', js', hj', hjs', rfl⟩, ?_⟩
    rw [List.map_cons, List.map_cons, heq, heqs]

theorem exists_plainItems?_of_perm {xs xs' : List Datum} (hperm : xs.Perm xs')
    (hys : plainItems? xs = some ys) : ∃ zs, plainItems? xs' = some zs ∧ zs.Perm ys := by
  induction hperm generalizing ys with
  | nil => exact ⟨ys, hys, .refl ys⟩
  | cons x _ ih =>
    obtain ⟨j, js, hj, hjs, rfl⟩ := plainItems?_cons_eq_some.mp hys
    obtain ⟨zs, hzs, hrest⟩ := ih hjs
    exact ⟨j :: zs, plainItems?_cons_eq_some.mpr ⟨j, zs, hj, hzs, rfl⟩, hrest.cons j⟩
  | swap x x' xs =>
    obtain ⟨j', js', hj', hjs', rfl⟩ := plainItems?_cons_eq_some.mp hys
    obtain ⟨j, js, hj, hjs, rfl⟩ := plainItems?_cons_eq_some.mp hjs'
    refine ⟨j :: j' :: js, ?_, .swap j' j js⟩
    exact plainItems?_cons_eq_some.mpr ⟨j, j' :: js, hj,
      plainItems?_cons_eq_some.mpr ⟨j', js, hj', hjs, rfl⟩, rfl⟩
  | trans _ _ ih ih' =>
    obtain ⟨zs, hzs, hfirst⟩ := ih hys
    obtain ⟨zs', hzs', hsecond⟩ := ih' hzs
    exact ⟨zs', hzs', hsecond.trans hfirst⟩

theorem exists_plainEntries? {ps : List ((Datum × Datum) × Datum × Datum)}
    {fields : List (String × Json)} (hkeys : ∀ p ∈ ps, p.2.1.shown = p.1.1.shown)
    (h : ∀ p ∈ ps, Alike g p.1.2 p.2.2) (hfields : plainEntries? (ps.map Prod.fst) = some fields) :
    ∃ others, plainEntries? (ps.map Prod.snd) = some others ∧
      (others.map fun f ↦ (f.1, g f.2)) = fields.map fun f ↦ (f.1, g f.2) := by
  induction ps generalizing fields with
  | nil => exact ⟨fields, hfields, rfl⟩
  | cons p ps ih =>
    obtain ⟨hkey, hkeys⟩ := List.forall_mem_cons.mp hkeys
    obtain ⟨hp, hps⟩ := List.forall_mem_cons.mp h
    obtain ⟨j, js, hj, hjs, rfl⟩ := plainEntries?_cons_eq_some.mp hfields
    obtain ⟨j', hj', heq⟩ := hp j hj
    obtain ⟨js', hjs', heqs⟩ := ih hkeys hps hjs
    refine ⟨(p.2.1.shown, j') :: js', plainEntries?_cons_eq_some.mpr ⟨j', js', hj', hjs', rfl⟩, ?_⟩
    rw [List.map_cons, List.map_cons, heqs, heq, hkey]

/-- The sorted forms of elements in another order look the same. -/
theorem exists_inTextOrder {ps : List (Datum × Datum)} {xs : List Datum}
    (h : ∀ p ∈ ps, Alike g p.1 p.2) (hperm : (ps.map Prod.snd).Perm xs)
    (hseen : SeenInOrder g (ps.map Prod.fst)) (hys : plainItems? (ps.map Prod.fst) = some ys) :
    ∃ zs, plainItems? xs = some zs ∧ (inTextOrder zs).map g = (inTextOrder ys).map g := by
  obtain ⟨ws, hws, heq⟩ := exists_plainItems? h hys
  obtain ⟨zs, hzs, hpermForms⟩ := exists_plainItems?_of_perm hperm hws
  exact ⟨zs, hzs, hseen ys zs hys (heq ▸ hpermForms.map g)⟩

end

/-- What is seen of a form does not depend on the order, if neither keys nor sets let it be seen. -/
theorem alike_of_reordered {g : Json → Json} (hg : IsView g) {d d' : Datum} (h : Reordered d d')
    (hd : Settled g d) : Alike g d d' := by
  -- along the reordering: what is below looks the same, and what a set may change is sorted away
  induction h with
  | refl d => exact fun j hj ↦ ⟨j, hj, rfl⟩
  | @list ps _ ih | @tuple ps _ ih =>
    have hitems : ∀ p ∈ ps, Alike g p.1 p.2 := fun p hp ↦ ih p hp (hd.child (List.mem_map_of_mem hp))
    intro j hj
    obtain ⟨ys, hys, rfl⟩ := Option.map_eq_some_iff.mp hj
    obtain ⟨zs, hzs, heq⟩ := exists_plainItems? hitems hys
    exact ⟨.arr zs, Option.map_eq_some_iff.mpr ⟨zs, hzs, rfl⟩, hg.arr ys zs heq⟩
  | @set ps xs _ hperm ih | @frozenSet ps xs _ hperm ih =>
    have hitems : ∀ p ∈ ps, Alike g p.1 p.2 := fun p hp ↦ ih p hp (hd.child (List.mem_map_of_mem hp))
    have hseen : SeenInOrder g (ps.map Prod.fst) := hd.sets _ (by simp [HasSet, mem_parts_self])
    intro j hj
    obtain ⟨ys, hys, rfl⟩ := Option.map_eq_some_iff.mp hj
    obtain ⟨zs, hzs, heq⟩ := exists_inTextOrder hitems hperm hseen hys
    exact ⟨_, Option.map_eq_some_iff.mpr ⟨zs, hzs, rfl⟩, hg.arr _ _ heq⟩
  | @map ps hkeys _ _ ih =>
    have hshown : ∀ p ∈ ps, p.2.1.shown = p.1.1.shown := fun p hp ↦
      hd.keys _ (mem_parts_self _) p.1 (List.mem_map_of_mem hp) p.2.1 (hkeys p hp)
    have hvalues : ∀ p ∈ ps, Alike g p.1.2 p.2.2 := fun p hp ↦
      ih p hp (hd.child (List.mem_map_of_mem (List.mem_map_of_mem hp)))
    intro j hj
    obtain ⟨fields, hfields, rfl⟩ := Option.map_eq_some_iff.mp hj
    obtain ⟨others, hothers, heq⟩ := exists_plainEntries? hshown hvalues hfields
    exact ⟨_, Option.map_eq_some_iff.mpr ⟨others, hothers, rfl⟩, hg.obj fields others heq⟩

/-! ## Sets are seen in one order -/

section

variable {d x : Datum}

theorem mem_parts_trans {y : Datum} (hx : x ∈ d.parts) (hy : y ∈ x.parts) : y ∈ d.parts := by
  induction d using forall_of_children with
  | step d ih =>
    rw [parts_eq] at hx
    rcases List.mem_cons.mp hx with rfl | hx
    · exact hy
    · obtain ⟨c, hc, hx⟩ := List.mem_flatMap.mp hx
      exact mem_parts_of_child hc (ih c hc hx)

theorem HasSet.mem_parts {xs : List Datum} (h : d.HasSet xs) (hx : x ∈ xs) : x ∈ d.parts :=
  h.elim (fun hset ↦ mem_parts_trans hset (mem_parts_of_child (d := .set xs) hx (mem_parts_self x)))
    fun hset ↦ mem_parts_trans hset (mem_parts_of_child (d := .frozenSet xs) hx (mem_parts_self x))

theorem WellFormed.part (h : d.WellFormed) (hx : x ∈ d.parts) : x.WellFormed where
  isCanonical b hb := h.isCanonical b (mem_parts_trans hx hb)
  ofCalendar t ht := h.ofCalendar t (mem_parts_trans hx ht)

/-- The forms of the elements of a set are plain. -/
theorem WellFormed.plain_of_hasSet (h : d.WellFormed) {xs : List Datum} (hxs : d.HasSet xs)
    {ys : List Json} (hys : plainItems? xs = some ys) : ∀ y ∈ ys, y.Plain := by
  intro y hy
  obtain ⟨x, hx, hform⟩ := exists_of_mem_plainItems? hys hy
  exact plain_of_plain? (h.part (hxs.mem_parts hx)) hform

/-- Up to the order of fields, the elements of a set come in one order. -/
theorem WellFormed.seenInOrder_sorted (h : d.WellFormed) {xs : List Datum} (hxs : d.HasSet xs) :
    SeenInOrder Json.sorted xs := by
  intro ys zs hys hperm
  have hmap : ∀ ws : List Json, (inTextOrder ws).map Json.sorted =
      (ws.map Json.sorted).mergeSort fun a b ↦ Text.le a.compact b.compact :=
    fun ws ↦ List.map_mergeSort fun _ _ _ _ ↦ rfl
  rw [hmap, hmap]
  -- sorted forms with one text are one form, so the sort has no choice between them
  refine (Text.mergeSort_eq_of_perm hperm.symm fun a ha b hb heq ↦ ?_).symm
  obtain ⟨y, hy, rfl⟩ := List.mem_map.mp ha
  obtain ⟨z, hz, rfl⟩ := List.mem_map.mp hb
  have hplain := h.plain_of_hasSet hxs hys
  exact (hplain y hy).sorted.eq_of_compact (hplain z hz).sorted heq

/-- A form without tables has no fields to sort. -/
theorem sorted_eq_self (hd : ∀ entries, map entries ∉ d.parts) {j : Json} (hj : d.plain? = some j) :
    j.sorted = j := by
  induction d using forall_of_children generalizing j with
  | step d ih =>
    have hitems : ∀ {ys}, plainItems? d.children = some ys → ∀ y ∈ ys, y.sorted = y := by
      intro ys hys y hy
      obtain ⟨x, hx, hform⟩ := exists_of_mem_plainItems? hys hy
      exact ih x hx (fun entries he ↦ hd entries (mem_parts_of_child hx he)) hform
    have harr : ∀ {ys : List Json}, (∀ y ∈ ys, y.sorted = y) → (Json.arr ys).sorted = .arr ys := by
      intro ys hys
      rw [Json.sorted, Json.sortedItems_eq, List.map_congr_left hys, List.map_id']
    cases d with
    | map entries => exact absurd (mem_parts_self _) (hd entries)
    | list xs | tuple xs =>
      obtain ⟨ys, hys, rfl⟩ := Option.map_eq_some_iff.mp hj
      exact harr (hitems hys)
    | set xs | frozenSet xs =>
      obtain ⟨ys, hys, rfl⟩ := Option.map_eq_some_iff.mp hj
      exact harr fun y hy ↦ hitems hys y (mem_inTextOrder.mp hy)
    | moment t =>
      obtain ⟨s, -, rfl⟩ := Option.map_eq_some_iff.mp hj
      rfl
    | float x =>
      cases hj
      split <;> rfl
    | _ =>
      cases hj
      rfl

/-- Elements without tables come in one order. -/
theorem WellFormed.seenInOrder_id (h : d.WellFormed) {xs : List Datum} (hxs : d.HasSet xs)
    (hflat : ∀ x ∈ xs, ∀ entries, map entries ∉ x.parts) : SeenInOrder id xs := by
  intro ys zs hys hperm
  rw [List.map_id, List.map_id] at hperm ⊢
  refine (Text.mergeSort_eq_of_perm hperm.symm fun a ha b hb heq ↦ ?_).symm
  have hsorted : ∀ y ∈ ys, y.sorted = y := by
    intro y hy
    obtain ⟨x, hx, hform⟩ := exists_of_mem_plainItems? hys hy
    exact sorted_eq_self (hflat x hx) hform
  have hplain := h.plain_of_hasSet hxs hys
  rw [Json.canonical, Json.canonical, hsorted a ha, hsorted b hb] at heq
  exact (hplain a ha).eq_of_compact (hplain b hb) heq

end

/-! ## Keys -/

/-- Neither a set nor a table. -/
def IsOrdered : Datum → Prop
  | set _ | frozenSet _ | map _ => False
  | _ => True

/-- What holds neither comes in one order. -/
theorem eq_of_reordered {d d' : Datum} (h : Reordered d d') (hd : ∀ x ∈ d.parts, x.IsOrdered) :
    d' = d := by
  induction h with
  | refl d => rfl
  | @list ps _ ih | @tuple ps _ ih =>
    have hitems : ps.map Prod.snd = ps.map Prod.fst := List.map_congr_left fun p hp ↦
      ih p hp fun x hx ↦ hd x (mem_parts_of_child (List.mem_map_of_mem hp) hx)
    rw [hitems]
  | set _ _ | frozenSet _ _ | map _ _ => exact (hd _ (mem_parts_self _)).elim

/-- Keys without sets are settled. -/
theorem keysSettled_of_isOrdered {d : Datum}
    (h : ∀ entries, map entries ∈ d.parts → ∀ e ∈ entries, ∀ x ∈ e.1.parts, x.IsOrdered) :
    d.KeysSettled := by
  intro entries hentries e he k hk
  rw [eq_of_reordered hk (h entries hentries e he)]

/-! ## One form once and for all -/

/-- A table with one entry, a set of two tags. -/
def tagged (x y : Datum) : Datum := map [(text "tags", set [x, y])]

/-- A table with one key, the set of two numbers. -/
def numbered (m n : Int) : Datum := map [(frozenSet [int m, int n], int 1)]

end FeatureAtlas.Datum
