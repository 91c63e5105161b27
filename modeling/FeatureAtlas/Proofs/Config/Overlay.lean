import FeatureAtlas.Proofs.Config.Mapping
import FeatureAtlas.Proofs.Except

/-!
# What merging leaves

Merging is described place by place. At a place that the overlay does not have, the base stays; where the
overlay has a value that is no mapping, that value is copied; and where it has a mapping, the same holds one
level below. The order in which entries are set plays no part: sorting permutes the entries, and no text key
stands twice.
-/

namespace FeatureAtlas

/-! ## Sorting -/

namespace KeyOrder

variable {α : Type}

private theorem insertAll_perm {sorted rest out : List (SettingKey × α)}
    (h : insertAll sorted rest = .ok out) : out.Perm (sorted ++ rest) := by
  induction rest generalizing sorted with
  | nil =>
    obtain rfl := Except.ok.inj h
    rw [List.append_nil]
  | cons e rest ih =>
    obtain ⟨place, -, h⟩ := bind_eq_ok.mp h
    have hplace : (sorted.take place ++ e :: sorted.drop place).Perm (e :: sorted) := by
      refine List.perm_middle.trans ?_
      rw [List.take_append_drop]
    exact (ih h).trans ((hplace.append_right rest).trans List.perm_middle.symm)

private theorem sortMixed_perm {entries sorted : List (SettingKey × α)}
    (h : sortMixed entries = .ok sorted) : sorted.Perm entries := by
  match entries with
  | [] => rw [Except.ok.inj h]
  | [e] => rw [← Except.ok.inj h]
  | e :: f :: rest =>
    obtain ⟨descending, -, h⟩ := bind_eq_ok.mp h
    obtain ⟨n, -, h⟩ := bind_eq_ok.mp h
    refine (insertAll_perm h).trans ?_
    have hrun : (if descending then (e :: f :: rest.take n).reverse else e :: f :: rest.take n).Perm
        (e :: f :: rest.take n) := by
      split
      · exact List.reverse_perm _
      · exact List.Perm.refl _
    have hsplit := hrun.append_right (rest.drop n)
    rwa [List.cons_append, List.cons_append, List.take_append_drop] at hsplit

theorem sort_perm {entries sorted : List (SettingKey × α)} (h : sort entries = .ok sorted) :
    sorted.Perm entries := by
  rw [sort] at h
  split at h
  · next fields hfields =>
    rw [Setting.textEntries?_eq_some.mp hfields, ← Except.ok.inj h]
    exact (Table.sortKeys_perm _).map _
  · exact sortMixed_perm h

end KeyOrder

namespace Setting

/-! ## Copies -/

theorem find?_copyEntries (es : List (SettingKey × Setting)) (s : String) :
    find? (.text s) (copyEntries es) = (find? (.text s) es).map copy := by
  induction es with
  | nil => rfl
  | cons e es ih =>
    obtain ⟨k, v⟩ := e
    rw [find?_cons]
    cases k with
    | text t =>
      rw [copyEntries, find?_cons, ih]
      split <;> rfl
    | _ =>
      rw [if_neg nofun, ← ih]
      rfl

theorem field?_copy (s : String) (v : Setting) : (copy v).field? s = (v.field? s).map copy := by
  cases v with
  | map es =>
    rw [copy, field?, field?]
    exact find?_copyEntries es s
  | _ => rfl

theorem find?_entriesOf (existing : Option Setting) (s : String) :
    find? (.text s) (entriesOf existing) = existing.bind (field? s) := by
  cases existing with
  | none => rfl
  | some v => cases v <;> rfl

/-! ## Setting entries -/

theorem overlayEntries_eq_map (target es : List (SettingKey × Setting)) :
    overlayEntries target es = es.map fun e ↦ (e.1, overlay (find? e.1 target) e.2) := by
  induction es with
  | nil => rfl
  | cons e es ih => rw [overlayEntries, List.map_cons, ih]

theorem find?_insertEach_of_not_mem {l : List (SettingKey × Except KeyOrderError Setting)}
    {target out : List (SettingKey × Setting)} (h : insertEach l target = .ok out) {s : String}
    (hs : s ∉ textKeys l) : find? (.text s) out = find? (.text s) target := by
  induction l generalizing target with
  | nil => rw [Except.ok.inj h]
  | cons e l ih =>
    obtain ⟨k, r⟩ := e
    obtain ⟨v, -, h⟩ := bind_eq_ok.mp h
    rw [mem_textKeys] at hs
    have hk : k ≠ .text s := by
      rintro rfl
      exact hs ⟨r, List.mem_cons_self⟩
    have hl : s ∉ textKeys l := by
      rw [mem_textKeys]
      rintro ⟨r', hmem⟩
      exact hs ⟨r', List.mem_cons_of_mem _ hmem⟩
    rw [ih h hl, find?_insert, if_neg hk]

theorem find?_insertEach_of_mem {l : List (SettingKey × Except KeyOrderError Setting)}
    {target out : List (SettingKey × Setting)} (h : insertEach l target = .ok out) (hl : OneEach l)
    {s : String} {r : Except KeyOrderError Setting} (hmem : (.text s, r) ∈ l) :
    ∃ v, r = .ok v ∧ find? (.text s) out = some v := by
  induction l generalizing target with
  | nil => cases hmem
  | cons e l ih =>
    obtain ⟨k, r'⟩ := e
    obtain ⟨v, hv, hinsert⟩ := bind_eq_ok.mp h
    obtain ⟨hk, hrest⟩ := oneEach_cons.mp hl
    rcases List.mem_cons.mp hmem with heq | hmem
    · obtain ⟨rfl, rfl⟩ := Prod.mk.inj heq
      -- the key does not come again
      refine ⟨v, hv, ?_⟩
      rw [find?_insertEach_of_not_mem hinsert (hk s rfl), find?_insert, if_pos rfl]
    · exact ih hinsert hrest hmem

theorem oneEach_insertEach {l : List (SettingKey × Except KeyOrderError Setting)}
    {target out : List (SettingKey × Setting)} (h : insertEach l target = .ok out)
    (ht : OneEach target) : OneEach out := by
  induction l generalizing target with
  | nil => rwa [← Except.ok.inj h]
  | cons e l ih =>
    obtain ⟨v, -, h⟩ := bind_eq_ok.mp h
    exact ih h (ht.insert e.1 v)

/-! ## Overlays -/

/-- What is left where a change meets an existing value. -/
def Overlaid (existing : Option Setting) : Option Setting → Option Setting → Prop
  | none, result => result = existing
  | some change, result => ∃ r, overlay existing change = .ok r ∧ result = some r

theorem overlay_map_eq_ok {existing : Option Setting} {es : List (SettingKey × Setting)}
    {m : Setting} (h : overlay existing (map es) = .ok m) :
    ∃ merged out, KeyOrder.sort (overlayEntries (entriesOf existing) es) = .ok merged ∧
      insertEach merged (entriesOf existing) = .ok out ∧ m = map out := by
  rw [overlay] at h
  obtain ⟨merged, hmerged, h⟩ := bind_eq_ok.mp h
  obtain ⟨out, hout, h⟩ := bind_eq_ok.mp h
  exact ⟨merged, out, hmerged, hout, (Except.ok.inj h).symm⟩

theorem exists_map_of_overlay {existing : Option Setting} {es : List (SettingKey × Setting)}
    {m : Setting} (h : overlay existing (map es) = .ok m) : ∃ out, m = map out := by
  obtain ⟨-, out, -, -, hm⟩ := overlay_map_eq_ok h
  exact ⟨out, hm⟩

/-- **The place below.** Overlaying with a mapping overlays at each of its text keys. -/
theorem overlaid_field? {existing : Option Setting} {es : List (SettingKey × Setting)}
    {m : Setting} (h : overlay existing (map es) = .ok m) (hes : OneEach es) (s : String) :
    Overlaid (existing.bind (field? s)) (find? (.text s) es) (m.field? s) := by
  obtain ⟨merged, out, hmerged, hout, rfl⟩ := overlay_map_eq_ok h
  have hperm := KeyOrder.sort_perm hmerged
  have hkeys : textKeys (overlayEntries (entriesOf existing) es) = textKeys es := by
    rw [overlayEntries_eq_map, textKeys_map]
  rw [← find?_entriesOf]
  cases hs : find? (.text s) es with
  | none =>
    refine find?_insertEach_of_not_mem hout ?_
    rw [textKeys, (hperm.filterMap _).mem_iff, ← textKeys, hkeys, ← isSome_find?, hs]
    simp
  | some v =>
    have hone : OneEach merged := OneEach.perm (by rwa [OneEach, hkeys]) hperm
    refine find?_insertEach_of_mem hout hone (hperm.mem_iff.mpr ?_)
    rw [overlayEntries_eq_map]
    exact List.mem_map_of_mem (f := fun e ↦ (e.1, overlay (find? e.1 _) e.2)) (mem_of_find? hs)

theorem Overlaid.field? {existing change result : Option Setting}
    (h : Overlaid existing change result)
    (hchange : ∀ v, change = some v → ∃ es, v = map es ∧ OneEach es) (s : String) :
    Overlaid (existing.bind (field? s)) (change.bind (field? s)) (result.bind (field? s)) := by
  cases change with
  | none => exact congrArg (Option.bind · (Setting.field? s)) h
  | some v =>
    obtain ⟨es, rfl, hes⟩ := hchange v rfl
    obtain ⟨r, hr, rfl⟩ := h
    exact overlaid_field? hr hes s

/-! ## Merging -/

theorem merge_eq_ok {base changes : List (SettingKey × Setting)} {m : Setting}
    (h : merge base changes = .ok m) :
    ∃ sorted : List (SettingKey × Setting), sorted.Perm base ∧
      overlay (some (map (sorted.map fun e ↦ (e.1, copy e.2)))) (map changes) = .ok m := by
  obtain ⟨sorted, hsorted, h⟩ := bind_eq_ok.mp h
  exact ⟨sorted, KeyOrder.sort_perm hsorted, h⟩

theorem overlaid_merge {base changes : List (SettingKey × Setting)} {m : Setting}
    (h : merge base changes = .ok m) (hbase : OneEach base) (hchanges : OneEach changes)
    (s : String) :
    Overlaid ((find? (.text s) base).map copy) (find? (.text s) changes) (m.field? s) := by
  obtain ⟨sorted, hsorted, h⟩ := merge_eq_ok h
  have hoverlaid := overlaid_field? h hchanges s
  rwa [Option.bind_some, Setting.field?, find?_map, find?_perm hbase hsorted] at hoverlaid

theorem oneEach_merge {base changes : List (SettingKey × Setting)} {m : Setting}
    (h : merge base changes = .ok m) (hbase : OneEach base) : ∃ out, m = map out ∧ OneEach out := by
  obtain ⟨sorted, hsorted, h⟩ := merge_eq_ok h
  obtain ⟨merged, out, -, hout, rfl⟩ := overlay_map_eq_ok h
  refine ⟨out, rfl, oneEach_insertEach hout ?_⟩
  rw [entriesOf, Option.bind_some, entries?, Option.getD_some, OneEach, textKeys_map]
  exact hbase.perm hsorted

end Setting

end FeatureAtlas
