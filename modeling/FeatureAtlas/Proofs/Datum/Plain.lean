import FeatureAtlas.Datum.Plain
import FeatureAtlas.Proofs.Json.Printing
import FeatureAtlas.Proofs.Time.Timestamp

/-!
# Plain forms

A datum has a plain form exactly if each moment in it stays in the calendar when it is taken to UTC. The form
is plain JSON, and JSON that is plain is its own form, so taking it again changes nothing. Everything is said
about the *parts* of a datum: itself and what it holds, but not the keys of its tables, of which only the text
matters.
-/

namespace FeatureAtlas.Datum

/-! ## Parts -/

/-- What a datum holds, apart from keys. -/
def children : Datum → List Datum
  | list xs | tuple xs | set xs | frozenSet xs => xs
  | map entries => entries.map Prod.snd
  | _ => []

mutual

/-- A datum and everything that it holds at any depth, apart from keys. -/
def parts : Datum → List Datum
  | list xs => list xs :: partsOfItems xs
  | tuple xs => tuple xs :: partsOfItems xs
  | set xs => set xs :: partsOfItems xs
  | frozenSet xs => frozenSet xs :: partsOfItems xs
  | map entries => map entries :: partsOfEntries entries
  | d => [d]

/-- The parts of elements. -/
def partsOfItems : List Datum → List Datum
  | [] => []
  | x :: rest => parts x ++ partsOfItems rest

/-- The parts of the values of entries. -/
def partsOfEntries : List (Datum × Datum) → List Datum
  | [] => []
  | (_, v) :: rest => parts v ++ partsOfEntries rest

end

theorem partsOfItems_eq (xs : List Datum) : partsOfItems xs = xs.flatMap parts := by
  induction xs with
  | nil => rfl
  | cons x rest ih => rw [partsOfItems, ih, List.flatMap_cons]

theorem partsOfEntries_eq (entries : List (Datum × Datum)) :
    partsOfEntries entries = (entries.map Prod.snd).flatMap parts := by
  induction entries with
  | nil => rfl
  | cons e rest ih => rw [partsOfEntries, ih, List.map_cons, List.flatMap_cons]

theorem parts_eq (d : Datum) : d.parts = d :: d.children.flatMap parts := by
  cases d with
  | list xs | tuple xs | set xs | frozenSet xs => rw [parts, partsOfItems_eq, children]
  | map entries => rw [parts, partsOfEntries_eq, children]
  | _ => rfl

theorem mem_parts_self (d : Datum) : d ∈ d.parts := by
  rw [parts_eq]
  exact List.mem_cons_self

theorem mem_parts_of_child {d x y : Datum} (hx : x ∈ d.children) (hy : y ∈ x.parts) : y ∈ d.parts := by
  rw [parts_eq]
  exact List.mem_cons_of_mem d (List.mem_flatMap.mpr ⟨x, hx, hy⟩)

theorem sizeOf_lt_of_mem_children {d x : Datum} (h : x ∈ d.children) : sizeOf x < sizeOf d := by
  cases d with
  | list xs | tuple xs | set xs | frozenSet xs =>
    have hx : x ∈ xs := h
    have hlt := List.sizeOf_lt_of_mem hx
    simp only [list.sizeOf_spec, tuple.sizeOf_spec, set.sizeOf_spec, frozenSet.sizeOf_spec]
    omega
  | map entries =>
    obtain ⟨⟨k, v⟩, he, rfl⟩ := List.mem_map.mp h
    have hlt := List.sizeOf_lt_of_mem he
    simp only [map.sizeOf_spec, Prod.mk.sizeOf_spec] at hlt ⊢
    omega
  | _ => cases h

/-- What holds of a datum if it holds of its children holds of all data. -/
theorem forall_of_children {P : Datum → Prop} (step : ∀ d, (∀ x ∈ d.children, P x) → P d) (d : Datum) :
    P d :=
  step d fun x _ ↦ forall_of_children step x
termination_by sizeOf d
decreasing_by exact sizeOf_lt_of_mem_children ‹_›

/-- Every double is one that the format holds, and every moment is one of the calendar. -/
structure WellFormed (d : Datum) : Prop where
  isCanonical : ∀ x, float x ∈ d.parts → x.IsCanonical
  ofCalendar : ∀ t, moment t ∈ d.parts → t.OfCalendar

theorem WellFormed.child {d x : Datum} (h : d.WellFormed) (hx : x ∈ d.children) : x.WellFormed where
  isCanonical b hb := h.isCanonical b (mem_parts_of_child hx hb)
  ofCalendar t ht := h.ofCalendar t (mem_parts_of_child hx ht)

theorem wellFormed_map {entries : List (Datum × Datum)} (h : ∀ e ∈ entries, e.2.WellFormed) :
    (map entries).WellFormed := by
  have hpart : ∀ x, x ∈ (Datum.map entries).parts → x = .map entries ∨ ∃ e ∈ entries, x ∈ e.2.parts := by
    intro x hx
    rw [parts_eq, List.mem_cons, List.mem_flatMap] at hx
    refine hx.imp_right fun ⟨v, hv, hxv⟩ ↦ ?_
    obtain ⟨e, he, rfl⟩ := List.mem_map.mp hv
    exact ⟨e, he, hxv⟩
  constructor
  · intro x hx
    obtain hmap | ⟨e, he, hxe⟩ := hpart _ hx
    · cases hmap
    · exact (h e he).isCanonical x hxe
  · intro t ht
    obtain hmap | ⟨e, he, hte⟩ := hpart _ ht
    · cases hmap
    · exact (h e he).ofCalendar t hte

/-! ## Forms of elements and entries -/

section

variable {xs : List Datum} {ys : List Json} {entries : List (Datum × Datum)}
  {fields : List (String × Json)}

theorem plainItems?_cons_eq_some {x : Datum} :
    plainItems? (x :: xs) = some ys ↔
      ∃ j js, x.plain? = some j ∧ plainItems? xs = some js ∧ ys = j :: js := by
  rw [plainItems?]
  cases x.plain? <;> cases plainItems? xs <;> simp [eq_comm]

theorem plainEntries?_cons_eq_some {k v : Datum} :
    plainEntries? ((k, v) :: entries) = some fields ↔
      ∃ j js, v.plain? = some j ∧ plainEntries? entries = some js ∧ fields = (k.shown, j) :: js := by
  rw [plainEntries?]
  cases v.plain? <;> cases plainEntries? entries <;> simp [eq_comm]

theorem isSome_plainItems? : (plainItems? xs).isSome = true ↔ ∀ x ∈ xs, x.plain?.isSome = true := by
  induction xs with
  | nil => simp [plainItems?]
  | cons x rest ih =>
    rw [List.forall_mem_cons, ← ih, plainItems?]
    cases x.plain? <;> cases plainItems? rest <;> simp

theorem isSome_plainEntries? :
    (plainEntries? entries).isSome = true ↔ ∀ v ∈ entries.map Prod.snd, v.plain?.isSome = true := by
  induction entries with
  | nil => simp [plainEntries?]
  | cons e rest ih =>
    obtain ⟨k, v⟩ := e
    rw [List.map_cons, List.forall_mem_cons, ← ih, plainEntries?]
    cases v.plain? <;> cases plainEntries? rest <;> simp

theorem exists_of_mem_plainItems? (h : plainItems? xs = some ys) {y : Json} (hy : y ∈ ys) :
    ∃ x ∈ xs, x.plain? = some y := by
  induction xs generalizing ys with
  | nil =>
    cases h
    cases hy
  | cons x rest ih =>
    obtain ⟨j, js, hj, hjs, rfl⟩ := plainItems?_cons_eq_some.mp h
    rcases List.mem_cons.mp hy with rfl | hrest
    · exact ⟨x, List.mem_cons_self, hj⟩
    · obtain ⟨x', hx', heq⟩ := ih hjs hrest
      exact ⟨x', List.mem_cons_of_mem x hx', heq⟩

theorem exists_of_mem_plainEntries? (h : plainEntries? entries = some fields) {f : String × Json}
    (hf : f ∈ fields) : ∃ v ∈ entries.map Prod.snd, v.plain? = some f.2 := by
  induction entries generalizing fields with
  | nil =>
    cases h
    cases hf
  | cons e rest ih =>
    obtain ⟨k, v⟩ := e
    obtain ⟨j, js, hj, hjs, rfl⟩ := plainEntries?_cons_eq_some.mp h
    rcases List.mem_cons.mp hf with rfl | hrest
    · exact ⟨v, List.mem_cons_self, hj⟩
    · obtain ⟨v', hv', heq⟩ := ih hjs hrest
      exact ⟨v', List.mem_cons_of_mem v hv', heq⟩

end

theorem mem_inTextOrder {ys : List Json} {y : Json} : y ∈ inTextOrder ys ↔ y ∈ ys := List.mem_mergeSort

/-! ## Which data have a plain form -/

theorem isSome_plain?_eq (d : Datum) : d.plain?.isSome = true ↔
    (∀ t, d = moment t → t.logged?.isSome = true) ∧ ∀ x ∈ d.children, x.plain?.isSome = true := by
  cases d with
  | list xs | tuple xs | set xs | frozenSet xs => simp [plain?, children, ← isSome_plainItems?]
  | map entries =>
    simp only [plain?, children, Option.isSome_map, isSome_plainEntries?, reduceCtorEq, false_implies,
      implies_true, true_and]
  | moment t => simp [plain?, children]
  | _ => simp [plain?, children]

/-- A datum has a plain form exactly if each moment in it is written. -/
theorem isSome_plain?_iff_logged (d : Datum) :
    d.plain?.isSome = true ↔ ∀ t, moment t ∈ d.parts → t.logged?.isSome = true := by
  induction d using forall_of_children with
  | step d ih =>
    have hchildren : (∀ x ∈ d.children, x.plain?.isSome = true) ↔
        ∀ x ∈ d.children, ∀ t, moment t ∈ x.parts → t.logged?.isSome = true :=
      forall₂_congr ih
    rw [isSome_plain?_eq, hchildren, parts_eq]
    simp only [List.mem_cons, List.mem_flatMap]
    constructor
    · rintro ⟨hself, hrest⟩ t (heq | ⟨x, hx, ht⟩)
      · exact hself t heq.symm
      · exact hrest x hx t ht
    · exact fun h ↦ ⟨fun t heq ↦ h t (Or.inl heq.symm), fun x hx t ht ↦ h t (Or.inr ⟨x, hx, ht⟩)⟩

/-- A moment is written exactly if its instant is one of the calendar in UTC. -/
theorem isSome_plain?_iff {d : Datum} (hd : d.WellFormed) :
    d.plain?.isSome = true ↔
      ∀ t, moment t ∈ d.parts → ∃ u : DateTime, u.InUtc ∧ u.instant = t.instant := by
  rw [isSome_plain?_iff_logged]
  refine forall₂_congr fun t ht ↦ ?_
  rw [DateTime.logged?_eq_timestamp?, DateTime.isSome_timestamp?_iff (hd.ofCalendar t ht)]

/-! ## Plain forms are plain and their own forms -/

/-- The form of a datum is plain JSON. -/
theorem plain_of_plain? {d : Datum} (hd : d.WellFormed) {j : Json} (h : d.plain? = some j) : j.Plain := by
  induction d using forall_of_children generalizing j with
  | step d ih =>
    -- for the elements of all four collections; the values of a table come with their keys
    have hitems : ∀ {ys}, plainItems? d.children = some ys → ∀ y ∈ ys, y.Plain := by
      intro ys hys y hy
      obtain ⟨x, hx, hform⟩ := exists_of_mem_plainItems? hys hy
      exact ih x hx (hd.child hx) hform
    cases d with
    | null => cases h; exact .null
    | bool b => cases h; exact .bool b
    | int n => cases h; exact .int n
    | text s => cases h; exact .str s
    | bytes bs => cases h; exact .str _
    | day t => cases h; exact .str _
    | path p => cases h; exact .str _
    | other s => cases h; exact .str s
    | float x =>
      have hcanonical := hd.isCanonical x (mem_parts_self _)
      cases x with
      | finite negative m e =>
        cases h
        exact .float hcanonical
      | infinite negative =>
        cases h
        exact .str _
      | notANumber =>
        cases h
        exact .str _
    | moment t =>
      obtain ⟨s, -, rfl⟩ := Option.map_eq_some_iff.mp h
      exact .str s
    | list xs | tuple xs =>
      obtain ⟨ys, hys, rfl⟩ := Option.map_eq_some_iff.mp h
      exact .arr (hitems hys)
    | set xs | frozenSet xs =>
      obtain ⟨ys, hys, rfl⟩ := Option.map_eq_some_iff.mp h
      exact .arr fun y hy ↦ hitems hys y (mem_inTextOrder.mp hy)
    | map entries =>
      obtain ⟨fields, hfields, rfl⟩ := Option.map_eq_some_iff.mp h
      refine .obj (Table.nodupKeys_ofEntries fields) fun f hf ↦ ?_
      obtain ⟨v, hv, hform⟩ := exists_of_mem_plainEntries? hfields (Table.mem_of_mem_ofEntries hf)
      exact ih v hv (hd.child hv) hform

theorem plainItems?_ofItems {ys : List Json} (h : ∀ y ∈ ys, (ofJson y).plain? = some y) :
    plainItems? (ofItems ys) = some ys := by
  induction ys with
  | nil => rfl
  | cons y ys ih =>
    obtain ⟨hy, hys⟩ := List.forall_mem_cons.mp h
    rw [ofItems]
    exact plainItems?_cons_eq_some.mpr ⟨y, ys, hy, ih hys, rfl⟩

theorem plainEntries?_ofFields {fields : List (String × Json)}
    (h : ∀ f ∈ fields, (ofJson f.2).plain? = some f.2) : plainEntries? (ofFields fields) = some fields := by
  induction fields with
  | nil => rfl
  | cons f fields ih =>
    obtain ⟨hf, hfields⟩ := List.forall_mem_cons.mp h
    rw [ofFields]
    exact plainEntries?_cons_eq_some.mpr ⟨f.2, fields, hf, ih hfields, rfl⟩

/-- Plain JSON is its own form. -/
theorem plain?_ofJson {j : Json} (h : j.Plain) : (ofJson j).plain? = some j := by
  induction h with
  | null | bool b | int n | str s | float h => rfl
  | arr h ih => rw [ofJson, plain?, plainItems?_ofItems ih, Option.map_some]
  | obj hkeys h ih =>
    rw [ofJson, plain?, plainEntries?_ofFields ih, Option.map_some, Table.ofEntries_of_nodupKeys hkeys]

end FeatureAtlas.Datum
