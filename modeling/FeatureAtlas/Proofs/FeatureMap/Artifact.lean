import FeatureAtlas.FeatureMap.Basic
import FeatureAtlas.Proofs.Json.Printing
import Mathlib.Data.List.Basic
import Mathlib.Data.Option.Basic

/-!
# The written map loses nothing

The written form of a map is a value of strings, arrays and objects, so its text is read back. And the map
can be told from its written form. The one place where something is left out is an absent optional field of a
record. As the fields of a record have different keys, the keys that are there say which were present, so a
record is known by its written form; tables and lists are written entry by entry.
-/

namespace FeatureAtlas

open Function (Injective)

/-! ## Records with optional fields -/

namespace Json

theorem mem_keys_of_mem_present {fields : List (String × Option Json)} {k : String} {v : Json}
    (h : (k, v) ∈ fields.filterMap fun (k, v) ↦ v.map fun j ↦ (k, j)) : k ∈ fields.map Prod.fst := by
  obtain ⟨⟨key, value⟩, hmem, hentry⟩ := List.mem_filterMap.mp h
  obtain ⟨j, -, hentry⟩ := Option.map_eq_some_iff.mp hentry
  obtain ⟨rfl, -⟩ := Prod.mk.inj hentry
  exact List.mem_map.mpr ⟨_, hmem, rfl⟩

theorem filterMap_present_inj {fs gs : List (String × Option Json)}
    (hkeys : fs.map Prod.fst = gs.map Prod.fst) (hnodup : (fs.map Prod.fst).Nodup)
    (h : (fs.filterMap fun (k, v) ↦ v.map fun j ↦ (k, j))
      = gs.filterMap fun (k, v) ↦ v.map fun j ↦ (k, j)) : fs = gs := by
  induction fs generalizing gs with
  | nil => exact (List.map_eq_nil_iff.mp hkeys.symm).symm
  | cons f fs ih =>
    obtain ⟨g, gs, rfl⟩ := List.exists_cons_of_ne_nil fun hnil : gs = [] ↦ by
      rw [hnil] at hkeys
      cases hkeys
    obtain ⟨k, v⟩ := f
    obtain ⟨k', w⟩ := g
    rw [List.map_cons, List.map_cons, List.cons.injEq] at hkeys
    obtain ⟨hk, hkeys⟩ := hkeys
    obtain rfl : k = k' := hk
    rw [List.map_cons, List.nodup_cons] at hnodup
    obtain ⟨hnew, hnodup⟩ := hnodup
    cases v with
    | none =>
      cases w with
      | none => exact congrArg _ (ih hkeys hnodup h)
      | some b =>
        -- a present field on one side would have to be a later field of the other
        have hmem : (k, b) ∈ fs.filterMap fun (k, v) ↦ v.map fun j ↦ (k, j) :=
          h ▸ List.mem_cons_self
        exact absurd (mem_keys_of_mem_present hmem) hnew
    | some a =>
      cases w with
      | none =>
        have hmem : (k, a) ∈ gs.filterMap fun (k, v) ↦ v.map fun j ↦ (k, j) :=
          h ▸ List.mem_cons_self
        exact absurd (hkeys ▸ mem_keys_of_mem_present hmem) hnew
      | some b =>
        obtain ⟨hhead, hrest⟩ := List.cons.inj h
        rw [(Prod.mk.inj hhead).2, ih hkeys hnodup hrest]

/-- Records with the same keys, each different, are known by their written form. -/
theorem present_inj {fs gs : List (String × Option Json)} (h : present fs = present gs)
    (hkeys : fs.map Prod.fst = gs.map Prod.fst) (hnodup : (fs.map Prod.fst).Nodup) : fs = gs :=
  filterMap_present_inj hkeys hnodup (Json.obj.inj h)

/-- A field is textual if its value is, where it is present. -/
def TextualField (v : Option Json) : Prop := ∀ j ∈ v, j.Textual

@[simp] theorem textualField_some {j : Json} : TextualField (some j) ↔ j.Textual := by
  simp [TextualField]

@[simp] theorem textualField_map {α : Type} {f : α → Json} {x : Option α} :
    TextualField (x.map f) ↔ ∀ a ∈ x, (f a).Textual := by
  simp [TextualField]

theorem textual_present {fields : List (String × Option Json)} (hkeys : (fields.map Prod.fst).Nodup)
    (h : ∀ f ∈ fields, TextualField f.2) : (present fields).Textual := by
  refine .obj ?_ fun e he ↦ ?_
  · have hsub : ((fields.filterMap fun (k, v) ↦ v.map fun j ↦ (k, j)).map Prod.fst).Sublist
        (fields.map Prod.fst) := by
      clear hkeys h
      induction fields with
      | nil => exact .slnil
      | cons f fields ih =>
        obtain ⟨k, v⟩ := f
        cases v with
        | none => exact ih.cons k
        | some j => exact ih.cons_cons k
    exact hkeys.sublist hsub
  · obtain ⟨f, hf, hentry⟩ := List.mem_filterMap.mp he
    obtain ⟨v, hv, rfl⟩ := Option.map_eq_some_iff.mp hentry
    exact h f hf v hv

/-! ## Parts of records -/

@[simp] theorem textual_str (s : String) : (Json.str s).Textual := .str s

@[simp] theorem textual_arr {xs : List Json} : (Json.arr xs).Textual ↔ ∀ x ∈ xs, x.Textual :=
  ⟨fun | .arr h => h, .arr⟩

@[simp] theorem textual_strings (xs : List String) : (strings xs).Textual := by
  simp [strings]

@[simp] theorem textualField_optional (s : Option String) : TextualField (Json.optional s) := by
  simp [Json.optional]

@[simp] theorem strings_inj {xs ys : List String} : strings xs = strings ys ↔ xs = ys := by
  rw [strings, strings, arr.injEq]
  exact (List.map_injective_iff.mpr fun _ _ h ↦ str.inj h).eq_iff

@[simp] theorem optional_inj {s t : Option String} : Json.optional s = Json.optional t ↔ s = t :=
  (Option.map_injective fun _ _ h ↦ str.inj h).eq_iff

theorem arr_map_injective {α : Type} {f : α → Json} (hf : Injective f) :
    Injective fun xs : List α ↦ Json.arr (xs.map f) :=
  fun _ _ h ↦ List.map_injective_iff.mpr hf (arr.inj h)

theorem map_values_injective {α : Type} {f : α → Json} (hf : Injective f) :
    Injective fun t : Table α ↦ t.map fun (k, v) ↦ (k, f v) := by
  refine List.map_injective_iff.mpr ?_
  rintro ⟨k, v⟩ ⟨k', v'⟩ h
  obtain ⟨rfl, hv⟩ := Prod.mk.inj h
  rw [hf hv]

theorem textual_table {α : Type} {f : α → Json} (hf : ∀ v, (f v).Textual) {t : Table α}
    (h : t.NodupKeys) : (Json.obj (t.map fun (k, v) ↦ (k, f v))).Textual := by
  refine .obj ?_ fun e he ↦ ?_
  · rw [Table.NodupKeys, List.map_map]
    exact h
  · obtain ⟨⟨k, v⟩, -, rfl⟩ := List.mem_map.mp he
    exact hf v

end Json

open Json (present_inj textual_present)

theorem ActionKind.text_injective : Injective ActionKind.text := by
  intro k k'
  cases k <;> cases k' <;> decide

theorem TypeKind.text_injective : Injective TypeKind.text := by
  intro k k'
  cases k <;> cases k' <;> decide

theorem UtilityKind.text_injective : Injective UtilityKind.text := by
  intro k k'
  cases k <;> cases k' <;> decide

/-! ## Entries -/

theorem ScreenEntry.toJson_injective : Injective ScreenEntry.toJson := by
  rintro ⟨⟩ ⟨⟩ h
  simpa using present_inj h rfl (by simp)

theorem ComponentEntry.toJson_injective : Injective ComponentEntry.toJson := by
  rintro ⟨⟩ ⟨⟩ h
  simpa using present_inj h rfl (by simp)

theorem ActionEntry.toJson_injective : Injective ActionEntry.toJson := by
  have hkind : Injective fun k : Option ActionKind ↦ k.map fun k ↦ Json.str k.text :=
    Option.map_injective fun _ _ h ↦ ActionKind.text_injective (Json.str.inj h)
  rintro ⟨⟩ ⟨⟩ h
  simpa [hkind.eq_iff] using present_inj h rfl (by simp)

theorem ModuleEntry.toJson_injective : Injective ModuleEntry.toJson := by
  rintro ⟨⟩ ⟨⟩ h
  simpa using present_inj h rfl (by simp)

theorem TableEntry.toJson_injective : Injective TableEntry.toJson := by
  rintro ⟨⟩ ⟨⟩ h
  simpa using present_inj h rfl (by simp)

theorem ScreenEntry.textual_toJson (e : ScreenEntry) : e.toJson.Textual :=
  textual_present (by simp) (by simp)

theorem ComponentEntry.textual_toJson (e : ComponentEntry) : e.toJson.Textual :=
  textual_present (by simp) (by simp)

theorem ActionEntry.textual_toJson (e : ActionEntry) : e.toJson.Textual :=
  textual_present (by simp) (by simp)

theorem ModuleEntry.textual_toJson (e : ModuleEntry) : e.toJson.Textual :=
  textual_present (by simp) (by simp)

theorem TableEntry.textual_toJson (e : TableEntry) : e.toJson.Textual :=
  textual_present (by simp) (by simp)

/-! ## Types and utilities -/

theorem TypeField.toJson_injective : Injective TypeField.toJson := by
  rintro ⟨⟩ ⟨⟩ h
  simpa using present_inj h rfl (by simp)

theorem Parameter.toJson_injective : Injective Parameter.toJson := by
  rintro ⟨⟩ ⟨⟩ h
  simpa [toJson] using h

theorem ExportedType.toJson_injective : Injective ExportedType.toJson := by
  have hfields : Injective fun fs : Option (List TypeField) ↦
      fs.map fun fs ↦ Json.arr (fs.map TypeField.toJson) :=
    Option.map_injective (Json.arr_map_injective TypeField.toJson_injective)
  have hvalues : Injective fun vs : Option (List String) ↦ vs.map Json.strings :=
    Option.map_injective fun _ _ h ↦ Json.strings_inj.mp h
  rintro ⟨⟩ ⟨⟩ h
  simpa [hfields.eq_iff, hvalues.eq_iff, TypeKind.text_injective.eq_iff]
    using present_inj h rfl (by simp)

theorem Utility.toJson_injective : Injective Utility.toJson := by
  have hparams : Injective fun ps : Option (List Parameter) ↦
      ps.map fun ps ↦ Json.arr (ps.map Parameter.toJson) :=
    Option.map_injective (Json.arr_map_injective Parameter.toJson_injective)
  rintro ⟨⟩ ⟨⟩ h
  simpa [hparams.eq_iff, UtilityKind.text_injective.eq_iff] using present_inj h rfl (by simp)

theorem TypeField.textual_toJson (f : TypeField) : f.toJson.Textual :=
  textual_present (by simp) (by simp)

theorem Parameter.textual_toJson (p : Parameter) : p.toJson.Textual :=
  .obj (by simp [Table.NodupKeys]) (by simp)

theorem ExportedType.textual_toJson (t : ExportedType) : t.toJson.Textual :=
  textual_present (by simp) (by simp [TypeField.textual_toJson])

theorem Utility.textual_toJson (u : Utility) : u.toJson.Textual :=
  textual_present (by simp) (by simp [Parameter.textual_toJson])

/-! ## Maps -/

theorem FeatureGroup.toJson_injective : Injective FeatureGroup.toJson := by
  rintro ⟨⟩ ⟨⟩ h
  simpa [toJson, (List.map_injective_iff.mpr ScreenEntry.toJson_injective).eq_iff,
    (List.map_injective_iff.mpr ComponentEntry.toJson_injective).eq_iff,
    (List.map_injective_iff.mpr ActionEntry.toJson_injective).eq_iff,
    (List.map_injective_iff.mpr ModuleEntry.toJson_injective).eq_iff,
    (List.map_injective_iff.mpr TableEntry.toJson_injective).eq_iff] using h

theorem FeatureGroup.textual_toJson (g : FeatureGroup) : g.toJson.Textual := by
  refine .obj (by simp [Table.NodupKeys]) ?_
  simp [ScreenEntry.textual_toJson, ComponentEntry.textual_toJson, ActionEntry.textual_toJson,
    ModuleEntry.textual_toJson, TableEntry.textual_toJson]

namespace FeatureMap

/-- Each table of a map has each key once. -/
structure Keyed (m : FeatureMap) : Prop where
  features : m.features.NodupKeys
  moduleDescriptions : m.moduleDescriptions.NodupKeys
  moduleTypes : m.moduleTypes.NodupKeys
  moduleUtilities : m.moduleUtilities.NodupKeys

/-- The map can be told from its written form. -/
theorem toJson_injective : Injective toJson := by
  rintro ⟨⟩ ⟨⟩ h
  simpa [toJson, (Json.map_values_injective FeatureGroup.toJson_injective).eq_iff,
    FeatureGroup.toJson_injective.eq_iff,
    (Json.map_values_injective fun _ _ h ↦ Json.str.inj h).eq_iff,
    (Json.map_values_injective (Json.arr_map_injective ExportedType.toJson_injective)).eq_iff,
    (Json.map_values_injective (Json.arr_map_injective Utility.toJson_injective)).eq_iff] using h

theorem Keyed.textual_toJson {m : FeatureMap} (h : m.Keyed) : m.toJson.Textual := by
  have htypes : ∀ ts : List ExportedType, (Json.arr (ts.map ExportedType.toJson)).Textual := by
    simp [ExportedType.textual_toJson]
  have hutilities : ∀ us : List Utility, (Json.arr (us.map Utility.toJson)).Textual := by
    simp [Utility.textual_toJson]
  refine .obj (by simp [Table.NodupKeys]) ?_
  simp [FeatureGroup.textual_toJson, Json.textual_table FeatureGroup.textual_toJson h.features,
    Json.textual_table Json.textual_str h.moduleDescriptions,
    Json.textual_table htypes h.moduleTypes, Json.textual_table hutilities h.moduleUtilities]

/-- **The written map loses nothing.** The text of every map is read as exactly its written form, fields in
their order, and maps with the same text are the same. So an absent optional field, an empty text and an
empty list are told apart wherever they stand. -/
theorem read_render {m : FeatureMap} (h : m.Keyed) :
    Json.read m.render = .ok m.toJson ∧ ∀ m' : FeatureMap, m'.Keyed → m'.render = m.render → m' = m := by
  have hread : ∀ m : FeatureMap, m.Keyed → Json.read m.render = .ok m.toJson :=
    fun m hm ↦ Json.read_indented hm.textual_toJson 2
  refine ⟨hread m h, fun m' h' htext ↦ toJson_injective ?_⟩
  have hsame := hread m' h'
  rw [htext, hread m h] at hsame
  exact (Except.ok.inj hsame).symm

/-- A screen without a description and one with an empty one, an enumeration without values and one with
none: the texts are read back, and differ. -/
theorem read_render_optionals :
    let m (description : Option String) (values : Option (List String)) : FeatureMap := {
      features := [("Überblick \"A\"", { screens := [{
        name := "Home", path := "app\\page.tsx", route := none, description, usedComponents := []
        usedActions := ["open\n"], app := "web" }] })]
      uncategorized := {}, moduleDescriptions := [("auth", "")]
      moduleTypes := [("auth", [{ name := "Role", kind := .enumeration, values }])], moduleUtilities := []
      apps := ["web"], generatedAt := "2026-03-01T11:30:00.000Z" }
    (∀ description values, (m description values).Keyed) ∧
    Json.read (m none none).render = .ok (m none none).toJson ∧
    (m (some "") none).render ≠ (m none none).render ∧
    (m none (some [])).render ≠ (m none none).render := by
  intro m
  have hkeyed : ∀ description values, (m description values).Keyed := fun _ _ ↦
    ⟨List.pairwise_singleton _ _, List.pairwise_singleton _ _, List.pairwise_singleton _ _, List.nodup_nil⟩
  obtain ⟨hread, hsame⟩ := read_render (hkeyed none none)
  refine ⟨hkeyed, hread, fun h ↦ ?_, fun h ↦ ?_⟩
  · have hm := hsame _ (hkeyed _ _) h
    simp [m] at hm
  · have hm := hsame _ (hkeyed _ _) h
    simp [m] at hm

end FeatureMap

end FeatureAtlas
