import FeatureAtlas.Extraction.Basic
import FeatureAtlas.Item.Basic
import FeatureAtlas.Proofs.Distinct
import Mathlib.Algebra.GroupWithZero.Nat

/-!
# Extracted relationship lists

Every relationship list of an extracted item comes from one comma-separated tag, of the item's own block
or of the file's header, so no entry stands in it twice.
-/

/-!
## Relationship lists as a whole

An item has ten relationship lists. What is said of them here is said of all at once: none repeats an
entry, and together they have a number of entries.
-/

namespace FeatureAtlas

theorem Relation.mem_all (r : Relation) : r ∈ Relation.all := by
  cases r <;> decide

namespace Links

/-- No list has an entry twice. -/
def Nodup (l : Links) : Prop := ∀ r, (l.get r).Nodup

instance (l : Links) : Decidable l.Nodup :=
  decidable_of_iff (∀ r ∈ Relation.all, (l.get r).Nodup)
    ⟨fun h r ↦ h r r.mem_all, fun h r _ ↦ h r⟩

/-- The number of entries of all lists. -/
def size (l : Links) : Nat := (Relation.all.map fun r ↦ (l.get r).length).sum

/-- Replacing one list changes the number of entries by the change of that list's length. -/
theorem size_set (l : Links) (r : Relation) (names : List String) :
    ((l.set r names).size : Int) = l.size + (names.length - (l.get r).length) := by
  cases r <;> simp only [size, Relation.all, set, get, List.map_cons, List.map_nil, List.sum_cons,
    List.sum_nil] <;> omega

end Links

/-- The number of entries of all relationship lists of all items. -/
def Item.linkCount (items : List Item) : Nat := (items.map fun item ↦ item.links.size).sum

theorem Comment.nodup_entriesOf (value : Option String) : (entriesOf value).Nodup := by
  cases value with
  | none => exact List.nodup_nil
  | some text => exact nodup_distinct _

/-- The file-level lists repeat nothing. -/
structure FileMetadata.Nodup (m : FileMetadata) : Prop where
  usedInScreens : m.usedInScreens.Nodup
  usedInComponents : m.usedInComponents.Nodup
  dbTables : m.dbTables.Nodup

theorem FileMetadata.nodup_ofHeader (header : String) : (ofHeader header).Nodup := by
  rw [ofHeader]
  split
  · exact ⟨List.nodup_nil, List.nodup_nil, List.nodup_nil⟩
  · exact ⟨Comment.nodup_entriesOf _, Comment.nodup_entriesOf _, Comment.nodup_entriesOf _⟩

namespace Extraction

open Comment (entriesOf nodup_entriesOf)

theorem nodup_orElse {xs fallback : List String} (h : xs.Nodup) (hf : fallback.Nodup) :
    (orElse xs fallback).Nodup := by
  rw [orElse]
  split
  · exact hf
  · exact h

theorem nodup_declaredLinks (kind : ItemKind) (tags : Table String) {metadata : FileMetadata}
    (h : metadata.Nodup) : (declaredLinks kind tags metadata).Nodup := by
  have hlisted := fun tag ↦ nodup_entriesOf (tags.lookup tag)
  have hfallback : ∀ {fallback : List String} (tag : String), fallback.Nodup →
      (orElse (entriesOf (tags.lookup tag)) fallback).Nodup := fun tag hf ↦
    nodup_orElse (hlisted tag) hf
  intro r
  cases kind <;> cases r <;>
    first
    | exact List.nodup_nil
    | exact hlisted _
    | exact hfallback _ h.usedInScreens
    | exact hfallback _ h.usedInComponents
    | exact hfallback _ h.dbTables

theorem nodup_of_item? {block path : String} {defaultName : Option String}
    {metadata : FileMetadata} (h : metadata.Nodup) {item : Item}
    (hitem : item? block path defaultName metadata = some item) : item.links.Nodup := by
  simp only [item?, Option.bind_eq_bind, Option.bind_eq_some_iff, Option.pure_def,
    Option.some.injEq, Prod.exists] at hitem
  obtain ⟨kind, -, -, -, -, rfl⟩ := hitem
  exact nodup_declaredLinks kind _ h

theorem nodup_of_detectedComponent? {source path : String} {header : Option Comment.Block}
    {metadata : FileMetadata} (h : metadata.Nodup) {item : Item}
    (hitem : detectedComponent? source path header metadata = some item) : item.links.Nodup := by
  rw [detectedComponent?] at hitem
  split at hitem
  · obtain ⟨name, -, rfl⟩ := Option.map_eq_some_iff.mp hitem
    intro r
    cases header with
    | none => cases r <;> exact List.nodup_nil
    | some block =>
      cases r <;> first | exact List.nodup_nil | exact nodup_entriesOf _ | exact h.usedInScreens
  · cases hitem

theorem nodup_of_headerItem? {source path : String} {header : Option Comment.Block}
    {metadata : FileMetadata} (h : metadata.Nodup) {item : Item}
    (hitem : headerItem? source path header metadata = some item) : item.links.Nodup := by
  unfold headerItem? at hitem
  cases header with
  | none => exact nodup_of_detectedComponent? h hitem
  | some block =>
    dsimp only at hitem
    split at hitem
    · exact nodup_of_item? h hitem
    · exact nodup_of_detectedComponent? h hitem

/-- **Extraction declares ordered sets.** -/
theorem nodup_links_of_mem_items {source path : String} {item : Item}
    (h : item ∈ (ofSource source path).items) : item.links.Nodup := by
  have hmetadata := FileMetadata.nodup_ofHeader
    (String.ofList (source.toList.take (Comment.codeStart source)))
  rcases List.mem_append.mp h with h | h
  · exact nodup_of_headerItem? hmetadata (Option.mem_toList.mp h)
  · obtain ⟨block, -, hitem⟩ := List.mem_filterMap.mp h
    exact nodup_of_item? hmetadata hitem

end Extraction

end FeatureAtlas
