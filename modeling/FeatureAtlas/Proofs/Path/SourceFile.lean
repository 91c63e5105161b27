import FeatureAtlas.Import.Resolution
import FeatureAtlas.Merge.Pass
import FeatureAtlas.Proofs.Text.Split

/-!
# Paths of module files

A module file stands in a directory, under a name with one of two endings. Its directory and its path without
the ending are cut off by searching from the right; on such paths both cuts are exact, so they undo
the putting together.
-/

namespace FeatureAtlas

namespace Text

theorem startsWith_iff {s start : String} :
    startsWith s start = true ↔ ∃ rest, s = start ++ rest := by
  rw [startsWith, List.isPrefixOf_iff_prefix]
  constructor
  · rintro ⟨rest, hrest⟩
    exact ⟨String.ofList rest, String.toList_injective (by simp [hrest])⟩
  · rintro ⟨rest, rfl⟩
    exact ⟨rest.toList, String.toList_append.symm⟩

theorem endsWith_iff {s ending : String} :
    endsWith s ending = true ↔ ∃ stem, s = stem ++ ending := by
  rw [endsWith, List.isSuffixOf_iff_suffix]
  constructor
  · rintro ⟨stem, hstem⟩
    exact ⟨String.ofList stem, String.toList_injective (by simp [hstem])⟩
  · rintro ⟨stem, rfl⟩
    exact ⟨stem.toList, String.toList_append.symm⟩

theorem removeSuffix_append (s ending : String) : removeSuffix (s ++ ending) ending = s := by
  have hends : endsWith (s ++ ending) ending = true := endsWith_iff.mpr ⟨s, rfl⟩
  rw [removeSuffix, if_pos hends, String.toList_append, List.length_append, Nat.add_sub_cancel,
    List.take_left, String.ofList_toList]

theorem removeSuffix_of_not_endsWith {s ending : String} (h : endsWith s ending = false) :
    removeSuffix s ending = s := by
  rw [removeSuffix, h, if_neg Bool.false_ne_true]

end Text

namespace Merge

/-! ## Endings -/

theorem mem_moduleEndings {ending : String} :
    ending ∈ moduleEndings ↔ ending = ".ts" ∨ ending = ".tsx" := by
  rw [moduleEndings, List.mem_cons, List.mem_singleton]

theorem find?_moduleEndings {ending : String} (h : ending ∈ moduleEndings) (cs : List Char) :
    moduleEndings.find? (fun e ↦ e.toList.isSuffixOf (cs ++ ending.toList)) = some ending := by
  rcases mem_moduleEndings.mp h with rfl | rfl <;> simp [moduleEndings, List.isSuffixOf]

theorem cutEnding?_append {ending : String} (h : ending ∈ moduleEndings) (cs : List Char) :
    Projection.cutEnding? moduleEndings (cs ++ ending.toList) = some (cs, []) := by
  rw [Projection.cutEnding?]
  dsimp only
  rw [find?_moduleEndings h, Option.map_some, Option.some_or, List.length_append,
    Nat.add_sub_cancel, List.take_left]

theorem dropEnding_append {ending : String} (h : ending ∈ moduleEndings) (stem : String) :
    Projection.dropEnding moduleEndings (stem ++ ending) = stem := by
  rw [Projection.dropEnding, String.toList_append, cutEnding?_append h]
  simp

/-! ## Directories -/

/-- A path of the form `<directory>/<name>` with a module ending. -/
def IsModuleFile (path : String) : Prop :=
  ∃ directory name, ∃ ending ∈ moduleEndings, name ≠ "" ∧ '/' ∉ name.toList ∧
    path = directory ++ "/" ++ name ++ ending

theorem directoryOf_append {directory name ending : String} (hname : name ≠ "")
    (hslash : '/' ∉ name.toList) (hending : ending ∈ moduleEndings) :
    directoryOf (directory ++ "/" ++ name ++ ending) = directory := by
  have hmem : '/' ∉ name.toList ++ ending.toList := by
    rw [List.mem_append, not_or]
    refine ⟨hslash, ?_⟩
    rcases mem_moduleEndings.mp hending with rfl | rfl <;> decide
  have hpath : (directory ++ "/" ++ name ++ ending).toList
      = directory.toList ++ '/' :: (name.toList ++ ending.toList) := by
    simp
  have hdrop : (directory.toList ++ '/' :: (name.toList ++ ending.toList)).drop
      (directory.toList.length + 1) = name.toList ++ ending.toList := by
    simp
  obtain ⟨c, cs, hcons⟩ := List.exists_cons_of_ne_nil (mt String.toList_eq_nil_iff.mp hname)
  rw [directoryOf, hpath, Text.lastIndexOf?_append _ hmem]
  dsimp only
  rw [hdrop, cutEnding?_append hending, hcons]
  simp

/-- A module file is below its directory. -/
theorem IsModuleFile.startsWith_directoryOf {path : String} (h : IsModuleFile path) :
    Text.startsWith path (directoryOf path ++ "/") = true := by
  obtain ⟨directory, name, ending, hending, hname, hslash, rfl⟩ := h
  rw [directoryOf_append hname hslash hending, Text.startsWith_iff]
  exact ⟨name ++ ending, by rw [← String.append_assoc]⟩

end Merge

end FeatureAtlas
