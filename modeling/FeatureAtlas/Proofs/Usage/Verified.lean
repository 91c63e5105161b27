import FeatureAtlas.Proofs.Distinct
import FeatureAtlas.Usage.Verified

/-!
# What the imports of a file add up to

A file's usage is a fold over its imports, and each of its four lists is an ordered set of its own: what one of
the imports adds to a list does not depend on the other lists. So every list has what the imports name for it, in
their order, each entry at the place of its first occurrence.

## What an import names

An import names something only if it is internal to the project. Its category decides which list it names
something for, and the local names are checked there: components are rendered and actions are called. Modules
are not checked, and they are named twice, by the names that are bound and by the path that the specifier
resolves to. A usage is empty exactly if no import names anything for the first three lists; the paths do not
matter for that.
-/

namespace FeatureAtlas

/-! ## Internal imports of a category -/

/-- Some pattern of a list occurs in a specifier. -/
def Matches (patterns : List Pattern) (specifier : String) : Prop :=
  ∃ p ∈ patterns, p.occursIn specifier = true

theorem matches_iff {patterns : List Pattern} {specifier : String} :
    Matches patterns specifier ↔ (patterns.any (·.occursIn specifier)) = true :=
  List.any_eq_true.symm

/-- The first list of patterns with a match decides the category. -/
def HasCategory (patterns : ImportPatterns) (specifier : String) : ImportCategory → Prop
  | .component => Matches patterns.component specifier
  | .action => ¬Matches patterns.component specifier ∧ Matches patterns.action specifier
  | .module =>
    ¬Matches patterns.component specifier ∧ ¬Matches patterns.action specifier ∧
      Matches patterns.module specifier
  | .none =>
    ¬Matches patterns.component specifier ∧ ¬Matches patterns.action specifier ∧
      ¬Matches patterns.module specifier

theorem ImportCategory.ofSpecifier_eq_iff {patterns : ImportPatterns} {specifier : String}
    {category : ImportCategory} :
    ofSpecifier patterns specifier = category ↔ HasCategory patterns specifier category := by
  cases category <;> simp only [HasCategory, matches_iff, ofSpecifier] <;>
    cases patterns.component.any (·.occursIn specifier) <;>
    cases patterns.action.any (·.occursIn specifier) <;>
    cases patterns.module.any (·.occursIn specifier) <;> decide

/-- An import of a category whose specifier is relative or under an alias. -/
structure ImportDeclaration.ImportsOf (d : ImportDeclaration) (patterns : ImportPatterns)
    (aliases : List String) (category : ImportCategory) : Prop where
  internal : Text.startsWith d.specifier "." = true ∨
    ∃ a ∈ aliases, Text.startsWith d.specifier a = true
  category : HasCategory patterns d.specifier category

/-- An import binds an exported name under a local name. The default name is its own local name. -/
def ImportDeclaration.Binds (d : ImportDeclaration) (name localName : String) : Prop :=
  ⟨name, localName⟩ ∈ d.named ∨ (d.defaultName = some name ∧ localName = name)

theorem ImportDeclaration.mem_bindings {d : ImportDeclaration} {name localName : String} :
    ⟨name, localName⟩ ∈ d.bindings ↔ d.Binds name localName := by
  rw [bindings, List.mem_append, Option.mem_toList, Option.map_eq_some_iff]
  refine or_congr Iff.rfl ⟨?_, ?_⟩
  · rintro ⟨n, hn, heq⟩
    obtain ⟨rfl, rfl⟩ := ImportBinding.mk.inj heq
    exact ⟨hn, rfl⟩
  · rintro ⟨hname, rfl⟩
    exact ⟨localName, hname, rfl⟩

namespace FileUsage

variable {patterns : ImportPatterns} {aliases : List String} {facts : SourceFacts}

/-- An import that counts by a name: of a component that is rendered, of an action that is called, or of a
module with any name. -/
def CountsByName (patterns : ImportPatterns) (aliases : List String) (facts : SourceFacts)
    (d : ImportDeclaration) : Prop :=
  Import.isInternal aliases d.specifier = true ∧
    match ImportCategory.ofSpecifier patterns d.specifier with
    | .none => False
    | .component => ∃ b ∈ d.bindings, facts.isRendered b.localName = true
    | .action => ∃ b ∈ d.bindings, facts.isCalled b.localName = true
    | .module => d.bindings ≠ []

/-- An import of a module that a file at a path resolves to a path. -/
structure ImportsModule (patterns : ImportPatterns) (aliases : List String) (importer : String)
    (d : ImportDeclaration) (path : String) : Prop where
  internal : Import.isInternal aliases d.specifier = true
  category : ImportCategory.ofSpecifier patterns d.specifier = .module
  resolved : Import.resolve? aliases importer d.specifier = some path

/-! ## One import -/

/-- Whether an import is internal and of a category. -/
def isImportOf (patterns : ImportPatterns) (aliases : List String) (category : ImportCategory)
    (d : ImportDeclaration) : Bool :=
  Import.isInternal aliases d.specifier && ImportCategory.ofSpecifier patterns d.specifier == category

theorem isImportOf_iff {category : ImportCategory} {d : ImportDeclaration} :
    isImportOf patterns aliases category d = true ↔
      Import.isInternal aliases d.specifier = true ∧
        ImportCategory.ofSpecifier patterns d.specifier = category := by
  rw [isImportOf, Bool.and_eq_true, beq_iff_eq]

theorem isImportOf_iff_importsOf {category : ImportCategory} {d : ImportDeclaration} :
    isImportOf patterns aliases category d = true ↔ d.ImportsOf patterns aliases category := by
  rw [isImportOf_iff, Import.isInternal, Bool.or_eq_true, List.any_eq_true,
    ImportCategory.ofSpecifier_eq_iff]
  exact ⟨fun h ↦ ⟨h.1, h.2⟩, fun h ↦ ⟨h.internal, h.category⟩⟩

/-- The names that an import of a category binds under a verified local name, in its own order. -/
def namesOf (patterns : ImportPatterns) (aliases : List String) (category : ImportCategory)
    (verified : String → Bool) (d : ImportDeclaration) : List String :=
  if isImportOf patterns aliases category d then
    (d.bindings.filter fun b ↦ verified b.localName).map (·.name)
  else []

/-- The path that an import of a module resolves to. -/
def pathOf? (patterns : ImportPatterns) (aliases : List String) (importer : String)
    (d : ImportDeclaration) : Option String :=
  if isImportOf patterns aliases .module d then Import.resolve? aliases importer d.specifier else none

theorem mem_namesOf {category : ImportCategory} {verified : String → Bool} {d : ImportDeclaration}
    {name : String} :
    name ∈ namesOf patterns aliases category verified d ↔
      d.ImportsOf patterns aliases category ∧
        ∃ localName, d.Binds name localName ∧ verified localName = true := by
  rw [namesOf, ← isImportOf_iff_importsOf]
  split
  · next h =>
    rw [List.mem_map, iff_true_intro h, true_and]
    constructor
    · rintro ⟨⟨n, l⟩, hb, rfl⟩
      obtain ⟨hb, hverified⟩ := List.mem_filter.mp hb
      exact ⟨l, ImportDeclaration.mem_bindings.mp hb, hverified⟩
    · rintro ⟨l, hbinds, hverified⟩
      exact ⟨⟨name, l⟩, List.mem_filter.mpr ⟨ImportDeclaration.mem_bindings.mpr hbinds, hverified⟩, rfl⟩
  · next h => simp [h]

theorem namesOf_eq_nil_iff {category : ImportCategory} {verified : String → Bool}
    {d : ImportDeclaration} :
    namesOf patterns aliases category verified d = [] ↔
      (isImportOf patterns aliases category d = true → ∀ b ∈ d.bindings, verified b.localName = false) := by
  rw [namesOf]
  split
  · next h => simp [h]
  · next h => simp [h]

theorem pathOf?_eq_some_iff {importer : String} {d : ImportDeclaration} {path : String} :
    pathOf? patterns aliases importer d = some path ↔
      ImportsModule patterns aliases importer d path := by
  rw [pathOf?, Option.ite_none_right_eq_some, isImportOf_iff]
  exact ⟨fun h ↦ ⟨h.1.1, h.1.2, h.2⟩, fun h ↦ ⟨⟨h.internal, h.category⟩, h.resolved⟩⟩

/-- What one import adds to each list. -/
theorem addDeclaration_eq (u : FileUsage) (d : ImportDeclaration) :
    addDeclaration patterns aliases facts u d =
      { path := u.path
        components :=
          (namesOf patterns aliases .component facts.isRendered d).foldl appendNew u.components
        actions := (namesOf patterns aliases .action facts.isCalled d).foldl appendNew u.actions
        modules := (namesOf patterns aliases .module (fun _ ↦ true) d).foldl appendNew u.modules
        modulePaths :=
          (pathOf? patterns aliases u.path d).toList.foldl appendNew u.modulePaths } := by
  have hall : d.bindings.filter (fun _ ↦ true) = d.bindings := List.filter_eq_self.mpr fun _ _ ↦ rfl
  rw [addDeclaration]
  by_cases hinternal : Import.isInternal aliases d.specifier = true
  · rw [if_pos hinternal]
    cases hcategory : ImportCategory.ofSpecifier patterns d.specifier <;>
      simp [namesOf, pathOf?, isImportOf, hinternal, hcategory, hall]
  · rw [if_neg hinternal]
    simp [namesOf, pathOf?, isImportOf, hinternal]

/-! ## All imports of a file -/

private theorem foldl_addDeclaration (ds : List ImportDeclaration) (u : FileUsage) :
    ds.foldl (addDeclaration patterns aliases facts) u =
      { path := u.path
        components :=
          (ds.flatMap (namesOf patterns aliases .component facts.isRendered)).foldl appendNew u.components
        actions :=
          (ds.flatMap (namesOf patterns aliases .action facts.isCalled)).foldl appendNew u.actions
        modules :=
          (ds.flatMap (namesOf patterns aliases .module fun _ ↦ true)).foldl appendNew u.modules
        modulePaths :=
          (ds.flatMap fun d ↦ (pathOf? patterns aliases u.path d).toList).foldl appendNew
            u.modulePaths } := by
  induction ds generalizing u with
  | nil => rfl
  | cons d ds ih =>
    rw [List.foldl_cons, ih, addDeclaration_eq]
    simp only [List.flatMap_cons, List.foldl_append]

/-- **Each list has what the imports name for it**, in order and without repetitions. -/
theorem ofFacts_eq (file : String) :
    ofFacts patterns aliases file facts =
      { path := Projection.normalize file
        components :=
          distinct (facts.imports.flatMap (namesOf patterns aliases .component facts.isRendered))
        actions := distinct (facts.imports.flatMap (namesOf patterns aliases .action facts.isCalled))
        modules :=
          distinct (facts.imports.flatMap (namesOf patterns aliases .module fun _ ↦ true))
        modulePaths :=
          distinct (facts.imports.flatMap fun d ↦
            (pathOf? patterns aliases (Projection.normalize file) d).toList) } :=
  foldl_addDeclaration facts.imports _

theorem path_ofFacts (path : String) :
    (ofFacts patterns aliases path facts).path = Projection.normalize path := by
  rw [ofFacts_eq]

theorem mem_modulePaths_ofFacts {file path : String} :
    path ∈ (ofFacts patterns aliases file facts).modulePaths ↔
      ∃ d ∈ facts.imports, ImportsModule patterns aliases (Projection.normalize file) d path := by
  rw [ofFacts_eq, mem_distinct, List.mem_flatMap]
  simp only [Option.mem_toList, pathOf?_eq_some_iff]

/-- An import counts by a name exactly if it names something for one of the lists of names. -/
theorem not_countsByName_iff {d : ImportDeclaration} :
    ¬CountsByName patterns aliases facts d ↔
      namesOf patterns aliases .component facts.isRendered d = [] ∧
        namesOf patterns aliases .action facts.isCalled d = [] ∧
        namesOf patterns aliases .module (fun _ ↦ true) d = [] := by
  rw [CountsByName, namesOf_eq_nil_iff, namesOf_eq_nil_iff, namesOf_eq_nil_iff]
  by_cases hinternal : Import.isInternal aliases d.specifier = true
  · cases hcategory : ImportCategory.ofSpecifier patterns d.specifier <;>
      simp [isImportOf, hinternal, hcategory, List.eq_nil_iff_forall_not_mem]
  · simp [isImportOf, hinternal]

theorem isEmpty_ofFacts {file : String} :
    (ofFacts patterns aliases file facts).isEmpty = true ↔
      ∀ d ∈ facts.imports, ¬CountsByName patterns aliases facts d := by
  have hempty : ∀ xs : List String, (distinct xs).isEmpty = true ↔ xs = [] := fun xs ↦ by
    simp only [List.isEmpty_iff, List.eq_nil_iff_forall_not_mem, mem_distinct]
  rw [ofFacts_eq, isEmpty, Bool.and_eq_true, Bool.and_eq_true, hempty, hempty, hempty]
  simp only [List.flatMap_eq_nil_iff, not_countsByName_iff, forall_and, and_assoc]

/-! ## Verified usages -/

/-- A list that records what qualifies and nothing else, without repetitions, in the order in which the
candidates first name it. -/
structure Records (qualifies : String → Prop) (candidates recorded : List String) : Prop where
  mem_iff : ∀ x, x ∈ recorded ↔ qualifies x
  nodup : recorded.Nodup
  ordered : recorded.Pairwise fun x y ↦ candidates.idxOf x < candidates.idxOf y

theorem records_distinct {qualifies : String → Prop} {candidates : List String}
    (h : ∀ x, x ∈ candidates ↔ qualifies x) : Records qualifies candidates (distinct candidates) where
  mem_iff x := mem_distinct.trans (h x)
  nodup := nodup_distinct candidates
  ordered := (listsFirst_distinct candidates).ordered

theorem mem_flatMap_namesOf {category : ImportCategory} {verified : String → Bool}
    {ds : List ImportDeclaration} {name : String} :
    name ∈ ds.flatMap (namesOf patterns aliases category verified) ↔
      ∃ d ∈ ds, d.ImportsOf patterns aliases category ∧
        ∃ localName, d.Binds name localName ∧ verified localName = true := by
  simp only [List.mem_flatMap, mem_namesOf]

theorem mem_flatMap_pathOf? {importer : String} {ds : List ImportDeclaration} {path : String} :
    (path ∈ ds.flatMap fun d ↦ (pathOf? patterns aliases importer d).toList) ↔
      ∃ d ∈ ds, d.ImportsOf patterns aliases .module ∧
        Import.resolve? aliases importer d.specifier = some path := by
  simp only [List.mem_flatMap, Option.mem_toList, pathOf?, Option.ite_none_right_eq_some,
    isImportOf_iff_importsOf]

/-- **A file's usage is what its imports verify, and nothing else.** A component is recorded exactly if some
internal import of components binds its name under a local name that is rendered, an action if one of actions
binds it under a local name that is called, a module if one of modules binds it at all, and a path if the
specifier of one of modules resolves to it. Each list is in the order of the imports and, within an import, of
its bindings, and has no repetitions. -/
theorem ofFacts_records (patterns : ImportPatterns) (aliases : List String) (file : String)
    (facts : SourceFacts) :
    let u := ofFacts patterns aliases file facts
    Records
      (fun name ↦ ∃ d ∈ facts.imports, d.ImportsOf patterns aliases .component ∧
        ∃ localName, d.Binds name localName ∧ facts.isRendered localName = true)
      (facts.imports.flatMap (namesOf patterns aliases .component facts.isRendered)) u.components ∧
    Records
      (fun name ↦ ∃ d ∈ facts.imports, d.ImportsOf patterns aliases .action ∧
        ∃ localName, d.Binds name localName ∧ facts.isCalled localName = true)
      (facts.imports.flatMap (namesOf patterns aliases .action facts.isCalled)) u.actions ∧
    Records
      (fun name ↦ ∃ d ∈ facts.imports, d.ImportsOf patterns aliases .module ∧
        ∃ localName, d.Binds name localName)
      (facts.imports.flatMap (namesOf patterns aliases .module fun _ ↦ true)) u.modules ∧
    Records
      (fun path ↦ ∃ d ∈ facts.imports, d.ImportsOf patterns aliases .module ∧
        Import.resolve? aliases u.path d.specifier = some path)
      (facts.imports.flatMap fun d ↦ (pathOf? patterns aliases u.path d).toList) u.modulePaths := by
  intro u
  have hu : u = _ := ofFacts_eq file
  have hpath : u.path = Projection.normalize file := path_ofFacts file
  rw [hpath, hu]
  refine ⟨records_distinct fun name ↦ mem_flatMap_namesOf, records_distinct fun name ↦ mem_flatMap_namesOf,
    records_distinct fun name ↦ ?_, records_distinct fun path ↦ mem_flatMap_pathOf?⟩
  -- modules are not verified, so every binding counts
  rw [mem_flatMap_namesOf]
  simp only [and_true]

end FileUsage

end FeatureAtlas
