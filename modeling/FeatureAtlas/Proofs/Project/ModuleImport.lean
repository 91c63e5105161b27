import Mathlib
import FeatureAtlas.Proofs.Project.Files
import FeatureAtlas.Proofs.Usage.Inverse
import FeatureAtlas.Proofs.Usage.Verified

/-!
# Module imports of a project

The path of an imported module is recorded in the usage of the importing file and, inverted, in the
reverse index. A usage takes its place in the analysis only if it is not empty, and module paths do not
count for that. So a module import reaches the analysis exactly if some import of its file counts by a
name: an import for side effects or of a namespace alone is lost.
-/

namespace FeatureAtlas

namespace Analysis

open FileUsage (CountsByName ImportsModule)

/-! ## Usages by path -/

/-- The entries that the usages of files are collected from. -/
def usageEntries (patterns : ImportPatterns) (aliases : List String) (files : List SourceFile) :
    List (String × FileUsage) :=
  (((files.mergeSort fun a b ↦ Text.le a.path b.path).map fun f ↦
    FileUsage.ofFacts patterns aliases f.path f.findings.facts).filter (!·.isEmpty)).map
      fun u ↦ (u.path, u)

theorem usagesOf_eq_ofEntries (patterns : ImportPatterns) (aliases : List String)
    (files : List SourceFile) :
    usagesOf patterns aliases files = .ofEntries (usageEntries patterns aliases files) := rfl

theorem mem_usageEntries {patterns : ImportPatterns} {aliases : List String}
    {files : List SourceFile} {key : String} {u : FileUsage} :
    (key, u) ∈ usageEntries patterns aliases files ↔
      ∃ f ∈ files, u = FileUsage.ofFacts patterns aliases f.path f.findings.facts ∧
        u.isEmpty = false ∧ Projection.normalize f.path = key := by
  simp only [usageEntries, List.mem_map, List.mem_filter, List.mem_mergeSort, Prod.mk.injEq,
    Bool.not_eq_true']
  constructor
  · rintro ⟨_, ⟨⟨f, hf, rfl⟩, hfull⟩, rfl, rfl⟩
    exact ⟨f, hf, rfl, hfull, (FileUsage.path_ofFacts f.path).symm⟩
  · rintro ⟨f, hf, rfl, hfull, rfl⟩
    exact ⟨_, ⟨⟨f, hf, rfl⟩, hfull⟩, FileUsage.path_ofFacts f.path, rfl⟩

/-- A file that shares its normal path with no other has its own usage there, unless it is empty. -/
theorem lookup_usagesOf {patterns : ImportPatterns} {aliases : List String}
    {files : List SourceFile} {f : SourceFile} (hf : f ∈ files)
    (halone : ∀ g ∈ files, Projection.normalize g.path = Projection.normalize f.path → g = f)
    {u : FileUsage} :
    (usagesOf patterns aliases files).lookup (Projection.normalize f.path) = some u ↔
      u = FileUsage.ofFacts patterns aliases f.path f.findings.facts ∧ u.isEmpty = false := by
  have hagree : ∀ v w, (Projection.normalize f.path, v) ∈ usageEntries patterns aliases files →
      (Projection.normalize f.path, w) ∈ usageEntries patterns aliases files → v = w := by
    intro v w hv hw
    obtain ⟨g, hg, rfl, -, hgpath⟩ := mem_usageEntries.mp hv
    obtain ⟨k, hk, rfl, -, hkpath⟩ := mem_usageEntries.mp hw
    rw [halone g hg hgpath, halone k hk hkpath]
  rw [usagesOf_eq_ofEntries, Table.lookup_ofEntries_of_agree hagree, mem_usageEntries]
  constructor
  · rintro ⟨g, hg, rfl, hfull, hpath⟩
    rw [halone g hg hpath] at hfull ⊢
    exact ⟨rfl, hfull⟩
  · rintro ⟨rfl, hfull⟩
    exact ⟨f, hf, rfl, hfull, rfl⟩

theorem mem_reverse_modulePaths_usagesOf {patterns : ImportPatterns} {aliases : List String}
    {files : List SourceFile} {file path : String} :
    file ∈ (ofUsages (usagesOf patterns aliases files)).reverse.modulePaths.values path ↔
      ∃ u, (usagesOf patterns aliases files).lookup file = some u ∧ path ∈ u.modulePaths := by
  have hkeys : (usagesOf patterns aliases files).NodupKeys := Table.nodupKeys_ofEntries _
  simp only [ofUsages, ReverseIndex.mem_modulePaths_ofUsages, Table.lookup_eq_some_iff_mem hkeys]

/-! ## Opening and analysing -/

theorem closed_and_files_of_ofDirectory {t : FileNode} {root : List String}
    {tsconfig : Option Path} {p : SourceProject}
    (h : SourceProject.ofDirectory t root tsconfig = .ok p) : p.closed = false ∧ p.files = [] := by
  rw [SourceProject.ofDirectory] at h
  cases hload : CompilerOptions.load t root tsconfig with
  | error e =>
    rw [hload] at h
    cases h
  | ok options =>
    rw [hload] at h
    cases h
    exact ⟨rfl, rfl⟩

/-- An open project is always analysed. -/
theorem exists_ofProject {t : FileNode} {o : AnalysisOptions} {p : SourceProject}
    (h : SourceProject.ofDirectory t o.root o.tsconfig = .ok p) :
    ∃ events, ofProject t o
      = .ok (.ofUsages (usagesOf o.patterns p.aliases (readTargets t p o.targets).1), events) := by
  rw [ofProject, h]
  exact ⟨_, rfl⟩

/-- A project of one page. -/
def pageProject (source : String) : FileNode :=
  .directory
    [("app", .directory [("page.ts", .file (source.toList.map fun c ↦ UInt8.ofNat c.toNat))])]

/-- The analysis of that page. -/
def pageOptions (patterns : ImportPatterns) : AnalysisOptions :=
  { root := [], targets := ["app/page.ts"], patterns }

/-- The page once it is read, with its imports. -/
def pageFile (imports : List ImportDeclaration) : SourceFile :=
  { path := "app/page.ts", findings := { imports } }

theorem ofDirectory_of_absent {t : FileNode} {root : List String}
    (h : t.present root (CompilerOptions.fileOf root none) = .ok false) :
    SourceProject.ofDirectory t root none = .ok { root } := by
  have hload : CompilerOptions.load t root none = .ok [] := by
    simp only [CompilerOptions.load, h, Option.isSome_none, Bool.false_eq_true, if_false]
  rw [SourceProject.ofDirectory, hload]
  rfl

theorem readFile_page (source : String) (imports : List ImportDeclaration)
    (htext : (pageProject source).readRawText [] ⟨"/", ["app", "page.ts"]⟩ = .ok source)
    (hfindings : SyntaxFindings.ofSource source false = { imports }) :
    SourceProject.readFile (pageProject source) { root := [] } (Path.ofString "app/page.ts")
      = .ok (pageFile imports) := by
  have hpath : SourceProject.absolutePath { root := [] } (Path.ofString "app/page.ts")
      = ⟨"/", ["app", "page.ts"]⟩ := by decide +kernel
  have hrelative : SourceProject.relativePath { root := [] } (Path.ofString "app/page.ts")
      = "app/page.ts" := by decide +kernel
  have hmarkup : SyntaxFindings.markupSuffixes.contains
      (Path.suffix ⟨"/", ["app", "page.ts"]⟩) = false := by decide +kernel
  rw [SourceProject.readFile_of_text (hpath ▸ htext), hpath, hrelative, hmarkup, hfindings]
  rfl

/-- The usual patterns compile, and count `./lib/setup` as a module. -/
theorem exists_usual_patterns :
    ∃ patterns, PatternTexts.default.compile = .ok patterns ∧
      ImportsModule patterns (SourceProject.aliases { root := [] })
        (Projection.normalize "app/page.ts") ⟨"./lib/setup", none, []⟩ "app/lib/setup.ts" := by
  have hcategory : (PatternTexts.default.compile.toOption.map fun patterns ↦
      ImportCategory.ofSpecifier patterns "./lib/setup") = some .module := by decide +kernel
  obtain ⟨patterns, hpatterns, hmodule⟩ := Option.map_eq_some_iff.mp hcategory
  refine ⟨patterns, ?_, by decide +kernel, hmodule, by decide +kernel⟩
  cases hcompile : PatternTexts.default.compile with
  | error e =>
    rw [hcompile] at hpatterns
    cases hpatterns
  | ok found =>
    rw [hcompile] at hpatterns
    cases hpatterns
    rfl

end Analysis

end FeatureAtlas
