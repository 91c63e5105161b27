import FeatureAtlas.Project.Basic
import FeatureAtlas.Usage.Verified

/-!
# Analysis of a project

The target files are read into a project, and each one's verified usages are found in the order of their
paths. Files without usages are left out.
-/

namespace FeatureAtlas

/-- What an analysis is about. -/
structure AnalysisOptions where
  root : List String
  targets : List String
  tsconfig : Option Path := none
  patterns : ImportPatterns
deriving Inhabited

namespace Analysis

/-- The files that can be read, and the events of those that cannot. -/
def readTargets (t : FileNode) (p : SourceProject) (targets : List String) :
    List SourceFile × List LogEvent :=
  match p.addAll t (targets.map Path.ofString) with
  | .ok (p, _, events) => (p.files.map Prod.snd, events)
  | .error _ => ([], [])

/-- The verified usages of files, by path. -/
def usagesOf (patterns : ImportPatterns) (aliases : List String) (files : List SourceFile) :
    Table FileUsage :=
  let sorted := files.mergeSort fun a b => Text.le a.path b.path
  let usages := sorted.map fun f => FileUsage.ofFacts patterns aliases f.path f.findings.facts
  .ofEntries ((usages.filter (!·.isEmpty)).map fun u => (u.path, u))

/-- The event that ends an analysis. -/
def completed (targets parsed used : Nat) : LogEvent :=
  { severity := .info, name := "reference_analysis_completed"
    fields := [("target_files", .int targets), ("parsed_files", .int parsed),
      ("files_with_references", .int used)] }

/-- Analyses a project. -/
def ofProject (t : FileNode) (o : AnalysisOptions) :
    Except ProjectError (Analysis × List LogEvent) := do
  let p ← SourceProject.ofDirectory t o.root o.tsconfig
  let (files, events) := readTargets t p o.targets
  let usages := usagesOf o.patterns p.aliases files
  return (.ofUsages usages, events ++ [completed o.targets.length files.length usages.length])

end Analysis

end FeatureAtlas
