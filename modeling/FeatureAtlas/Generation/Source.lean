import FeatureAtlas.Concurrency.Pool
import FeatureAtlas.Extraction.Basic
import FeatureAtlas.FileTree.Basic
import FeatureAtlas.Project.Basic

/-!
# Reading sources

The files of a project are read by a pool of workers. Whatever the order in which the reads end, the sources
and the warnings about files that cannot be read come in the order of their paths.
-/

namespace FeatureAtlas

/-- A source file's path and text. -/
structure SourceText where
  path : String
  content : String
deriving DecidableEq, Repr, Inhabited

/-- How the reading of a file ended. -/
structure ReadOutcome where
  path : String
  content : Except ReadFailure String
deriving Inhabited

namespace ReadOutcome

/-- Reads one file of a project. -/
def ofFile (t : FileNode) (root : List String) (path : String) : ReadOutcome :=
  ⟨path, t.readText root ((FileNode.pathOf root).join (Path.ofString path))⟩

/-- The source that was read. -/
def source? (o : ReadOutcome) : Option SourceText := o.content.toOption.map fun s => ⟨o.path, s⟩

/-- The warning about a file that could not be read. -/
def warning? (o : ReadOutcome) : Option LogEvent :=
  match o.content with
  | .ok _ => none
  | .error e => some (SourceProject.skipped o.path e.message)

/-- Outcomes in the order of their paths. -/
def sorted (outcomes : List ReadOutcome) : List ReadOutcome :=
  outcomes.mergeSort fun a b => Text.le a.path b.path

end ReadOutcome

namespace SourceText

/-- The sources and warnings of outcomes in any order. -/
def ofOutcomes (outcomes : List ReadOutcome) : List SourceText × List LogEvent :=
  let sorted := ReadOutcome.sorted outcomes
  (sorted.filterMap ReadOutcome.source?, sorted.filterMap ReadOutcome.warning?)

/-- The pool that reads the files of a project. -/
def readPool (t : FileNode) (root : List String) (limit : Nat) (paths : List String) :
    Pool ReadOutcome :=
  { semaphore := { limit }, waiting := paths.map fun p => .ok (.ofFile t root p)
    running := [], finished := [], results := [], failure := none }

/-- Reads the files of a project under a schedule of the pool. -/
def readAll (schedule : List Pool.Event) (t : FileNode) (root : List String) (limit : Nat)
    (paths : List String) : List SourceText × List LogEvent :=
  ofOutcomes ((readPool t root limit paths).run schedule).results

/-- What the sources declare. -/
def extract (sources : List SourceText) : ExtractionSummary :=
  .ofExtractions (sources.map fun s => Extraction.ofSource s.content s.path)

end SourceText

end FeatureAtlas
