import FeatureAtlas.FeatureMap.Basic
import FeatureAtlas.FileTree.Collect
import FeatureAtlas.FileTree.Write
import FeatureAtlas.Generation.Options
import FeatureAtlas.Generation.Source
import FeatureAtlas.Merge.Pass
import FeatureAtlas.Project.Analysis

/-!
# Generation of a feature map

A generation collects the files of a project, reads them, extracts what they declare, analyses their
references, merges both and builds the map, which may be written to a file. It reports its steps as events
and stops at the first failure.
-/

namespace FeatureAtlas

/-- Why a generation fails. -/
inductive GenerationError where
  | pattern (source : String) (e : PatternError)
  | project (e : ProjectError)
  | clock
  | notMade (target : Path) (e : FileError)
  | notWritten (target : Path) (e : WriteError)
deriving Inhabited

/-- The message about a failed generation. -/
def GenerationError.message : GenerationError → String
  | pattern source e => e.message source
  | project e => e.message
  | clock => "date value out of range"
  | notMade target e => "unable to write " ++ target.toString ++ ": " ++ e.message
  | notWritten _ (.noParent (.loop path)) => (CanonicalError.loop path).message
  | notWritten target e => "unable to write " ++ target.toString ++ ": " ++ e.message

/-- The result of a generation. -/
structure GenerationResult where
  map : FeatureMap
  analysis : Analysis
  stats : MergeStats
  files : List String
  output : Option Path
deriving Inhabited

namespace FeatureMap

/-- The number of entries of a map. -/
def size (m : FeatureMap) : Nat :=
  m.features.foldr (fun (_, g) n => g.size + n) 0 + m.uncategorized.size

end FeatureMap

namespace GenerationResult

/-- The figures of a result. -/
def summary (r : GenerationResult) : Table Json :=
  [("files", .int r.files.length), ("items", .int r.map.size),
   ("features", .int r.map.features.length),
   ("files_with_references", .int r.analysis.usages.length), ("apps", Json.strings r.map.apps),
   ("merge", .obj r.stats.fields),
   ("output_path", (r.output.map fun p => Json.str p.toString).getD .null),
   ("generated_at", .str r.map.generatedAt)]

end GenerationResult

namespace Generation

/-- The name of the map's file. -/
def mapFile : String := "feature-map.json"

/-- Suffixes of the files that are analysed. -/
def analysedSuffixes : List String := [".ts", ".tsx"]

/-- The files of a project that the options select. -/
def collected (t : FileNode) (o : GenerationOptions) : List String :=
  t.collect o.root o.included o.excluded

/-- Analyses those of the files that can hold references. -/
def analyse (t : FileNode) (o : GenerationOptions) (files : List String) :
    Except GenerationError (Analysis × List LogEvent) := do
  let patterns ← o.patterns.compile.mapError fun (source, e) => .pattern source e
  let targets := files.filter fun f => analysedSuffixes.any (Text.endsWith f)
  (Analysis.ofProject t { root := o.root, targets, tsconfig := o.tsconfig, patterns }).mapError .project

/-- The event about the files that were found. -/
def filesCollected (root : List String) (count : Nat) : LogEvent :=
  { severity := .info, name := "files_collected"
    fields := [("project_root", .str (FileNode.pathOf root).toString), ("count", .int count)] }

/-- The event about what the files declare. -/
def annotationsExtracted (s : ExtractionSummary) : LogEvent :=
  { severity := .info, name := "annotations_extracted"
    fields := [("items", .int s.items.length), ("module_descriptions", .int s.descriptions.length),
      ("type_modules", .int s.types.length), ("utility_modules", .int s.utilities.length)] }

/-- The event about the apps, if there are any. -/
def appsDetected (apps : List String) : List LogEvent :=
  if apps.isEmpty then []
  else [{ severity := .info, name := "apps_detected", fields := [("apps", Json.strings apps)] }]

/-- The event about the written map. -/
def mapWritten (target : Path) : LogEvent :=
  { severity := .info, name := "feature_map_written", fields := [("path", .str target.toString)] }

/-- Writes a map into a directory, which is made if it is missing. -/
def writeMap (fresh : String) (root : List String) (outputDir : Path) (m : FeatureMap) (t : FileNode) :
    FileNode × Except GenerationError Path :=
  let target := outputDir.join (Path.ofString mapFile)
  match t.makeDirectories root outputDir with
  | .error e => (t, .error (.notMade target e))
  | .ok made =>
    match made.write fresh root target (.text m.render "utf-8") with
    | (t, .error e) => (t, .error (.notWritten target e))
    | (t, .ok ()) => (t, .ok target)

/-- The map of the items at a time, which has to lie in the calendar. -/
def mapAt (items : List Item) (descriptions : Table String) (types : Table (List ExportedType))
    (utilities : Table (List Utility)) (now : DateTime) : Except GenerationError FeatureMap :=
  match FeatureMap.build? items descriptions types utilities now with
  | none => .error .clock
  | some map => .ok map

/-- A generation without the writing, on sources that have been read: the result, or the failure with the
events before it. -/
def build (t : FileNode) (o : GenerationOptions) (now : DateTime) (files : List String)
    (sources : List SourceText) : List LogEvent × Except GenerationError GenerationResult :=
  let summary := SourceText.extract sources
  let extracted := [annotationsExtracted summary]
  match analyse t o (sources.map (·.path)) with
  | .error e => (extracted, .error e)
  | .ok (analysis, events) =>
    let (items, stats) := Merge.runAll summary.items analysis
    let merged := extracted ++ events ++ [stats.event items.length]
    match mapAt items summary.descriptions summary.types summary.utilities now with
    | .error e => (merged, .error e)
    | .ok map =>
      (merged ++ appsDetected map.apps, .ok { map, analysis, stats, files, output := none })

/-- What a generation leaves behind: the file tree, the events and the result. -/
structure Run where
  tree : FileNode
  events : List LogEvent
  result : Except GenerationError GenerationResult
deriving Inhabited

/-- A generation under a schedule of the reads; with `write` the map is written. -/
def runUnder (schedule : List Pool.Event) (fresh : String) (write : Bool) (now : DateTime)
    (o : GenerationOptions) (t : FileNode) : Run :=
  let files := collected t o
  let (sources, warnings) := SourceText.readAll schedule t o.root o.readConcurrency.toNat files
  let (events, result) := build t o now files sources
  let before := filesCollected o.root files.length :: warnings ++ events
  match result with
  | .error e => ⟨t, before, .error e⟩
  | .ok r =>
    if write then
      match writeMap fresh o.root o.outputDir r.map t with
      | (t, .error e) => ⟨t, before, .error e⟩
      | (t, .ok target) => ⟨t, before ++ [mapWritten target], .ok { r with output := some target }⟩
    else ⟨t, before, .ok r⟩

/-- A generation. -/
def run (fresh : String) (write : Bool) (now : DateTime) (o : GenerationOptions) (t : FileNode) : Run :=
  runUnder (Pool.eager o.readConcurrency.toNat (collected t o).length) fresh write now o t

end Generation

end FeatureAtlas
