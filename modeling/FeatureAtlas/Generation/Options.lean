import FeatureAtlas.Config.PathField
import FeatureAtlas.Config.Schema

/-!
# Options of a generation

What a configuration says about one generation, with its paths resolved against the project's root.
-/

namespace FeatureAtlas

/-- What a generation reads and writes. -/
structure GenerationOptions where
  root : List String
  included : List String
  excluded : List String
  outputDir : Path
  /-- A compiler configuration other than the usual one has to exist. -/
  tsconfig : Option Path
  patterns : PatternTexts
  readConcurrency : Int
deriving Inhabited

/-- Why a configuration gives no options. -/
inductive OptionsError where
  | home (e : HomeError)
  /-- The section is absent. -/
  | noSection (name : String)
deriving DecidableEq, Repr, Inhabited

/-- The message about a configuration that gives no options. -/
def OptionsError.message : OptionsError → String
  | home e => e.message
  | noSection name => Text.quoted name

namespace Config

/-- Resolves a path of a section, if the section is there and the path is not empty. -/
def resolveIn {σ : Type} (environment : Environment) (base : Path) (get : σ → String)
    (set : String → σ → σ) (s : Option σ) : Except HomeError (Option σ) :=
  match s with
  | none => .ok none
  | some v =>
    if get v == "" then .ok (some v)
    else do return some (set (← PathField.resolve environment base (get v)) v)

/-- The configuration with its path fields resolved. -/
def resolvePaths (environment : Environment) (base : Path) (c : Config) : Except HomeError Config := do
  let featureMap ← resolveIn environment base (·.outputDir) (fun p s => { s with outputDir := p })
    c.featureMap
  let analysis ← resolveIn environment base (·.tsconfig) (fun p s => { s with tsconfig := p }) c.analysis
  let observability ← resolveIn environment base (·.logFile) (fun p s => { s with logFile := p })
    c.observability
  return { c with featureMap, analysis, observability }

end Config

namespace GenerationOptions

/-- The options that a configuration gives for the project at a place. -/
def ofConfig (environment : Environment) (root : List String) (c : Config) :
    Except OptionsError GenerationOptions := do
  let resolved ← (c.resolvePaths environment ⟨"/", root⟩).mapError .home
  let some featureMap := resolved.featureMap | throw (.noSection "feature_map")
  let some analysis := resolved.analysis | throw (.noSection "analysis")
  let usual := (c.analysis.map (·.tsconfig)) == some Config.defaultTsconfig
  return {
    root
    included := featureMap.included
    excluded := featureMap.excluded
    outputDir := Path.ofString featureMap.outputDir
    tsconfig := if usual then none else some (Path.ofString analysis.tsconfig)
    patterns := analysis.patterns
    readConcurrency := analysis.readConcurrency }

end GenerationOptions

end FeatureAtlas
