import FeatureAtlas.Config.Setting
import FeatureAtlas.Import.Category
import FeatureAtlas.Text.Case

/-!
# The configuration schema

A configuration has four sections with fixed fields. Validation walks them in order and collects every
issue under the path of the field it concerns; a configuration without issues comes out with trimmed texts
and an upper-case log level. A section that is present but null is passed over.
-/

namespace FeatureAtlas

/-! ## Configurations -/

/-- The section about the configuration itself. -/
structure MetaSection where
  schemaVersion : Int
deriving DecidableEq, Repr, Inhabited

/-- The fields of the section. -/
def MetaSection.fields (s : MetaSection) : Table Setting :=
  [("schema_version", .int s.schemaVersion)]

/-- The section about the files to read and the map to write. -/
structure MapSection where
  included : List String
  excluded : List String
  outputDir : String
deriving DecidableEq, Repr, Inhabited

/-- The fields of the section. -/
def MapSection.fields (s : MapSection) : Table Setting :=
  [("include", .strings s.included), ("exclude", .strings s.excluded),
   ("output_dir", .str s.outputDir)]

/-- The section about the reference analysis. -/
structure AnalysisSection where
  tsconfig : String
  patterns : PatternTexts
  readConcurrency : Int
deriving DecidableEq, Repr, Inhabited

/-- The fields of the section. -/
def AnalysisSection.fields (s : AnalysisSection) : Table Setting :=
  [("tsconfig", .str s.tsconfig), ("component_patterns", .strings s.patterns.component),
   ("action_patterns", .strings s.patterns.action),
   ("module_patterns", .strings s.patterns.module),
   ("read_concurrency", .int s.readConcurrency)]

/-- The section about logging. -/
structure ObservabilitySection where
  logLevel : String
  /-- Without a text, nothing is logged to a file. -/
  logFile : String
deriving DecidableEq, Repr, Inhabited

/-- The fields of the section. -/
def ObservabilitySection.fields (s : ObservabilitySection) : Table Setting :=
  [("log_level", .str s.logLevel), ("log_file", .str s.logFile)]

/-- A validated configuration; a section that was null is absent. -/
structure Config where
  meta_ : Option MetaSection
  featureMap : Option MapSection
  analysis : Option AnalysisSection
  observability : Option ObservabilitySection
deriving DecidableEq, Repr, Inhabited

namespace Config

/-- The schema version that is understood. -/
def schemaVersion : Int := 1

/-- The log levels in ascending order of severity. -/
def logLevels : List String := ["DEBUG", "INFO", "WARNING", "ERROR"]

/-- The compiler configuration that projects have unless they name another one. -/
def defaultTsconfig : String := "tsconfig.json"

/-- The configuration of an unconfigured project. -/
def default : Config where
  meta_ := some ⟨schemaVersion⟩
  featureMap := some {
    included := ["apps/*/app/**/*.tsx", "apps/*/components/**/*.tsx", "apps/*/lib/**/*.ts",
      "apps/*/middleware.ts", "packages/*/src/schema/**/*.ts"]
    excluded := ["**/node_modules/**", "**/*.test.ts", "**/*.test.tsx", "**/*.spec.ts",
      "**/*.spec.tsx"]
    outputDir := "docs/portal" }
  analysis := some {
    tsconfig := defaultTsconfig, patterns := PatternTexts.default, readConcurrency := 8 }
  observability := some { logLevel := "INFO", logFile := "" }

/-- The sections of a configuration as settings. -/
def sections (c : Config) : List (String × Option Setting) :=
  [("meta", c.meta_.map fun s => .ofFields s.fields),
   ("feature_map", c.featureMap.map fun s => .ofFields s.fields),
   ("analysis", c.analysis.map fun s => .ofFields s.fields),
   ("observability", c.observability.map fun s => .ofFields s.fields)]

/-- The entries of a configuration as settings. -/
def entries (c : Config) : List (SettingKey × Setting) :=
  c.sections.filterMap fun (k, v) => v.map fun s => (.text k, s)

/-- A configuration as a setting. -/
def toSetting (c : Config) : Setting := .map c.entries

/-- Advice on a schema version. -/
def versionAdvice (found : Int) : String :=
  if found < schemaVersion then
    s!"schema version {found} is older than supported {schemaVersion}; " ++
      "upgrade featuremap.toml to the current schema"
  else if schemaVersion < found then
    s!"schema version {found} is newer than supported {schemaVersion}; " ++
      "upgrade the featuremap package"
  else "schema version is current"

end Config

/-! ## Issues -/

/-- One thing that is wrong with a configuration. -/
structure ConfigIssue where
  path : String
  message : String
deriving DecidableEq, Repr, Inhabited

/-- The message that lists all issues. -/
def ConfigIssue.report (issues : List ConfigIssue) : String :=
  "invalid config:\n" ++
    (if issues.isEmpty then "unknown validation failure"
    else Text.join "\n" (issues.map fun i => "- " ++ i.path ++ ": " ++ i.message))

/-- A pattern text that fails otherwise than by a fault of its syntax stops the validation. -/
structure PatternFailure where
  source : String
  error : PatternError
deriving DecidableEq, Repr, Inhabited

/-- Validation steps collect issues. -/
abbrev Check := StateT (List ConfigIssue) (Except PatternFailure)

namespace Check

/-- Records an issue. -/
def issue (path message : String) : Check Unit := modify (· ++ [⟨path, message⟩])

/-- Records an issue in place of a value. -/
def refuse {α : Type} (path message : String) : Check (Option α) := do
  issue path message
  return none

/-- The path of a field. -/
def below (path key : String) : String := if path == "" then key else path ++ "." ++ key

/-! ## Values -/

/-- The fields of a mapping; other keys than texts are issues. -/
def fieldsOf (path : String) : List (SettingKey × Setting) → Check (Table Setting)
  | [] => return []
  | (.text k, v) :: rest => return (k, v) :: (← fieldsOf path rest)
  | (k, _) :: rest => do
    issue path ("object key must be string, got " ++ k.typeName)
    fieldsOf path rest

/-- A mapping. -/
def object (path : String) : Setting → Check (Option (Table Setting))
  | .map entries => return some (← fieldsOf path entries)
  | v => refuse path ("expected object, got " ++ v.typeName)

/-- A text that is not blank, trimmed. -/
def text (path : String) : Setting → Check (Option String)
  | .str s =>
    if Text.strip s == "" then refuse path "must not be empty" else return some (Text.strip s)
  | v => refuse path ("expected string, got " ++ v.typeName)

/-- A text that can be a path. -/
def pathText (path : String) (v : Setting) : Check (Option String) := do
  match ← text path v with
  | none => return none
  | some s =>
    if s.toList.contains '\x00' then refuse path "must not contain NUL bytes" else return some s

/-- The elements of a list of values. -/
def elements? : Setting → Option (List Setting)
  | .list xs => some xs
  | .bytes bs => some (bs.map fun b => .int b.toNat)
  | _ => none

/-- The path of a list element. -/
def at_ (path : String) (index : Nat) : String := path ++ "[" ++ toString index ++ "]"

/-- Texts from an index on, if all of them are accepted. -/
def textsFrom (path : String) : Nat → List Setting → Check (Option (List String))
  | _, [] => return some []
  | index, x :: xs => do
    let first ← text (at_ path index) x
    let rest ← textsFrom path (index + 1) xs
    return do return (← first) :: (← rest)

/-- A list of texts. -/
def texts (path : String) (v : Setting) : Check (Option (List String)) :=
  match elements? v with
  | none => refuse path ("expected list of strings, got " ++ v.typeName)
  | some xs => textsFrom path 0 xs

/-- Records the faults of pattern texts from an index on; says whether there is none. -/
def patternsFrom (path : String) : Nat → List String → Check Bool
  | _, [] => return true
  | index, s :: rest => do
    match Pattern.compile s with
    | .ok _ => patternsFrom path (index + 1) rest
    | .error (.fault f position) =>
      issue (at_ path index)
        ("invalid regular expression: " ++ PatternError.message (.fault f position) s)
      let _ ← patternsFrom path (index + 1) rest
      return false
    | .error e => throw ⟨s, e⟩

/-- A list of pattern texts. -/
def patterns (path : String) (v : Setting) : Check (Option (List String)) := do
  match ← texts path v with
  | none => return none
  | some ps => return if ← patternsFrom path 0 ps then some ps else none

/-- An integer from a minimum on; booleans are no integers. -/
def integer (minimum : Int) (path : String) : Setting → Check (Option Int)
  | .int n =>
    if n < minimum then refuse path ("must be >= " ++ toString minimum) else return some n
  | v => refuse path ("expected integer, got " ++ v.typeName)

/-- One of the given words. -/
def oneOf (words : List String) (path : String) (v : Setting) : Check (Option String) := do
  match ← text path v with
  | none => return none
  | some s =>
    if words.contains s then return some s
    else
      let expected := Text.join ", " (Text.sort words)
      refuse path ("invalid value " ++ Text.quoted s ++ "; expected one of: " ++ expected)

/-! ## Sections -/

/-- Refuses unknown fields and asks for missing ones, both in ascending order. -/
def shape (allowed : List String) (path : String) (fields : Table Setting) : Check Unit := do
  (Text.sort ((fields.map Prod.fst).filter (!allowed.contains ·))).forM fun k =>
    issue (below path k) "unknown field"
  (Text.sort (allowed.filter fun k => (fields.lookup k).isNone)).forM fun k =>
    issue (below path k) "missing required field"

/-- Checks a field that is there. -/
def field {α : Type} (fields : Table Setting) (path key : String)
    (check : String → Setting → Check (Option α)) : Check (Option α) :=
  match fields.lookup key with
  | none => return none
  | some v => check (below path key) v

/-- The schema version has to be the one that is understood. -/
def version (path : String) (v : Setting) : Check (Option Int) := do
  match ← integer 1 path v with
  | none => return none
  | some n =>
    if n != Config.schemaVersion then issue path (Config.versionAdvice n)
    return some n

/-- The globs of the files to read; there has to be one. -/
def globs (path : String) (v : Setting) : Check (Option (List String)) := do
  match ← texts path v with
  | none => return none
  | some gs =>
    if gs.isEmpty then issue path "must list at least one glob"
    return some gs

/-- A log level in any case. -/
def logLevel (path : String) (v : Setting) : Check (Option String) :=
  oneOf Config.logLevels path
    (match v with
    | .str s => .str (Text.upper s)
    | v => v)

/-- A log file; a blank text stands for none. -/
def logFile (path : String) (v : Setting) : Check (Option String) :=
  match v with
  | .str s => if Text.strip s == "" then return some "" else pathText path v
  | _ => pathText path v

/-- The section about the configuration itself. -/
def metaSection (path : String) (fields : Table Setting) : Check (Option MetaSection) := do
  shape ["schema_version"] path fields
  let schemaVersion ← field fields path "schema_version" version
  return do return ⟨← schemaVersion⟩

/-- The section about the files to read and the map to write. -/
def mapSection (path : String) (fields : Table Setting) : Check (Option MapSection) := do
  shape ["include", "exclude", "output_dir"] path fields
  let included ← field fields path "include" globs
  let excluded ← field fields path "exclude" texts
  let outputDir ← field fields path "output_dir" pathText
  return do return ⟨← included, ← excluded, ← outputDir⟩

/-- The section about the reference analysis. -/
def analysisSection (path : String) (fields : Table Setting) : Check (Option AnalysisSection) := do
  shape ["tsconfig", "read_concurrency", "component_patterns", "action_patterns", "module_patterns"]
    path fields
  let tsconfig ← field fields path "tsconfig" pathText
  let component ← field fields path "component_patterns" patterns
  let action ← field fields path "action_patterns" patterns
  let module ← field fields path "module_patterns" patterns
  let readConcurrency ← field fields path "read_concurrency" (integer 1)
  return do return ⟨← tsconfig, ⟨← component, ← action, ← module⟩, ← readConcurrency⟩

/-- The section about logging. -/
def observabilitySection (path : String) (fields : Table Setting) :
    Check (Option ObservabilitySection) := do
  shape ["log_level", "log_file"] path fields
  let level ← field fields path "log_level" logLevel
  let file ← field fields path "log_file" logFile
  return do return ⟨← level, ← file⟩

/-- Checks a section unless it is missing or null. -/
def checkSection {α : Type} (fields : Table Setting) (key : String)
    (check : String → Table Setting → Check (Option α)) : Check (Option α) := do
  match fields.lookup key with
  | none => return none
  | some .null => return none
  | some v =>
    match ← object key v with
    | none => return none
    | some section_ => check key section_

/-- A whole configuration. -/
def root (v : Setting) : Check Config := do
  match ← object "<root>" v with
  | none => return ⟨none, none, none, none⟩
  | some fields =>
    shape ["meta", "feature_map", "analysis", "observability"] "" fields
    return {
      meta_ := ← checkSection fields "meta" metaSection
      featureMap := ← checkSection fields "feature_map" mapSection
      analysis := ← checkSection fields "analysis" analysisSection
      observability := ← checkSection fields "observability" observabilitySection }

end Check

/-- Validates a setting: the configuration, or all issues in order. -/
def Config.validate (v : Setting) : Except PatternFailure (Except (List ConfigIssue) Config) := do
  let (config, issues) ← (Check.root v).run []
  return if issues.isEmpty then .ok config else .error issues

end FeatureAtlas
