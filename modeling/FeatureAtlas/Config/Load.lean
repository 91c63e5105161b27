import FeatureAtlas.Config.Override
import FeatureAtlas.Config.PathField
import FeatureAtlas.Config.Schema
import FeatureAtlas.FileTree.Canonical
import FeatureAtlas.Text.Utf8
import FeatureAtlas.Toml.Reader
import FeatureAtlas.Yaml.Reader

/-!
# Loading a configuration

A configuration is made of four layers: the defaults, a file, the environment and the command line. Each
layer overrides the ones before it, setting by setting. The file is TOML or YAML by its suffix.
-/

namespace FeatureAtlas

/-- Why a configuration cannot be loaded. -/
inductive LoadError where
  | noFile (path : Path)
  | unreadable (path : Path) (e : FileError)
  | invalidToml (path : Path)
  | invalidYaml (path : Path)
  | rootNotObject (path : Path)
  | override (e : OverrideError)
  | invalid (issues : List ConfigIssue)
  /-- The file cannot be looked for; the message is the system's. -/
  | notSought (e : FileError)
  /-- The file is no text; the message is about its bytes alone. -/
  | notText (e : Utf8Error)
  /-- A YAML scalar is not of its type. -/
  | yamlScalar (e : Yaml.Fault)
  | keyOrder (e : KeyOrderError)
  | pattern (e : PatternFailure)
  | home (e : HomeError)
  | loop (path : Path)
deriving Inhabited

/-- The message about a configuration that cannot be loaded. -/
def LoadError.message : LoadError → String
  | noFile path => "config file not found: " ++ path.toString
  | unreadable path e => "unable to read config file " ++ path.toString ++ ": " ++ e.message
  | invalidToml path => "invalid TOML in " ++ path.toString
  | invalidYaml path => "invalid YAML in " ++ path.toString
  | rootNotObject path => "config root must be an object: " ++ path.toString
  | override e => e.message
  | invalid issues => ConfigIssue.report issues
  | notSought e => e.message
  | notText e => e.message
  | yamlScalar e => e.message
  | keyOrder e => e.message
  | pattern e => e.error.message e.source
  | home e => e.message
  | loop path => (CanonicalError.loop path).message

namespace ConfigFile

/-- The names under which a configuration file is looked for. -/
def candidates : List String := ["featuremap.toml", "featuremap.yaml", "featuremap.yml"]

/-- Suffixes of YAML files, in lower case. -/
def yamlSuffixes : List String := [".yaml", ".yml"]

/-- The canonical path of a path. -/
def canonicalPath (t : FileNode) (cwd : List String) (p : Path) : Except LoadError Path :=
  match t.canonical cwd p with
  | .ok place => .ok (FileNode.pathOf place)
  | .error (.loop path) => .error (.loop path)
  | .error (.refused e) => .error (.unreadable p e)

/-- The first of some paths that denotes anything. -/
def firstPresent (t : FileNode) (cwd : List String) : List Path → Except LoadError (Option Path)
  | [] => return none
  | p :: rest => do
    if ← (t.present cwd p).mapError .notSought then return some p else firstPresent t cwd rest

/-- The file to load: the given one, or the first candidate in a directory. -/
def find (t : FileNode) (environment : Environment) (cwd : List String) (given : Option String)
    (searchDir : Path) : Except LoadError (Option Path) :=
  match given with
  | some text => do
    let p ← ((Path.ofString text).expandHome environment).mapError .home
    return some (← canonicalPath t cwd p)
  | none => do
    match ← firstPresent t cwd (candidates.map fun n => searchDir.join (Path.ofString n)) with
    | some p => return some (← canonicalPath t cwd p)
    | none => return none

/-- The value of a TOML file. -/
def readToml (path : Path) (bytes : List UInt8) : Except LoadError Setting :=
  match Utf8.decode bytes with
  | .error e => .error (.notText e)
  | .ok s =>
    match Toml.read? s with
    | some entries => .ok (.map entries)
    | none => .error (.invalidToml path)

/-- The value of a YAML file. -/
def readYaml (path : Path) (bytes : List UInt8) : Except LoadError Setting :=
  match Utf8.decodeStream bytes with
  | .error e => .error (.notText e)
  | .ok s =>
    match Yaml.read (Text.withNewlines s) with
    | .ok v => .ok v
    | .error .malformed => .error (.invalidYaml path)
    | .error e => .error (.yamlScalar e)

/-- The value of a file, TOML or YAML by its suffix. -/
def readValue (path : Path) (bytes : List UInt8) : Except LoadError Setting :=
  if yamlSuffixes.contains (Text.lower path.suffix) then readYaml path bytes
  else readToml path bytes

/-- The entries that the value of a file has; an empty file has none. -/
def entriesOf (path : Path) : Setting → Except LoadError (List (SettingKey × Setting))
  | .null => .ok []
  | .map es => .ok es
  | _ => .error (.rootNotObject path)

/-- The entries of a configuration file. A file that was given has to exist. -/
def entries (t : FileNode) (path : Path) (required : Bool) :
    Except LoadError (List (SettingKey × Setting)) := do
  if ← (t.present [] path).mapError .notSought then
    let bytes ← (t.read [] path).mapError (.unreadable path)
    entriesOf path (← readValue path bytes)
  else if required then throw (.noFile path)
  else return []

end ConfigFile

namespace Config

/-- What a configuration is loaded from. -/
structure Sources where
  /-- The file that was given. -/
  path : Option String := none
  /-- Where files are looked for if none was given. -/
  searchDir : Path
  /-- The environment with the overrides. -/
  environment : Environment := []
  /-- The overrides of the command line. -/
  options : Table Setting := []
deriving Inhabited

/-- A valid configuration. -/
def validated (v : Setting) : Except LoadError Config := do
  match ← (Config.validate v).mapError .pattern with
  | .ok c => return c
  | .error issues => throw (.invalid issues)

/-- Entries merged onto others. -/
def merged (base changes : List (SettingKey × Setting)) : Except LoadError Setting :=
  (Setting.merge base changes).mapError .keyOrder

/-- The layers below the environment: the entries of a file over the defaults. -/
def ofFile (fileEntries : List (SettingKey × Setting)) : Except LoadError Config := do
  validated (← merged Config.default.entries fileEntries)

/-- The layers above the file. -/
def withOverrides (c : Config) (environment : Environment) (options : Table Setting) :
    Except LoadError Config := do
  let fromEnvironment ← (Override.ofEnvironment c.toSetting environment).mapError .override
  let given ← (Override.ofOptions options).mapError .override
  let m ← merged c.entries fromEnvironment
  validated (← merged (m.entries?.getD []) given)

/-- The entries of the file that is loaded; without a file there are none. `process` is the environment of
the process, which knows the home directories. -/
def Sources.fileEntries (s : Sources) (t : FileNode) (process : Environment) (cwd : List String) :
    Except LoadError (List (SettingKey × Setting)) := do
  match ← ConfigFile.find t process cwd s.path s.searchDir with
  | some path => ConfigFile.entries t path s.path.isSome
  | none => return []

/-- Loads a configuration. -/
def load (t : FileNode) (process : Environment) (cwd : List String) (s : Sources) :
    Except LoadError Config := do
  (← ofFile (← s.fileEntries t process cwd)).withOverrides s.environment s.options

end Config

end FeatureAtlas
