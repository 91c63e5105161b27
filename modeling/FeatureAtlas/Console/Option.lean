import FeatureAtlas.Text.Basic

/-!
# Commands and options

The commands of the program with their options, and what the help says about each of them.
-/

namespace FeatureAtlas

/-- What an option changes. -/
inductive OptionKey where
  | help
  | project
  | config
  | tsconfig
  | verbose
  | json
  | output
  | dryRun
deriving DecidableEq, Repr, Inhabited

/-- An option: its spellings, the name of its value if it takes one, and its help. -/
structure OptionSpec where
  key : OptionKey
  flags : List String
  value : Option String := none
  help : String
deriving DecidableEq, Repr, Inhabited

namespace OptionSpec

/-- The option that asks for help. -/
def helpOption : OptionSpec :=
  { key := .help, flags := ["-h", "--help"], help := "show this help message and exit" }

/-- The options of every command. -/
def common : List OptionSpec :=
  [{ key := .project, flags := ["--project"], value := some "PROJECT_ROOT"
     help := "Monorepo root directory (default: current working directory)." },
   { key := .config, flags := ["--config"], value := some "CONFIG_PATH"
     help := "Path to a TOML or YAML config (default: featuremap.toml in the project if present)." },
   { key := .tsconfig, flags := ["--tsconfig"], value := some "TSCONFIG"
     help := "Compiler config for alias resolution, relative to the project root." },
   { key := .verbose, flags := ["--verbose", "-v"], help := "Show detailed output and DEBUG logs." },
   { key := .json, flags := ["--json"], help := "Emit deterministic JSON output" }]

/-- The options of a build. -/
def building : List OptionSpec :=
  [{ key := .output, flags := ["--output"], value := some "OUTPUT"
     help := "Output directory, relative to the project root (default: docs/portal)." },
   { key := .dryRun, flags := ["--dry-run"]
     help := "Run the full pipeline without writing the artifact." }]

/-- The name by which messages call an option. -/
def name (o : OptionSpec) : String := Text.join "/" o.flags

/-- How an option is given, with all its spellings. -/
def invocation (o : OptionSpec) : String :=
  Text.join ", " (o.flags.map fun flag =>
    match o.value with
    | none => flag
    | some v => flag ++ " " ++ v)

/-- How the usage shows an option. -/
def usagePart (o : OptionSpec) : String :=
  "[" ++ (o.flags.head?.getD "") ++ (match o.value with
    | none => ""
    | some v => " " ++ v) ++ "]"

end OptionSpec

/-- The commands of the program. -/
inductive Command where
  | build
  | analyze
  | config
deriving DecidableEq, Repr, Inhabited

namespace Command

/-- All commands. -/
def all : List Command := [build, analyze, config]

/-- The name of a command. -/
def name : Command → String
  | build => "build"
  | analyze => "analyze"
  | config => "config"

/-- The command of a name. -/
def ofName? (s : String) : Option Command := all.find? fun c => c.name == s

/-- The options of a command. -/
def options : Command → List OptionSpec
  | build => OptionSpec.helpOption :: OptionSpec.common ++ OptionSpec.building
  | _ => OptionSpec.helpOption :: OptionSpec.common

/-- The line about a command in the list of commands. -/
def summary : Command → String
  | build => "Generate the feature map artifact"
  | analyze => "Run reference analysis only"
  | config => "Print the effective configuration"

/-- What the help of a command says first. -/
def description : Command → List String
  | build =>
    ["Extract annotations, infer references, merge, and write feature-map.json.",
     "",
     "Examples:",
     "  featuremap build",
     "  featuremap build --project ../monorepo --output docs/portal",
     "  featuremap build --dry-run --json"]
  | analyze =>
    ["Parse collected TypeScript files and report verified usages per file.",
     "",
     "Examples:",
     "  featuremap analyze",
     "  featuremap analyze --json"]
  | config =>
    ["Show configuration after defaults, file, FEATUREMAP_* env, and CLI overrides.",
     "",
     "Examples:",
     "  featuremap config",
     "  FEATUREMAP_ANALYSIS_READ_CONCURRENCY=2 featuremap config --json"]

end Command

namespace Program

/-- The name of the program. -/
def name : String := "featuremap"

/-- What the help of the program says first. -/
def description : List String :=
  ["featuremap: annotation and reference based feature maps for TypeScript monorepos.",
   "",
   "Common workflows:",
   "  featuremap build             Generate docs/portal/feature-map.json",
   "  featuremap analyze           Show inferred component/action/module usage",
   "  featuremap config            Print the effective configuration"]

/-- The commands as the usage shows them. -/
def choices : String := "\x7b" ++ Text.join "," (Command.all.map Command.name) ++ "\x7d"

end Program

end FeatureAtlas
