import FeatureAtlas.Console.Exit
import FeatureAtlas.Console.Invocation
import FeatureAtlas.Failure.Report
import FeatureAtlas.Text.Integer
import FeatureAtlas.Usage.Basic

/-!
# Running a call

A call runs in surroundings: a file tree, a working directory, an environment and a clock. It ends with an
exit code, and leaves behind what it printed, what it logged and the tree with what it wrote.
-/

namespace FeatureAtlas

/-- Where a call runs. -/
structure Surroundings where
  tree : FileNode
  cwd : List String
  environment : Environment
  now : DateTime
  /-- A name part that no file has. -/
  fresh : String
deriving Inhabited

/-- What a call leaves behind. -/
structure Outcome where
  code : ExitCode
  output : String := ""
  errors : String := ""
  tree : FileNode
deriving Inhabited

/-- Why a command ends early: it refuses its task and says so, or something fails under it. -/
inductive CommandError where
  | refused (message : String) (code : ExitCode)
  | failed (f : Failure)
deriving Inhabited

namespace CommandError

/-- The code of a command that ended early. -/
def code : CommandError → ExitCode
  | refused _ code => code
  | failed f => if f.kind.isConfiguration then .configError else .internalError

/-- The line above the failure that a crash is reported by. -/
def crashLead : String := "Traceback (most recent call last):"

/-- What a command that ended early says on the error stream. -/
def text : CommandError → String
  | refused message _ => lineText ("error: " ++ message)
  | failed f =>
    if f.kind.isConfiguration then f.errorText
    else lineText crashLead ++
      lineText (if f.message == "" then f.kind.name else f.kind.name ++ ": " ++ f.message)

/-- A failure of a load: what the user can mend is refused. -/
def ofLoad (e : LoadError) : CommandError :=
  let f := Reportable.failure e
  match f.kind with
  | .configLoad | .configInvalid => refused f.message .configError
  | _ => failed f

/-- A failure of a generation: a project that cannot be read and a map that cannot be written are refused. -/
def ofGeneration (e : GenerationError) : CommandError :=
  let f := Reportable.failure e
  match f.kind with
  | .projectLoad => refused f.message .configError
  | .other "FeatureMapWriteError" => refused f.message .internalError
  | _ => failed f

end CommandError

namespace Console

/-- The columns of the terminal; eighty unless the environment says otherwise. -/
def columns (environment : Environment) : Nat :=
  match (environment.lookup "COLUMNS").bind Text.integer? with
  | some n => if 0 < n then n.toNat else 80
  | none => 80

/-- Errors of the library as failures of a command. -/
def guarded {ε α : Type} [Reportable ε] (r : Except ε α) : Except CommandError α :=
  (reported r).mapError .failed

/-- The place of the project, which has to be a directory. -/
def projectRoot (s : Surroundings) (given : String) : Except CommandError (List String) := do
  let path ← guarded ((Path.ofString given).expandHome s.environment)
  let place ← guarded (s.tree.canonical s.cwd path)
  if s.tree.isDirectoryAt place then return place
  else .error (.refused
    ("project root is not a directory: " ++ (FileNode.pathOf place).toString) .configError)

/-- The configuration that is in force for a project. -/
def effectiveConfig (s : Surroundings) (o : Settings) (root : List String) :
    Except CommandError Config :=
  let given (key : String) (value : Option String) : Table Setting :=
    match value with
    | none => []
    | some v => [(key, .str v)]
  (Config.load s.tree s.environment s.cwd
    { path := o.config, searchDir := FileNode.pathOf root, environment := s.environment
      options := given "feature_map.output_dir" o.output ++ given "analysis.tsconfig" o.tsconfig }
    ).mapError .ofLoad

/-! ## Logging -/

/-- The logger of the commands. -/
def logger : String := "featuremap.cli"

/-- The outlet that a configuration asks for, with the tree in which its file is open. -/
def startLog (s : Surroundings) (o : Settings) (root : List String) (c : Config) :
    Except CommandError (LogOutlet × FileNode) := do
  let resolved ← guarded (c.resolvePaths s.environment (FileNode.pathOf root))
  let some section_ := resolved.observability
    | throw (.failed (Reportable.failure (OptionsError.noSection "observability")))
  let setup := LogSetup.ofSection
    [("log_level", .text section_.logLevel), ("log_file", .text section_.logFile)] o.verbose
  guarded (setup.start s.cwd s.tree)

/-- Logs the events of a command one after the other; gives the lines on the error stream. -/
def logEvents (s : Surroundings) (command : Command) (outlet : LogOutlet) (events : List LogEvent)
    (t : FileNode) : String × FileNode :=
  events.foldl (fun (text, t) e =>
    let call : LogCall :=
      { logger, severity := e.severity, event := e.name
        bound := [("command", .text command.name)]
        fields := e.fields.map fun (k, v) => (k, Datum.ofJson v) }
    match outlet.log (outlet.eventRecord (.ofInstant s.now.instant) call) t with
    | .ok (lines, t) => (text ++ String.join (lines.map lineText), t)
    | .error _ => (text, t)) ("", t)

/-! ## Reports -/

/-- A JSON object on a line of its own. -/
def jsonLine (fields : Table Json) : String := lineText (Json.canonical (.obj fields))

/-- Names separated by commas, or something in their stead. -/
def namesOr (absent : String) (names : List String) : String :=
  if Text.join ", " names == "" then absent else Text.join ", " names

/-- A path as the project's user sees it. -/
def displayPath (t : FileNode) (cwd root : List String) (p : Path) : String :=
  match t.canonical cwd p with
  | .ok place =>
    if root.isPrefixOf place then (Path.mk "" (place.drop root.length)).toString else p.toString
  | .error _ => p.toString

/-- The report of a build. -/
def buildReport (verbose : Bool) (written : Option String) (r : GenerationResult) : List ReportPart :=
  let sizes := r.map.features.map (fun (name, g) => (name, Json.int g.size)) ++
    (if r.map.uncategorized.size == 0 then [] else [("(uncategorized)", .int r.map.uncategorized.size)])
  [.heading (match written with
    | none => "Feature map generated (dry run, nothing written)"
    | some path => "Feature map written: " ++ path),
   .entry "Files scanned" (.int r.files.length)] ++
  (if r.files.isEmpty then [.warning "no source files matched the include globs"] else []) ++
  [.entry "Items" (.int r.map.size), .entry "Features" (.int r.map.features.length),
   .entry "Apps" (.str (namesOr "(none)" r.map.apps)),
   .counts "Merged references:" r.stats.fields] ++
  (if verbose then [.counts "Items per feature:" (.ofEntries sizes)] else [])

/-- The report of an analysis. -/
def analysisReport (verbose : Bool) (files : List String) (a : Analysis) : List ReportPart :=
  let row (entry : String × FileUsage) : List Json :=
    [.str entry.1, .str (namesOr "-" entry.2.components), .str (namesOr "-" entry.2.actions),
     .str (namesOr "-" entry.2.modules)]
  [.entry "Files collected" (.int files.length),
   .entry "Files with references" (.int a.usages.length),
   .table (some "Usages:") [.str "File", .str "Components", .str "Actions", .str "Modules"]
     (a.usages.map row)] ++
  (if verbose && !a.reverse.modulePaths.isEmpty then
    [.section_ "Module paths:",
     .items ReportPart.defaultMark (a.reverse.modulePaths.map fun (path, files) =>
       .str (path ++ " <- " ++ Text.join ", " files))]
   else [])

/-! ## Commands -/

/-- An outcome that a command reached without a failure. -/
def finished (output errors : String) (t : FileNode) : Outcome :=
  { code := .success, output, errors, tree := t }

/-- An outcome of a command that ended early. -/
def stopped (e : CommandError) (errors : String) (t : FileNode) : Outcome :=
  { code := e.code, errors := errors ++ e.text, tree := t }

/-- Generates the map. -/
def runBuild (s : Surroundings) (o : Settings) : Except CommandError Outcome := do
  let root ← projectRoot s o.project
  let c ← effectiveConfig s o root
  let options ← guarded (GenerationOptions.ofConfig s.environment root c)
  let (outlet, t) ← startLog s o root c
  let r := Generation.run s.fresh (!o.dryRun) s.now options t
  let (lines, t) := logEvents s .build outlet r.events r.tree
  match r.result with
  | .error e => return stopped (.ofGeneration e) lines t
  | .ok result =>
    let output :=
      if o.json then
        jsonLine ([("command", .str Command.build.name), ("dry_run", .bool o.dryRun)] ++ result.summary)
      else
        reportText (buildReport o.verbose (result.output.map (displayPath t s.cwd root)) result)
    return finished output lines t

/-- Analyses the references. -/
def runAnalyze (s : Surroundings) (o : Settings) : Except CommandError Outcome := do
  let root ← projectRoot s o.project
  let c ← effectiveConfig s o root
  let options ← guarded (GenerationOptions.ofConfig s.environment root c)
  let (outlet, t) ← startLog s o root c
  let files := Generation.collected t options
  match Generation.analyse t options files with
  | .error e => return stopped (.ofGeneration e) "" t
  | .ok (analysis, events) =>
    let (lines, t) := logEvents s .analyze outlet events t
    let output :=
      if o.json then
        jsonLine ([("command", .str Command.analyze.name), ("files", .int files.length)] ++
          analysis.fields)
      else reportText (analysisReport o.verbose files analysis)
    return finished output lines t

/-- Prints the configuration that is in force. -/
def runConfig (s : Surroundings) (o : Settings) : Except CommandError Outcome := do
  let root ← projectRoot s o.project
  let c ← effectiveConfig s o root
  let resolved ← guarded (c.resolvePaths s.environment (FileNode.pathOf root))
  let config := resolved.toSetting.toJson?.getD .null
  let rootText := Json.str (FileNode.pathOf root).toString
  let output :=
    if o.json then
      jsonLine [("command", .str Command.config.name), ("project_root", rootText), ("config", config)]
    else
      reportText [.entry "Project root" rootText, .line (Json.indented 2 config.sorted)]
  return finished output "" s.tree

/-- Runs a command. -/
def runCommand (s : Surroundings) (o : Settings) : Command → Except CommandError Outcome
  | .build => runBuild s o
  | .analyze => runAnalyze s o
  | .config => runConfig s o

/-- Runs a call. -/
def run (s : Surroundings) (arguments : List String) : Outcome :=
  let columns := columns s.environment
  match Invocation.ofArguments arguments with
  | .error e => { code := .configError, errors := e.text columns, tree := s.tree }
  | .ok (.help scope) => finished (Help.text columns scope) "" s.tree
  | .ok (.run command settings) =>
    match runCommand s settings command with
    | .ok outcome => outcome
    | .error e => stopped e "" s.tree

end Console

end FeatureAtlas
