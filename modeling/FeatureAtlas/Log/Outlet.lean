import FeatureAtlas.FileTree.Write
import FeatureAtlas.Log.Event
import FeatureAtlas.Log.Record

/-!
# Log outlets

An outlet is set up for one logger and takes the records of that logger and of those below it, by dotted
names. What reaches its level is written as lines to the error stream, to a file, or to both, until it is
closed.
-/

namespace FeatureAtlas

/-- How an outlet is to be set up. -/
structure LogSetup where
  level : Datum := .text "INFO"
  file : Datum := .null
  logger : String := "featuremap"
  toStream : Bool := true
deriving Inhabited

/-- The set-up that a section of the configuration asks for: a level or a file of a kind that cannot be one is
ignored, and talkative runs log everything from debugging messages on. -/
def LogSetup.ofSection (fields : Table Datum) (verbose : Bool) : LogSetup :=
  let level := match fields.lookup "log_level" with
    | some (.int n) => .int n
    | some (.bool b) => .bool b
    | some (.text s) => .text s
    | _ => .text "INFO"
  let file := match fields.lookup "log_file" with
    | some (.text s) => if s == "" then .null else .text s
    | _ => .null
  { level := if verbose then .text "DEBUG" else level, file }

/-- Why an outlet cannot be set up. -/
inductive LogSetupError where
  | level (e : LevelError)
  | file (e : FileError)
  | notAPath (kind : String)
deriving DecidableEq, Repr, Inhabited

/-- The message about an outlet that cannot be set up. -/
def LogSetupError.message : LogSetupError → String
  | level e => e.message
  | file e => e.message
  | notAPath kind => "expected str, bytes or os.PathLike object, not " ++ kind

/-- The file of an outlet: the path it was given and the absolute one it is opened by. -/
structure LogFile where
  given : Path
  opened : Path
deriving DecidableEq, Repr, Inhabited

/-- An outlet for records. -/
structure LogOutlet where
  level : Int
  logger : String
  toStream : Bool
  file : Option LogFile
  active : Bool := true
deriving Inhabited

/-- A call to a logger. -/
structure LogCall where
  logger : String
  severity : Severity
  event : String
  arguments : List Datum := []
  /-- Fields that the logger carries from call to call. -/
  bound : Table Datum := []
  fields : Table Datum := []
  failure : Option LoggedFailure := none
deriving Inhabited

/-- Why a call is refused. -/
inductive LogCallError where
  | reservedField (key : String)
  | eventTwice (severity : Severity)
  | template (e : TemplateError)
deriving DecidableEq, Repr, Inhabited

/-- The message about a refused call. -/
def LogCallError.message : LogCallError → String
  | reservedField key =>
    Text.quoted ("Attempt to overwrite " ++ Text.quoted key ++ " in LogRecord")
  | eventTwice severity =>
    "BoundLogger." ++ severity.text ++ "() got multiple values for argument 'event'"
  | template e => e.message

namespace LogSetup

/-- Opens the file of a set-up, with the directories above it. -/
def openFile (s : LogSetup) (cwd : List String) (t : FileNode) :
    Except LogSetupError (Option LogFile × FileNode) :=
  let opened (given : Path) : Except LogSetupError (Option LogFile × FileNode) := do
    let t ← (t.makeDirectories cwd given.parent).mapError .file
    let path := ((FileNode.pathOf cwd).join given).normalize
    let t ← (t.append cwd path []).mapError .file
    return (some ⟨given, path⟩, t)
  match s.file with
  | .null => .ok (none, t)
  | .text path => opened (Path.ofString path)
  | .path path => opened path
  | v => .error (.notAPath v.kindName)

/-- Sets up an outlet. -/
def start (s : LogSetup) (cwd : List String) (t : FileNode) :
    Except LogSetupError (LogOutlet × FileNode) := do
  let level ← (LogLevel.ofDatum s.level).mapError .level
  let (file, t) ← s.openFile cwd t
  return ({ level, logger := s.logger, toStream := s.toStream, file }, t)

end LogSetup

namespace LogOutlet

/-- The logger above all others, which has two names. -/
def isTop (logger : String) : Bool := logger == "" || logger == "root"

/-- The name under which a logger writes. -/
def displayName (logger : String) : String := if isTop logger then "root" else logger

/-- Whether a logger is the outlet's own or below it. -/
def covers (o : LogOutlet) (logger : String) : Bool :=
  isTop o.logger || logger == o.logger || Text.startsWith logger (o.logger ++ ".")

/-- The level from which on a logger accepts calls. An outlet without a level leaves it to the loggers
above it. -/
def threshold (o : LogOutlet) (logger : String) : Int :=
  if !o.covers logger then LogLevel.fallback
  else if o.level != LogLevel.unset then o.level
  else if isTop o.logger then LogLevel.unset
  else LogLevel.fallback

/-- Whether a call is accepted. -/
def accepts (o : LogOutlet) (c : LogCall) : Bool :=
  o.threshold c.logger ≤ Int.ofNat c.severity.level

/-- The fields that a call may not set. -/
def reserved : List String := LogRecord.ownAttributes.filter (· != "taskName")

/-- The record of a call. -/
def recordOf (now : EpochSeconds) (c : LogCall) (message : String) (arguments : Datum)
    (fields : Table Datum) (failure : Option LoggedFailure) : Except LogCallError LogRecord :=
  match fields.find? fun (k, _) => reserved.contains k with
  | some (key, _) => .error (.reservedField key)
  | none => .ok {
      created := now
      level := LogLevel.text (Int.ofNat c.severity.level)
      logger := displayName c.logger
      message := .text message
      arguments, fields, failure }

/-- What a call fills its event with: its own arguments, or those of the field that stands for them. -/
def positional (c : LogCall) : Option Datum :=
  if c.arguments.isEmpty then (Table.ofEntries (c.bound ++ c.fields)).lookup "positional_args"
  else some (.tuple c.arguments)

/-- Arguments as a template takes them: a single table with entries stands for itself. -/
def templateArguments : Datum → Datum
  | .tuple xs => LogRecord.argumentsOf xs
  | .list [.map (e :: entries)] => .map (e :: entries)
  | v => v

/-- Fields that steer a call and are not logged. -/
def steering : List String := ["event", "exc_info", "stack_info", "stacklevel"]

/-- The record of a call with an event: the event is filled in at once, the fields are those that the logger
carries and those of the call, and a failure is a field as well. -/
def eventRecord (o : LogOutlet) (now : EpochSeconds) (c : LogCall) :
    Except LogCallError (Option LogRecord) := do
  if (c.fields.lookup "event").isSome then .error (.eventTwice c.severity)
  else if !o.accepts c then return none
  else
    let arguments := positional c
    let message ← match arguments with
      | none => pure c.event
      | some v =>
        if v.isBlank then pure c.event
        else (fillTemplate c.event (templateArguments v)).mapError .template
    let present := match arguments with
      | none | some .null => []
      | some _ => ["positional_args"]
    let fields := (Table.ofEntries (c.bound ++ c.fields)).filter fun (k, _) =>
      !(steering ++ present).contains k
    let fields := match c.failure with
      | none => fields
      | some f => Table.set "exception" (.text f.text) fields
    return some (← recordOf now c message (.tuple []) fields none)

/-- The record of a plain call: message and arguments stay apart until the line is written. -/
def plainRecord (o : LogOutlet) (now : EpochSeconds) (c : LogCall) :
    Except LogCallError (Option LogRecord) := do
  if !o.accepts c then return none
  else
    return some (← recordOf now c c.event (LogRecord.argumentsOf c.arguments) c.fields c.failure)

/-- Writes a record: the lines on the stream, and the tree with the file. A record without a line leaves no
trace. -/
def write (o : LogOutlet) (r : LogRecord) (t : FileNode) : List String × FileNode :=
  if !o.active || !o.covers r.logger then ([], t)
  else match r.line with
    | .error _ => ([], t)
    | .ok line =>
      let t := match o.file with
        | none => t
        | some f => ((t.append [] f.opened (Utf8.encode (line ++ "\n"))).toOption).getD t
      (if o.toStream then [line] else [], t)

/-- Logs the record that a call gives, if any. -/
def log (o : LogOutlet) (record : Except LogCallError (Option LogRecord)) (t : FileNode) :
    Except LogCallError (List String × FileNode) := do
  match ← record with
  | none => return ([], t)
  | some r => return o.write r t

/-- Closes an outlet: it writes nothing more. -/
def close (o : LogOutlet) : LogOutlet := { o with active := false }

end LogOutlet

end FeatureAtlas
