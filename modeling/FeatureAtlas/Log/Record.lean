import FeatureAtlas.Datum.Plain
import FeatureAtlas.Log.Level
import FeatureAtlas.Log.Template
import FeatureAtlas.Time.Epoch

/-!
# Log records

A record is what one call to a logger leaves behind: when, how serious, by which logger, a message with its
arguments, and fields of the caller's choice. Its line is one JSON object with sorted keys, so that a record
never takes more than a line.
-/

namespace FeatureAtlas

/-- A failure that is logged with a record. -/
structure LoggedFailure where
  kind : String
  message : String
deriving DecidableEq, Repr, Inhabited

/-- The text of a failure: its kind and what it says, if anything. -/
def LoggedFailure.text (f : LoggedFailure) : String :=
  if f.message == "" then f.kind else f.kind ++ ": " ++ f.message

/-- A log record. The message is a template if there are arguments. -/
structure LogRecord where
  created : EpochSeconds
  level : String
  logger : String
  message : Datum
  arguments : Datum := .tuple []
  fields : Table Datum := []
  failure : Option LoggedFailure := none
  stack : Datum := .null
deriving Inhabited

/-- Why a record has no line. -/
inductive RecordError where
  | clock (e : EpochError)
  | template (e : TemplateError)
  | momentOutOfRange
deriving DecidableEq, Repr, Inhabited

/-- The message about a record without a line. -/
def RecordError.message : RecordError → String
  | clock e => e.message
  | template e => e.message
  | momentOutOfRange => "date value out of range"

namespace LogRecord

/-- The attributes that every record has of itself, or may have. -/
def ownAttributes : List String :=
  ["args", "asctime", "created", "exc_info", "exc_text", "filename", "funcName", "levelname", "levelno",
   "lineno", "message", "module", "msecs", "msg", "name", "pathname", "process", "processName",
   "relativeCreated", "stack_info", "thread", "threadName", "taskName"]

/-- Fields that a line shows: those that are no attribute of a record, and not private. -/
def isShown (key : String) : Bool := !ownAttributes.contains key && !Text.startsWith key "_"

/-- The arguments that a list of them stands for: a single table with entries stands for itself. -/
def argumentsOf : List Datum → Datum
  | [.map (e :: entries)] => .map (e :: entries)
  | xs => .tuple xs

/-- The message with its arguments filled in. -/
def filled (r : LogRecord) : Except TemplateError String :=
  if r.arguments.isBlank then .ok r.message.shown else fillTemplate r.message.shown r.arguments

/-- The fields that the line shows. -/
def shownFields (r : LogRecord) : Table Datum := r.fields.filter fun (k, _) => isShown k

/-- The fields that the line shows, in plain form. -/
def plainFields? (r : LogRecord) : Option (Table Json) :=
  (Datum.plainEntries? (r.shownFields.map fun (k, v) => (Datum.text k, v))).map Table.ofEntries

/-- What the event of a record says: fields, failure and stack are left out if there are none. -/
def entries (r : LogRecord) (instant : Instant) (message : String) (fields : Table Json) : Table Json :=
  [("timestamp", .str (DateTime.ofInstant instant).stamp), ("level", .str r.level),
   ("logger", .str r.logger), ("message", .str message)] ++
  (if fields.isEmpty then [] else [("fields", .obj fields)]) ++
  (match r.failure with
    | none => []
    | some f => [("exception", .str f.text)]) ++
  (if r.stack.isBlank then [] else [("stack", .str r.stack.shown)])

/-- The event that the line writes. -/
def event (r : LogRecord) : Except RecordError Json := do
  let instant ← r.created.instant.mapError .clock
  let message ← r.filled.mapError .template
  match r.plainFields? with
  | none => .error .momentOutOfRange
  | some fields => return .obj (r.entries instant message fields)

/-- The line of a record. -/
def line (r : LogRecord) : Except RecordError String := r.event.map Json.canonical

/-- Sets an attribute of a record: its own ones change the record, all others are fields. -/
def setAttribute (r : LogRecord) (key : String) (value : Datum) : LogRecord :=
  match key, value with
  | "name", .text s => { r with logger := s }
  | "levelname", .text s => { r with level := s }
  | "msg", v => { r with message := v }
  | "args", v => { r with arguments := v }
  | "created", .int n => { r with created := .whole n }
  | "created", .float x => { r with created := .fractional x }
  | "stack_info", v => { r with stack := v }
  | "exc_info", .null => { r with failure := none }
  | k, v => { r with fields := r.fields.set k v }

/-- Sets attributes one after the other. -/
def setAttributes (r : LogRecord) (attributes : Table Datum) : LogRecord :=
  attributes.foldl (fun r (k, v) => r.setAttribute k v) r

end LogRecord

end FeatureAtlas
