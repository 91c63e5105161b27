import FeatureAtlas.Datum.Basic
import FeatureAtlas.Text.Case
import FeatureAtlas.Text.Printable

/-!
# Log levels

A level is an integer; the usual ones have names. A logger lets through what is at least at its level.
-/

namespace FeatureAtlas

/-- Why a datum is no level. -/
inductive LevelError where
  | unknownName (name : String)
  | wrongKind (kind : String)
deriving DecidableEq, Repr, Inhabited

/-- The message about a level. -/
def LevelError.message : LevelError → String
  | unknownName name => "unsupported logging level " ++ Text.quoted name
  | wrongKind kind => "level must be int or str, got " ++ kind

namespace LogLevel

/-- The names of levels. -/
def names : List (String × Int) :=
  [("CRITICAL", 50), ("FATAL", 50), ("ERROR", 40), ("WARN", 30), ("WARNING", 30), ("INFO", 20),
   ("DEBUG", 10), ("NOTSET", 0)]

/-- The level without a name of its own that lets everything through. -/
def unset : Int := 0

/-- The level of loggers that nobody set. -/
def fallback : Int := 30

/-- The level that a datum names: a number is a level, and names are read in any case, with blanks around
them. -/
def ofDatum : Datum → Except LevelError Int
  | .int n => .ok n
  | .bool b => .ok (if b then 1 else 0)
  | .text name =>
    match names.lookup (Text.upper (Text.strip name)) with
    | some level => .ok level
    | none => .error (.unknownName name)
  | v => .error (.wrongKind v.kindName)

/-- The name that a level is shown by. -/
def text (level : Int) : String :=
  match [(50, "CRITICAL"), (40, "ERROR"), (30, "WARNING"), (20, "INFO"), (10, "DEBUG"),
      (0, "NOTSET")].lookup level with
  | some name => name
  | none => "Level " ++ toString level

end LogLevel

end FeatureAtlas
