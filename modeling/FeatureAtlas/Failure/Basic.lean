/-!
# Failures

A failure that ends a run is known by its kind and its message. Some kinds are about what the user gave to the
run, all others are internal.
-/

namespace FeatureAtlas

/-- Kinds of failures. -/
inductive FailureKind where
  | configLoad
  | configInvalid
  | projectLoad
  | notFound
  | notDirectory
  | notPermitted
  | other (name : String)
deriving DecidableEq, Repr, Inhabited

namespace FailureKind

/-- The name that stands for a failure without a message. -/
def name : FailureKind → String
  | configLoad => "ConfigLoadError"
  | configInvalid => "ConfigValidationError"
  | projectLoad => "ProjectLoadError"
  | notFound => "FileNotFoundError"
  | notDirectory => "NotADirectoryError"
  | notPermitted => "PermissionError"
  | other n => n

/-- The kind of a name. -/
def ofName (n : String) : FailureKind :=
  ([configLoad, configInvalid, projectLoad, notFound, notDirectory, notPermitted].find?
    fun k => k.name == n).getD (other n)

/-- Kinds that the user can mend. -/
def isConfiguration : FailureKind → Bool
  | other _ => false
  | _ => true

end FailureKind

/-- A failure. -/
structure Failure where
  kind : FailureKind
  message : String
deriving DecidableEq, Repr, Inhabited

/-- A failure of a kind given by its name. -/
def Failure.named (kind message : String) : Failure := ⟨.ofName kind, message⟩

/-- Errors that can end a run. -/
class Reportable (ε : Type) where
  /-- The failure that an error is reported as. -/
  failure : ε → Failure

/-- A result with its error as a failure. -/
def reported {ε α : Type} [Reportable ε] : Except ε α → Except Failure α
  | .ok a => .ok a
  | .error e => .error (Reportable.failure e)

end FeatureAtlas
