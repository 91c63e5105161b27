import FeatureAtlas.Console.Report
import FeatureAtlas.Failure.Basic

/-!
# Exit codes

A run ends with one of three codes. A failure is a configuration error if it, or a failure behind it, is
about the configuration, the project or a path that cannot be opened; any other failure is internal.
-/

namespace FeatureAtlas

/-- The codes with which a run ends. -/
inductive ExitCode where
  | success
  | configError
  | internalError
deriving DecidableEq, Repr, Inhabited

namespace ExitCode

/-- The number of a code. -/
def number : ExitCode → Nat
  | success => 0
  | configError => 2
  | internalError => 4

/-- The code of a number. -/
def ofNumber? (n : Int) : Option ExitCode :=
  [success, configError, internalError].find? fun c => Int.ofNat c.number == n

end ExitCode

/-- What a command asks the run to end with. -/
inductive ExitRequest where
  | nothing
  | number (n : Int)
  | message (s : String)
  | other
deriving DecidableEq, Repr, Inhabited

/-- A message on a line of its own, without the line feeds at its end. -/
def errorLine (s : String) : String :=
  lineText (String.ofList (s.toList.reverse.dropWhile (· == '\n')).reverse)

/-- The code of a request, and what it says on the error stream. -/
def ExitRequest.resolve : ExitRequest → ExitCode × String
  | nothing => (.success, "")
  | number n => ((ExitCode.ofNumber? n).getD .internalError, "")
  | message s =>
    (.internalError, if Text.strip s == "" then "" else errorLine (Text.strip s))
  | other => (.internalError, "")

/-! ## Failures -/

/-- A failure with the places of the one that caused it and of the one it arose in. -/
structure FailureNode extends Failure where
  cause : Option Nat := none
  context : Option Nat := none
  /-- Whether the context is hidden. -/
  suppressed : Bool := false
deriving DecidableEq, Repr, Inhabited

/-- What a failure that the user can mend says on the error stream. -/
def Failure.errorText (f : Failure) : String :=
  let text := Text.strip f.message
  errorLine (if text == "" then f.kind.name else text)

/-- Failures that refer to each other by their places. -/
abbrev FailureGraph := List FailureNode

namespace FailureGraph

/-- The place of the failure behind one: its cause, or else its context unless that is hidden. -/
def next? (g : FailureGraph) (place : Nat) : Option Nat :=
  match g[place]? with
  | none => none
  | some f => f.cause <|> (if f.suppressed then none else f.context)

/-- The places that are not known yet. -/
def unknown (g : FailureGraph) (known : List Nat) : List Nat :=
  (List.range g.length).filter (· ∉ known)

theorem length_unknown_lt {g : FailureGraph} {known : List Nat} {place : Nat} (hplace : place < g.length)
    (hnew : place ∉ known) : (g.unknown (place :: known)).length < (g.unknown known).length := by
  have hrest : g.unknown (place :: known) = (g.unknown known).filter (· ≠ place) := by
    simp [unknown, List.filter_filter]
  rw [hrest, List.length_filter_lt_length_iff_exists]
  exact ⟨place, by simp [unknown, hplace, hnew], by simp⟩

/-- The places from one on, each one behind the one before it, up to the end or to a known place. The failures
may refer to each other in circles, but each round leaves fewer places unknown. -/
def placesFrom (g : FailureGraph) (known : List Nat) : Option Nat → List Nat
  | none => []
  | some place =>
    if place ∈ known ∨ g.length ≤ place then []
    else place :: g.placesFrom (place :: known) (g.next? place)
termination_by (g.unknown known).length
decreasing_by
  next h =>
    rw [not_or, Nat.not_le] at h
    exact length_unknown_lt h.2 h.1

/-- The places of the failures behind one another, starting with a given one. -/
def places (g : FailureGraph) (start : Nat) : List Nat := g.placesFrom [] (some start)

/-- The chain of failures that starts with a given one. -/
def chainOf (g : FailureGraph) (start : Nat) : List FailureNode := (g.places start).filterMap (g[·]?)

/-- The code of a given failure and those behind it. -/
def exitCodeOf (g : FailureGraph) (start : Nat) : ExitCode :=
  if (g.chainOf start).any (·.kind.isConfiguration) then .configError else .internalError

/-- The chain of failures that starts with the first one. -/
def chain (g : FailureGraph) : List FailureNode := g.chainOf 0

/-- The code of the first failure and those behind it. -/
def exitCode (g : FailureGraph) : ExitCode := g.exitCodeOf 0

/-- What a configuration failure says on the error stream. -/
def errorText (g : FailureGraph) : String :=
  match g.head? with
  | none => ""
  | some f => f.errorText

end FailureGraph

end FeatureAtlas
