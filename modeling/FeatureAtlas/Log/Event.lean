import FeatureAtlas.Json.Value

/-!
# Log events

What the program reports about its work: a severity, the name of the event and its fields.
-/

namespace FeatureAtlas

/-- How serious an event is. -/
inductive Severity where
  | debug
  | info
  | warning
  | error
  | critical
deriving DecidableEq, Repr, Inhabited

namespace Severity

/-- The name of a severity in lower case. -/
def text : Severity → String
  | debug => "debug"
  | info => "info"
  | warning => "warning"
  | error => "error"
  | critical => "critical"

/-- The numeric level of a severity. -/
def level : Severity → Nat
  | debug => 10
  | info => 20
  | warning => 30
  | error => 40
  | critical => 50

end Severity

/-- A reported event. -/
structure LogEvent where
  severity : Severity
  name : String
  fields : List (String × Json) := []
deriving Inhabited

end FeatureAtlas
