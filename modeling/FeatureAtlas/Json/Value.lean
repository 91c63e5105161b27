import FeatureAtlas.Number.Binary64
import FeatureAtlas.Table

/-!
# JSON values

Objects keep their fields in order. Integers are unbounded and distinct from doubles.
-/

namespace FeatureAtlas

/-- A JSON value; object fields are in order of first appearance. -/
inductive Json where
  | null
  | bool (b : Bool)
  | int (n : Int)
  | float (x : Binary64)
  | str (s : String)
  | arr (xs : List Json)
  | obj (fields : List (String × Json))
deriving Inhabited, Repr, BEq

namespace Json

/-- The value of a field. -/
def field? (key : String) : Json → Option Json
  | obj fields => fields.lookup key
  | _ => none

/-- An array of strings. -/
def strings (xs : List String) : Json := arr (xs.map str)

/-- The fields of an object whose value is present. -/
def present (fields : List (String × Option Json)) : Json :=
  obj (fields.filterMap fun (k, v) => v.map fun j => (k, j))

end Json

end FeatureAtlas
