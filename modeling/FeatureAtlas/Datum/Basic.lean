import FeatureAtlas.Json.Value
import FeatureAtlas.Path.Basic
import FeatureAtlas.Time.Calendar

/-!
# Data

What a program hands to a report or to a log: JSON values, and beside them bytes, dates, paths, tuples, sets
and tables with keys of any kind. Two keys of a table are the same key if they are equal as values, where
`true` and `1.0` both equal the integer `1`.
-/

namespace FeatureAtlas

/-- A value that can be shown or logged. -/
inductive Datum where
  | null
  | bool (b : Bool)
  | int (n : Int)
  | float (x : Binary64)
  | text (s : String)
  | bytes (content : List UInt8)
  | moment (t : DateTime)
  | day (d : Date)
  | path (p : Path)
  | list (xs : List Datum)
  | tuple (xs : List Datum)
  | set (xs : List Datum)
  | frozenSet (xs : List Datum)
  | map (entries : List (Datum × Datum))
  /-- Any other object, known by the text that shows it. -/
  | other (display : String)
deriving Inhabited, Repr

namespace Datum

mutual

/-- A JSON value as a datum. -/
def ofJson : Json → Datum
  | .null => null
  | .bool b => bool b
  | .int n => int n
  | .float x => float x
  | .str s => text s
  | .arr xs => list (ofItems xs)
  | .obj fields => map (ofFields fields)

/-- The elements of an array. -/
def ofItems : List Json → List Datum
  | [] => []
  | x :: rest => ofJson x :: ofItems rest

/-- The fields of an object. -/
def ofFields : List (String × Json) → List (Datum × Datum)
  | [] => []
  | (k, v) :: rest => (text k, ofJson v) :: ofFields rest

end

/-- The name of the kind of a datum. -/
def kindName : Datum → String
  | null => "NoneType"
  | bool _ => "bool"
  | int _ => "int"
  | float _ => "float"
  | text _ => "str"
  | bytes _ => "bytes"
  | moment _ => "datetime"
  | day _ => "date"
  | path _ => "PosixPath"
  | list _ => "list"
  | tuple _ => "tuple"
  | set _ => "set"
  | frozenSet _ => "frozenset"
  | map _ => "dict"
  | other _ => "object"

/-- Whether a datum counts as absent: nothing, false, zero or empty. -/
def isBlank : Datum → Bool
  | null => true
  | bool b => !b
  | int n => n == 0
  | float (.finite _ m _) => m == 0
  | text s => s.isEmpty
  | bytes bs => bs.isEmpty
  | list xs | tuple xs | set xs | frozenSet xs => xs.isEmpty
  | map entries => entries.isEmpty
  | _ => false

/-! ## Equality of keys -/

/-- An exact number as a quotient: integers, booleans and finite doubles are numbers. -/
def quotient? : Datum → Option (Int × Nat)
  | bool b => some (if b then 1 else 0, 1)
  | int n => some (n, 1)
  | float (.finite negative m e) =>
    let (num, den) := Binary64.ratio m e
    some (if negative then -(Int.ofNat num) else Int.ofNat num, den)
  | _ => none

/-- Whether two data are numbers of one value, or the same infinity. -/
def sameNumber (a b : Datum) : Bool :=
  match a, b with
  | float (.infinite s), float (.infinite t) => s == t
  | _, _ =>
    match a.quotient?, b.quotient? with
    | some (n, d), some (m, e) => n * Int.ofNat e == m * Int.ofNat d
    | _, _ => false

/-- Whether two dates with a time of day are the same: both with an offset or both without, and at the same
instant. -/
def sameMoment (s t : DateTime) : Bool := s.offset.isSome == t.offset.isSome && s.instant == t.instant

mutual

/-- Whether two data are the same key. -/
def same : Datum → Datum → Bool
  | null, null => true
  | text a, text b => a == b
  | bytes a, bytes b => a == b
  | moment s, moment t => sameMoment s t
  | day a, day b => a == b
  | path a, path b => a == b
  | tuple xs, tuple ys => sameItems xs ys
  | frozenSet xs, frozenSet ys => xs.length == ys.length && within xs ys
  | a, b => sameNumber a b

/-- Whether two lists have the same data in the same order. -/
def sameItems : List Datum → List Datum → Bool
  | [], [] => true
  | x :: xs, y :: ys => same x y && sameItems xs ys
  | _, _ => false

/-- Whether each of the first data is among the second. -/
def within : List Datum → List Datum → Bool
  | [], _ => true
  | x :: xs, ys => ys.any (fun y => same x y) && within xs ys

end

/-- Adds an entry to a table: the same key keeps its first spelling and takes the last value. -/
def insertEntry : List (Datum × Datum) → Datum → Datum → List (Datum × Datum)
  | [], key, value => [(key, value)]
  | (k, v) :: rest, key, value =>
    if same k key then (k, value) :: rest else (k, v) :: insertEntry rest key value

/-- A table of entries in order. -/
def ofEntries (entries : List (Datum × Datum)) : Datum :=
  map (entries.foldl (fun t (k, v) => insertEntry t k v) [])

/-- The data of a list without repetitions; the first of each stays. -/
def members (xs : List Datum) : List Datum :=
  xs.foldl (fun known x => if known.any (same · x) then known else known ++ [x]) []

end Datum

end FeatureAtlas
