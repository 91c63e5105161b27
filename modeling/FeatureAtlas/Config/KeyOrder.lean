import FeatureAtlas.Config.Setting
import FeatureAtlas.Text.Basic

/-!
# The order of keys

Mappings are walked in ascending order of their keys. Keys of different kinds cannot be compared, and the
walk fails at the first comparison of such keys. Which comparison comes first depends on the way of sorting:
the longest run at the start is taken as it is, and each further key is inserted by bisection.
-/

namespace FeatureAtlas

/-- Two keys that have no order. -/
inductive KeyOrderError where
  | kinds (left right : String)
  | dateAndDateTime
  | offsetMissing
deriving DecidableEq, Repr, Inhabited

/-- The message about keys without an order. -/
def KeyOrderError.message : KeyOrderError → String
  | kinds left right =>
    "'<' not supported between instances of '" ++ left ++ "' and '" ++ right ++ "'"
  | dateAndDateTime => "can't compare datetime.datetime to datetime.date"
  | offsetMissing => "can't compare offset-naive and offset-aware datetimes"

namespace SettingKey

/-- The sign of an infinite key. -/
def infinite? : SettingKey → Option Bool
  | float (.infinite negative) => some negative
  | _ => none

/-- Numeric keys. -/
def isNumeric : SettingKey → Bool
  | bool _ => true
  | int _ => true
  | float _ => true
  | _ => false

/-- The order of numeric keys; what is no number is below nothing. -/
def numericLt (a b : SettingKey) : Bool :=
  match a.ratio?, b.ratio? with
  | some (m, d), some (n, e) => m * e < n * d
  | some _, none => b.infinite? == some false
  | none, some _ => a.infinite? == some true
  | none, none => a.infinite? == some true && b.infinite? == some false

/-- The order of byte strings. -/
def bytesLt : List UInt8 → List UInt8 → Bool
  | [], [] => false
  | [], _ :: _ => true
  | _ :: _, [] => false
  | a :: as, b :: bs => if a == b then bytesLt as bs else a < b

/-- Whether a key stands before another one. -/
def lt? (a b : SettingKey) : Except KeyOrderError Bool :=
  match a, b with
  | text s, text t => .ok (decide (s < t))
  | bytes s, bytes t => .ok (bytesLt s t)
  | date s, date t => .ok (decide (s.dayNumber < t.dayNumber))
  | dateTime s, dateTime t =>
    if s.offset.isSome == t.offset.isSome then .ok (decide (s.instant < t.instant))
    else .error .offsetMissing
  | dateTime _, date _ => .error .dateAndDateTime
  | date _, dateTime _ => .error .dateAndDateTime
  | _, _ =>
    if a.isNumeric && b.isNumeric then .ok (numericLt a b)
    else .error (.kinds a.typeName b.typeName)

end SettingKey

namespace KeyOrder

variable {α : Type}

/-- The length of the run that goes on behind an entry, where each step has the same direction. -/
def runLength (descending : Bool) (previous : SettingKey) :
    List (SettingKey × α) → Except KeyOrderError Nat
  | [] => .ok 0
  | (k, _) :: rest => do
    if (← k.lt? previous) == descending then
      return (← runLength descending k rest) + 1
    else return 0

/-- Where a key belongs among sorted entries, found by bisection between two bounds. -/
def bisect (key : SettingKey) (entries : List (SettingKey × α)) :
    Nat → Nat → Nat → Except KeyOrderError Nat
  | 0, lo, _ => .ok lo
  | fuel + 1, lo, hi =>
    if hi ≤ lo then .ok lo
    else
      let mid := lo + (hi - lo) / 2
      match entries[mid]? with
      | none => .ok lo
      | some (k, _) => do
        if ← key.lt? k then bisect key entries fuel lo mid
        else bisect key entries fuel (mid + 1) hi

/-- Inserts entries one by one. -/
def insertAll (sorted : List (SettingKey × α)) :
    List (SettingKey × α) → Except KeyOrderError (List (SettingKey × α))
  | [] => .ok sorted
  | e :: rest => do
    let place ← bisect e.1 sorted sorted.length 0 sorted.length
    insertAll (sorted.take place ++ e :: sorted.drop place) rest

/-- Sorts entries of any keys. -/
def sortMixed : List (SettingKey × α) → Except KeyOrderError (List (SettingKey × α))
  | [] => .ok []
  | [e] => .ok [e]
  | e :: f :: rest => do
    let descending ← f.1.lt? e.1
    let n ← runLength descending f.1 rest
    let run := e :: f :: rest.take n
    insertAll (if descending then run.reverse else run) (rest.drop n)

/-- The entries with text keys, if all keys are texts. -/
def textEntries? : List (SettingKey × α) → Option (List (String × α))
  | [] => some []
  | (k, v) :: rest => do return (← k.text?, v) :: (← textEntries? rest)

/-- Entries in ascending order of their keys. -/
def sort (entries : List (SettingKey × α)) : Except KeyOrderError (List (SettingKey × α)) :=
  match textEntries? entries with
  | some fields => .ok ((Text.sortKeys fields).map fun (k, v) => (.text k, v))
  | none => sortMixed entries

end KeyOrder

end FeatureAtlas
