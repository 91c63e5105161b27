import FeatureAtlas.Json.Value
import FeatureAtlas.Time.Calendar

/-!
# Settings

A setting is a value of a configuration file, an environment or a command line. Mappings may have keys
other than texts, which the schema refuses later. A mapping holds each key once; integers, doubles and
booleans of equal value are one key.
-/

namespace FeatureAtlas

/-- A time of day. -/
structure TimeOfDay where
  hour : Nat
  minute : Nat
  second : Nat
  microsecond : Nat := 0
deriving DecidableEq, Repr, Inhabited

/-- A key of a mapping. -/
inductive SettingKey where
  | text (s : String)
  | null
  | bool (b : Bool)
  | int (n : Int)
  | float (x : Binary64)
  | date (d : Date)
  | dateTime (t : DateTime)
  | bytes (bs : List UInt8)
deriving DecidableEq, Repr, Inhabited

/-- A configuration value. -/
inductive Setting where
  | null
  | bool (b : Bool)
  | int (n : Int)
  | float (x : Binary64)
  | str (s : String)
  | date (d : Date)
  | dateTime (t : DateTime)
  | time (t : TimeOfDay)
  | bytes (bs : List UInt8)
  | list (xs : List Setting)
  | set (keys : List SettingKey)
  | map (entries : List (SettingKey × Setting))
deriving Repr, Inhabited

namespace SettingKey

/-- The name of a key's type in messages. -/
def typeName : SettingKey → String
  | text _ => "str"
  | null => "NoneType"
  | bool _ => "bool"
  | int _ => "int"
  | float _ => "float"
  | date _ => "date"
  | dateTime _ => "datetime"
  | bytes _ => "bytes"

/-- The exact value of a numeric key, as a ratio; special doubles have none. -/
def ratio? : SettingKey → Option (Int × Nat)
  | bool b => some (if b then 1 else 0, 1)
  | int n => some (n, 1)
  | float (.finite negative m e) =>
    let (num, den) := Binary64.ratio m e
    some (if negative then -Int.ofNat num else Int.ofNat num, den)
  | _ => none

/-- Two keys that are one key in a mapping. -/
def same (a b : SettingKey) : Bool :=
  match a.ratio?, b.ratio? with
  | some (m, d), some (n, e) => m * e == n * d
  | _, _ =>
    match a, b with
    | dateTime t, dateTime u => t.offset.isSome == u.offset.isSome && t.instant == u.instant
    | float .notANumber, float .notANumber => false
    | _, _ => a == b

/-- The text of a text key. -/
def text? : SettingKey → Option String
  | text s => some s
  | _ => none

end SettingKey

namespace Setting

/-- The name of a value's type in messages. -/
def typeName : Setting → String
  | null => "NoneType"
  | bool _ => "bool"
  | int _ => "int"
  | float _ => "float"
  | str _ => "str"
  | date _ => "date"
  | dateTime _ => "datetime"
  | time _ => "time"
  | bytes _ => "bytes"
  | list _ => "list"
  | set _ => "set"
  | map _ => "dict"

/-- A value without values in it. -/
def IsScalar : Setting → Prop
  | list _ => False
  | map _ => False
  | _ => True

/-- The entries of a mapping. -/
def entries? : Setting → Option (List (SettingKey × Setting))
  | map entries => some entries
  | _ => none

/-- The value of a key. -/
def find? {α : Type} (key : SettingKey) : List (SettingKey × α) → Option α
  | [] => none
  | (k, v) :: rest => if k.same key then some v else find? key rest

/-- Sets the value of a key: a known key keeps its place, a new one comes last. -/
def insert {α : Type} (key : SettingKey) (value : α) :
    List (SettingKey × α) → List (SettingKey × α)
  | [] => [(key, value)]
  | (k, v) :: rest => if k.same key then (k, value) :: rest else (k, v) :: insert key value rest

/-- The value of a text key of a mapping. -/
def field? (key : String) : Setting → Option Setting
  | map entries => find? (.text key) entries
  | _ => none

/-- A mapping with text keys. -/
def ofFields (fields : List (String × Setting)) : Setting :=
  map (fields.map fun (k, v) => (.text k, v))

/-- A list of texts. -/
def strings (xs : List String) : Setting := list (xs.map str)

mutual

/-- The setting of a JSON value. -/
def ofJson : Json → Setting
  | .null => null
  | .bool b => bool b
  | .int n => int n
  | .float x => float x
  | .str s => str s
  | .arr xs => list (ofJsonItems xs)
  | .obj fields => map (ofJsonFields fields)

/-- The settings of JSON values. -/
def ofJsonItems : List Json → List Setting
  | [] => []
  | x :: xs => ofJson x :: ofJsonItems xs

/-- The entries of JSON fields. -/
def ofJsonFields : List (String × Json) → List (SettingKey × Setting)
  | [] => []
  | (k, v) :: rest => (.text k, ofJson v) :: ofJsonFields rest

end

mutual

/-- The JSON form of a setting; what JSON lacks has none, nor has a mapping with other keys than texts. -/
def toJson? : Setting → Option Json
  | null => some .null
  | bool b => some (.bool b)
  | int n => some (.int n)
  | float x => some (.float x)
  | str s => some (.str s)
  | list xs => (toJsonItems? xs).map .arr
  | map entries => (toJsonFields? entries).map .obj
  | _ => none

/-- The JSON forms of settings. -/
def toJsonItems? : List Setting → Option (List Json)
  | [] => some []
  | x :: xs => do return (← toJson? x) :: (← toJsonItems? xs)

/-- The JSON fields of entries. -/
def toJsonFields? : List (SettingKey × Setting) → Option (List (String × Json))
  | [] => some []
  | (k, v) :: rest => do return (← k.text?, ← toJson? v) :: (← toJsonFields? rest)

end

end Setting

end FeatureAtlas
