import FeatureAtlas.Text.Case
import FeatureAtlas.Text.Integer
import FeatureAtlas.Toml.Lexeme
import FeatureAtlas.Yaml.Cursor

/-!
# Types of YAML scalars

A plain scalar is a null, a boolean, a number, a date or a text, by the way it is written. A scalar with an
explicit type is read as that type, however it is written.
-/

namespace FeatureAtlas.Yaml

/-- The types of nodes that have a meaning; any other tag has none. -/
inductive Kind where
  | null
  | bool
  | int
  | float
  | timestamp
  | binary
  | str
  | seq
  | map
  | set
  | omap
  | pairs
  /-- A key whose value is merged into its mapping. -/
  | merge
  /-- A key that stands for the scalar value of its mapping. -/
  | value
  | unknown
deriving DecidableEq, Repr, Inhabited

namespace Kind

/-- The start of the tags that have a meaning. -/
def space : String := "tag:yaml.org,2002:"

/-- The names of the types. -/
def names : List (String × Kind) :=
  [("null", null), ("bool", bool), ("int", int), ("float", float), ("timestamp", timestamp),
   ("binary", binary), ("str", str), ("seq", seq), ("map", map), ("set", set), ("omap", omap),
   ("pairs", pairs), ("merge", merge), ("value", value)]

/-- The type that a tag names. -/
def ofTag (tag : String) : Kind :=
  match Text.after? space.toList tag.toList with
  | some name => (names.lookup (String.ofList name)).getD unknown
  | none => unknown

end Kind

/-! ## Numbers -/

/-- A number without its sign. -/
def unsigned : List Char → List Char
  | '+' :: cs => cs
  | '-' :: cs => cs
  | cs => cs

/-- Digits and underscores. -/
def isDigitish (c : Char) : Bool := c.isDigit || c == '_'

/-- A part of a number to the base sixty: one digit, or two below sixty. -/
def isSexagesimal : List Char → Bool
  | [c] => c.isDigit
  | [c, d] => '0' ≤ c && c ≤ '5' && d.isDigit
  | _ => false

/-- A digit followed by digits and underscores. -/
def isDigits : List Char → Bool
  | c :: cs => c.isDigit && cs.all isDigitish
  | [] => false

/-- Whether a plain scalar is an integer. -/
def isInteger (cs : List Char) : Bool :=
  match unsigned cs with
  | '0' :: 'b' :: ds => !ds.isEmpty && ds.all fun c => c == '0' || c == '1' || c == '_'
  | '0' :: 'x' :: ds => !ds.isEmpty && ds.all fun c => (Json.hexValue? c).isSome || c == '_'
  | '0' :: ds => ds.all fun c => ('0' ≤ c && c ≤ '7') || c == '_'
  | ds =>
    match Text.splitOn ':' ds with
    | first :: parts => isDigits first && parts.all isSexagesimal
    | [] => false

/-- Whether an exponent ends a float: nothing, or an `e`, a sign and digits. -/
def isExponent : List Char → Bool
  | [] => true
  | e :: sign :: ds =>
    (e == 'e' || e == 'E') && (sign == '+' || sign == '-') && !ds.isEmpty && ds.all Char.isDigit
  | _ => false

/-- Whether a plain scalar is a float. -/
def isFloat (cs : List Char) : Bool :=
  let body := unsigned cs
  let word := String.ofList body
  if word == ".inf" || word == ".Inf" || word == ".INF" then true
  else if ["." ++ "nan", ".NaN", ".NAN"].contains (String.ofList cs) then true
  else match Text.cut? ['.'] body with
    | none => false
    | some (whole, fraction) =>
      if whole.isEmpty then
        cs.length == body.length && fraction.head?.any Char.isDigit &&
          isExponent (fraction.dropWhile isDigitish)
      else match Text.splitOn ':' whole with
        | [_] => isDigits whole && isExponent (fraction.dropWhile isDigitish)
        | first :: parts => isDigits first && parts.all isSexagesimal && fraction.all isDigitish
        | [] => false

/-! ## Times -/

/-- The parts of a timestamp as they are written. -/
structure Stamp where
  year : Nat
  month : Nat
  day : Nat
  /-- Month and day have two digits. -/
  wide : Bool
  time : Option TimeOfDay := none
  offset : Option Int := none
deriving Repr, Inhabited

/-- A number of one or two digits, and how many it has. -/
def oneOrTwo? (cs : List Char) : Option (Nat × Nat × List Char) :=
  match Toml.fixed? 2 cs with
  | some (n, rest) => some (n, 2, rest)
  | none => (Toml.fixed? 1 cs).map fun (n, rest) => (n, 1, rest)

/-- The fraction of a second in microseconds, if there is one. -/
def fraction : List Char → Nat × List Char
  | '.' :: cs =>
    let ds := cs.takeWhile Char.isDigit
    (if ds.isEmpty then 0 else Binary64.digitsValue ((ds ++ List.replicate 6 '0').take 6),
      cs.drop ds.length)
  | cs => (0, cs)

/-- The offset at the end of a timestamp, in minutes. -/
def stampOffset? (cs : List Char) : Option (Option Int) :=
  if cs.isEmpty then some none
  else
    let signed (sign : Int) (ds : List Char) : Option (Option Int) := do
      let (hours, _, rest) ← oneOrTwo? ds
      match rest with
      | [] => return some (sign * Int.ofNat (hours * 60))
      | ':' :: ms =>
        match ← Toml.fixed? 2 ms with
        | (minutes, []) => return some (sign * Int.ofNat (hours * 60 + minutes))
        | _ => none
      | _ => none
    match cs.dropWhile Toml.isBlank with
    | ['Z'] => some (some 0)
    | '+' :: ds => signed 1 ds
    | '-' :: ds => signed (-1) ds
    | _ => none

/-- The parts of a timestamp. -/
def stamp? (cs : List Char) : Option Stamp := do
  let (year, cs) ← Toml.fixed? 4 cs
  let (month, m, cs) ← oneOrTwo? (← Toml.after? '-' cs)
  let (day, d, cs) ← oneOrTwo? (← Toml.after? '-' cs)
  let wide := m == 2 && d == 2
  match cs with
  | [] => return { year, month, day, wide }
  | c :: more =>
    let rest ←
      if c == 'T' || c == 't' then some more
      else if Toml.isBlank c then some (more.dropWhile Toml.isBlank)
      else none
    let (hour, _, rest) ← oneOrTwo? rest
    let (minute, rest) ← Toml.fixed? 2 (← Toml.after? ':' rest)
    let (second, rest) ← Toml.fixed? 2 (← Toml.after? ':' rest)
    let (microsecond, rest) := fraction rest
    let offset ← stampOffset? rest
    return { year, month, day, wide, time := some ⟨hour, minute, second, microsecond⟩, offset }

/-- Whether a plain scalar is a timestamp; a date alone has two digits for month and day. -/
def isTimestamp (cs : List Char) : Bool :=
  match stamp? cs with
  | some s => s.wide || s.time.isSome
  | none => false

/-- A duration in days and seconds, as messages show it. -/
def durationText (minutes : Int) : String :=
  let seconds := minutes * 60
  let days := seconds.fdiv 86400
  let rest := seconds.fmod 86400
  let dayPart := if days == 0 then [] else ["days=" ++ toString days]
  let secondPart := if rest == 0 then [] else ["seconds=" ++ toString rest]
  let parts := dayPart ++ secondPart
  "datetime.timedelta(" ++ (if parts.isEmpty then "0" else Text.join ", " parts) ++ ")"

/-- Why the calendar has no such date. -/
def dateFault? (s : Stamp) : Option String :=
  if s.year == 0 then some "year 0 is out of range"
  else if s.month < 1 || 12 < s.month then some "month must be in 1..12"
  else if s.day < 1 || Date.daysInMonth s.year s.month < s.day then some "day is out of range for month"
  else none

/-- Why the day has no such time. -/
def timeFault? (t : TimeOfDay) : Option String :=
  if 23 < t.hour then some "hour must be in 0..23"
  else if 59 < t.minute then some "minute must be in 0..59"
  else if 59 < t.second then some "second must be in 0..59"
  else none

/-- Why there is no such offset. -/
def offsetFault? (minutes : Int) : Option String :=
  if minutes.natAbs < 1440 then none
  else some ("offset must be a timedelta strictly between -timedelta(hours=24) and " ++
    "timedelta(hours=24), not " ++ durationText minutes ++ ".")

/-- The date, or the date and time, of a timestamp. -/
def Stamp.toSetting (s : Stamp) : Except Fault Setting :=
  let date : Date := ⟨s.year, s.month, s.day⟩
  match s.time with
  | none =>
    match dateFault? s with
    | some m => .error (.noSuchTime m)
    | none => .ok (.date date)
  | some t =>
    match s.offset.bind offsetFault? <|> dateFault? s <|> timeFault? t with
    | some m => .error (.noSuchTime m)
    | none => .ok (.dateTime
        { date, hour := t.hour, minute := t.minute, second := t.second
          microsecond := t.microsecond, offset := s.offset })

/-! ## Types -/

/-- Words for true and false; other cases of them are read with an explicit type alone. -/
def boolWords : List String := ["yes", "no", "true", "false", "on", "off"]

/-- The three ways to write a word that has a meaning. -/
def spellings (word : String) : List String :=
  match word.toList with
  | [] => [word]
  | c :: cs => [word, String.ofList (c.toUpper :: cs), Text.upper word]

/-- The type of a plain scalar. -/
def Kind.ofPlain (text : String) : Kind :=
  let cs := text.toList
  if cs.head? == some '\n' then str
  else
    let body := if cs.getLast? == some '\n' then cs.dropLast else cs
    let word := String.ofList body
    if (boolWords.flatMap spellings).contains word then bool
    else if isFloat body then float
    else if isInteger body then int
    else if word == "<<" then merge
    else if word == "" || word == "~" || (spellings "null").contains word then null
    else if isTimestamp body then timestamp
    else if word == "=" then value
    else str

/-! ## Values -/

/-- A boolean. -/
def booleanOf (text : String) : Except Fault Setting :=
  let word := Text.lower text
  if ["yes", "true", "on"].contains word then .ok (.bool true)
  else if ["no", "false", "off"].contains word then .ok (.bool false)
  else .error (.notBoolean word)

/-- A natural number in a base. -/
def inBase (base : Nat) (cs : List Char) : Except Fault Nat :=
  let digits := Text.trim cs
  let value? := digits.foldlM (fun n c => do
    let d ← Json.hexValue? c
    if d < base then some (n * base + d) else none) 0
  match if digits.isEmpty then none else value? with
  | some n => .ok n
  | none => .error (.notInteger base (String.ofList cs))

/-- A decimal integer. -/
def decimalOf (cs : List Char) : Except Fault Int :=
  match Text.integer? (String.ofList cs) with
  | some n => .ok n
  | none => .error (.notInteger 10 (String.ofList cs))

/-- An integer: to the base ten, two, sixteen, eight or sixty. -/
def integerOf (text : String) : Except Fault Setting := do
  let cs := text.toList.filter (· != '_')
  if cs.isEmpty then throw .noDigits
  let sign : Int := if cs.head? == some '-' then -1 else 1
  let body := unsigned cs
  let n ← match body with
    | ['0'] => pure 0
    | '0' :: 'b' :: ds => do pure (Int.ofNat (← inBase 2 ds))
    | '0' :: 'x' :: ds => do pure (Int.ofNat (← inBase 16 ds))
    | [] => throw .noDigits
    | '0' :: _ => do pure (Int.ofNat (← inBase 8 body))
    | _ =>
      if body.contains ':' then do
        let parts ← (Text.splitOn ':' body).mapM decimalOf
        pure (parts.foldl (fun n p => n * 60 + p) 0)
      else decimalOf body
  return .int (sign * n)

/-- The double of a decimal part. -/
def doubleOf (cs : List Char) : Except Fault Binary64 :=
  match Binary64.ofText? (Text.trim cs) with
  | some x => .ok x
  | none => .error (.notNumber (String.ofList cs))

/-- A double with a sign. -/
def signed (negative : Bool) : Binary64 → Binary64
  | .finite n m e => .finite (n != negative) m e
  | .infinite n => .infinite (n != negative)
  | .notANumber => .notANumber

/-- The exact value of a double as a ratio; special doubles count as zero. -/
def ratioOf : Binary64 → Int × Nat
  | .finite negative m e =>
    let (n, d) := Binary64.ratio m e
    (if negative then -Int.ofNat n else Int.ofNat n, d)
  | _ => (0, 1)

/-- A float: in decimal, to the base sixty, or by name. -/
def floatOf (text : String) : Except Fault Setting := do
  let cs := (Text.lower text).toList.filter (· != '_')
  if cs.isEmpty then throw .noDigits
  let negative := cs.head? == some '-'
  let body := unsigned cs
  if body == ".inf".toList then return .float (.infinite negative)
  if body == ".nan".toList then return .float .notANumber
  if body.contains ':' then
    let parts ← (Text.splitOn ':' body).mapM doubleOf
    let (n, d) := parts.foldl (fun (n, d) p =>
      let (m, e) := ratioOf p
      (n * 60 * Int.ofNat e + m * Int.ofNat d, d * e)) ((0 : Int), (1 : Nat))
    return .float (Binary64.ofRatio ((n < 0) != negative) n.natAbs d)
  return .float (signed negative (← doubleOf body))

/-- A timestamp. -/
def timestampOf (text : String) : Except Fault Setting :=
  let cs := text.toList
  match stamp? (if cs.getLast? == some '\n' then cs.dropLast else cs) with
  | none => .error .notTimestamp
  | some s => s.toSetting

/-! ## Binary data -/

/-- The value of a character of the base sixty-four. -/
def base64Value? (c : Char) : Option Nat :=
  let n := c.toNat
  if 'A' ≤ c && c ≤ 'Z' then some (n - 65)
  else if 'a' ≤ c && c ≤ 'z' then some (n - 71)
  else if c.isDigit then some (n + 4)
  else if c == '+' then some 62
  else if c == '/' then some 63
  else none

/-- The bytes of base sixty-four text. Other characters are passed over; the pending bits are those of an
incomplete group of four. -/
def base64 : List Char → (place pads pending : Nat) → Option (List UInt8)
  | [], place, _, _ => if place == 0 then some [] else none
  | c :: cs, place, pads, pending =>
    if c == '=' then
      if 2 ≤ place && 4 ≤ place + pads + 1 then some []
      else base64 cs place (if 2 ≤ place then pads + 1 else pads) pending
    else match base64Value? c with
      | none => base64 cs place pads pending
      | some v =>
        match place with
        | 0 => base64 cs 1 0 v
        | 1 => (base64 cs 2 0 (v % 16)).map ((pending * 4 + v / 16).toUInt8 :: ·)
        | 2 => (base64 cs 3 0 (v % 4)).map ((pending * 16 + v / 4).toUInt8 :: ·)
        | _ => (base64 cs 0 0 0).map ((pending * 64 + v).toUInt8 :: ·)

/-- Binary data. -/
def binaryOf (text : String) : Except Fault Setting :=
  if text.toList.any (128 ≤ ·.toNat) then .error .malformed
  else match base64 text.toList 0 0 0 with
    | some bytes => .ok (.bytes bytes)
    | none => .error .malformed

end FeatureAtlas.Yaml
