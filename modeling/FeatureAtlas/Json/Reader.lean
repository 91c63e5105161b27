import FeatureAtlas.Json.Value
import FeatureAtlas.Text.Basic

/-!
# Reading JSON

The reader accepts standard JSON and the names `NaN`, `Infinity` and `-Infinity`. A failure carries its
cause and the offset it is reported at. Nesting is bounded by the length of the text, which serves as
fuel.
-/

namespace FeatureAtlas.Json

/-- What can be wrong with a JSON text. -/
inductive Fault where
  | expectedValue
  | expectedName
  | expectedColon
  | expectedComma
  | unterminatedString
  | controlCharacter
  | badEscape
  | badUnicodeEscape
  | extraData
  | byteOrderMark
deriving DecidableEq, Repr, Inhabited

/-- A fault and the offset it is reported at. -/
structure ReadError where
  fault : Fault
  position : Nat
deriving DecidableEq, Repr, Inhabited

/-- The description of a fault. -/
def Fault.message : Fault → String
  | expectedValue => "Expecting value"
  | expectedName => "Expecting property name enclosed in double quotes"
  | expectedColon => "Expecting ':' delimiter"
  | expectedComma => "Expecting ',' delimiter"
  | unterminatedString => "Unterminated string starting at"
  | controlCharacter => "Invalid control character at"
  | badEscape => "Invalid \\escape"
  | badUnicodeEscape => "Invalid \\uXXXX escape"
  | extraData => "Extra data"
  | byteOrderMark => "Unexpected UTF-8 BOM (decode using utf-8-sig)"

/-- The number of the line that holds an offset, and the column on it, both from one. -/
def lineAndColumn (cs : List Char) (position : Nat) : Nat × Nat :=
  let before := cs.take position
  let line := before.count '\n' + 1
  (line, (before.reverse.takeWhile (· != '\n')).length + 1)

/-- The description of a read error with its line, column and offset in the text. -/
def ReadError.message (e : ReadError) (s : String) : String :=
  let (line, column) := lineAndColumn s.toList e.position
  s!"{e.fault.message}: line {line} column {column} (char {e.position})"

/-- A place in a text: the offset and what follows it. -/
structure Cursor where
  position : Nat
  rest : List Char
deriving Inhabited

/-- The cursor `n` characters further. -/
def Cursor.advance (c : Cursor) (n : Nat) : Cursor := ⟨c.position + n, c.rest.drop n⟩

/-- JSON's own white space. -/
def isSpace (c : Char) : Bool := c == ' ' || c == '\t' || c == '\n' || c == '\r'

/-- Skips white space. -/
def Cursor.skipSpace (c : Cursor) : Cursor := c.advance (c.rest.takeWhile isSpace).length

/-- Fails with a fault at an offset. -/
def fail {α : Type} (fault : Fault) (position : Nat) : Except ReadError α := .error ⟨fault, position⟩

/-! ## Strings -/

/-- The value of a hexadecimal digit. -/
def hexValue? (c : Char) : Option Nat :=
  if c.isDigit then some (c.toNat - '0'.toNat)
  else if 'a' ≤ c && c ≤ 'f' then some (c.toNat - 'a'.toNat + 10)
  else if 'A' ≤ c && c ≤ 'F' then some (c.toNat - 'A'.toNat + 10)
  else none

/-- The value of four hexadecimal digits. -/
def hex4? : List Char → Option Nat
  | [a, b, c, d] => do
    return (((← hexValue? a) * 16 + (← hexValue? b)) * 16 + (← hexValue? c)) * 16 + (← hexValue? d)
  | _ => none

/-- The character that a one-letter escape stands for. -/
def simpleEscape? (c : Char) : Option Char :=
  if c == '"' || c == '\\' || c == '/' then some c
  else if c == 'b' then some '\x08'
  else if c == 'f' then some '\x0c'
  else if c == 'n' then some '\n'
  else if c == 'r' then some '\r'
  else if c == 't' then some '\t'
  else none

/-- The character of a code unit; a lone surrogate has none of its own. -/
def unitChar (n : Nat) : Char := if 0xd800 ≤ n && n ≤ 0xdfff then '\uFFFD' else Char.ofNat n

/-- The character and length of a `\u` escape at its `u`, joining surrogate pairs. -/
def unicodeEscape (position : Nat) (cs : List Char) : Except ReadError (Char × Nat) :=
  -- `cs` is what follows the `u`; a closing quote has to come after the digits
  if cs.length ≤ 4 then fail .badUnicodeEscape position
  else match hex4? (cs.take 4) with
    | none => fail .badUnicodeEscape position
    | some hi =>
      let tail := cs.drop 4
      if 0xd800 ≤ hi && hi ≤ 0xdbff && 6 < tail.length && tail.take 2 == ['\\', 'u'] then
        match hex4? ((tail.drop 2).take 4) with
        | none => fail .badUnicodeEscape (position + 6)
        | some lo =>
          if 0xdc00 ≤ lo && lo ≤ 0xdfff then
            .ok (Char.ofNat (0x10000 + (hi - 0xd800) * 0x400 + (lo - 0xdc00)), 10)
          else .ok (unitChar hi, 4)
      else .ok (unitChar hi, 4)

/-- Reads the characters of a string up to its closing quote. `start` is the offset of the opening
quote; `fuel` bounds the number of characters. -/
def readChars (start : Nat) : Nat → Cursor → List Char → Except ReadError (List Char × Cursor)
  | 0, _, _ => fail .unterminatedString start
  | fuel + 1, c, acc =>
    match c.rest with
    | [] => fail .unterminatedString start
    | '"' :: rest => .ok (acc.reverse, ⟨c.position + 1, rest⟩)
    | '\\' :: [] => fail .unterminatedString start
    | '\\' :: 'u' :: rest => do
      let (ch, n) ← unicodeEscape (c.position + 1) rest
      readChars start fuel (c.advance (2 + n)) (ch :: acc)
    | '\\' :: e :: rest =>
      match simpleEscape? e with
      | some ch => readChars start fuel ⟨c.position + 2, rest⟩ (ch :: acc)
      | none => fail .badEscape c.position
    | ch :: rest =>
      if ch.toNat < 32 then fail .controlCharacter c.position
      else readChars start fuel ⟨c.position + 1, rest⟩ (ch :: acc)

/-- Reads a string after its opening quote. -/
def readString (c : Cursor) : Except ReadError (String × Cursor) := do
  let (cs, c') ← readChars (c.position - 1) (c.rest.length + 1) c []
  return (String.ofList cs, c')

/-! ## Numbers -/

/-- The value of ASCII digits. -/
def digitsNat (cs : List Char) : Nat := cs.foldl (fun n c => n * 10 + (c.toNat - '0'.toNat)) 0

/-- The fraction digits after a point, if there is at least one. -/
def fraction (cs : List Char) : List Char :=
  match cs with
  | '.' :: rest => rest.takeWhile Char.isDigit
  | _ => []

/-- The sign of an exponent, which may be absent, and what follows it. -/
def exponentSign : List Char → List Char × List Char
  | '-' :: more => (['-'], more)
  | '+' :: more => (['+'], more)
  | more => ([], more)

/-- The length and value of an exponent part, if it is complete. -/
def exponentPart? : List Char → Option (Nat × Int)
  | [] => none
  | e :: rest =>
    if e == 'e' || e == 'E' then
      let (sign, more) := exponentSign rest
      let ds := more.takeWhile Char.isDigit
      if ds.isEmpty then none
      else
        let n := Int.ofNat (digitsNat ds)
        some (1 + sign.length + ds.length, if sign = ['-'] then -n else n)
    else none

/-- Whether a number is negative, and what follows its sign. -/
def signOf : List Char → Bool × List Char
  | '-' :: more => (true, more)
  | more => (false, more)

/-- The digits before a point; none follow a leading zero. -/
def wholeDigits : List Char → List Char
  | '0' :: _ => ['0']
  | more => more.takeWhile Char.isDigit

/-- Reads a number at the cursor; without fraction and exponent it is an integer. -/
def readNumber? (c : Cursor) : Option (Json × Cursor) :=
  let (negative, body) := signOf c.rest
  let mark := if negative then 1 else 0
  let whole := wholeDigits body
  if whole.isEmpty then none
  else
    let tail := body.drop whole.length
    let places := fraction tail
    let pointLength := if places.isEmpty then 0 else places.length + 1
    match exponentPart? (tail.drop pointLength) with
    | some (n, e) =>
      let x := Binary64.ofDecimal negative (digitsNat (whole ++ places)) (e - Int.ofNat places.length)
      some (float x, c.advance (mark + whole.length + pointLength + n))
    | none =>
      if places.isEmpty then
        let n := Int.ofNat (digitsNat whole)
        some (int (if negative then -n else n), c.advance (mark + whole.length))
      else
        let x := Binary64.ofDecimal negative (digitsNat (whole ++ places)) (-Int.ofNat places.length)
        some (float x, c.advance (mark + whole.length + pointLength))

/-! ## Values -/

/-- The names that stand for values. -/
def names : List (String × Json) :=
  [("null", null), ("true", bool true), ("false", bool false), ("NaN", float .notANumber),
   ("Infinity", float (.infinite false)), ("-Infinity", float (.infinite true))]

/-- A named value at the cursor. -/
def readName? (c : Cursor) : Option (Json × Cursor) :=
  names.findSome? fun (name, value) =>
    if name.toList.isPrefixOf c.rest then some (value, c.advance name.toList.length) else none

mutual

/-- Reads a value at the cursor. -/
def readValue : Nat → Cursor → Except ReadError (Json × Cursor)
  | 0, c => fail .expectedValue c.position
  | fuel + 1, c =>
    match c.rest with
    | '"' :: rest => do
      let (s, c') ← readString ⟨c.position + 1, rest⟩
      return (str s, c')
    | '{' :: rest =>
      let c' := Cursor.skipSpace ⟨c.position + 1, rest⟩
      match c'.rest with
      | '}' :: more => .ok (obj [], ⟨c'.position + 1, more⟩)
      | _ => do
        let (fields, c'') ← readFields fuel c' []
        return (obj fields, c'')
    | '[' :: rest =>
      let c' := Cursor.skipSpace ⟨c.position + 1, rest⟩
      match c'.rest with
      | ']' :: more => .ok (arr [], ⟨c'.position + 1, more⟩)
      | _ => do
        let (items, c'') ← readItems fuel c' []
        return (arr items, c'')
    | _ =>
      match readName? c with
      | some found => .ok found
      | none => match readNumber? c with
        | some found => .ok found
        | none => fail .expectedValue c.position

/-- Reads the fields of an object up to its closing brace; a repeated key takes its last value. -/
def readFields : Nat → Cursor → List (String × Json) → Except ReadError (List (String × Json) × Cursor)
  | 0, c, _ => fail .expectedName c.position
  | fuel + 1, c, acc =>
    match c.rest with
    | '"' :: rest => do
      let (key, c₁) ← readString ⟨c.position + 1, rest⟩
      let c₂ := c₁.skipSpace
      match c₂.rest with
      | ':' :: more =>
        let (value, c₃) ← readValue fuel (Cursor.skipSpace ⟨c₂.position + 1, more⟩)
        let acc := Table.set key value acc
        let c₄ := c₃.skipSpace
        match c₄.rest with
        | '}' :: tail => return (acc, ⟨c₄.position + 1, tail⟩)
        | ',' :: tail => readFields fuel (Cursor.skipSpace ⟨c₄.position + 1, tail⟩) acc
        | _ => fail .expectedComma c₄.position
      | _ => fail .expectedColon c₂.position
    | _ => fail .expectedName c.position

/-- Reads the elements of an array up to its closing bracket. -/
def readItems : Nat → Cursor → List Json → Except ReadError (List Json × Cursor)
  | 0, c, _ => fail .expectedValue c.position
  | fuel + 1, c, acc => do
    let (value, c₁) ← readValue fuel c
    let c₂ := c₁.skipSpace
    match c₂.rest with
    | ']' :: tail => return ((value :: acc).reverse, ⟨c₂.position + 1, tail⟩)
    | ',' :: tail => readItems fuel (Cursor.skipSpace ⟨c₂.position + 1, tail⟩) (value :: acc)
    | _ => fail .expectedComma c₂.position

end

/-- Reads a whole text as one JSON value. -/
def read (s : String) : Except ReadError Json := do
  let cs := s.toList
  if cs.head? == some '\uFEFF' then fail .byteOrderMark 0
  else
    let (value, c) ← readValue (cs.length + 1) (Cursor.skipSpace ⟨0, cs⟩)
    let c := c.skipSpace
    if c.rest.isEmpty then return value else fail .extraData c.position

/-! ## Integers that are too long -/

/-- The start and the number of digits of the first integer with more digits than a limit. Strings are passed
over; `skip` counts the characters that are left of a number or an escape. -/
def longIntegerFrom (limit : Nat) : Bool → Nat → Nat → List Char → Option (Nat × Nat)
  | _, _, _, [] => none
  | inString, skip + 1, position, _ :: cs => longIntegerFrom limit inString skip (position + 1) cs
  | true, 0, position, c :: cs =>
    longIntegerFrom limit (c != '"') (if c == '\\' then 1 else 0) (position + 1) cs
  | false, 0, position, c :: cs =>
    match readNumber? ⟨position, c :: cs⟩ with
    | none => longIntegerFrom limit (c == '"') 0 (position + 1) cs
    | some (value, behind) =>
      let digits := (wholeDigits (signOf (c :: cs)).2).length
      match value, decide (limit < digits) with
      | int _, true => some (position, digits)
      | _, _ => longIntegerFrom limit false (behind.position - position - 1) (position + 1) cs

/-- The number of digits of the first integer of a text that has more of them than a limit; one behind a
fault of the text is never met. -/
def longInteger? (limit : Nat) (s : String) : Option Nat :=
  match longIntegerFrom limit false 0 0 s.toList with
  | none => none
  | some (position, digits) =>
    match read s with
    | .ok _ => some digits
    | .error e => if position < e.position then some digits else none

end FeatureAtlas.Json
