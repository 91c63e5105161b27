import FeatureAtlas.Text.Printable

/-!
# UTF-8

Text files are UTF-8. Reading one either gives its characters or the first range of bytes that is not UTF-8,
with the reason.
-/

namespace FeatureAtlas

/-- Why bytes are not UTF-8. -/
inductive Utf8Fault where
  | invalidStart
  | invalidContinuation
  | unexpectedEnd
deriving DecidableEq, Repr, Inhabited

/-- The wording of a fault. -/
def Utf8Fault.text : Utf8Fault → String
  | invalidStart => "invalid start byte"
  | invalidContinuation => "invalid continuation byte"
  | unexpectedEnd => "unexpected end of data"

/-- Bytes that are not UTF-8: where they start and how many there are. -/
structure Utf8Error where
  fault : Utf8Fault
  start : Nat
  bytes : List UInt8
deriving DecidableEq, Repr, Inhabited

/-- The message about bytes that are not UTF-8. -/
def Utf8Error.message (e : Utf8Error) : String :=
  let place := match e.bytes with
    | [b] =>
      "byte 0x" ++ String.ofList (Text.hexPadded 2 b.toNat) ++ " in position " ++ toString e.start
    | bs =>
      "bytes in position " ++ toString e.start ++ "-" ++ toString (e.start + bs.length - 1)
  "'utf-8' codec can't decode " ++ place ++ ": " ++ e.fault.text

namespace Utf8

/-- Bytes that continue a character. -/
def isContinuation (b : UInt8) : Bool := 0x80 ≤ b && b < 0xc0

/-- The bytes that may follow a start byte: no overlong forms, no surrogates, nothing beyond the last
code point. -/
def isSecond (first b : UInt8) : Bool :=
  isContinuation b && (first != 0xe0 || 0xa0 ≤ b) && (first != 0xed || b < 0xa0) &&
    (first != 0xf0 || 0x90 ≤ b) && (first != 0xf4 || b < 0x90)

/-- The number of bytes of the character that a byte starts; other bytes start none. -/
def width? (b : UInt8) : Option Nat :=
  if b < 0x80 then some 1
  else if b < 0xc2 then none
  else if b < 0xe0 then some 2
  else if b < 0xf0 then some 3
  else if b < 0xf5 then some 4
  else none

/-- The number of leading bytes, of those needed, that can stand in a character: the first one always,
the second one under its start byte, further ones if they continue. -/
def soundLength (first : UInt8) : List UInt8 → Nat
  | [] => 1
  | second :: more =>
    if isSecond first second then 2 + (more.takeWhile isContinuation).length else 1

/-- The character of a start byte and the bytes behind it. -/
def charOf (width : Nat) (first : UInt8) (more : List UInt8) : Char :=
  let lead := match width with
    | 1 => first.toNat
    | 2 => first.toNat % 32
    | 3 => first.toNat % 16
    | _ => first.toNat % 8
  Char.ofNat (more.foldl (fun n b => n * 64 + b.toNat % 64) lead)

/-- Reads characters from an offset on. -/
def decodeFrom (offset : Nat) : Nat → List UInt8 → Except Utf8Error (List Char)
  | _, [] => .ok []
  | 0, bs => .error ⟨.unexpectedEnd, offset, bs⟩
  | fuel + 1, first :: rest =>
    match width? first with
    | none => .error ⟨.invalidStart, offset, [first]⟩
    | some width =>
      let more := rest.take (width - 1)
      let sound := soundLength first more
      if width == 1 then (decodeFrom (offset + 1) fuel rest).map (charOf 1 first [] :: ·)
      else if sound == width then
        (decodeFrom (offset + width) fuel (rest.drop (width - 1))).map (charOf width first more :: ·)
      else if more.length + 1 < width && sound == more.length + 1 then
        .error ⟨.unexpectedEnd, offset, first :: more⟩
      else .error ⟨.invalidContinuation, offset, first :: more.take (sound - 1)⟩

/-- The text that bytes write. -/
def decode (bytes : List UInt8) : Except Utf8Error String :=
  (decodeFrom 0 bytes.length bytes).map String.ofList

/-- The text that bytes write when they are read as a stream: bytes left over at the end are counted from
their own start. -/
def decodeStream (bytes : List UInt8) : Except Utf8Error String :=
  match decode bytes with
  | .error ⟨.unexpectedEnd, _, rest⟩ => .error ⟨.unexpectedEnd, 0, rest⟩
  | r => r

/-- Reads characters and puts a replacement character for each range of bytes that is not UTF-8. -/
def lossyFrom : Nat → List UInt8 → List Char
  | 0, _ => []
  | fuel + 1, bytes =>
    match decodeFrom 0 bytes.length bytes with
    | .ok cs => cs
    | .error e =>
      let sound := (decodeFrom 0 e.start (bytes.take e.start)).toOption.getD []
      sound ++ '\ufffd' :: lossyFrom fuel (bytes.drop (e.start + e.bytes.length))

/-- The text that bytes write, with a replacement character for each range that is not UTF-8. -/
def decodeLossy (bytes : List UInt8) : String := String.ofList (lossyFrom (bytes.length + 1) bytes)

/-- The bytes of one character. -/
def encodeChar (c : Char) : List UInt8 :=
  let n := c.toNat
  if n < 0x80 then [n.toUInt8]
  else if n < 0x800 then [(0xc0 + n / 64).toUInt8, (0x80 + n % 64).toUInt8]
  else if n < 0x10000 then
    [(0xe0 + n / 4096).toUInt8, (0x80 + n / 64 % 64).toUInt8, (0x80 + n % 64).toUInt8]
  else
    [(0xf0 + n / 262144).toUInt8, (0x80 + n / 4096 % 64).toUInt8, (0x80 + n / 64 % 64).toUInt8,
     (0x80 + n % 64).toUInt8]

/-- The bytes of a text. -/
def encode (s : String) : List UInt8 := s.toList.flatMap encodeChar

end Utf8

namespace Text

/-- Line ends of any convention as line feeds. -/
def universalNewlines : List Char → List Char
  | '\r' :: '\n' :: rest => '\n' :: universalNewlines rest
  | '\r' :: rest => '\n' :: universalNewlines rest
  | c :: rest => c :: universalNewlines rest
  | [] => []

/-- A text with line feeds as line ends. -/
def withNewlines (s : String) : String := String.ofList (universalNewlines s.toList)

end Text

end FeatureAtlas
