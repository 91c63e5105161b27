import FeatureAtlas.Text.Utf8
import FeatureAtlas.Text.Case

/-!
# Encodings

A text is written to a file in one of a few encodings. The names of encodings are read without regard to
case and punctuation.
-/

namespace FeatureAtlas

/-- The order of the bytes of a code unit. -/
inductive ByteOrder where
  | little
  | big
deriving DecidableEq, Repr, Inhabited

/-- How characters become bytes. -/
inductive Encoding where
  /-- UTF-8, with or without a mark at the start. -/
  | utf8 (mark : Bool)
  /-- UTF-16; without an order the bytes are little endian behind a mark. -/
  | utf16 (order : Option ByteOrder)
  /-- UTF-32; without an order the bytes are little endian behind a mark. -/
  | utf32 (order : Option ByteOrder)
  /-- One byte for each character below a limit. -/
  | direct (name : String) (limit : Nat)
deriving DecidableEq, Repr, Inhabited

/-- A text that cannot be written. -/
inductive EncodingError where
  | unknown (name : String)
  /-- Characters from a position on that have no byte. -/
  | outOfRange (name : String) (limit position : Nat) (characters : List Char)
deriving DecidableEq, Repr, Inhabited

namespace EncodingError

/-- A character by its code point. -/
def escaped (c : Char) : String :=
  let n := c.toNat
  String.ofList (if n < 0x100 then '\\' :: 'x' :: Text.hexPadded 2 n
    else if n < 0x10000 then '\\' :: 'u' :: Text.hexPadded 4 n
    else '\\' :: 'U' :: Text.hexPadded 8 n)

/-- The message about a text that cannot be written. -/
def message : EncodingError → String
  | unknown name => "unknown encoding: " ++ name
  | outOfRange name limit position characters =>
    let place := match characters with
      | [c] => "character '" ++ escaped c ++ "' in position " ++ toString position
      | cs => "characters in position " ++ toString position ++ "-" ++
          toString (position + cs.length - 1)
    "'" ++ name ++ "' codec can't encode " ++ place ++ ": ordinal not in range(" ++
      toString limit ++ ")"

end EncodingError

namespace Encoding

/-- A name of an encoding without case and with one underscore for each run of punctuation. -/
def canonicalName (name : String) : String :=
  let step (state : List Char × Bool) (c : Char) : List Char × Bool :=
    if c.isAlphanum || c == '.' then
      ((if state.2 && !state.1.isEmpty then '_' :: state.1 else state.1) |> (c.toLower :: ·), false)
    else (state.1, true)
  String.ofList (name.toList.foldl step ([], false)).1.reverse

/-- The names of the encodings. -/
def names : List (String × Encoding) :=
  let utf8 := ["utf_8", "utf8", "u8", "utf", "utf8_ucs2", "utf8_ucs4", "cp65001"]
  let ascii := ["ascii", "646", "ansi_x3.4_1968", "ansi_x3_4_1968", "cp367", "csascii", "ibm367",
    "iso646_us", "iso_646.irv_1991", "iso_ir_6", "us", "us_ascii"]
  let latin := ["latin_1", "8859", "cp819", "csisolatin1", "ibm819", "iso8859", "iso8859_1",
    "iso_8859_1", "iso_8859_1_1987", "iso_ir_100", "l1", "latin", "latin1"]
  utf8.map (·, .utf8 false) ++ [("utf_8_sig", .utf8 true)] ++
    ["utf_16", "u16", "utf16"].map (·, .utf16 none) ++
    ["utf_16_le", "utf_16le", "unicodelittleunmarked"].map (·, .utf16 (some .little)) ++
    ["utf_16_be", "utf_16be", "unicodebigunmarked"].map (·, .utf16 (some .big)) ++
    ["utf_32", "u32", "utf32"].map (·, .utf32 none) ++
    ["utf_32_le", "utf_32le"].map (·, .utf32 (some .little)) ++
    ["utf_32_be", "utf_32be"].map (·, .utf32 (some .big)) ++
    ascii.map (·, .direct "ascii" 128) ++ latin.map (·, .direct "latin-1" 256)

/-- The encoding of a name. -/
def ofName (name : String) : Except EncodingError Encoding :=
  match names.lookup (canonicalName name) with
  | some e => .ok e
  | none => .error (.unknown name)

/-- The bytes of a code unit of two or four bytes. -/
def unitBytes (order : ByteOrder) (width n : Nat) : List UInt8 :=
  let bytes := (List.range width).map fun i => (n / Nat.pow 256 i % 256).toUInt8
  match order with
  | .little => bytes
  | .big => bytes.reverse

/-- The code units of a character in UTF-16. -/
def units16 (c : Char) : List Nat :=
  let n := c.toNat
  if n < 0x10000 then [n] else [0xd800 + (n - 0x10000) / 1024, 0xdc00 + (n - 0x10000) % 1024]

/-- One byte for each character; the first run of characters without one is refused. -/
def directBytes (name : String) (limit : Nat) (cs : List Char) : Except EncodingError (List UInt8) :=
  let fits := cs.takeWhile (·.toNat < limit)
  match (cs.drop fits.length).takeWhile (limit ≤ ·.toNat) with
  | [] => .ok (cs.map (·.toNat.toUInt8))
  | refused => .error (.outOfRange name limit fits.length refused)

/-- The bytes of a text. -/
def encode (e : Encoding) (s : String) : Except EncodingError (List UInt8) :=
  let units16Of (order : ByteOrder) := s.toList.flatMap fun c => (units16 c).flatMap (unitBytes order 2)
  let units32Of (order : ByteOrder) := s.toList.flatMap fun c => unitBytes order 4 c.toNat
  match e with
  | .utf8 mark => .ok ((if mark then Utf8.encodeChar '\ufeff' else []) ++ Utf8.encode s)
  | .utf16 (some order) => .ok (units16Of order)
  | .utf16 none => .ok (unitBytes .little 2 0xfeff ++ units16Of .little)
  | .utf32 (some order) => .ok (units32Of order)
  | .utf32 none => .ok (unitBytes .little 4 0xfeff ++ units32Of .little)
  | .direct name limit => directBytes name limit s.toList

end Encoding

end FeatureAtlas
