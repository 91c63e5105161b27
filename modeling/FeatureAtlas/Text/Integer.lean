import FeatureAtlas.Text.Basic

/-!
# Integers in text

An integer is an optional sign and decimal digits of any script, with single underscores allowed
between digits and blanks around the whole.
-/

namespace FeatureAtlas.Text

/-! ## Digits

Every script's decimal digits come in a block of ten, so a digit's value is its distance from the
block's zero.
-/

/-- The code points of the digits zero. -/
def digitZeros : List Nat :=
  [0x30, 0x660, 0x6f0, 0x7c0, 0x966, 0x9e6, 0xa66, 0xae6, 0xb66, 0xbe6, 0xc66, 0xce6, 0xd66,
   0xde6, 0xe50, 0xed0, 0xf20, 0x1040, 0x1090, 0x17e0, 0x1810, 0x1946, 0x19d0, 0x1a80, 0x1a90,
   0x1b50, 0x1bb0, 0x1c40, 0x1c50, 0xa620, 0xa8d0, 0xa900, 0xa9d0, 0xa9f0, 0xaa50, 0xabf0,
   0xff10, 0x104a0, 0x10d30, 0x11066, 0x110f0, 0x11136, 0x111d0, 0x112f0, 0x11450, 0x114d0,
   0x11650, 0x116c0, 0x11730, 0x118e0, 0x11950, 0x11c50, 0x11d50, 0x11da0, 0x16a60, 0x16ac0,
   0x16b50, 0x1d7ce, 0x1d7d8, 0x1d7e2, 0x1d7ec, 0x1d7f6, 0x1e140, 0x1e2f0, 0x1e950, 0x1fbf0]

/-- The value of a decimal digit of any script. -/
def digitValue? (c : Char) : Option Nat :=
  (digitZeros.find? fun z => z ≤ c.toNat && c.toNat < z + 10).map (c.toNat - ·)

/-- Whether a character is a decimal digit of some script. -/
def isDecimalDigit (c : Char) : Bool := (digitValue? c).isSome

/-! ## Integers -/

/-- Reads digits with single underscores between them; `afterDigit` says that a digit stands before. -/
def digitsValue? (acc : Nat) (afterDigit : Bool) : List Char → Option Nat
  | [] => if afterDigit then some acc else none
  | c :: cs =>
    match digitValue? c with
    | some d => digitsValue? (acc * 10 + d) true cs
    | none => if c == '_' && afterDigit then digitsValue? acc false cs else none

/-- The longest text that is read as an integer, in digits. -/
def integerDigitLimit : Nat := 4300

/-- Reads an integer written in decimal digits. -/
def integer? (s : String) : Option Int :=
  let cs := trim s.toList
  if integerDigitLimit < (cs.filter fun c => (digitValue? c).isSome).length then none
  else match cs with
    | '-' :: ds => (digitsValue? 0 false ds).map fun n => -Int.ofNat n
    | '+' :: ds => (digitsValue? 0 false ds).map Int.ofNat
    | ds => (digitsValue? 0 false ds).map Int.ofNat

end FeatureAtlas.Text
