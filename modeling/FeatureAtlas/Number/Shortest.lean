import FeatureAtlas.Number.Binary64

/-!
# The shortest decimal of a double

A double is written with the fewest significant digits that read back as the same double; among those
the nearest to the exact value, ties to the even digit.
-/

namespace FeatureAtlas.Binary64

/-- A positive decimal `digits · 10 ^ exponent`. -/
structure Decimal where
  digits : Nat
  exponent : Int
deriving DecidableEq, Repr, Inhabited

/-- The largest power of ten not above `num / den`, found near a first guess. -/
def decimalOrder (num den : Nat) : Int :=
  let atLeast (k : Int) : Bool :=
    if k < 0 then num * Nat.pow 10 (-k).toNat ≥ den else num ≥ den * Nat.pow 10 k.toNat
  let guess : Int := (Int.ofNat num.log2 - Int.ofNat den.log2) * 30103 / 100000
  let k := guess + 2
  if atLeast k then k
  else if atLeast (k - 1) then k - 1
  else if atLeast (k - 2) then k - 2
  else if atLeast (k - 3) then k - 3
  else k - 4

/-- The quotient `num / den · 10 ^ k` as a quotient of naturals. -/
def shifted (num den : Nat) (k : Int) : Nat × Nat :=
  if k < 0 then (num, den * Nat.pow 10 (-k).toNat) else (num * Nat.pow 10 k.toNat, den)

/-- The nearest decimal with a given number of significant digits that reads back, if any. -/
def nearestDecimal? (mantissa : Nat) (exponent : Int) (count : Nat) : Option Decimal :=
  let (num, den) := ratio mantissa exponent
  let k := decimalOrder num den - Int.ofNat count + 1
  let (n, d) := shifted num den (-k)
  let low := n / d
  let reads (digits : Nat) : Bool := ofDecimal false digits k == finite false mantissa exponent
  let nearHigh := 2 * (n % d) > d || (2 * (n % d) == d && low % 2 == 1)
  let first := if nearHigh then low + 1 else low
  let second := if nearHigh then low else low + 1
  if reads first then some ⟨first, k⟩ else if reads second then some ⟨second, k⟩ else none

/-- Drops trailing zeros of a decimal's digits; `fuel` bounds their number. -/
def Decimal.normalize : Nat → Decimal → Decimal
  | 0, d => d
  | fuel + 1, d =>
    if d.digits != 0 && d.digits % 10 == 0 then normalize fuel ⟨d.digits / 10, d.exponent + 1⟩ else d

/-- The exact value of `mantissa · 2 ^ exponent` as a decimal. -/
def exactDecimal (mantissa : Nat) (exponent : Int) : Decimal :=
  if exponent < 0 then ⟨mantissa * Nat.pow 5 (-exponent).toNat, exponent⟩
  else ⟨mantissa * Nat.pow 2 exponent.toNat, 0⟩

/-- The shortest decimal that reads back as `mantissa · 2 ^ exponent`. -/
def shortest (mantissa : Nat) (exponent : Int) : Decimal :=
  let found := (List.range 17).findSome? fun i => nearestDecimal? mantissa exponent (i + 1)
  (found.getD (exactDecimal mantissa exponent)).normalize 400

/-- Digits with a decimal point after the first `whole` of them, zeros filled in on both sides. -/
def placePoint (digits : List Char) (whole : Int) : List Char :=
  let n : Int := Int.ofNat digits.length
  if whole ≤ 0 then '0' :: '.' :: (List.replicate (-whole).toNat '0' ++ digits)
  else if n ≤ whole then digits ++ List.replicate (whole - n).toNat '0' ++ ['.', '0']
  else digits.take whole.toNat ++ '.' :: digits.drop whole.toNat

/-- An exponent with its sign and at least two digits. -/
def exponentText (e : Int) : List Char :=
  let ds := Nat.toDigits 10 e.natAbs
  (if e < 0 then '-' else '+') :: (if ds.length < 2 then '0' :: ds else ds)

/-- A finite double's text: positional between `10 ^ -4` and `10 ^ 16`, otherwise with an exponent. -/
def finiteText (negative : Bool) (mantissa : Nat) (exponent : Int) : List Char :=
  let mark := if negative then ['-'] else []
  if mantissa == 0 then mark ++ ['0', '.', '0']
  else
    let d := shortest mantissa exponent
    let digits := Nat.toDigits 10 d.digits
    let whole : Int := Int.ofNat digits.length + d.exponent
    if -4 < whole && whole ≤ 16 then mark ++ placePoint digits whole
    else
      let fraction := digits.drop 1
      mark ++ digits.take 1 ++ (if fraction.isEmpty then [] else '.' :: fraction) ++
        'e' :: exponentText (whole - 1)

/-- A double's text, with `inf` and `nan` for the special values. -/
def text : Binary64 → String
  | finite negative m e => String.ofList (finiteText negative m e)
  | infinite false => "inf"
  | infinite true => "-inf"
  | notANumber => "nan"

end FeatureAtlas.Binary64
