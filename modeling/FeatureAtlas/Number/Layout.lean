import FeatureAtlas.Number.Shortest

/-!
# Layouts of a double

A double can be written with a fixed number of places, with an exponent, or in whichever of the two is the
shorter. The digits are those of the exact value, rounded once, ties to even.
-/

namespace FeatureAtlas.Binary64

/-- The layouts of a double. -/
inductive Layout where
  | places
  | exponent
  | general
deriving DecidableEq, Repr, Inhabited

/-- Digits with a point before the last `places` of them; `keepPoint` writes it even before none. -/
def pointed (keepPoint : Bool) (places : Nat) (digits : List Char) : List Char :=
  let full := List.replicate (places + 1 - digits.length) '0' ++ digits
  let whole := full.take (full.length - places)
  if places == 0 then whole ++ (if keepPoint then ['.'] else [])
  else whole ++ '.' :: full.drop (full.length - places)

/-- A quotient with a number of places. -/
def placesChars (keepPoint : Bool) (places num den : Nat) : List Char :=
  let (n, d) := shifted num den (Int.ofNat places)
  pointed keepPoint places (Nat.toDigits 10 (roundDiv n d))

/-- The digits of a quotient rounded to one digit before the point and `places` behind it, with the power
of ten of the first digit. -/
def roundedDigits (places num den : Nat) : Nat × Int :=
  if num == 0 then (0, 0)
  else
    let k := decimalOrder num den
    let (n, d) := shifted num den (Int.ofNat places - k)
    let m := roundDiv n d
    if m ≥ Nat.pow 10 (places + 1) then (m / 10, k + 1) else (m, k)

/-- A quotient with an exponent. -/
def exponentChars (keepPoint : Bool) (places num den : Nat) : List Char :=
  let (m, k) := roundedDigits places num den
  pointed keepPoint places (Nat.toDigits 10 m) ++ 'e' :: exponentText k

/-- A text without zeros at the end of its fraction, nor a point that ends it. -/
def withoutZeros (cs : List Char) : List Char :=
  if cs.contains '.' then
    let kept := (cs.reverse.dropWhile (· == '0'))
    (kept.dropWhile (· == '.')).reverse
  else cs

/-- A quotient with a number of significant digits: with an exponent if that is below `-4` or not below the
number of digits. Zeros at the end are left out unless they are asked for. -/
def generalChars (keepZeros : Bool) (precision num den : Nat) : List Char :=
  let p := max precision 1
  let (m, k) := roundedDigits (p - 1) num den
  let trim := if keepZeros then id else withoutZeros
  if -4 ≤ k && k < Int.ofNat p then
    trim (placesChars keepZeros (Int.ofNat p - 1 - k).toNat num den)
  else trim (pointed keepZeros (p - 1) (Nat.toDigits 10 m)) ++ 'e' :: exponentText k

/-- A double in a layout; `full` keeps the point and the zeros that a layout would leave out. -/
def written (kind : Layout) (full : Bool) (precision : Nat) : Binary64 → List Char
  | infinite false => "inf".toList
  | infinite true => "-inf".toList
  | notANumber => "nan".toList
  | finite negative m e =>
    let (num, den) := ratio m e
    let body := match kind with
      | .places => placesChars full precision num den
      | .exponent => exponentChars full precision num den
      | .general => generalChars full precision num den
    if negative then '-' :: body else body

end FeatureAtlas.Binary64
