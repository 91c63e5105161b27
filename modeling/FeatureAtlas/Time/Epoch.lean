import FeatureAtlas.Number.Binary64
import FeatureAtlas.Time.Calendar

/-!
# Epoch seconds

A clock reads seconds from the start of 1970, as an integer or as a double. The fraction of a double is
rounded to microseconds, ties to even.
-/

namespace FeatureAtlas

/-- A reading of the clock. -/
inductive EpochSeconds where
  | whole (seconds : Int)
  | fractional (seconds : Binary64)
deriving DecidableEq, Repr, Inhabited

/-- Why a reading of the clock is no instant of the calendar. -/
inductive EpochError where
  | notANumber
  | outOfClock
  | valueTooLarge
  | yearOutOfRange (year : Int)
deriving DecidableEq, Repr, Inhabited

/-- The message about a reading of the clock. -/
def EpochError.message : EpochError → String
  | notANumber => "Invalid value NaN (not a number)"
  | outOfClock => "timestamp out of range for platform time_t"
  | valueTooLarge => "[Errno 75] Value too large for defined data type"
  | yearOutOfRange year => "year " ++ toString year ++ " is out of range"

namespace EpochSeconds

/-- The microseconds from the start of year 1 to the start of 1970. -/
def epoch : Instant := Int.ofNat (Date.daysBeforeYear 1970) * DateTime.dayMicros

/-- The year of a number of days from the start of year 1, also beyond the calendar. -/
def yearOfDays (days : Int) : Int :=
  days / 146097 * 400 + Int.ofNat (Date.ofDayNumber (days % 146097).toNat).year

/-- The seconds that a clock can count. -/
def clockLimit : Int := Nat.pow 2 63

/-- The first year that does not fit a calendar year counted from 1900 in 32 bits, and the one before the
first that does. -/
def yearLimits : Int × Int := (Nat.pow 2 31 - 1 + 1900, -Nat.pow 2 31 + 1900)

/-- The whole seconds of a double, cut toward zero, with its fraction in microseconds: the product is rounded
to a double first and then to an integer. -/
def micros (negative : Bool) (mantissa : Nat) (exponent : Int) : Int × Int :=
  let (num, den) := Binary64.ratio mantissa exponent
  let fraction := match Binary64.ofRatio false (num % den * 1000000) den with
    | .finite _ m e =>
      let (n, d) := Binary64.ratio m e
      Binary64.roundDiv n d
    | _ => 0
  let signed (n : Nat) : Int := if negative then -(Int.ofNat n) else Int.ofNat n
  (signed (num / den), signed fraction)

/-- The instant of whole seconds and microseconds. -/
def checked (seconds microseconds : Int) : Except EpochError Instant :=
  let seconds := seconds + microseconds / 1000000
  if clockLimit ≤ seconds || seconds < -clockLimit then .error .outOfClock
  else
    let instant := epoch + seconds * 1000000 + microseconds % 1000000
    let year := yearOfDays (instant / DateTime.dayMicros)
    if yearLimits.1 < year || year < yearLimits.2 then .error .valueTooLarge
    else if DateTime.inRange instant then .ok instant
    else .error (.yearOutOfRange year)

/-- The instant of a reading of the clock. -/
def instant : EpochSeconds → Except EpochError Instant
  | whole n => checked n 0
  | fractional (.finite negative m e) =>
    let (seconds, microseconds) := micros negative m e
    checked seconds microseconds
  | fractional (.infinite _) => .error .outOfClock
  | fractional .notANumber => .error .notANumber

/-- The reading of the clock at an instant. -/
def ofInstant (i : Instant) : EpochSeconds :=
  let micros := i - epoch
  fractional (Binary64.ofRatio (micros < 0) micros.natAbs 1000000)

end EpochSeconds

end FeatureAtlas
