/-!
# Calendar and timestamps

Dates of the proleptic Gregorian calendar in the years 1 to 9999, and instants as microseconds from the
start of year 1. A timestamp is the instant in UTC, cut to milliseconds.
-/

namespace FeatureAtlas

/-- A date of the Gregorian calendar. -/
structure Date where
  year : Nat
  month : Nat
  day : Nat
deriving DecidableEq, Repr, Inhabited

namespace Date

/-- Leap years are divisible by four, and of the centuries those by four hundred. -/
def isLeap (year : Nat) : Bool := year % 4 == 0 && (year % 100 != 0 || year % 400 == 0)

/-- The number of days of a month. -/
def daysInMonth (year month : Nat) : Nat :=
  if month == 2 then (if isLeap year then 29 else 28)
  else if month == 4 || month == 6 || month == 9 || month == 11 then 30
  else 31

/-- The number of days before a year, from the start of year 1. -/
def daysBeforeYear (year : Nat) : Nat :=
  let y := year - 1
  y * 365 + y / 4 - y / 100 + y / 400

/-- The number of days before a month of a year. -/
def daysBeforeMonth (year month : Nat) : Nat :=
  (List.range (month - 1)).foldr (fun m n => daysInMonth year (m + 1) + n) 0

/-- The number of days before a date, from the start of year 1. -/
def dayNumber (d : Date) : Nat :=
  daysBeforeYear d.year + daysBeforeMonth d.year d.month + (d.day - 1)

/-- The month and day of a day of the year, counted from zero. -/
def monthAndDay (year : Nat) : Nat → Nat → Nat → Nat × Nat
  | 0, month, days => (month, days + 1)
  | fuel + 1, month, days =>
    let length := daysInMonth year month
    if days < length then (month, days + 1) else monthAndDay year fuel (month + 1) (days - length)

/-- The date with a given number of days before it. -/
def ofDayNumber (n : Nat) : Date :=
  let n400 := n / 146097
  let r := n % 146097
  let n100 := min (r / 36524) 3
  let r := r - n100 * 36524
  let n4 := r / 1461
  let r := r % 1461
  let n1 := min (r / 365) 3
  let r := r - n1 * 365
  let year := n400 * 400 + n100 * 100 + n4 * 4 + n1 + 1
  let (month, day) := monthAndDay year 12 1 r
  ⟨year, month, day⟩

/-- A date within the calendar's years, months and days. -/
def isValid (d : Date) : Bool :=
  1 ≤ d.year && d.year ≤ 9999 && 1 ≤ d.month && d.month ≤ 12 && 1 ≤ d.day &&
    d.day ≤ daysInMonth d.year d.month

end Date

/-- A date and a time of day; without an offset from UTC, in minutes, it is read as UTC. -/
structure DateTime where
  date : Date
  hour : Nat := 0
  minute : Nat := 0
  second : Nat := 0
  microsecond : Nat := 0
  offset : Option Int := none
deriving DecidableEq, Repr, Inhabited

/-- Microseconds from the start of year 1 in UTC. -/
abbrev Instant := Int

namespace DateTime

/-- The microseconds of a day. -/
def dayMicros : Int := 86400000000

/-- The first instant after the calendar's last year. -/
def lastInstant : Int := Int.ofNat (Date.daysBeforeYear 10000) * dayMicros

/-- The instant that a date and time denotes. -/
def instant (t : DateTime) : Instant :=
  let seconds : Nat := (t.hour * 60 + t.minute) * 60 + t.second
  Int.ofNat t.date.dayNumber * dayMicros + Int.ofNat seconds * 1000000 + Int.ofNat t.microsecond -
    t.offset.getD 0 * 60000000

/-- Whether an instant lies in the calendar's years. -/
def inRange (i : Instant) : Bool := 0 ≤ i && i < lastInstant

/-- The last `width` decimal digits of a number. -/
def digits : Nat → Nat → List Char
  | 0, _ => []
  | width + 1, n => digits width (n / 10) ++ [Nat.digitChar (n % 10)]

/-- The date and time in UTC at an instant of the calendar's years. -/
def ofInstant (i : Instant) : DateTime :=
  let seconds := (i % dayMicros / 1000000).toNat
  { date := Date.ofDayNumber (i / dayMicros).toNat
    hour := seconds / 3600
    minute := seconds / 60 % 60
    second := seconds % 60
    microsecond := (i % 1000000).toNat
    offset := some 0 }

/-- The same date and time of day in UTC. -/
def asUtc (t : DateTime) : DateTime := { t with offset := some 0 }

/-- The same instant in UTC, if it lies in the calendar's years. -/
def toUtc? (t : DateTime) : Option DateTime :=
  if t.offset == some 0 then some t
  else if inRange t.instant then some (ofInstant t.instant)
  else none

/-- The text of a date and time in UTC, cut to milliseconds. -/
def stamp (t : DateTime) : String := String.ofList <|
  digits 4 t.date.year ++ '-' :: digits 2 t.date.month ++ '-' :: digits 2 t.date.day ++ 'T' ::
    digits 2 t.hour ++ ':' :: digits 2 t.minute ++ ':' :: digits 2 t.second ++
    '.' :: digits 3 (t.microsecond / 1000) ++ ['Z']

/-- The timestamp of a date and time. -/
def timestamp? (t : DateTime) : Option String :=
  let aware := if t.offset.isNone then t.asUtc else t
  aware.toUtc?.map stamp

/-- The text of a date and time in a log line. -/
def logged? (t : DateTime) : Option String :=
  let normalized := if t.offset.isNone then some t.asUtc else t.toUtc?
  normalized.map stamp

end DateTime

end FeatureAtlas
