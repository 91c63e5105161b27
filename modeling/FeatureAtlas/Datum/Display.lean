import FeatureAtlas.Datum.Basic
import FeatureAtlas.Json.Printer

/-!
# Displayed data

Reports and messages show values: a text on its own as it is, inside other values between quotes.
-/

namespace FeatureAtlas.Datum

/-- One byte between quotes. -/
def quotedByte (quote : Char) (b : UInt8) : List Char :=
  if 0x80 ≤ b then '\\' :: 'x' :: Text.hexPadded 2 b.toNat
  else Text.quotedChar quote (Char.ofNat b.toNat)

/-- Bytes between quotes, with a mark before them. -/
def quotedBytes (bs : List UInt8) : String :=
  let quote := Text.quoteFor (bs.map fun b => Char.ofNat b.toNat)
  String.ofList ('b' :: quote :: bs.flatMap (quotedByte quote) ++ [quote])

/-- An offset from UTC that is not zero, as whole days and the seconds above them. -/
def offsetText (minutes : Int) : String :=
  if minutes == 0 then "datetime.timezone.utc"
  else
    let days := minutes / 1440
    let seconds := "seconds=" ++ String.ofList (Json.intText (minutes % 1440 * 60))
    "datetime.timezone(datetime.timedelta(" ++
      (if days == 0 then "" else "days=" ++ String.ofList (Json.intText days) ++ ", ") ++ seconds ++
      "))"

/-- Numbers separated by commas. -/
def numbersText (ns : List Nat) : String := Text.join ", " (ns.map toString)

/-- A date as a constructor call. -/
def dayCall (d : Date) : String := "datetime.date(" ++ numbersText [d.year, d.month, d.day] ++ ")"

/-- A date and time as a constructor call; seconds and microseconds that are zero are left out. -/
def momentCall (t : DateTime) : String :=
  let parts := [t.date.year, t.date.month, t.date.day, t.hour, t.minute] ++
    (if t.microsecond != 0 then [t.second, t.microsecond]
     else if t.second != 0 then [t.second] else [])
  "datetime.datetime(" ++ numbersText parts ++
    (match t.offset with
      | none => ""
      | some m => ", tzinfo=" ++ offsetText m) ++ ")"

/-- A date with dashes. -/
def dayText (d : Date) : String :=
  String.ofList (DateTime.digits 4 d.year ++ '-' :: DateTime.digits 2 d.month ++
    '-' :: DateTime.digits 2 d.day)

/-- A date and a time of day with its offset. -/
def momentText (t : DateTime) : String :=
  let fraction := if t.microsecond == 0 then [] else '.' :: DateTime.digits 6 t.microsecond
  let offset := match t.offset with
    | none => []
    | some m => (if m < 0 then '-' else '+') :: DateTime.digits 2 (m.natAbs / 60) ++
        ':' :: DateTime.digits 2 (m.natAbs % 60)
  dayText t.date ++ String.ofList (' ' :: DateTime.digits 2 t.hour ++ ':' ::
    DateTime.digits 2 t.minute ++ ':' :: DateTime.digits 2 t.second ++ fraction ++ offset)

mutual

/-- A datum inside another one. -/
def nestedText : Datum → String
  | null => "None"
  | bool true => "True"
  | bool false => "False"
  | int n => String.ofList (Json.intText n)
  | float x => x.text
  | text s => Text.quoted s
  | bytes bs => quotedBytes bs
  | moment t => momentCall t
  | day d => dayCall d
  | path p => "PosixPath(" ++ Text.quoted p.toString ++ ")"
  | list xs => "[" ++ nestedItems xs ++ "]"
  | tuple [x] => "(" ++ nestedText x ++ ",)"
  | tuple xs => "(" ++ nestedItems xs ++ ")"
  | set [] => "set()"
  | set xs => "\x7b" ++ nestedItems xs ++ "\x7d"
  | frozenSet [] => "frozenset()"
  | frozenSet xs => "frozenset(\x7b" ++ nestedItems xs ++ "\x7d)"
  | map entries => "\x7b" ++ nestedEntries entries ++ "\x7d"
  | other display => display

/-- Elements separated by commas. -/
def nestedItems : List Datum → String
  | [] => ""
  | [x] => nestedText x
  | x :: y :: rest => nestedText x ++ ", " ++ nestedItems (y :: rest)

/-- Entries separated by commas. -/
def nestedEntries : List (Datum × Datum) → String
  | [] => ""
  | [(k, v)] => nestedText k ++ ": " ++ nestedText v
  | (k, v) :: e :: rest => nestedText k ++ ": " ++ nestedText v ++ ", " ++ nestedEntries (e :: rest)

end

/-- A datum on its own. -/
def shown : Datum → String
  | text s => s
  | path p => p.toString
  | day d => dayText d
  | moment t => momentText t
  | v => nestedText v

end FeatureAtlas.Datum

namespace FeatureAtlas.Json

/-- A JSON value as reports show it. -/
def shown (j : Json) : String := (Datum.ofJson j).shown

end FeatureAtlas.Json
