import FeatureAtlas.Config.Setting
import FeatureAtlas.Json.Reader
import FeatureAtlas.Number.Binary64
import FeatureAtlas.Text.Basic

/-!
# Keys and scalars of TOML

Readers of the smallest parts of a TOML document. Each reader gives what it read and the rest of the text,
or nothing if the text does not start with such a part.
-/

namespace FeatureAtlas.Toml

/-! ## Characters -/

/-- Blanks inside a line. -/
def isBlank (c : Char) : Bool := c == ' ' || c == '\t'

/-- Blanks and line feeds. -/
def isSpace (c : Char) : Bool := isBlank c || c == '\n'

/-- Control characters, which stand nowhere but in line ends and tabs. -/
def isControl (c : Char) : Bool := c != '\t' && (c.toNat < 32 || c.toNat == 127)

/-- The characters of a bare key. -/
def isKeyChar (c : Char) : Bool := c.isAlphanum || c == '-' || c == '_'

/-- Skips blanks inside a line. -/
def skipBlanks (cs : List Char) : List Char := cs.dropWhile isBlank

/-- Skips a comment up to the end of its line. -/
def skipComment : List Char → Option (List Char)
  | '#' :: cs =>
    if (cs.takeWhile (· != '\n')).any isControl then none else some (cs.dropWhile (· != '\n'))
  | cs => some cs

/-- Skips blanks, line feeds and comments; the number bounds the comments. -/
def skipSpace : Nat → List Char → Option (List Char)
  | 0, cs => some (cs.dropWhile isSpace)
  | fuel + 1, cs =>
    match cs.dropWhile isSpace with
    | '#' :: rest => skipComment ('#' :: rest) >>= skipSpace fuel
    | rest => some rest

/-! ## Strings -/

/-- The value of hexadecimal digits. -/
def hexNumber? (cs : List Char) : Option Nat :=
  cs.foldlM (fun n c => (Json.hexValue? c).map fun d => n * 16 + d) 0

/-- A character written by a number of hexadecimal digits. -/
def hexChar? (width : Nat) (cs : List Char) : Option (Char × List Char) := do
  let digits := cs.take width
  if digits.length < width then none
  let n ← hexNumber? digits
  if n ≤ 0xd7ff || (0xe000 ≤ n && n ≤ 0x10ffff) then some (Char.ofNat n, cs.drop width) else none

/-- An escape behind its backslash; a line ending in one goes on behind the blanks of the next lines. -/
def escape? (multiline : Bool) : List Char → Option (List Char × List Char)
  | 'u' :: cs => (hexChar? 4 cs).map fun (c, rest) => ([c], rest)
  | 'U' :: cs => (hexChar? 8 cs).map fun (c, rest) => ([c], rest)
  | 'b' :: cs => some (['\x08'], cs)
  | 't' :: cs => some (['\t'], cs)
  | 'n' :: cs => some (['\n'], cs)
  | 'f' :: cs => some (['\x0c'], cs)
  | 'r' :: cs => some (['\r'], cs)
  | '"' :: cs => some (['"'], cs)
  | '\\' :: cs => some (['\\'], cs)
  | c :: cs =>
    if multiline && c == '\n' then some ([], cs.dropWhile isSpace)
    else if multiline && isBlank c then
      match skipBlanks cs with
      | [] => some ([], [])
      | '\n' :: rest => some ([], rest.dropWhile isSpace)
      | _ => none
    else none
  | [] => none

/-- The characters of a string up to its closing quotes; the number bounds them. -/
def basicChars? (multiline : Bool) : Nat → List Char → Option (List Char × List Char)
  | 0, _ => none
  | _ + 1, [] => none
  | fuel + 1, c :: cs =>
    if c == '"' then
      if !multiline then some ([], cs)
      else match cs with
        | '"' :: '"' :: rest => some ([], rest)
        | _ => (basicChars? multiline fuel cs).map fun (s, rest) => (c :: s, rest)
    else if c == '\\' then do
      let (escaped, rest) ← escape? multiline cs
      let (s, rest) ← basicChars? multiline fuel rest
      return (escaped ++ s, rest)
    else if isControl c && !(multiline && c == '\n') then none
    else (basicChars? multiline fuel cs).map fun (s, rest) => (c :: s, rest)

/-- A string between double quotes, behind the first one. -/
def basicString? (cs : List Char) : Option (String × List Char) :=
  (basicChars? false (cs.length + 1) cs).map fun (s, rest) => (String.ofList s, rest)

/-- A string between single quotes, behind the first one. -/
def literalString? (cs : List Char) : Option (String × List Char) :=
  let s := cs.takeWhile (· != '\'')
  match cs.drop s.length with
  | [] => none
  | _ :: rest => if s.any isControl then none else some (String.ofList s, rest)

/-- Up to two more quotes at the end of a string over several lines belong to it. -/
def extraQuotes (quote : Char) (s : List Char) (rest : List Char) : String × List Char :=
  let extra := min 2 (rest.takeWhile (· == quote)).length
  (String.ofList (s ++ List.replicate extra quote), rest.drop extra)

/-- The text without a line feed at its start. -/
def dropFirstNewline : List Char → List Char
  | '\n' :: cs => cs
  | cs => cs

/-- A string over several lines between double quotes, behind the first three. -/
def basicBlock? (cs : List Char) : Option (String × List Char) :=
  (basicChars? true (cs.length + 1) (dropFirstNewline cs)).map fun (s, rest) => extraQuotes '"' s rest

/-- A string over several lines between single quotes, behind the first three. -/
def literalBlock? (cs : List Char) : Option (String × List Char) :=
  match Text.cut? ['\'', '\'', '\''] (dropFirstNewline cs) with
  | none => none
  | some (s, rest) =>
    if s.any fun c => isControl c && c != '\n' then none else some (extraQuotes '\'' s rest)

/-! ## Keys -/

/-- One part of a key. -/
def keyPart? : List Char → Option (String × List Char)
  | '"' :: cs => basicString? cs
  | '\'' :: cs => literalString? cs
  | cs =>
    let part := cs.takeWhile isKeyChar
    if part.isEmpty then none else some (String.ofList part, cs.drop part.length)

/-- The parts of a dotted key, with the blanks behind them; the number bounds the parts. -/
def key? : Nat → List Char → Option (List String × List Char)
  | 0, _ => none
  | fuel + 1, cs => do
    let (part, rest) ← keyPart? cs
    match skipBlanks rest with
    | '.' :: more =>
      let (parts, rest) ← key? fuel (skipBlanks more)
      return (part :: parts, rest)
    | rest => return ([part], rest)

/-! ## Numbers -/

/-- Digits of a class with single underscores between them, at the start of a text. -/
def digitRun (isDigit : Char → Bool) : List Char → List Char
  | '_' :: c :: cs => if isDigit c then '_' :: c :: digitRun isDigit cs else []
  | c :: cs => if isDigit c then c :: digitRun isDigit cs else []
  | [] => []

/-- A run of digits that starts with a digit. -/
def digits (isDigit : Char → Bool) (cs : List Char) : List Char :=
  match cs with
  | '_' :: _ => []
  | _ => digitRun isDigit cs

/-- Digits without their underscores. -/
def plain (cs : List Char) : List Char := cs.filter (· != '_')

/-- An integer in a base other than ten, behind its prefix. -/
def baseInteger? (base : Nat) (cs : List Char) : Option (Setting × List Char) :=
  let ds := digits (fun c => match Json.hexValue? c with
    | some d => d < base
    | none => false) cs
  if ds.isEmpty then none
  else
    let n := (plain ds).foldl (fun n c => n * base + (Json.hexValue? c).getD 0) 0
    some (.int n, cs.drop ds.length)

/-- The integer part of a decimal: a zero, or digits that do not start with one. -/
def wholePart : List Char → List Char
  | '0' :: _ => ['0']
  | cs => digits Char.isDigit cs

/-- A fraction: a point with digits behind it. -/
def fractionPart : List Char → List Char
  | '.' :: cs =>
    let ds := digits Char.isDigit cs
    if ds.isEmpty then [] else '.' :: ds
  | _ => []

/-- An exponent: an `e`, an optional sign and digits. -/
def exponentPart : List Char → List Char
  | [] => []
  | c :: cs =>
    if c == 'e' || c == 'E' then
      let sign := match cs with
        | '+' :: _ => ['+']
        | '-' :: _ => ['-']
        | _ => []
      let ds := digits Char.isDigit (cs.drop sign.length)
      if ds.isEmpty then [] else c :: sign ++ ds
    else []

/-- A decimal number. -/
def decimal? (cs : List Char) : Option (Setting × List Char) :=
  let sign := match cs with
    | '+' :: _ => ['+']
    | '-' :: _ => ['-']
    | _ => []
  let body := cs.drop sign.length
  let whole := wholePart body
  if whole.isEmpty then none
  else
    let fraction := fractionPart (body.drop whole.length)
    let exponent := exponentPart (body.drop (whole.length + fraction.length))
    let rest := body.drop (whole.length + fraction.length + exponent.length)
    if fraction.isEmpty && exponent.isEmpty then
      let n := Binary64.digitsValue (plain whole)
      some (.int (if sign == ['-'] then -Int.ofNat n else Int.ofNat n), rest)
    else
      (Binary64.ofText? (sign ++ plain (whole ++ fraction ++ exponent))).map fun x => (.float x, rest)

/-- A number in any base. -/
def number? (cs : List Char) : Option (Setting × List Char) :=
  let based := match cs with
    | '0' :: 'x' :: ds => baseInteger? 16 ds
    | '0' :: 'b' :: ds => baseInteger? 2 ds
    | '0' :: 'o' :: ds => baseInteger? 8 ds
    | _ => none
  based <|> decimal? cs

/-- The names of doubles that have no digits. -/
def specials : List (String × Binary64) :=
  [("inf", .infinite false), ("nan", .notANumber), ("+inf", .infinite false), ("+nan", .notANumber),
   ("-inf", .infinite true), ("-nan", .notANumber)]

/-- A double by its name. -/
def special? (cs : List Char) : Option (Setting × List Char) :=
  specials.findSome? fun (name, x) => (Text.after? name.toList cs).map fun rest => (.float x, rest)

/-! ## Dates and times -/

/-- A number of exactly so many digits. -/
def fixed? (width : Nat) (cs : List Char) : Option (Nat × List Char) :=
  let ds := cs.take width
  if ds.length == width && ds.all Char.isDigit then some (Binary64.digitsValue ds, cs.drop width)
  else none

/-- What follows a character. -/
def after? (c : Char) : List Char → Option (List Char)
  | d :: cs => if c == d then some cs else none
  | [] => none

/-- A time of day. -/
def time? (cs : List Char) : Option (TimeOfDay × List Char) := do
  let (hour, cs) ← fixed? 2 cs
  let (minute, cs) ← fixed? 2 (← after? ':' cs)
  let (second, cs) ← fixed? 2 (← after? ':' cs)
  if 23 < hour || 59 < minute || 59 < second then none
  match cs with
  | '.' :: more =>
    let ds := more.takeWhile Char.isDigit
    if ds.isEmpty then return (⟨hour, minute, second, 0⟩, cs)
    else
      let micros := Binary64.digitsValue ((ds ++ List.replicate 6 '0').take 6)
      return (⟨hour, minute, second, micros⟩, more.drop ds.length)
  | _ => return (⟨hour, minute, second, 0⟩, cs)

/-- An offset from UTC in minutes, if there is one. -/
def offset (cs : List Char) : Option Int × List Char :=
  let signed (sign : Int) (ds : List Char) : Option (Int × List Char) := do
    let (hour, ds) ← fixed? 2 ds
    let (minute, ds) ← fixed? 2 (← after? ':' ds)
    if 23 < hour || 59 < minute then none
    return (sign * Int.ofNat (hour * 60 + minute), ds)
  let found := match cs with
    | 'Z' :: rest => some (0, rest)
    | 'z' :: rest => some (0, rest)
    | '+' :: ds => signed 1 ds
    | '-' :: ds => signed (-1) ds
    | _ => none
  match found with
  | some (minutes, rest) => (some minutes, rest)
  | none => (none, cs)

/-- The digits of a date; whether the calendar has it is another question. -/
def date? (cs : List Char) : Option (Date × List Char) := do
  let (year, cs) ← fixed? 4 cs
  let (month, cs) ← fixed? 2 (← after? '-' cs)
  let (day, cs) ← fixed? 2 (← after? '-' cs)
  if month < 1 || 12 < month || day < 1 || 31 < day then none
  return (⟨year, month, day⟩, cs)

/-- A date, or a date and a time. -/
def dateTime? (cs : List Char) : Option (Setting × List Char) := do
  let (date, rest) ← date? cs
  let timed := match rest with
    | c :: more => if c == 'T' || c == 't' || c == ' ' then time? more else none
    | [] => none
  match timed with
  | none => return (.date date, rest)
  | some (t, rest) =>
    let (minutes, rest) := offset rest
    return (.dateTime
      { date, hour := t.hour, minute := t.minute, second := t.second, microsecond := t.microsecond
        offset := minutes }, rest)

/-- Whether the calendar has the date of a value. -/
def inCalendar : Setting → Bool
  | .date d => d.isValid
  | .dateTime t => t.date.isValid
  | _ => true

end FeatureAtlas.Toml
