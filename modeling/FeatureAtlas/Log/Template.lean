import FeatureAtlas.Datum.Display
import FeatureAtlas.Number.Layout

/-!
# Message templates

A template is a text with directives such as `%s` or `%05d`, filled in from left to right by arguments. A
directive is `%`, an optional key in parentheses, flags, a width, a precision, a size letter without a
meaning, and the letter of a conversion. The first directive that cannot be filled in is the error, and
arguments that are left over are an error too, unless they are a table or a list.
-/

namespace FeatureAtlas

/-- Why a template cannot be filled in. -/
inductive TemplateError where
  | incomplete
  | incompleteKey
  | keyWithoutTable
  | missingKey (key : String)
  | notIndexable (kind : String)
  | tooFewArguments
  | tooManyArguments
  | extentNotInteger
  | extentTooLarge (unit : String)
  | widthTooBig
  | precisionTooBig
  | unknownConversion (letter : Char) (index : Nat)
  | integerRequired (letter : Char) (kind : String)
  | numberRequired (letter : Char) (kind : String)
  | realRequired (kind : String)
  | integerTooLarge
  | infinityToInteger
  | notANumberToInteger
  | characterRequired
  | characterOutOfRange
deriving DecidableEq, Repr, Inhabited

namespace TemplateError

/-- The message about a template. -/
def message : TemplateError → String
  | incomplete => "incomplete format"
  | incompleteKey => "incomplete format key"
  | keyWithoutTable => "format requires a mapping"
  | missingKey key => Text.quoted key
  | notIndexable kind => kind ++ " indices must be integers or slices, not str"
  | tooFewArguments => "not enough arguments for format string"
  | tooManyArguments => "not all arguments converted during string formatting"
  | extentNotInteger => "* wants int"
  | extentTooLarge unit => "Python int too large to convert to C " ++ unit
  | widthTooBig => "width too big"
  | precisionTooBig => "precision too big"
  | unknownConversion letter index =>
    let shown := if 31 ≤ letter.toNat && letter.toNat ≤ 126 then letter else '?'
    "unsupported format character '" ++ String.singleton shown ++ "' (0x" ++
      String.ofList (Nat.toDigits 16 letter.toNat) ++ ") at index " ++ toString index
  | integerRequired letter kind =>
    "%" ++ String.singleton letter ++ " format: an integer is required, not " ++ kind
  | numberRequired letter kind =>
    "%" ++ String.singleton letter ++ " format: a real number is required, not " ++ kind
  | realRequired kind => "must be real number, not " ++ kind
  | integerTooLarge => "int too large to convert to float"
  | infinityToInteger => "cannot convert float infinity to integer"
  | notANumberToInteger => "cannot convert float NaN to integer"
  | characterRequired => "%c requires int or char"
  | characterOutOfRange => "%c arg not in range(0x110000)"

end TemplateError

namespace Template

/-! ## Arguments -/

/-- The arguments of a template: those still to be used, and the datum that keys look into. -/
structure Arguments where
  rest : List Datum
  keyed : Option Datum := none
deriving Inhabited

/-- The arguments that a datum stands for: a tuple for its elements, anything else for itself; tables, lists
and bytes can be looked into. -/
def Arguments.ofDatum : Datum → Arguments
  | .tuple xs => { rest := xs }
  | .map entries => { rest := [.map entries], keyed := some (.map entries) }
  | .list xs => { rest := [.list xs], keyed := some (.list xs) }
  | .bytes bs => { rest := [.bytes bs], keyed := some (.bytes bs) }
  | v => { rest := [v] }

/-- The next argument. -/
def Arguments.next (a : Arguments) : Except TemplateError (Datum × Arguments) :=
  match a.rest with
  | [] => .error .tooFewArguments
  | x :: rest => .ok (x, { a with rest })

/-- The arguments after a look under a key: its value is the next one. -/
def Arguments.select (a : Arguments) (key : String) : Except TemplateError Arguments :=
  match a.keyed with
  | some (.map entries) =>
    match entries.find? fun (k, _) => Datum.same k (.text key) with
    | some (_, v) => .ok { a with rest := [v] }
    | none => .error (.missingKey key)
  | some (.bytes _) => .error (.notIndexable "byte")
  | some v => .error (.notIndexable v.kindName)
  | none => .error .keyWithoutTable

/-! ## Directives -/

/-- How a converted argument is laid out. -/
structure Style where
  left : Bool := false
  signed : Bool := false
  blank : Bool := false
  alternate : Bool := false
  zeros : Bool := false
  width : Nat := 0
  precision : Option Nat := none
deriving Inhabited

/-- Characters that are flags. -/
def isFlag (c : Char) : Bool := c == '-' || c == '+' || c == ' ' || c == '#' || c == '0'

/-- The style of flags. -/
def styleOf (flags : List Char) : Style :=
  { left := flags.contains '-'
    signed := flags.contains '+'
    blank := flags.contains ' '
    alternate := flags.contains '#'
    zeros := flags.contains '0' }

/-- The key up to the parenthesis that closes it, and what follows. -/
def key? : Nat → List Char → Option (List Char × List Char)
  | _, [] => none
  | depth, c :: rest =>
    if c == ')' && depth == 0 then some ([], rest)
    else
      let inner := if c == '(' then depth + 1 else if c == ')' then depth - 1 else depth
      (key? inner rest).map fun (key, after) => (c :: key, after)

/-- The value of decimal digits. -/
def digitsNat (ds : List Char) : Nat := ds.foldl (fun n c => n * 10 + (c.toNat - '0'.toNat)) 0

/-- The largest width and the largest precision. -/
def widthLimit : Nat := Nat.pow 2 63 - 1

@[inherit_doc widthLimit]
def precisionLimit : Nat := Nat.pow 2 31 - 1

/-- The integer that an argument gives for a width or a precision, if it is within a limit. -/
def extent (limit : Nat) (unit : String) (a : Arguments) :
    Except TemplateError (Int × Arguments) := do
  let (v, a) ← a.next
  match v with
  | .int n => if Int.ofNat limit < n || n < -limit - 1 then .error (.extentTooLarge unit) else return (n, a)
  | .bool b => return (if b then 1 else 0, a)
  | _ => .error .extentNotInteger

/-- Reads a width into a style. -/
def readWidth (style : Style) (a : Arguments) :
    List Char → Except TemplateError (Style × Arguments × List Char)
  | '*' :: rest => do
    let (n, a) ← extent widthLimit "ssize_t" a
    return ({ style with left := style.left || n < 0, width := n.natAbs }, a, rest)
  | cs =>
    let width := digitsNat (cs.takeWhile Char.isDigit)
    if widthLimit < width then .error .widthTooBig
    else .ok ({ style with width }, a, cs.dropWhile Char.isDigit)

/-- Reads a precision into a style. -/
def readPrecision (style : Style) (a : Arguments) :
    List Char → Except TemplateError (Style × Arguments × List Char)
  | '.' :: '*' :: rest => do
    let (n, a) ← extent precisionLimit "int" a
    return ({ style with precision := some n.toNat }, a, rest)
  | '.' :: cs =>
    let precision := digitsNat (cs.takeWhile Char.isDigit)
    if precisionLimit < precision then .error .precisionTooBig
    else .ok ({ style with precision := some precision }, a, cs.dropWhile Char.isDigit)
  | cs => .ok (style, a, cs)

/-- Drops a size letter. -/
def skipSize : List Char → List Char
  | c :: rest => if c == 'h' || c == 'l' || c == 'L' then rest else c :: rest
  | [] => []

/-! ## Conversions -/

/-- Lays out a body without a sign: padded to the width with blanks. -/
def padded (style : Style) (body : List Char) : List Char :=
  let fill := List.replicate (style.width - body.length) ' '
  if style.left then body ++ fill else fill ++ body

/-- Lays out a number: blanks go before its sign and mark, zeros behind them. -/
def paddedNumber (style : Style) (negative : Bool) (mark digits : List Char) : List Char :=
  let sign :=
    if negative then ['-'] else if style.signed then ['+'] else if style.blank then [' '] else []
  let size := sign.length + mark.length + digits.length
  if style.zeros && !style.left then
    sign ++ mark ++ List.replicate (style.width - size) '0' ++ digits
  else padded style (sign ++ mark ++ digits)

/-- The bases of the integer conversions with the marks before their digits. -/
def baseOf (letter : Char) : Nat × List Char :=
  if letter == 'o' then (8, ['0', 'o'])
  else if letter == 'x' || letter == 'X' then (16, ['0', letter])
  else (10, [])

/-- An integer in the base of a conversion, with at least as many digits as the precision. -/
def integerText (letter : Char) (style : Style) (n : Int) : List Char :=
  let (base, mark) := baseOf letter
  let digits := Nat.toDigits base n.natAbs
  let digits := if letter == 'X' then digits.map Char.toUpper else digits
  let digits := List.replicate (style.precision.getD 0 - digits.length) '0' ++ digits
  paddedNumber style (n < 0) (if style.alternate then mark else []) digits

/-- The integer part of a double. -/
def truncated : Binary64 → Except TemplateError Int
  | .finite negative m e =>
    let (num, den) := Binary64.ratio m e
    .ok (if negative then -(Int.ofNat (num / den)) else Int.ofNat (num / den))
  | .infinite _ => .error .infinityToInteger
  | .notANumber => .error .notANumberToInteger

/-- The integer of an argument; doubles are cut for decimal conversions only. -/
def integerOf (letter : Char) : Datum → Except TemplateError Int
  | .int n => .ok n
  | .bool b => .ok (if b then 1 else 0)
  | v =>
    if letter == 'o' || letter == 'x' || letter == 'X' then
      .error (.integerRequired letter v.kindName)
    else match v with
      | .float x => truncated x
      | v => .error (.numberRequired letter v.kindName)

/-- The double of an argument. -/
def doubleOf : Datum → Except TemplateError Binary64
  | .float x => .ok x
  | .bool b => .ok (Binary64.ofInt (if b then 1 else 0))
  | .int n =>
    match Binary64.ofInt n with
    | .infinite _ => .error .integerTooLarge
    | x => .ok x
  | v => .error (.realRequired v.kindName)

/-- The layout of a conversion of doubles. -/
def layoutOf (letter : Char) : Binary64.Layout :=
  if letter == 'f' || letter == 'F' then .places
  else if letter == 'e' || letter == 'E' then .exponent
  else .general

/-- A double with the digits that the precision asks for, six if it does not say. -/
def doubleText (letter : Char) (style : Style) (x : Binary64) : List Char :=
  let body := x.written (layoutOf letter) style.alternate (style.precision.getD 6)
  let body := if letter.isUpper then body.map Char.toUpper else body
  match body with
  | '-' :: digits => paddedNumber style true [] digits
  | digits => paddedNumber style false [] digits

/-- The character of an argument: a text of one character, or a code point. -/
def characterOf : Datum → Except TemplateError Char
  | .text s =>
    match s.toList with
    | [c] => .ok c
    | _ => .error .characterRequired
  | .int n =>
    if 0 ≤ n && n < 0x110000 then .ok (Char.ofNat n.toNat) else .error .characterOutOfRange
  | .bool b => .ok (Char.ofNat (if b then 1 else 0))
  | _ => .error .characterRequired

/-- A text with the characters beyond ASCII escaped. -/
def asciiOnly (s : String) : List Char :=
  s.toList.flatMap fun c =>
    let n := c.toNat
    if n < 0x80 then [c]
    else if n < 0x100 then '\\' :: 'x' :: Text.hexPadded 2 n
    else if n < 0x10000 then '\\' :: 'u' :: Text.hexPadded 4 n
    else '\\' :: 'U' :: Text.hexPadded 8 n

/-- A text cut to the precision. -/
def cutText (style : Style) (cs : List Char) : List Char :=
  match style.precision with
  | none => padded style cs
  | some p => padded style (cs.take p)

/-- An argument converted; `index` is where the letter stands in the template. -/
def convert (letter : Char) (index : Nat) (style : Style) (v : Datum) :
    Except TemplateError (List Char) :=
  if letter == 's' then .ok (cutText style v.shown.toList)
  else if letter == 'r' then .ok (cutText style v.nestedText.toList)
  else if letter == 'a' then .ok (cutText style (asciiOnly v.nestedText))
  else if ['d', 'i', 'u', 'o', 'x', 'X'].contains letter then
    (integerOf letter v).map (integerText letter style)
  else if ['e', 'E', 'f', 'F', 'g', 'G'].contains letter then
    (doubleOf v).map (doubleText letter style)
  else if letter == 'c' then (characterOf v).map fun c => padded style [c]
  else .error (.unknownConversion letter index)

/-- Fills in the directive at the start of a text, behind its `%`; `size` is the length of the whole
template. -/
def directive (size : Nat) (a : Arguments) (cs : List Char) :
    Except TemplateError (List Char × Arguments × List Char) := do
  let (a, cs) ← match cs with
    | '(' :: rest =>
      if a.keyed.isNone then .error .keyWithoutTable
      else match key? 0 rest with
        | none => .error .incompleteKey
        | some (key, after) => do pure (← a.select (String.ofList key), after)
    | cs => pure (a, cs)
  let (style, a, cs) ← readWidth (styleOf (cs.takeWhile isFlag)) a (cs.dropWhile isFlag)
  let (style, a, cs) ← readPrecision style a cs
  match skipSize cs with
  | [] => .error .incomplete
  | letter :: rest =>
    let (v, a) ← a.next
    return (← convert letter (size - rest.length - 1) style v, a, rest)

/-- Fills in the directives of a text; the first number bounds their number. -/
def fillFrom (size : Nat) : Nat → Arguments → List Char → Except TemplateError (List Char)
  | 0, _, cs => .ok cs
  | fuel + 1, a, cs => do
    let plain := cs.takeWhile (· != '%')
    match cs.dropWhile (· != '%') with
    | [] => if a.rest.isEmpty || a.keyed.isSome then return plain else .error .tooManyArguments
    | _ :: '%' :: rest => return plain ++ '%' :: (← fillFrom size fuel a rest)
    | _ :: rest =>
      let (out, a, rest) ← directive size a rest
      return plain ++ out ++ (← fillFrom size fuel a rest)

end Template

/-- A template filled in by the arguments that a datum stands for. -/
def fillTemplate (template : String) (arguments : Datum) : Except TemplateError String :=
  let cs := template.toList
  (Template.fillFrom cs.length (cs.length + 1) (.ofDatum arguments) cs).map String.ofList

end FeatureAtlas
