import FeatureAtlas.Text.Printable

/-!
# Places in a YAML text

A cursor is a place in a text with its line and column. Behind the end of the text stand null characters,
which no text contains.
-/

/-!
## Faults of YAML documents

Most faults are of the document's form. A few arise when a scalar with an explicit or implied type is not
of that type, and have messages of their own.
-/

namespace FeatureAtlas.Yaml

/-- What is wrong with a document. -/
inductive Fault where
  | malformed
  /-- An escape beyond the last code point. -/
  | noCharacter
  | notInteger (base : Nat) (text : String)
  | noDigits
  | notNumber (text : String)
  | notBoolean (text : String)
  | notTimestamp
  | noSuchTime (message : String)
  /-- A collection that contains itself. -/
  | cyclic
deriving DecidableEq, Repr, Inhabited

/-- The message about a fault that is not one of form alone. -/
def Fault.message : Fault → String
  | malformed => "malformed document"
  | noCharacter => "chr() arg not in range(0x110000)"
  | notInteger base text =>
    "invalid literal for int() with base " ++ toString base ++ ": " ++ Text.quoted text
  | noDigits => "string index out of range"
  | notNumber text => "could not convert string to float: " ++ Text.quoted text
  | notBoolean text => Text.quoted text
  | notTimestamp => "'NoneType' object has no attribute 'groupdict'"
  | noSuchTime message => message
  | cyclic => "maximum recursion depth exceeded"

/-! ## Cursors -/

/-- The character behind the end of a text. -/
def endMark : Char := '\x00'

/-- Characters that end a line. -/
def isBreak (c : Char) : Bool :=
  c == '\n' || c == '\x85' || c == '\u2028' || c == '\u2029'

/-- Characters that end a line, or the end of the text. -/
def isBreakOrEnd (c : Char) : Bool := isBreak c || c == endMark

/-- Blanks, line ends or the end of the text. -/
def isGap (c : Char) : Bool := isBreakOrEnd c || c == ' ' || c == '\t'

/-- The characters of a document. -/
def isAllowed (c : Char) : Bool :=
  let n := c.toNat
  n == 0x09 || n == 0x0a || n == 0x0d || (0x20 ≤ n && n ≤ 0x7e) || n == 0x85 ||
    (0xa0 ≤ n && n ≤ 0xd7ff) || (0xe000 ≤ n && n ≤ 0xfffd) || (0x10000 ≤ n && n ≤ 0x10ffff)

/-- A place in a text. -/
structure Cursor where
  rest : List Char
  index : Nat := 0
  line : Nat := 0
  column : Nat := 0
deriving Repr, Inhabited

namespace Cursor

/-- The character some places ahead. -/
def peekAt (c : Cursor) (n : Nat) : Char := c.rest.getD n endMark

/-- The next character. -/
def peek (c : Cursor) : Char := c.rest.headD endMark

/-- One character further; the byte order mark takes no column. -/
def next (c : Cursor) : Cursor :=
  match c.rest with
  | [] => c
  | ch :: rest =>
    if isBreak ch then ⟨rest, c.index + 1, c.line + 1, 0⟩
    else if ch == '\ufeff' then ⟨rest, c.index + 1, c.line, c.column⟩
    else ⟨rest, c.index + 1, c.line, c.column + 1⟩

/-- Some characters further. -/
def advance : Nat → Cursor → Cursor
  | 0, c => c
  | n + 1, c => advance n c.next

/-- Behind the characters of a class. -/
def skipWhile (p : Char → Bool) (c : Cursor) : Cursor := c.advance (c.rest.takeWhile p).length

/-- Behind the characters of a class, as long as they stand before a column. -/
def skipTo (column : Nat) (c : Cursor) : Cursor :=
  c.advance ((c.rest.takeWhile (· == ' ')).length.min (column - c.column))

/-- A line end: what it stands for, and the place behind it. Elsewhere there is nothing. -/
def lineBreak (c : Cursor) : List Char × Cursor :=
  let ch := c.peek
  if ch == '\n' || ch == '\x85' then (['\n'], c.next)
  else if isBreak ch then ([ch], c.next)
  else ([], c)

/-- Behind a comment, if one starts here. -/
def skipComment (c : Cursor) : Cursor :=
  if c.peek == '#' then c.skipWhile (!isBreak ·) else c

/-- Whether the given characters stand here with a gap behind them. -/
def isMark (mark : String) (c : Cursor) : Bool :=
  mark.toList.isPrefixOf c.rest && isGap (c.peekAt mark.length)

/-- Whether a mark between documents stands here. -/
def isSeparator (c : Cursor) : Bool := c.isMark "---" || c.isMark "..."

/-- The rest of a line that holds blanks and a comment alone, and the place behind it. -/
def restOfLine (c : Cursor) : Except Fault Cursor :=
  let c := (c.skipWhile (· == ' ')).skipComment
  if isBreakOrEnd c.peek then .ok c.lineBreak.2 else .error .malformed

end Cursor

end FeatureAtlas.Yaml
