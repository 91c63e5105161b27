import FeatureAtlas.Toml.Lexeme
import FeatureAtlas.Yaml.Cursor

/-!
# Scalars of YAML texts

A scalar is plain, quoted, or a block. Lines of plain and quoted scalars are folded: a single line end is a
blank, further ones are kept. Blocks are indented; a literal block keeps its lines, a folded one does not.
-/

namespace FeatureAtlas.Yaml.Cursor

/-! ## Folding -/

/-- What a folded line end and the line ends behind it stand for. -/
def folded (first : List Char) (more : List Char) : List Char :=
  if first != ['\n'] then first ++ more
  else if more.isEmpty then [' ']
  else more

/-! ## Plain scalars -/

/-- Indicators of flow collections. -/
def isFlowMark (c : Char) : Bool := c == ',' || c == '[' || c == ']' || c == '{' || c == '}'

/-- Whether a character, with the one behind it, ends a run of a plain scalar. -/
def endsPlain (flow : Bool) (c next : Char) : Bool :=
  isGap c || (c == ':' && (isGap next || (flow && isFlowMark next))) ||
    (flow && (isFlowMark c || c == '?'))

/-- A run of a plain scalar at the start of a text. -/
def plainRun (flow : Bool) : List Char → List Char
  | [] => []
  | c :: cs => if endsPlain flow c (cs.headD endMark) then [] else c :: plainRun flow cs

/-- The line ends between two lines of a plain scalar, up to a mark between documents, where there is
nothing; the number bounds them. -/
def plainBreaks : Nat → Cursor → List Char → Option (List Char) × Cursor
  | 0, c, acc => (some acc, c)
  | fuel + 1, c, acc =>
    let c := c.skipWhile (· == ' ')
    if isBreak c.peek then
      let (b, c) := c.lineBreak
      if c.isSeparator then (none, c) else plainBreaks fuel c (acc ++ b)
    else (some acc, c)

/-- What stands between two runs of a plain scalar, the place behind it, and whether it has a line end. -/
def plainSpaces (c : Cursor) : List Char × Cursor × Bool :=
  let blanks := c.rest.takeWhile (· == ' ')
  let c := c.advance blanks.length
  if isBreak c.peek then
    let (first, c) := c.lineBreak
    if c.isSeparator then ([], c, true)
    else match plainBreaks c.rest.length c [] with
      | (none, c) => ([], c, true)
      | (some more, c) => (folded first more, c, true)
  else (blanks, c, false)

/-- A plain scalar: its text, the place behind it and whether it ends with a line. The number bounds its
runs; before a run stands what separates it from the text so far. -/
def plainScalar (flow : Bool) (indent : Int) :
    Nat → List Char → List Char → Bool → Cursor → List Char × Cursor × Bool
  | 0, text, _, ended, c => (text, c, ended)
  | fuel + 1, text, between, ended, c =>
    let run := if c.peek == '#' then [] else plainRun flow c.rest
    if run.isEmpty then (text, c, ended)
    else
      let text := text ++ between ++ run
      let (spaces, c, ended) := plainSpaces (c.advance run.length)
      if spaces.isEmpty || c.peek == '#' || (!flow && Int.ofNat c.column < indent) then (text, c, ended)
      else plainScalar flow indent fuel text spaces ended c

/-! ## Quoted scalars -/

/-- Line ends inside a quoted scalar with the blanks around them; the number bounds them. -/
def quotedBreaks : Nat → Cursor → List Char → Except Fault (List Char × Cursor)
  | 0, c, acc => .ok (acc, c)
  | fuel + 1, c, acc =>
    if c.isSeparator then .error .malformed
    else
      let c := c.skipWhile fun ch => ch == ' ' || ch == '\t'
      if isBreak c.peek then
        let (b, c) := c.lineBreak
        quotedBreaks fuel c (acc ++ b)
      else .ok (acc, c)

/-- What a blank or line end inside a quoted scalar stands for, with those behind it. -/
def quotedSpaces (c : Cursor) : Except Fault (List Char × Cursor) := do
  let blanks := c.rest.takeWhile fun ch => ch == ' ' || ch == '\t'
  let c := c.advance blanks.length
  if c.peek == endMark then throw .malformed
  else if isBreak c.peek then
    let (first, c) := c.lineBreak
    let (more, c) ← quotedBreaks (c.rest.length + 1) c []
    return (folded first more, c)
  else return (blanks, c)

/-- Characters that are written by a letter behind a backslash. -/
def escapes : List (Char × Char) :=
  [('0', '\x00'), ('a', '\x07'), ('b', '\x08'), ('t', '\t'), ('\t', '\t'), ('n', '\n'),
   ('v', '\x0b'), ('f', '\x0c'), ('r', '\r'), ('e', '\x1b'), (' ', ' '), ('"', '"'), ('\\', '\\'),
   ('/', '/'), ('N', '\x85'), ('_', '\u00a0'), ('L', '\u2028'), ('P', '\u2029')]

/-- The numbers of digits behind the letters of numeric escapes. -/
def escapeWidths : List (Char × Nat) := [('x', 2), ('u', 4), ('U', 8)]

/-- An escape behind its backslash. -/
def escape (c : Cursor) : Except Fault (List Char × Cursor) :=
  let ch := c.peek
  match escapes.lookup ch, escapeWidths.lookup ch with
  | some image, _ => .ok ([image], c.next)
  | none, some width =>
    let c := c.next
    let ds := c.rest.take width
    match Toml.hexNumber? ds with
    | none => .error .malformed
    | some n =>
      if ds.length < width then .error .malformed
      else if 0x110000 ≤ n then .error .noCharacter
      else .ok ([Json.unitChar n], c.advance width)
  | none, none =>
    if isBreak ch then
      let c := c.lineBreak.2
      quotedBreaks (c.rest.length + 1) c []
    else .error .malformed

/-- A quoted scalar behind its first quote; the number bounds its characters. -/
def quotedScalar (double : Bool) : Nat → List Char → Cursor → Except Fault (List Char × Cursor)
  | 0, _, _ => .error .malformed
  | fuel + 1, text, c =>
    let ch := c.peek
    let quote := if double then '"' else '\''
    if !double && ch == '\'' && c.peekAt 1 == '\'' then
      quotedScalar double fuel (text ++ ['\'']) (c.advance 2)
    else if ch == quote then .ok (text, c.next)
    else if double && ch == '\\' then do
      let (image, c) ← escape c.next
      quotedScalar double fuel (text ++ image) c
    else if isGap ch then do
      let (spaces, c) ← quotedSpaces c
      quotedScalar double fuel (text ++ spaces) c
    else
      let run := c.rest.takeWhile fun ch => ch != quote && !isGap ch && !(double && ch == '\\')
      quotedScalar double fuel (text ++ run) (c.advance run.length)

/-! ## Blocks -/

/-- What becomes of the line ends at the end of a block. -/
inductive Chomping where
  | clip
  | strip
  | keep
deriving DecidableEq, Repr, Inhabited

/-- How a block ends its text, by its sign. -/
def chomping? (c : Char) : Option Chomping :=
  if c == '+' then some .keep else if c == '-' then some .strip else none

/-- How deep a block is indented, by its digit. -/
def increment? (c : Char) : Option Nat := if c.isDigit then some (c.toNat - '0'.toNat) else none

/-- The header of a block, a sign and a digit in any order, and the rest of its line. -/
def blockHeader (c : Cursor) : Except Fault (Chomping × Option Nat × Cursor) := do
  let (chomping, increment, c) := match chomping? c.peek with
    | some m =>
      match increment? c.next.peek with
      | some n => (m, some n, c.advance 2)
      | none => (m, none, c.next)
    | none =>
      match increment? c.peek with
      | some n =>
        match chomping? c.next.peek with
        | some m => (m, some n, c.advance 2)
        | none => (.clip, some n, c.next)
      | none => (.clip, none, c)
  if increment == some 0 then throw .malformed
  if !(isBreakOrEnd c.peek || c.peek == ' ') then throw .malformed
  return (chomping, increment, ← c.restOfLine)

/-- Empty lines at the start of a block: their ends, the largest indentation and the place of the first
text. The number bounds them. -/
def blockIndentation : Nat → Cursor → List Char → Nat → List Char × Nat × Cursor
  | 0, c, acc, deepest => (acc, deepest, c)
  | fuel + 1, c, acc, deepest =>
    let c := c.skipWhile (· == ' ')
    let deepest := deepest.max c.column
    if isBreak c.peek then
      let (b, c) := c.lineBreak
      blockIndentation fuel c (acc ++ b) deepest
    else (acc, deepest, c)

/-- Empty lines of a block with a known indentation; the number bounds them. -/
def blockBreaks (indent : Nat) : Nat → Cursor → List Char → List Char × Cursor
  | 0, c, acc => (acc, c)
  | fuel + 1, c, acc =>
    let c := c.skipTo indent
    if isBreak c.peek then
      let (b, c) := c.lineBreak
      blockBreaks indent fuel c (acc ++ b)
    else (acc, c)

/-- The lines of a block: the text, the end of its last line, the empty lines behind it and the place
there. The number bounds the lines. -/
def blockLines (fold : Bool) (indent : Nat) :
    Nat → List Char → List Char → List Char → Cursor → List Char × List Char × List Char × Cursor
  | 0, text, last, breaks, c => (text, last, breaks, c)
  | fuel + 1, text, last, breaks, c =>
    if c.column != indent || c.peek == endMark then (text, last, breaks, c)
    else
      let plainStart := c.peek != ' ' && c.peek != '\t'
      let run := c.rest.takeWhile (!isBreak ·)
      let text := text ++ breaks ++ run
      let (last, c) := (c.advance run.length).lineBreak
      let (breaks, c) := blockBreaks indent (c.rest.length + 1) c []
      if c.column == indent && c.peek != endMark then
        let joined :=
          if fold && last == ['\n'] && plainStart && c.peek != ' ' && c.peek != '\t' then
            if breaks.isEmpty then [' '] else []
          else last
        blockLines fold indent fuel (text ++ joined) last breaks c
      else (text, last, breaks, c)

/-- A block behind its indicator, inside a collection with an indentation. -/
def blockScalar (fold : Bool) (indent : Int) (c : Cursor) : Except Fault (List Char × Cursor) := do
  let (chomping, increment, c) ← blockHeader c
  let least := (max 1 (indent + 1)).toNat
  let (breaks, column, c) := match increment with
    | none =>
      let (breaks, deepest, c) := blockIndentation (c.rest.length + 1) c [] 0
      (breaks, max least deepest, c)
    | some n =>
      let (breaks, c) := blockBreaks (least + n - 1) (c.rest.length + 1) c []
      (breaks, least + n - 1, c)
  let (text, last, breaks, c) := blockLines fold column (c.rest.length + 1) [] [] breaks c
  return match chomping with
    | .strip => (text, c)
    | .clip => (text ++ last, c)
    | .keep => (text ++ last ++ breaks, c)

end FeatureAtlas.Yaml.Cursor
