import FeatureAtlas.Import.Resolution
import FeatureAtlas.Text.Basic

/-!
# Reading source text

A cursor stands at the next token of a source text; blanks and comments before it are skipped. It knows
where the last token ended and whether a line break lies in between. What the analysis wants to know
(imports, rendered tags, called expressions) is recorded on the way.
-/

namespace FeatureAtlas.Syntax

/-- A place in a source text, with what has been found up to it. -/
structure Cursor where
  rest : List Char
  offset : Nat := 0
  /-- Where the last token ended. -/
  stop : Nat := 0
  /-- A line break stands between the last token and the next one. -/
  newline : Bool := false
  /-- The text may hold elements in angle brackets. -/
  markup : Bool := false
  imports : List ImportDeclaration := []
  tags : List String := []
  callees : List String := []
deriving Repr, Inhabited

/-- A parser moves the cursor or fails. -/
abbrev Parser := StateT Cursor Option

/-! ## Blanks and comments -/

/-- Blanks between tokens. -/
def isGap (c : Char) : Bool :=
  Text.isBlank c || c == '\uFEFF' || c == '\u2060' || c == '\u200B'

/-- Where between two tokens a character stands. -/
inductive Gap where
  | blank
  | line
  | block
deriving DecidableEq, Repr, Inhabited

/-- The number of characters before the next token, and whether a line break is among them. -/
def gapLength : Gap → List Char → Nat × Bool
  | .blank, '/' :: '/' :: rest => let (n, b) := gapLength .line rest; (n + 2, b)
  | .blank, '/' :: '*' :: rest => let (n, b) := gapLength .block rest; (n + 2, b)
  | .blank, c :: rest =>
    if isGap c then let (n, b) := gapLength .blank rest; (n + 1, b || c == '\n') else (0, false)
  | .line, '\n' :: rest => let (n, _) := gapLength .blank rest; (n + 1, true)
  | .line, _ :: rest => let (n, b) := gapLength .line rest; (n + 1, b)
  | .block, '*' :: '/' :: rest => let (n, b) := gapLength .blank rest; (n + 2, b)
  | .block, c :: rest => let (n, b) := gapLength .block rest; (n + 1, b || c == '\n')
  | _, [] => (0, false)

/-- Skips blanks and comments. -/
def Cursor.skipGap (s : Cursor) : Cursor :=
  let (n, b) := gapLength .blank s.rest
  { s with rest := s.rest.drop n, offset := s.offset + n, newline := b }

/-- Moves over characters of a token, without skipping what follows. -/
def Cursor.advance (n : Nat) (s : Cursor) : Cursor :=
  { s with rest := s.rest.drop n, offset := s.offset + n, stop := s.offset + n, newline := false }

/-- A cursor at the first token of a text. -/
def Cursor.start (source : List Char) (markup : Bool) : Cursor :=
  { (Cursor.skipGap { rest := source, markup }) with newline := true }

/-! ## Tokens -/

/-- Characters that are part of names beyond letters and digits of ASCII. -/
def isNameChar (c : Char) : Bool :=
  c.isAlphanum || c == '_' || c == '$' || c == '\\' || 128 ≤ c.toNat && !isGap c

/-- The name at the start of a text; it does not start with a digit. -/
def nameAt (cs : List Char) : List Char :=
  match cs with
  | [] => []
  | c :: _ => if c.isDigit then [] else cs.takeWhile isNameChar

namespace Parser

/-- The rest of the text. -/
def rest : Parser (List Char) := return (← get).rest

/-- The next character. -/
def next? : Parser (Option Char) := return (← get).rest.head?

/-- A bound for loops over the rest of the text. -/
def budget : Parser Nat := return (← get).rest.length + 1

/-- Takes a token of the given length. -/
def token (n : Nat) : Parser Unit := modify fun s => (s.advance n).skipGap

/-- Takes characters inside a token. -/
def raw (n : Nat) : Parser Unit := modify (Cursor.advance n)

/-- Ends a token that was taken piecewise. -/
def endToken : Parser Unit := modify Cursor.skipGap

/-- Fails unless a condition holds. -/
def ensure (b : Bool) : Parser Unit := if b then return else failure

/-- The outcome of a parser; the cursor stays where it is if the parser fails. -/
def attempt {α : Type} (p : Parser α) : Parser (Option α) := fun s =>
  match p s with
  | some (a, t) => some (some a, t)
  | none => some (none, s)

/-- Whether a parser succeeds; the cursor stays where it is if it does not. -/
def parses (p : Parser Unit) : Parser Bool := return (← attempt p).isSome

/-- Whether a parser would succeed; the cursor stays where it is. -/
def wouldSucceed (p : Parser Unit) : Parser Bool := fun s => some ((p s).isSome, s)

/-- Whether the rest starts with a text. -/
def looksAt (t : String) : Parser Bool := return t.toList.isPrefixOf (← get).rest

/-- Takes a sign if it is there. -/
def accept (t : String) : Parser Bool := do
  if ← looksAt t then
    token t.length
    return true
  else return false

/-- Takes a sign. -/
def sign (t : String) : Parser Unit := do ensure (← accept t)

/-- The name that stands next, if any. -/
def word : Parser String := return String.ofList (nameAt (← get).rest)

/-- Takes a keyword if it is there. -/
def acceptWord (w : String) : Parser Bool := do
  if (← word) == w then
    token w.length
    return true
  else return false

/-- Takes a keyword. -/
def keyword (w : String) : Parser Unit := do ensure (← acceptWord w)

/-- Takes a name. -/
def name : Parser String := do
  let w ← word
  ensure (w != "")
  token w.length
  return w

/-- Repeats a parser as long as it says so. -/
def loop (p : Parser Bool) : Nat → Parser Unit
  | 0 => return
  | n + 1 => do if ← p then loop p n

/-- Repeats a parser as long as it says so, within the rest of the text. -/
def whileTrue (p : Parser Bool) : Parser Unit := do loop p (← budget)

/-- Items between commas, up to a closing sign; commas may also stand alone. -/
def commaList (close : String) (item : Parser Unit) : Parser Unit := do
  whileTrue do
    if ← looksAt close then return false
    if ← accept "," then return true
    item
    if ← looksAt close then return false
    sign ","
    return true
  sign close

/-! ## Marks -/

/-- The start of an expression. -/
structure Mark where
  offset : Nat
  rest : List Char
deriving Repr, Inhabited

/-- Marks the next token. -/
def mark : Parser Mark := return ⟨(← get).offset, (← get).rest⟩

/-- The text from a mark to the end of the last token. -/
def textFrom (m : Mark) : Parser String := do
  return String.ofList (m.rest.take ((← get).stop - m.offset))

/-- Records a called expression. -/
def recordCallee (t : String) : Parser Unit := modify fun s => { s with callees := t :: s.callees }

/-- Records the tag of an element. -/
def recordTag (t : String) : Parser Unit := modify fun s => { s with tags := t :: s.tags }

/-- Records an import declaration. -/
def recordImport (d : ImportDeclaration) : Parser Unit :=
  modify fun s => { s with imports := s.imports ++ [d] }

end Parser

end FeatureAtlas.Syntax
