import FeatureAtlas.Text.Utf8
import FeatureAtlas.Yaml.Text

/-!
# Tokens of YAML texts

A text becomes a list of tokens. Indentation shows as tokens that start and end blocks. Whether a node is a
key of a mapping is seen only at the colon behind it, so every node that can be a key is remembered, and
the token of the key is put before it afterwards. Such a key stands on one line and is not too long.
-/

namespace FeatureAtlas.Yaml

/-- A token. -/
inductive Token where
  | version (major : Nat)
  | handle (name : String) (meaning : String)
  | otherDirective
  | documentStart
  | documentEnd
  | sequenceStart
  | mappingStart
  | blockEnd
  | flowSequenceStart
  | flowSequenceEnd
  | flowMappingStart
  | flowMappingEnd
  | blockEntry
  | flowEntry
  | key
  | value
  | reference (name : String)
  | anchor (name : String)
  | tag (handle : Option String) (rest : String)
  | scalar (text : String) (plain : Bool)
deriving DecidableEq, Repr, Inhabited

/-- A node that can be a key: the number of its first token and its place. -/
structure KeyCandidate where
  number : Nat
  /-- The node has to be a key. -/
  required : Bool
  index : Nat
  line : Nat
  column : Nat
deriving Repr, Inhabited

/-- The state of reading tokens. -/
structure Scanner where
  cursor : Cursor
  /-- The number of open flow collections. -/
  flowLevel : Nat := 0
  /-- The column of the innermost block collection. -/
  indent : Int := -1
  /-- The columns of the block collections around it. -/
  outer : List Int := []
  /-- Whether the next node can be a key. -/
  keyAllowed : Bool := true
  /-- The candidates by flow level. -/
  candidates : List (Nat × KeyCandidate) := []
  /-- The tokens, latest first. -/
  tokens : List Token := []
deriving Inhabited

/-- Steps of reading tokens. -/
abbrev Scan := StateT Scanner (Except Fault)

namespace Scan

/-- Stops at a fault of form. -/
def fail {α : Type} : Scan α := throw .malformed

/-- Appends a token. -/
def emit (t : Token) : Scan Unit := modify fun s => { s with tokens := t :: s.tokens }

/-- Puts a token before the one with a number. -/
def insertAt (number : Nat) (t : Token) : Scan Unit :=
  modify fun s =>
    let behind := s.tokens.length - number
    { s with tokens := s.tokens.take behind ++ t :: s.tokens.drop behind }

/-- Moves to a place. -/
def goTo (c : Cursor) : Scan Unit := modify fun s => { s with cursor := c }

/-- Says whether the next node can be a key. -/
def allowKey (b : Bool) : Scan Unit := modify fun s => { s with keyAllowed := b }

/-! ## Candidates and indentation -/

/-- The longest key. -/
def keyLimit : Nat := 1024

/-- Forgets candidates that are too far back. -/
def dropStale : Scan Unit := do
  let s ← get
  let isStale (k : KeyCandidate) : Bool :=
    k.line != s.cursor.line || keyLimit < s.cursor.index - k.index
  if s.candidates.any fun (_, k) => isStale k && k.required then fail
  set { s with candidates := s.candidates.filter fun (_, k) => !isStale k }

/-- Forgets the candidate of the present level. -/
def dropCandidate : Scan Unit := do
  let s ← get
  match s.candidates.lookup s.flowLevel with
  | none => pure ()
  | some k =>
    if k.required then fail
    set { s with candidates := s.candidates.filter (·.1 != s.flowLevel) }

/-- Remembers the next node as a candidate, if it can be a key. -/
def saveCandidate : Scan Unit := do
  let s ← get
  if s.keyAllowed then
    dropCandidate
    modify fun s => { s with
      candidates := (s.flowLevel,
        { number := s.tokens.length
          required := s.flowLevel == 0 && s.indent == Int.ofNat s.cursor.column
          index := s.cursor.index, line := s.cursor.line, column := s.cursor.column })
        :: s.candidates }

/-- Ends the block collections deeper than a column; the number bounds them. -/
def unwindTo (column : Int) : Nat → Scan Unit
  | 0 => pure ()
  | fuel + 1 => do
    let s ← get
    if s.flowLevel == 0 && column < s.indent then
      set { s with
        indent := s.outer.headD (-1), outer := s.outer.drop 1, tokens := .blockEnd :: s.tokens }
      unwindTo column fuel

/-- Ends the block collections deeper than a column. -/
def unwind (column : Int) : Scan Unit := do unwindTo column ((← get).outer.length + 1)

/-- Starts a block collection at a column, if it is deeper than the present one. -/
def deepen (column : Nat) : Scan Bool := do
  let s ← get
  if s.indent < Int.ofNat column then
    set { s with indent := Int.ofNat column, outer := s.indent :: s.outer }
    return true
  else return false

/-! ## Names and tags -/

/-- The characters of names. -/
def isNameChar (c : Char) : Bool := c.isAlphanum || c == '-' || c == '_'

/-- A name that is not empty. -/
def name : Scan String := do
  let c := (← get).cursor
  let n := c.rest.takeWhile isNameChar
  if n.isEmpty then fail
  goTo (c.advance n.length)
  return String.ofList n

/-- The name of an anchor or a reference, behind its indicator. -/
def anchorName : Scan String := do
  goTo (← get).cursor.next
  let n ← name
  let ch := (← get).cursor.peek
  if isGap ch || "?:,]\x7d%@\u0060".toList.contains ch then return n else fail

/-- The handle of a tag: two exclamation marks with a name between them, or one with a blank behind it. -/
def tagHandle : Scan String := do
  let c := (← get).cursor
  if c.peek != '!' then fail
  if c.peekAt 1 == ' ' then
    goTo c.next
    return "!"
  let n := (c.rest.drop 1).takeWhile isNameChar
  if c.peekAt (n.length + 1) != '!' then fail
  goTo (c.advance (n.length + 2))
  return String.ofList ('!' :: n ++ ['!'])

/-- The characters of a tag's name. -/
def isTagChar (c : Char) : Bool :=
  c.isAlphanum || "-;/?:@&=+$,_.!~*'()[]%".toList.contains c

/-- Bytes behind percent signs at the start of a text; the number bounds them. -/
def percentBytes : Nat → List Char → Option (List UInt8 × List Char)
  | 0, cs => some ([], cs)
  | fuel + 1, cs =>
    match cs with
    | '%' :: a :: b :: rest => do
      let x ← Json.hexValue? a
      let y ← Json.hexValue? b
      let (bytes, rest) ← percentBytes fuel rest
      return ((x * 16 + y).toUInt8 :: bytes, rest)
    | '%' :: _ => none
    | _ => some ([], cs)

/-- A tag's name with its escapes replaced; the number bounds its parts. -/
def unescaped : Nat → List Char → Option (List Char)
  | 0, _ => some []
  | fuel + 1, cs =>
    match cs with
    | [] => some []
    | '%' :: _ => do
      let (bytes, rest) ← percentBytes cs.length cs
      let s ← (Utf8.decode bytes).toOption
      return s.toList ++ (← unescaped fuel rest)
    | c :: rest => do return c :: (← unescaped fuel rest)

/-- A tag's name. -/
def tagName : Scan String := do
  let c := (← get).cursor
  let n := c.rest.takeWhile isTagChar
  match if n.isEmpty then none else unescaped n.length n with
  | none => fail
  | some s =>
    goTo (c.advance n.length)
    return String.ofList s

/-- A tag. -/
def tag : Scan Token := do
  let c := (← get).cursor
  let (handle, rest) ← do
    if c.peekAt 1 == '<' then
      goTo (c.advance 2)
      let n ← tagName
      let c := (← get).cursor
      if c.peek != '>' then fail
      goTo c.next
      pure (none, n)
    else if isGap (c.peekAt 1) then
      goTo c.next
      pure (none, "!")
    else if (((c.rest.drop 1).takeWhile fun ch => !isBreak ch && ch != ' ')).contains '!' then
      let h ← tagHandle
      pure (some h, ← tagName)
    else
      goTo c.next
      pure (some "!", ← tagName)
  let ch := (← get).cursor.peek
  if isBreakOrEnd ch || ch == ' ' then return .tag handle rest else fail

/-! ## Directives -/

/-- A decimal number. -/
def decimal : Scan Nat := do
  let c := (← get).cursor
  let ds := c.rest.takeWhile Char.isDigit
  if ds.isEmpty then fail
  goTo (c.advance ds.length)
  return Binary64.digitsValue ds

/-- Skips blanks. -/
def blanks : Scan Unit := modify fun s => { s with cursor := s.cursor.skipWhile (· == ' ') }

/-- Asks for a blank or the end of the line. -/
def wordEnd : Scan Unit := do
  let ch := (← get).cursor.peek
  if !(isBreakOrEnd ch || ch == ' ') then fail

/-- A directive. -/
def directive : Scan Token := do
  goTo (← get).cursor.next
  let n ← name
  wordEnd
  let token ← do
    if n == "YAML" then
      blanks
      let major ← decimal
      if (← get).cursor.peek != '.' then fail
      goTo (← get).cursor.next
      let _ ← decimal
      wordEnd
      pure (Token.version major)
    else if n == "TAG" then
      blanks
      let h ← tagHandle
      if (← get).cursor.peek != ' ' then fail
      blanks
      let meaning ← tagName
      wordEnd
      pure (Token.handle h meaning)
    else
      goTo ((← get).cursor.skipWhile (!isBreak ·))
      pure Token.otherDirective
  goTo (← (← get).cursor.restOfLine)
  return token

/-! ## Fetching -/

/-- Skips blanks, comments and line ends; the number bounds the lines. In blocks, a new line can start with
a key. -/
def toNextToken : Nat → Scan Unit
  | 0 => pure ()
  | fuel + 1 => do
    let s ← get
    let c := (s.cursor.skipWhile (· == ' ')).skipComment
    if isBreak c.peek then
      set { s with cursor := c.lineBreak.2, keyAllowed := s.keyAllowed || s.flowLevel == 0 }
      toNextToken fuel
    else goTo c

/-- A token of one character. -/
def single (t : Token) : Scan Unit := do
  goTo (← get).cursor.next
  emit t

/-- The start of a flow collection. -/
def openFlow (t : Token) : Scan Unit := do
  saveCandidate
  modify fun s => { s with flowLevel := s.flowLevel + 1, keyAllowed := true }
  single t

/-- The end of a flow collection. -/
def closeFlow (t : Token) : Scan Unit := do
  dropCandidate
  if (← get).flowLevel == 0 then fail
  modify fun s => { s with flowLevel := s.flowLevel - 1, keyAllowed := false }
  single t

/-- An indicator that can start a block collection at its column. -/
def indicator (start t : Token) (keyBehind : Bool) : Scan Unit := do
  let s ← get
  if s.flowLevel == 0 then
    if !s.keyAllowed then fail
    if ← deepen s.cursor.column then emit start
  allowKey keyBehind
  dropCandidate
  single t

/-- The colon behind a key. -/
def colon : Scan Unit := do
  let s ← get
  match s.candidates.lookup s.flowLevel with
  | some k =>
    modify fun s => { s with candidates := s.candidates.filter (·.1 != s.flowLevel) }
    insertAt k.number .key
    if s.flowLevel == 0 then
      if ← deepen k.column then insertAt k.number .mappingStart
    allowKey false
    single .value
  | none => indicator .mappingStart .value (s.flowLevel == 0)

/-- A node's first token, which can be a key. -/
def nodeToken (read : Scan Token) : Scan Unit := do
  saveCandidate
  allowKey false
  emit (← read)

/-- A quoted scalar. -/
def quoted (double : Bool) : Scan Token := do
  let c := (← get).cursor.next
  let (text, c) ← c.quotedScalar double (c.rest.length + 1) []
  goTo c
  return .scalar (String.ofList text) false

/-- A plain scalar; behind one that ends with its line a key can follow. -/
def plain : Scan Token := do
  let s ← get
  let (text, c, ended) :=
    s.cursor.plainScalar (0 < s.flowLevel) (s.indent + 1) (s.cursor.rest.length + 1) [] [] false
  set { s with cursor := c, keyAllowed := ended }
  return .scalar (String.ofList text) true

/-- A block scalar. -/
def block (fold : Bool) : Scan Unit := do
  allowKey true
  dropCandidate
  let s ← get
  let (text, c) ← s.cursor.next.blockScalar fold s.indent
  goTo c
  emit (.scalar (String.ofList text) false)

/-- A mark between documents. -/
def separator (t : Token) : Scan Unit := do
  unwind (-1)
  dropCandidate
  allowKey false
  goTo ((← get).cursor.advance 3)
  emit t

/-- Indicators with which no plain scalar starts. -/
def isIndicator (c : Char) : Bool :=
  "-?:,[]\x7b\x7d#&*!|>'\"%@\u0060".toList.contains c

/-- Whether a plain scalar starts at a character, with the one behind it. -/
def startsPlain (flow : Bool) (c next : Char) : Bool :=
  (!isGap c && !isIndicator c) ||
    (!isGap next && (c == '-' || (!flow && (c == '?' || c == ':'))))

/-- Reads one token, or several; says whether the text goes on. -/
def fetch : Scan Bool := do
  toNextToken ((← get).cursor.rest.length + 1)
  dropStale
  unwind (Int.ofNat (← get).cursor.column)
  let s ← get
  let c := s.cursor
  let ch := c.peek
  let flow := 0 < s.flowLevel
  let gapBehind := isGap (c.peekAt 1)
  if ch == endMark then
    unwind (-1)
    dropCandidate
    return false
  if ch == '%' && c.column == 0 then
    unwind (-1)
    dropCandidate
    allowKey false
    emit (← directive)
  else if c.column == 0 && c.isMark "---" then separator .documentStart
  else if c.column == 0 && c.isMark "..." then separator .documentEnd
  else if ch == '[' then openFlow .flowSequenceStart
  else if ch == '{' then openFlow .flowMappingStart
  else if ch == ']' then closeFlow .flowSequenceEnd
  else if ch == '}' then closeFlow .flowMappingEnd
  else if ch == ',' then
    allowKey true
    dropCandidate
    single .flowEntry
  else if ch == '-' && gapBehind then indicator .sequenceStart .blockEntry true
  else if ch == '?' && (flow || gapBehind) then indicator .mappingStart .key (!flow)
  else if ch == ':' && (flow || gapBehind) then colon
  else if ch == '*' then nodeToken do return .reference (← anchorName)
  else if ch == '&' then nodeToken do return .anchor (← anchorName)
  else if ch == '!' then nodeToken tag
  else if ch == '|' && !flow then block false
  else if ch == '>' && !flow then block true
  else if ch == '\'' then nodeToken (quoted false)
  else if ch == '"' then nodeToken (quoted true)
  else if startsPlain flow ch (c.peekAt 1) then nodeToken plain
  else fail
  return true

/-- Reads all tokens; the number bounds them. -/
def all : Nat → Scan Unit
  | 0 => fail
  | fuel + 1 => do
    if ← fetch then all fuel

end Scan

/-- The tokens of a text. -/
def tokens (text : List Char) : Except Fault (List Token) :=
  if !text.all isAllowed then .error .malformed
  else
    let text := match text with
      | '\ufeff' :: rest => rest
      | cs => cs
    match (Scan.all (text.length + 1)).run { cursor := { rest := text } } with
    | .ok (_, s) => .ok s.tokens.reverse
    | .error e => .error e

end FeatureAtlas.Yaml
