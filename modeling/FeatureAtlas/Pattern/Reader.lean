import FeatureAtlas.Pattern.Fault
import FeatureAtlas.Table
import FeatureAtlas.Text.Identifier
import FeatureAtlas.Text.Integer

/-!
# Reading patterns

A pattern text is read token by token, a token being a character or a backslash with the character behind
it. The next token is always known, so a lone backslash at the end is noticed as soon as the token before
it is taken. Widths of look-behind assertions are judged once the whole text has been read.
-/

namespace FeatureAtlas.Pattern

/-! ## Tokens -/

/-- A token of a pattern text. -/
inductive Token where
  | plain (c : Char)
  | escape (c : Char)
deriving DecidableEq, Repr, Inhabited

/-- The characters of a token. -/
def Token.chars : Token → List Char
  | plain c => [c]
  | escape c => ['\\', c]

/-- The text of a token. -/
def Token.text (t : Token) : String := String.ofList t.chars

/-- What is known while a pattern is read. -/
structure ReadState where
  offset : Nat := 0
  rest : List Char
  /-- The options of the pattern as a whole. -/
  options : PatternOptions := {}
  /-- The option for all of Unicode was given. -/
  unicode : Bool := false
  /-- The width of each group, once it is closed. -/
  widths : List (Option Width) := []
  names : Table Nat := []
  /-- Inside a look-behind, the first group that cannot be referred to. -/
  behindFrom : Option Nat := none
  /-- Groups that conditionals ask for by number, with the place of the first one. -/
  conditions : List (Nat × Nat) := []
deriving Repr, Inhabited

/-- Reading steps. -/
abbrev Reader := StateT ReadState (Except PatternError)

/-- The next token. -/
def ReadState.next? (s : ReadState) : Option Token :=
  match s.rest with
  | [] => none
  | '\\' :: c :: _ => some (.escape c)
  | c :: _ => some (.plain c)

/-- Fails at a place some characters back. -/
def failAt {α : Type} (f : PatternFault) (position : Nat) : Reader α :=
  throw (.fault f (some position))

/-- Fails some characters before the next token. -/
def failBack {α : Type} (f : PatternFault) (back : Nat) : Reader α := do
  failAt f ((← get).offset - back)

/-- The next token, left in place. -/
def peek : Reader (Option Token) := return (← get).next?

/-- A backslash at the very end is refused as soon as it would be the next token. -/
def checkEnd : Reader Unit := do
  let s ← get
  if s.rest == ['\\'] then failAt .loneBackslash s.offset

/-- Takes the next token. -/
def take : Reader (Option Token) := do
  let s ← get
  match s.next? with
  | none => return none
  | some t =>
    set { s with offset := s.offset + t.chars.length, rest := s.rest.drop t.chars.length }
    checkEnd
    return some t

/-- Takes the next token if it is the given character. -/
def accept (c : Char) : Reader Bool := do
  if (← peek) == some (.plain c) then
    let _ ← take
    return true
  else return false

/-- Takes up to a number of characters of a class. -/
def takeWhile (p : Char → Bool) : Nat → Reader (List Char)
  | 0 => return []
  | n + 1 => do
    match ← peek with
    | some (.plain c) =>
      if p c then
        let _ ← take
        return c :: (← takeWhile p n)
      else return []
    | _ => return []

/-- The number of tokens that may still follow, as a bound for loops. -/
def remaining : Reader Nat := return (← get).rest.length

/-- Takes a name up to its terminator. -/
def nameUntil (terminator : Char) (what : String) (acc : List Char) : Nat → Reader String
  | 0 => failBack .unexpectedEnd 0
  | n + 1 => do
    match ← take with
    | none =>
      if acc.isEmpty then failBack (.missingName what) 0
      else failBack (.unterminatedName terminator) acc.length
    | some t =>
      if t == .plain terminator then
        if acc.isEmpty then failBack (.missingName what) 1
        else return String.ofList acc
      else nameUntil terminator what (acc ++ t.chars) n

/-- A name up to its terminator. -/
def readName (terminator : Char) (what : String) : Reader String := do
  nameUntil terminator what [] ((← remaining) + 1)

/-! ## Escapes -/

/-- Octal digits. -/
def isOctal (c : Char) : Bool := '0' ≤ c && c ≤ '7'

/-- Hexadecimal digits. -/
def isHex (c : Char) : Bool := c.isDigit || 'a' ≤ c && c ≤ 'f' || 'A' ≤ c && c ≤ 'F'

/-- The value of a hexadecimal digit. -/
def hexValue (c : Char) : Nat :=
  if c.isDigit then c.toNat - 48 else if 'a' ≤ c then c.toNat - 87 else c.toNat - 55

/-- The number that digits write in a base. -/
def number (base : Nat) (digits : List Char) : Nat :=
  digits.foldl (fun n c => n * base + hexValue c) 0

/-- Characters that a letter behind the backslash stands for. -/
def controlCode? : Char → Option Nat
  | 'a' => some 7
  | 'b' => some 8
  | 'f' => some 12
  | 'n' => some 10
  | 'r' => some 13
  | 't' => some 9
  | 'v' => some 11
  | '\\' => some 92
  | _ => none

/-- Classes that a letter behind the backslash stands for. -/
def classMember? : Char → Option SetMember
  | 'd' => some (.ofClass .digit false)
  | 'D' => some (.ofClass .digit true)
  | 's' => some (.ofClass .space false)
  | 'S' => some (.ofClass .space true)
  | 'w' => some (.ofClass .word false)
  | 'W' => some (.ofClass .word true)
  | _ => none

/-- Anchors that a letter behind the backslash stands for. -/
def anchor? : Char → Option Anchor
  | 'A' => some .textStart
  | 'b' => some .wordEdge
  | 'B' => some .noWordEdge
  | 'Z' => some .textEnd
  | _ => none

/-- A code point in a fixed number of hexadecimal digits. -/
def hexCode (letter : Char) (count : Nat) : Reader Nat := do
  let digits ← takeWhile isHex count
  let text := '\\' :: letter :: digits
  if digits.length != count then failBack (.incompleteEscape (String.ofList text)) text.length
  else
    let n := number 16 digits
    if 0x10ffff < n then failBack (.badEscape (String.ofList text)) text.length else return n

/-- A code point given by name: no names are known. -/
def namedCode : Reader Nat := do
  if ← accept '{' then
    let name ← readName '}' "character name"
    failBack (.undefinedCharacter name) (name.length + 4)
  else failBack .missingBrace 0

/-- A code point behind the backslash that is written alike inside and outside of sets. -/
def sharedCode? (c : Char) : Reader (Option Nat) := do
  match c with
  | 'x' => return some (← hexCode 'x' 2)
  | 'u' => return some (← hexCode 'u' 4)
  | 'U' => return some (← hexCode 'U' 8)
  | 'N' => return some (← namedCode)
  | _ => return none

/-- Any other character behind the backslash stands for itself, unless it is a letter of ASCII. -/
def ownCode (c : Char) : Reader Nat := do
  if c.isAlpha then failBack (.badEscape (Token.text (.escape c))) 2 else return c.toNat

/-- Refuses octal values that do not fit a byte. -/
def octalCode (digits : List Char) : Reader Nat := do
  let n := number 8 digits
  if 0o377 < n then
    failBack (.octalRange (String.ofList ('\\' :: digits))) (digits.length + 1)
  else return n

/-- An escape inside a set. -/
def setEscape (c : Char) : Reader SetMember := do
  match controlCode? c, classMember? c with
  | some n, _ => return .code n
  | none, some m => return m
  | none, none =>
    match ← sharedCode? c with
    | some n => return .code n
    | none =>
      if isOctal c then return .code (← octalCode (c :: (← takeWhile isOctal 2)))
      else if c.isDigit then failBack (.badEscape (Token.text (.escape c))) 2
      else return .code (← ownCode c)

/-! ## References to groups -/

/-- A group that exists and is closed. -/
def ReadState.isClosed (s : ReadState) (index : Nat) : Bool :=
  (s.widths[index - 1]?.bind id).isSome && 0 < index

/-- The width of a closed group. -/
def ReadState.groupWidth (s : ReadState) (index : Nat) : Width :=
  (s.widths[index - 1]?.bind id).getD {}

/-- Inside a look-behind only groups closed before it can be referred to. -/
def checkBehind (index : Nat) : Reader Unit := do
  let s ← get
  match s.behindFrom with
  | none => return
  | some bound =>
    if !s.isClosed index then failBack .groupStillOpen 0
    else if bound ≤ index then failBack .groupInLookBehind 0

/-- A reference to a group, by a text of the given length. -/
def referTo (index : Nat) (length : Nat) : Reader Unit := do
  if !(← get).isClosed index then failBack .groupStillOpen length
  checkBehind index

/-- Digits behind the backslash: three octal digits are a code point, others name a group. -/
def digitEscape (options : PatternOptions) (c : Char) : Reader Pattern := do
  let literal (n : Nat) : Pattern := .one options (.code n false)
  if c == '0' then return literal (number 8 (← takeWhile isOctal 2))
  let more ← takeWhile Char.isDigit 1
  let digits := c :: more
  if digits.length == 2 && digits.all isOctal then
    let last ← takeWhile isOctal 1
    if !last.isEmpty then return literal (← octalCode (digits ++ last))
  let index := number 10 digits
  if index ≤ (← get).widths.length then
    referTo index (digits.length + 1)
    return .reference options index
  failBack (.invalidReference index) digits.length

/-- An escape outside of sets. -/
def escape (options : PatternOptions) (c : Char) : Reader Pattern := do
  match anchor? c, classMember? c, controlCode? c with
  | some a, _, _ => return .anchor options a
  | none, some m, _ => return .one options (.set false [m])
  | none, none, some n => return .one options (.code n false)
  | none, none, none =>
    match ← sharedCode? c with
    | some n => return .one options (.code n false)
    | none =>
      if c.isDigit then digitEscape options c
      else return .one options (.code (← ownCode c) false)

/-! ## Sets -/

/-- One end of a range, or a single member. -/
def setItem (t : Token) : Reader SetMember :=
  match t with
  | .escape c => setEscape c
  | .plain c => return .code c.toNat

/-- The members of a set up to its closing bracket. -/
def setMembers (start : Nat) (acc : List SetMember) : Nat → Reader (List SetMember)
  | 0 => failAt .unterminatedSet start
  | fuel + 1 => do
    match ← take with
    | none => failAt .unterminatedSet start
    | some this =>
      if this == .plain ']' && !acc.isEmpty then return acc
      let first ← setItem this
      if ← accept '-' then
        match ← take with
        | none => failAt .unterminatedSet start
        | some that =>
          if that == .plain ']' then return acc ++ [first, .code '-'.toNat]
          let last ← setItem that
          match first, last with
          | .code lo, .code hi =>
            if hi < lo then
              failBack (.badRange this.text that.text) (this.chars.length + 1 + that.chars.length)
            else setMembers start (acc ++ [.range lo hi]) fuel
          | _, _ =>
            failBack (.badRange this.text that.text) (this.chars.length + 1 + that.chars.length)
      else setMembers start (acc ++ [first]) fuel

/-- A set, after its opening bracket. -/
def readSet (options : PatternOptions) : Reader Pattern := do
  let start := (← get).offset - 1
  let negated ← accept '^'
  let members ← setMembers start [] ((← remaining) + 1)
  match members with
  | [.code n] => return .one options (.code n negated)
  | _ => return .one options (.set negated members)

/-! ## Repetition -/

/-- Repetition counts stay below this number. -/
def countLimit : Nat := 4294967295

/-- The count that digits write; without digits there is none. -/
def count? (digits : List Char) : Reader (Option Nat) := do
  if digits.isEmpty then return none
  let n := number 10 digits
  if countLimit ≤ n then throw .countTooLarge
  return some n

/-- The bounds in braces; without a complete pair of braces the opening one stands for itself. -/
def braces? : Reader (Option (Nat × Option Nat)) := do
  let s ← get
  if (← peek) == some (.plain '}') then return none
  let lo ← takeWhile Char.isDigit s.rest.length
  let comma ← accept ','
  let hi ← if comma then takeWhile Char.isDigit s.rest.length else pure lo
  if ← accept '}' then
    let least := (← count? lo).getD 0
    let most ← count? hi
    match most with
    | some m => if m < least then failAt .repeatBounds s.offset
    | none => pure ()
    return some (least, most)
  else
    set s
    return none

/-- How an element of a branch can be repeated. -/
inductive Repeatable where
  | yes
  | anchor
  | repeated
deriving DecidableEq, Repr, Inhabited

/-- The elements of a branch, last one first. -/
abbrev Branch := List (Pattern × Repeatable)

/-- The pattern of a branch. -/
def Branch.pattern (b : Branch) : Pattern :=
  b.foldl (fun rest (p, _) => match rest with
    | .empty => p
    | _ => .seq p rest) .empty

/-- An element read as such. -/
def element (p : Pattern) : Pattern × Repeatable :=
  match p with
  | .anchor _ _ => (p, .anchor)
  | _ => (p, .yes)

/-- The mode that a sign behind a quantifier chooses. -/
def repeatMode : Reader RepeatMode := do
  if ← accept '?' then return .lazy
  if ← accept '+' then return .possessive
  return .greedy

/-- Repeats the last element of a branch. -/
def repeatLast (options : PatternOptions) (branch : Branch) (start : Nat) (least : Nat)
    (most : Option Nat) : Reader Branch := do
  match branch with
  | [] => failAt .nothingToRepeat start
  | (_, .anchor) :: _ => failAt .nothingToRepeat start
  | (_, .repeated) :: _ => failAt .multipleRepeat start
  | (p, .yes) :: rest =>
    return (.repeated options (← repeatMode) least most p, .repeated) :: rest

/-- A quantifier, after its first character. -/
def quantify (options : PatternOptions) (branch : Branch) (c : Char) : Reader Branch := do
  let start := (← get).offset - 1
  match c with
  | '?' => repeatLast options branch start 0 (some 1)
  | '*' => repeatLast options branch start 0 none
  | '+' => repeatLast options branch start 1 none
  | _ =>
    match ← braces? with
    | none => return element (.one options (.code c.toNat false)) :: branch
    | some (least, most) => repeatLast options branch start least most

/-! ## Flags -/

/-- The flags of a group. -/
inductive Flag where
  | ignoreCase
  | locale
  | multiline
  | dotAll
  | verbose
  | ascii
  | template
  | unicode
deriving DecidableEq, Repr, Inhabited

/-- The flag of a letter. -/
def flag? : Token → Option Flag
  | .plain 'i' => some .ignoreCase
  | .plain 'L' => some .locale
  | .plain 'm' => some .multiline
  | .plain 's' => some .dotAll
  | .plain 'x' => some .verbose
  | .plain 'a' => some .ascii
  | .plain 't' => some .template
  | .plain 'u' => some .unicode
  | _ => none

/-- Flags that choose the character classes. -/
def Flag.choosesClasses (f : Flag) : Bool := f == .ascii || f == .locale || f == .unicode

/-- Letters, for the wording of flag faults. -/
def Token.isLetter : Token → Bool
  | plain c => Text.isLetter c
  | escape _ => false

/-- Options with a flag switched on or off. -/
def setFlag (on : Bool) (o : PatternOptions) : Flag → PatternOptions
  | .ignoreCase => { o with ignoreCase := on }
  | .locale => o
  | .multiline => { o with multiline := on }
  | .dotAll => { o with dotAll := on }
  | .verbose => { o with verbose := on }
  | .ascii => { o with ascii := on }
  | .template => { o with template := on }
  | .unicode => { o with ascii := !on }

/-- Flags switched on, from the first one on, up to the token that ends them. -/
def flagsOn (acc : List Flag) (t : Token) (f : Flag) : Nat → Reader (List Flag × Token)
  | 0 => failBack .missingFlagsEnd 0
  | fuel + 1 => do
    if f == .locale then failBack .localeFlag 0
    let acc := acc ++ [f]
    if f.choosesClasses && acc.any fun g => g.choosesClasses && g != f then
      failBack .incompatibleFlags 0
    match ← take with
    | none => failBack .missingFlagsEnd 0
    | some next =>
      if next == .plain ')' || next == .plain '-' || next == .plain ':' then return (acc, next)
      match flag? next with
      | some g => flagsOn acc t g fuel
      | none => failBack (if next.isLetter then .unknownFlag else .missingFlagsEnd) next.chars.length

/-- Flags switched off, from the first one on, up to the colon. -/
def flagsOff (acc : List Flag) (f : Flag) : Nat → Reader (List Flag)
  | 0 => failBack .missingColon 0
  | fuel + 1 => do
    if f.choosesClasses then failBack .classFlagOff 0
    let acc := acc ++ [f]
    match ← take with
    | none => failBack .missingColon 0
    | some next =>
      if next == .plain ':' then return acc
      match flag? next with
      | some g => flagsOff acc g fuel
      | none => failBack (if next.isLetter then .unknownFlag else .missingColon) next.chars.length

/-- The flags to switch off, behind the minus sign. -/
def minusFlags : Reader (List Flag) := do
  match ← take with
  | none => failBack .missingFlag 0
  | some t =>
    match flag? t with
    | some f => flagsOff [] f ((← remaining) + 1)
    | none => failBack (if t.isLetter then .unknownFlag else .missingFlag) t.chars.length

/-- The flags of a group from their first token on: for the whole pattern, or switched on and off for
the group. -/
def readFlags (t : Token) : Reader (Sum (List Flag) (List Flag × List Flag)) := do
  let (on, stop) ← match flag? t with
    | some f => flagsOn [] t f ((← remaining) + 1)
    | none => pure ([], t)
  if stop == .plain ')' then return .inl on
  if on.contains .template then failBack .globalFlagOn 1
  let off ← if stop == .plain '-' then minusFlags else pure []
  if off.contains .template then failBack .globalFlagOff 1
  if on.any off.contains then failBack .flagOnAndOff 1
  return .inr (on, off)

/-- The options inside a group with flags. -/
def withFlags (options : PatternOptions) (on off : List Flag) : PatternOptions :=
  off.foldl (setFlag false) (on.foldl (setFlag true) options)

/-- Switches flags on for the whole pattern. -/
def switchOn (on : List Flag) : Reader Unit :=
  modify fun s =>
    { s with
      options := (on.filter (· != .unicode)).foldl (setFlag true) s.options
      unicode := s.unicode || on.contains .unicode }

/-! ## Groups -/

/-- What an opening parenthesis starts. -/
inductive GroupHead where
  | capture (name : Option String)
  | plain (on off : List Flag)
  | atomic
  | ahead (negated : Bool)
  | behind (negated : Bool)
  | conditional (index : Nat)
  | reference (index : Nat)
  | comment
  | flags (on : List Flag)
deriving DecidableEq, Repr, Inhabited

/-- Group names are identifiers. -/
def checkName (name : String) : Reader Unit := do
  if !Text.isIdentifier name then failBack (.badGroupName name) (name.length + 1)

/-- The group of a name. -/
def groupNamed (name : String) : Reader Nat := do
  match (← get).names.lookup name with
  | some index => return index
  | none => failBack (.unknownGroupName name) (name.length + 1)

/-- Groups that conditionals can ask for stay below this number. -/
def groupLimit : Nat := 1073741823

/-- The group that a conditional asks for. -/
def conditionalGroup : Reader Nat := do
  let name ← readName ')' "group name"
  let back := name.length + 1
  let index ←
    if Text.isIdentifier name then groupNamed name
    else match Text.integer? name with
      | some (.ofNat 0) => failBack .badGroupNumber back
      | some (.ofNat n) => do
        if groupLimit ≤ n then failBack (.invalidReference n) back
        modify fun s =>
          if (s.conditions.lookup n).isSome then s
          else { s with conditions := s.conditions ++ [(n, s.offset - back)] }
        pure n
      | _ => failBack (.badGroupName name) back
  checkBehind index
  return index

/-- Skips a comment. -/
def skipComment (start : Nat) : Nat → Reader Unit
  | 0 => failAt .unterminatedComment start
  | fuel + 1 => do
    match ← take with
    | none => failAt .unterminatedComment start
    | some t => if t == .plain ')' then return else skipComment start fuel

/-- The head of a named group or named reference, behind its letter. -/
def namedHead : Reader GroupHead := do
  if ← accept '<' then
    let name ← readName '>' "group name"
    checkName name
    return .capture (some name)
  if ← accept '=' then
    let name ← readName ')' "group name"
    checkName name
    let index ← groupNamed name
    referTo index (name.length + 1)
    return .reference index
  match ← take with
  | none => failBack .unexpectedEnd 0
  | some t => failBack (.unknownExtension ("P" ++ t.text)) (t.chars.length + 2)

/-- The head of a look-behind assertion, behind its angle bracket. -/
def behindHead : Reader GroupHead := do
  match ← take with
  | none => failBack .unexpectedEnd 0
  | some (.plain '=') => return .behind false
  | some (.plain '!') => return .behind true
  | some t => failBack (.unknownExtension ("<" ++ t.text)) (t.chars.length + 2)

/-- The head of a group, behind its opening parenthesis at `start`. -/
def groupHead (start : Nat) : Reader GroupHead := do
  if !(← accept '?') then return .capture none
  match ← take with
  | none => failBack .unexpectedEnd 0
  | some (.plain 'P') => namedHead
  | some (.plain ':') => return .plain [] []
  | some (.plain '#') =>
    skipComment start ((← remaining) + 1)
    return .comment
  | some (.plain '=') => return .ahead false
  | some (.plain '!') => return .ahead true
  | some (.plain '<') => behindHead
  | some (.plain '(') => return .conditional (← conditionalGroup)
  | some (.plain '>') => return .atomic
  | some t =>
    if t == .plain '-' || (flag? t).isSome then
      match ← readFlags t with
      | .inl on => return .flags on
      | .inr (on, off) => return .plain on off
    else failBack (.unknownExtension t.text) (t.chars.length + 1)

/-- Opens a capturing group. -/
def openGroup (name : Option String) : Reader Nat := do
  let s ← get
  let index := s.widths.length + 1
  match name with
  | none => pure ()
  | some n =>
    match s.names.lookup n with
    | some earlier => failBack (.redefinedGroup n index earlier) (n.length + 1)
    | none => pure ()
  set { s with
    widths := s.widths ++ [none]
    names := match name with
      | none => s.names
      | some n => s.names ++ [(n, index)] }
  return index

/-- Closes a capturing group. -/
def closeGroup (index : Nat) (p : Pattern) : Reader Unit :=
  modify fun s => { s with widths := s.widths.set (index - 1) (some (p.width s.groupWidth)) }

/-- The closing parenthesis of the group that starts at `start`. -/
def closing (start : Nat) : Reader Unit := do
  if !(← accept ')') then failAt .unterminatedGroup start

/-! ## Patterns -/

/-- Blanks that verbose patterns skip. -/
def isSkipped (c : Char) : Bool := c == ' ' || 9 ≤ c.toNat && c.toNat ≤ 13

/-- Skips the rest of a line. -/
def skipLine : Nat → Reader Unit
  | 0 => return
  | fuel + 1 => do
    match ← take with
    | none => return
    | some t => if t == .plain '\n' then return else skipLine fuel

/-- Characters with a meaning of their own as the first character of an element. -/
def isQuantifier (c : Char) : Bool := c == '*' || c == '+' || c == '?' || c == '{'

mutual

/-- Alternatives, up to the end or a closing parenthesis. At the top, the options are those of the whole
pattern, which the first alternative may change. -/
def readAlternatives (top : Bool) (options : PatternOptions) : Nat → Reader Pattern
  | 0 => failBack .unexpectedEnd 0
  | fuel + 1 => do
    let first ← readBranch top options [] fuel
    readMore top options first fuel

/-- Further alternatives. -/
def readMore (top : Bool) (options : PatternOptions) (first : Pattern) : Nat → Reader Pattern
  | 0 => failBack .unexpectedEnd 0
  | fuel + 1 => do
    if ← accept '|' then
      let state ← get
      let options := if top then state.options else options
      let next ← readBranch false options [] fuel
      return .alt first (← readMore top options next fuel)
    else return first

/-- One alternative. -/
def readBranch (first : Bool) (options : PatternOptions) (branch : Branch) : Nat → Reader Pattern
  | 0 => failBack .unexpectedEnd 0
  | fuel + 1 => do
    match ← peek with
    | none => return branch.pattern
    | some (.plain '|') => return branch.pattern
    | some (.plain ')') => return branch.pattern
    | some (.escape c) =>
      let _ ← take
      readBranch first options (element (← escape options c) :: branch) fuel
    | some (.plain c) =>
      let start := (← get).offset
      let _ ← take
      if options.verbose && isSkipped c then readBranch first options branch fuel
      else if options.verbose && c == '#' then
        skipLine ((← remaining) + 1)
        readBranch first options branch fuel
      else if c == '[' then
        readBranch first options (element (← readSet options) :: branch) fuel
      else if isQuantifier c then
        readBranch first options (← quantify options branch c) fuel
      else if c == '.' then
        readBranch first options (element (.one options .any) :: branch) fuel
      else if c == '^' then
        readBranch first options (element (.anchor options .lineStart) :: branch) fuel
      else if c == '$' then
        readBranch first options (element (.anchor options .lineEnd) :: branch) fuel
      else if c == '(' then
        match ← groupHead start with
        | .comment => readBranch first options branch fuel
        | .flags on =>
          switchOn on
          if !first || !branch.isEmpty then failAt .misplacedFlags start
          readBranch first (← get).options branch fuel
        | head =>
          let p ← readGroup options start head fuel
          readBranch first options ((p, .yes) :: branch) fuel
      else readBranch first options (element (.one options (.code c.toNat false)) :: branch) fuel

/-- A group, behind its head. -/
def readGroup (options : PatternOptions) (start : Nat) (head : GroupHead) : Nat → Reader Pattern
  | 0 => failBack .unexpectedEnd 0
  | fuel + 1 => do
    match head with
    | .capture name =>
      let index ← openGroup name
      let p ← readAlternatives false options fuel
      closing start
      closeGroup index p
      return .group index p
    | .plain on off =>
      let p ← readAlternatives false (withFlags options on off) fuel
      closing start
      return p
    | .atomic =>
      let p ← readAlternatives false options fuel
      closing start
      return .atomic p
    | .ahead negated =>
      let p ← readAlternatives false options fuel
      closing start
      return .ahead negated p
    | .behind negated =>
      let outer := (← get).behindFrom
      modify fun s => { s with behindFrom := some (outer.getD (s.widths.length + 1)) }
      let p ← readAlternatives false options fuel
      modify fun s => { s with behindFrom := outer }
      closing start
      return .behind negated (p.width (← get).groupWidth) p
    | .conditional index =>
      let p ← readBranch false options [] fuel
      let q ← if ← accept '|' then
          let q ← readBranch false options [] fuel
          if (← peek) == some (.plain '|') then failBack .tooManyBranches 0
          pure q
        else pure .empty
      closing start
      return .conditional index p q
    | .reference index => return .reference options index
    | .comment => return .empty
    | .flags _ => return .empty

end

/-- The widest look-behind. -/
def behindLimit : Nat := 4294967295

/-- The first fault that concerns the pattern as a whole. -/
def deepFault? : Pattern → Option PatternFault
  | empty => none
  | one _ _ => none
  | anchor _ _ => none
  | seq p q => (deepFault? p).or (deepFault? q)
  | alt p q => (deepFault? p).or (deepFault? q)
  | group _ p => deepFault? p
  | atomic p => deepFault? p
  | repeated options mode _ _ p =>
    if options.template then some (.templateRepeat mode) else deepFault? p
  | ahead _ p => deepFault? p
  | behind _ width p =>
    if behindLimit < width.least then some .behindTooFar
    else if width.most != some width.least then some .behindNotFixed
    else deepFault? p
  | reference _ _ => none
  | conditional _ p q => (deepFault? p).or (deepFault? q)

/-- Reads a whole pattern. -/
def readAll (fuel : Nat) : Reader Pattern := do
  checkEnd
  let p ← readAlternatives true {} fuel
  let s ← get
  if s.options.ascii && s.unicode then throw .conflictingOptions
  if s.next?.isSome then failBack .unbalancedParenthesis 0
  match s.conditions.find? fun (index, _) => s.widths.length < index with
  | some (index, position) => failAt (.invalidReference index) position
  | none => pure ()
  match deepFault? p with
  | some f => throw (.fault f none)
  | none => return p

/-- The pattern that a text writes. -/
def compile (source : String) : Except PatternError Pattern :=
  let cs := source.toList
  ((readAll (4 * cs.length + 8)).run { rest := cs }).map Prod.fst

end FeatureAtlas.Pattern
