import FeatureAtlas.Text.Basic
import FeatureAtlas.Text.Word

/-!
# Recognising declarations

A recogniser reads a fixed shape at the front of a text and returns what follows. Searching tries every
place from left to right; collecting goes on behind each find.
-/

namespace FeatureAtlas.Declaration

/-- A fixed text at the front. -/
def text? (s : String) (cs : List Char) : Option (List Char) := Text.after? s.toList cs

/-- At least one blank at the front. -/
def blanks? : List Char → Option (List Char)
  | c :: cs => if Text.isBlank c then some (Text.trimStart cs) else none
  | [] => none

/-- A maximal nonempty run of word characters at the front. -/
def word? (cs : List Char) : Option (String × List Char) :=
  let w := cs.takeWhile Text.isWord
  if w.isEmpty then none else some (String.ofList w, cs.drop w.length)

/-- A keyword and the blanks after it. -/
def keyword? (s : String) (cs : List Char) : Option (List Char) := text? s cs >>= blanks?

/-- A keyword and the blanks after it, if they stand there. -/
def optionalKeyword (s : String) (cs : List Char) : List Char := (keyword? s cs).getD cs

/-- The first place at which a recogniser succeeds. -/
def search {α : Type} (f : List Char → Option α) : List Char → Option α
  | [] => f []
  | c :: cs => match f (c :: cs) with
    | some a => some a
    | none => search f cs

/-- A find: where it starts, where it stops, and what was read. -/
structure Found (α : Type) where
  start : Nat
  stop : Nat
  value : α

/-- All finds from left to right without overlap. The recogniser returns the text that follows. -/
def collect {α : Type} (f : List Char → Option (α × List Char)) (offset skip : Nat) :
    List Char → List (Found α)
  | [] => []
  | c :: cs =>
    match skip with
    | n + 1 => collect f (offset + 1) n cs
    | 0 =>
      match f (c :: cs) with
      | some (a, rest) =>
        let length := (c :: cs).length - rest.length
        ⟨offset, offset + length, a⟩ :: collect f (offset + 1) (length - 1) cs
      | none => collect f (offset + 1) 0 cs

/-!
## Balanced braces

A braced block runs from an opening brace to the brace that closes it. Braces in string literals and
comments do not count.
-/

/-- What the scanner is inside of. -/
inductive Region where
  | code
  | lineComment
  | blockComment
  | literal (quote : Char)
deriving DecidableEq, Repr, Inhabited

/-- Quotes that delimit string literals. -/
def isQuote (c : Char) : Bool := c == '"' || c == '\'' || c == '`'

/-- The characters up to the brace that closes the last of `depth` open blocks. -/
def closeBraces : Region → Nat → List Char → Option (List Char)
  | _, _, [] => none
  | .lineComment, depth, c :: cs =>
    (closeBraces (if c == '\n' then .code else .lineComment) depth cs).map (c :: ·)
  | .blockComment, depth, '*' :: '/' :: cs => (closeBraces .code depth cs).map ('*' :: '/' :: ·)
  | .blockComment, depth, c :: cs => (closeBraces .blockComment depth cs).map (c :: ·)
  | .literal quote, depth, '\\' :: c :: cs =>
    (closeBraces (.literal quote) depth cs).map ('\\' :: c :: ·)
  | .literal quote, depth, c :: cs =>
    (closeBraces (if c == quote then .code else .literal quote) depth cs).map (c :: ·)
  | .code, depth, '/' :: '/' :: cs => (closeBraces .lineComment depth cs).map ('/' :: '/' :: ·)
  | .code, depth, '/' :: '*' :: cs => (closeBraces .blockComment depth cs).map ('/' :: '*' :: ·)
  | .code, depth, c :: cs =>
    if isQuote c then (closeBraces (.literal c) depth cs).map (c :: ·)
    else if c == '{' then (closeBraces .code (depth + 1) cs).map (c :: ·)
    else if c == '}' then
      match depth with
      | n + 2 => (closeBraces .code (n + 1) cs).map (c :: ·)
      | _ => some [c]
    else (closeBraces .code depth cs).map (c :: ·)

/-- The braced block at the front of a text. -/
def bracedBlock? : List Char → Option (List Char)
  | '{' :: cs => (closeBraces .code 1 cs).map ('{' :: ·)
  | _ => none

/-- The braced block at an offset of a source text. -/
def bracedAt? (source : String) (start : Int) : Option String :=
  if start < 0 then none
  else (bracedBlock? (source.toList.drop start.toNat)).map String.ofList

end FeatureAtlas.Declaration
