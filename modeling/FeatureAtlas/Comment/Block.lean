import FeatureAtlas.Text.Basic

/-!
# Documentation blocks

A documentation block runs from `/**` to the next `*/`. Blocks do not overlap, and a `/**` without a
later `*/` starts none.
-/

namespace FeatureAtlas.Comment

/-- A documentation block with its span in the source. -/
structure Block where
  text : String
  start : Nat
  stop : Nat
deriving DecidableEq, Repr, Inhabited

/-- What opens a documentation block. -/
def opening : List Char := ['/', '*', '*']

/-- What closes a comment. -/
def closing : List Char := ['*', '/']

/-- The characters of a block that starts here, and the text after it. -/
def blockAt? (cs : List Char) : Option (List Char × List Char) := do
  let body ← Text.after? opening cs
  let (inner, rest) ← Text.cut? closing body
  return (opening ++ inner ++ closing, rest)

/-- The blocks of a text; `offset` counts the characters before it and `skip` those of the block just
read. -/
def scan (offset skip : Nat) : List Char → List Block
  | [] => []
  | c :: cs =>
    match skip with
    | n + 1 => scan (offset + 1) n cs
    | 0 =>
      match blockAt? (c :: cs) with
      | some (text, _) =>
        ⟨String.ofList text, offset, offset + text.length⟩ :: scan (offset + 1) (text.length - 1) cs
      | none => scan (offset + 1) 0 cs

/-- The documentation blocks of a source text, in order. -/
def blocks (source : String) : List Block := scan 0 0 source.toList

/-- The first documentation block of a source text. -/
def firstBlock? (source : String) : Option Block := (blocks source).head?

/-!
## Descriptions

The description of a block is its text lines: those that are not blank, not a tag, and not only the
comment's own marks. The leading star of a line and one blank after it are dropped.
-/

/-- A line without its leading blanks and star, and without one blank after the star. -/
def dropStar (line : List Char) : List Char :=
  match Text.trimStart line with
  | '*' :: c :: rest => if Text.isBlank c then rest else c :: rest
  | ['*'] => []
  | _ => line

/-- Whether a line, without its star, belongs to the description. -/
def isProse (content : List Char) : Bool :=
  let trimmed := Text.trim content
  !(trimmed.isEmpty || ['/', '*', '*'].isPrefixOf trimmed || ['*', '/'].isPrefixOf trimmed ||
    trimmed == ['/'] || ['@'].isPrefixOf trimmed)

/-- The description lines of a block. -/
def proseLines (block : String) : List (List Char) :=
  ((Text.splitOn '\n' block.toList).map dropStar).filter isProse

/-- The description of a block, if it has any text. -/
def description? (block : String) : Option String :=
  match proseLines block with
  | [] => none
  | lines => some (Text.join "\n" (lines.map String.ofList))

end FeatureAtlas.Comment
