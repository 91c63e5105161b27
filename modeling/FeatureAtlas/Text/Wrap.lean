import FeatureAtlas.Text.Basic

/-!
# Wrapped text

Words are put on lines of at most a given width. A word that is wider than a line is cut.
-/

namespace FeatureAtlas.Text

/-- The words of a text with the blanks between them as words of their own. -/
def chunks (s : String) : List (List Char) :=
  ((splitOn ' ' s.toList).filter (· != [])).intersperse [' ']

/-- Takes chunks as long as they fit into a width; gives the line and the chunks that are left. -/
def takeLine : Nat → List (List Char) → List (List Char) × List (List Char)
  | _, [] => ([], [])
  | width, c :: rest =>
    if c.length ≤ width then
      let (line, left) := takeLine (width - c.length) rest
      (c :: line, left)
    else ([], c :: rest)

/-- Drops a blank at the start. -/
def dropBlank : List (List Char) → List (List Char)
  | [' '] :: rest => rest
  | cs => cs

/-- Fills a line with the part of an overlong chunk that still fits. -/
def cutLong (width : Nat) (line left : List (List Char)) : List (List Char) × List (List Char) :=
  match left with
  | c :: rest =>
    if width < c.length then
      let room := width - line.flatten.length
      (line ++ [c.take room], c.drop room :: rest)
    else (line, left)
  | [] => (line, left)

/-- Puts chunks on lines; the first number bounds the lines. -/
def wrapChunks (width : Nat) : Nat → List (List Char) → List (List Char)
  | 0, _ => []
  | _, [] => []
  | fuel + 1, cs =>
    let (line, left) := takeLine width cs
    let (line, left) := cutLong width line left
    (dropBlank line.reverse).reverse.flatten :: wrapChunks width fuel (dropBlank left)

/-- The lines of a text. -/
def wrap (width : Nat) (s : String) : List String :=
  let cs := chunks s
  (wrapChunks width (2 * s.length + 1) cs).map String.ofList

/-- Puts parts on lines behind an indentation; `used` is the width that the first line has already taken. -/
def wrapParts (width indent : Nat) : Nat → List String → List String → List String
  | _, line, [] => if line.isEmpty then [] else [join " " line]
  | used, line, part :: rest =>
    if width < used + 1 + part.length && !line.isEmpty then
      join " " line :: wrapParts width indent (indent - 1 + part.length + 1) [part] rest
    else wrapParts width indent (used + part.length + 1) (line ++ [part]) rest

end FeatureAtlas.Text
