import FeatureAtlas.Json.Value
import FeatureAtlas.Number.Shortest
import FeatureAtlas.Text.Basic
import FeatureAtlas.Text.Printable

/-!
# Writing JSON

Two layouts: compact, on one line without spaces, and indented, one entry per line. Characters beyond
ASCII are written as themselves; quotes, backslashes and control characters are escaped.
-/

namespace FeatureAtlas.Json

/-- One character of a string literal. -/
def escapeChar (c : Char) : List Char :=
  if c == '"' then ['\\', '"']
  else if c == '\\' then ['\\', '\\']
  else if c == '\n' then ['\\', 'n']
  else if c == '\r' then ['\\', 'r']
  else if c == '\t' then ['\\', 't']
  else if c == '\x08' then ['\\', 'b']
  else if c == '\x0c' then ['\\', 'f']
  else if c.toNat < 32 then '\\' :: 'u' :: Text.hexPadded 4 c.toNat
  else [c]

/-- A string literal. -/
def literal (s : String) : List Char := '"' :: (s.toList.flatMap escapeChar ++ ['"'])

/-- An integer in decimal. -/
def intText (n : Int) : List Char :=
  if n < 0 then '-' :: Nat.toDigits 10 n.natAbs else Nat.toDigits 10 n.natAbs

/-- A double's shortest text; the special values have names of their own. -/
def floatText : Binary64 → List Char
  | .finite negative m e => Binary64.finiteText negative m e
  | .infinite false => "Infinity".toList
  | .infinite true => "-Infinity".toList
  | .notANumber => "NaN".toList

mutual

/-- The compact text of a value. -/
def compactChars : Json → List Char
  | null => "null".toList
  | bool true => "true".toList
  | bool false => "false".toList
  | int n => intText n
  | float x => floatText x
  | str s => literal s
  | arr xs => '[' :: (compactItems xs ++ [']'])
  | obj fields => '{' :: (compactFields fields ++ ['}'])

/-- Array elements separated by commas. -/
def compactItems : List Json → List Char
  | [] => []
  | [x] => compactChars x
  | x :: y :: rest => compactChars x ++ ',' :: compactItems (y :: rest)

/-- Object fields separated by commas. -/
def compactFields : List (String × Json) → List Char
  | [] => []
  | [(k, v)] => literal k ++ ':' :: compactChars v
  | (k, v) :: f :: rest => literal k ++ ':' :: compactChars v ++ ',' :: compactFields (f :: rest)

end

/-- A line break followed by `depth` steps of indentation. -/
def newline (step depth : Nat) : List Char := '\n' :: List.replicate (step * depth) ' '

mutual

/-- The indented text of a value at a depth; empty arrays and objects stay on one line. -/
def indentedChars (step depth : Nat) : Json → List Char
  | null => "null".toList
  | bool true => "true".toList
  | bool false => "false".toList
  | int n => intText n
  | float x => floatText x
  | str s => literal s
  | arr [] => ['[', ']']
  | arr (x :: xs) =>
    '[' :: newline step (depth + 1) ++ indentedItems step (depth + 1) (x :: xs) ++
      newline step depth ++ [']']
  | obj [] => ['{', '}']
  | obj (f :: fs) =>
    '{' :: newline step (depth + 1) ++ indentedFields step (depth + 1) (f :: fs) ++
      newline step depth ++ ['}']

/-- Array elements on lines of their own. -/
def indentedItems (step depth : Nat) : List Json → List Char
  | [] => []
  | [x] => indentedChars step depth x
  | x :: y :: rest =>
    indentedChars step depth x ++ ',' :: newline step depth ++ indentedItems step depth (y :: rest)

/-- Object fields on lines of their own. -/
def indentedFields (step depth : Nat) : List (String × Json) → List Char
  | [] => []
  | [(k, v)] => literal k ++ ':' :: ' ' :: indentedChars step depth v
  | (k, v) :: f :: rest =>
    literal k ++ ':' :: ' ' :: indentedChars step depth v ++ ',' :: newline step depth ++
      indentedFields step depth (f :: rest)

end

mutual

/-- The value with the fields of every object in ascending order of keys. -/
def sorted : Json → Json
  | arr xs => arr (sortedItems xs)
  | obj fields => obj (Text.sortKeys (sortedFields fields))
  | v => v

/-- Sorts every element. -/
def sortedItems : List Json → List Json
  | [] => []
  | x :: xs => sorted x :: sortedItems xs

/-- Sorts every field's value. -/
def sortedFields : List (String × Json) → List (String × Json)
  | [] => []
  | (k, v) :: rest => (k, sorted v) :: sortedFields rest

end

/-- The value on one line, without spaces. -/
def compact (v : Json) : String := String.ofList (compactChars v)

/-- The value with one entry per line, indented by `step` blanks per level. -/
def indented (step : Nat) (v : Json) : String := String.ofList (indentedChars step 0 v)

/-- The value on one line with sorted keys: equal values have equal texts. -/
def canonical (v : Json) : String := compact (sorted v)

end FeatureAtlas.Json
