import FeatureAtlas.Text.Basic

/-!
# JSON with comments

Compiler configurations are JSON with line comments, block comments and commas before closing brackets.
Erasing these outside of strings leaves plain JSON.
-/

namespace FeatureAtlas.Json

/-- Where in a commented text a character stands. -/
inductive Region where
  | plain
  | string
  | lineComment
  | blockComment
deriving DecidableEq, Repr, Inhabited

/-- Whether the next character outside of comments and blanks closes a bracket or brace. -/
def closesNext : Region → List Char → Bool
  | .plain, '/' :: '/' :: rest => closesNext .lineComment rest
  | .plain, '/' :: '*' :: rest => closesNext .blockComment rest
  | .plain, c :: rest =>
    if Text.isBlank c then closesNext .plain rest else c == '}' || c == ']'
  | .lineComment, '\n' :: rest => closesNext .plain rest
  | .lineComment, _ :: rest => closesNext .lineComment rest
  | .blockComment, '*' :: '/' :: rest => closesNext .plain rest
  | .blockComment, _ :: rest => closesNext .blockComment rest
  | .string, _ => false
  | _, [] => false

/-- A text without comments and without commas before closing brackets. -/
def eraseComments : Region → List Char → List Char
  | .plain, '/' :: '/' :: rest => eraseComments .lineComment rest
  | .plain, '/' :: '*' :: rest => eraseComments .blockComment rest
  | .plain, c :: rest =>
    if c == '"' then c :: eraseComments .string rest
    else if c == ',' && closesNext .plain rest then eraseComments .plain rest
    else c :: eraseComments .plain rest
  | .string, '\\' :: c :: rest => '\\' :: c :: eraseComments .string rest
  | .string, c :: rest =>
    if c == '"' then c :: eraseComments .plain rest else c :: eraseComments .string rest
  | .lineComment, '\n' :: rest => '\n' :: eraseComments .plain rest
  | .lineComment, _ :: rest => eraseComments .lineComment rest
  | .blockComment, '*' :: '/' :: rest => eraseComments .plain rest
  | .blockComment, _ :: rest => eraseComments .blockComment rest
  | _, [] => []

/-- A commented text as plain JSON. -/
def withoutComments (s : String) : String := String.ofList (eraseComments .plain s.toList)

end FeatureAtlas.Json
