import FeatureAtlas.Text.Basic

/-!
# Where the code of a file starts

The file header is the text before the first `import`, else before the first `export`, else before the
first declaration, each at the start of a line and after comments and blanks. A comment counts as
skipped only if it ends its line. A file with none of these is all code.
-/

namespace FeatureAtlas.Comment

/-- Whether one of the keywords stands here with a blank after it. -/
def keywordAt (keywords : List String) (cs : List Char) : Bool :=
  keywords.any fun k =>
    match Text.after? k.toList cs with
    | some (c :: _) => Text.isBlank c
    | _ => false

/-- The places after a comment end that ends its line, nearest first, as offset and text. -/
def lineEndsOfComment (offset : Nat) : List Char → List (Nat × List Char)
  | [] => []
  | c :: cs =>
    match Text.after? ['*', '/', '\n'] (c :: cs) with
    | some rest => (offset + 3, rest) :: lineEndsOfComment (offset + 1) cs
    | none => lineEndsOfComment (offset + 1) cs

/-- The place after a line comment and its line break. -/
def afterLineComment? (offset : Nat) (cs : List Char) : Option (Nat × List Char) := do
  let body ← Text.after? ['/', '/'] cs
  let line := body.takeWhile (· != '\n')
  match body.drop line.length with
  | [] => none
  | _ :: rest => some (offset + 2 + line.length + 1, rest)

/-- The places that one more comment or blank leads to, in order of preference. -/
def skips (offset : Nat) (cs : List Char) : List (Nat × List Char) :=
  (afterLineComment? offset cs).toList ++
    (match Text.after? ['/', '*'] cs with
      | some body => lineEndsOfComment (offset + 2) body
      | none => []) ++
    match cs with
    | c :: rest => if Text.isBlank c then [(offset + 1, rest)] else []
    | [] => []

/-- The offset of a keyword after as many comments and blanks as possible. Every skip shortens the text,
so its length bounds their number. -/
def keywordFrom? (keywords : List String) : Nat → Nat → List Char → Option Nat
  | 0, _, _ => none
  | fuel + 1, offset, cs =>
    match (skips offset cs).findSome? fun (o, rest) => keywordFrom? keywords fuel o rest with
    | some found => some found
    | none => if keywordAt keywords cs then some offset else none

/-- The offset of the keyword reached from the earliest line start. -/
def keywordBelow? (keywords : List String) (offset : Nat) (lineStart : Bool) :
    List Char → Option Nat
  | [] => none
  | c :: cs =>
    let here := if lineStart then keywordFrom? keywords (cs.length + 2) offset (c :: cs) else none
    match here with
    | some found => some found
    | none => keywordBelow? keywords (offset + 1) (c == '\n') cs

/-- The keywords that start code, most telling first. -/
def codeKeywords : List (List String) :=
  [["import"], ["export"],
   ["const", "let", "var", "function", "class", "interface", "type", "enum"]]

/-- The offset at which the code of a file starts. -/
def codeStart (source : String) : Nat :=
  (codeKeywords.findSome? fun ks => keywordBelow? ks 0 true source.toList).getD 0

end FeatureAtlas.Comment
