import FeatureAtlas.Comment.Block
import FeatureAtlas.Declaration.Scan

/-!
# Exported utilities

Constants that a file exports, unless their value is a function, and documented functions that it
exports, unless they are server actions.
-/

namespace FeatureAtlas

/-- The kinds of utilities. -/
inductive UtilityKind where
  | constant
  | function
deriving DecidableEq, Repr, Inhabited

/-- The name of a kind. -/
def UtilityKind.text : UtilityKind → String
  | constant => "constant"
  | function => "function"

/-- The kind with a given name. -/
def UtilityKind.ofText? (s : String) : Option UtilityKind :=
  [constant, function].find? fun k => k.text == s

/-- A parameter of a function. -/
structure Parameter where
  name : String
  type : String
deriving DecidableEq, Repr, Inhabited

/-- An exported constant or documented function. -/
structure Utility where
  name : String
  kind : UtilityKind
  description : Option String := none
  type : Option String := none
  value : Option String := none
  params : Option (List Parameter) := none
deriving DecidableEq, Repr, Inhabited

namespace Declaration

/-- The longest constant value that is shown whole. -/
def valueLimit : Nat := 50

/-! ## Parameters -/

/-- A parameter `name: type` or `name?: type`, whose type stands on one line. -/
def typedParameter? (cs : List Char) : Option Parameter := do
  let (name, rest) ← word? cs
  let rest := (text? "?" rest).getD rest
  let rest ← text? ":" (Text.trimStart rest)
  let type := Text.trimStart rest
  if type.isEmpty || type.contains '\n' then none
  else some ⟨name, String.ofList (Text.trim type)⟩

/-- One parameter; without a readable type its type is unknown. -/
def parameter? (piece : List Char) : Option Parameter :=
  let trimmed := Text.trim piece
  (typedParameter? trimmed).or ((word? trimmed).map fun (name, _) => ⟨name, "unknown"⟩)

/-- The parameters between commas. -/
def parameters (text : String) : List Parameter := (Text.splitOn ',' text.toList).filterMap parameter?

/-! ## Types between a colon and a mark -/

/-- A type annotation up to a mark: the text between the colon's blanks and the blanks before the mark.
Blanks alone leave their last one as the type; nothing at all is no annotation. -/
def annotationBefore? (mark : Char) (cs : List Char) : Option (List Char × List Char) :=
  let inner := cs.takeWhile (· != mark)
  let rest := cs.drop inner.length
  if rest.isEmpty then none
  else
    let body := Text.trimStart inner
    if body.isEmpty then inner.getLast?.map fun c => ([c], rest)
    else some (Text.trimEnd body, rest)

/-- An optional type annotation, up to a mark and including it. -/
def annotated? (mark : Char) (cs : List Char) : Option (Option (List Char) × List Char) :=
  match Text.trimStart cs with
  | ':' :: rest => (annotationBefore? mark rest).map fun (type, rest) => (some type, rest.drop 1)
  | c :: rest => if c == mark then some (none, rest) else none
  | [] => none

/-- A documentation block and the blanks after it. -/
def documented? (cs : List Char) : Option (List Char × List Char) :=
  (Comment.blockAt? cs).map fun (block, rest) => (block, Text.trimStart rest)

/-! ## Constants -/

/-- The parts of an exported constant. -/
structure ConstantParts where
  name : String
  type : Option (List Char)
  value : List Char

/-- The characters of a value: up to a semicolon or the end of the line. -/
def valueChars (cs : List Char) : List Char := cs.takeWhile fun c => c != ';' && c != '\n'

/-- The value after an equals sign. Blanks before it do not count, unless nothing follows them: then the
last blank that is not a line break is the value. -/
def constantValue? (cs : List Char) : Option (List Char × List Char) :=
  let body := Text.trimStart cs
  let value := valueChars body
  if !value.isEmpty then some (value, body.drop value.length)
  else
    let lead := cs.take (cs.length - body.length)
    -- from the last blank that is not a line break on
    let breaks := (lead.reverse.takeWhile (· == '\n')).length
    if breaks < lead.length then
      let tail := cs.drop (lead.length - breaks - 1)
      let value := valueChars tail
      some (value, tail.drop value.length)
    else none

/-- `export const name: type = value`. -/
def constantParts? (cs : List Char) : Option (ConstantParts × List Char) := do
  let (name, rest) ← keyword? "export" cs >>= keyword? "const" >>= word?
  let (type, rest) ← annotated? '=' rest
  let (value, rest) ← constantValue? rest
  return (⟨name, type, value⟩, rest)

/-- An exported constant with the documentation block directly before it, if there is one. -/
def documentedConstant? (cs : List Char) : Option (ConstantParts × List Char) :=
  ((documented? cs).bind fun (_, rest) => constantParts? rest).or (constantParts? cs)

/-- Whether a constant's value is a function. -/
def isFunctionValue (value : String) : Bool :=
  Text.startsWith value "(" || Text.startsWith value "async (" || Text.contains value "=>"

/-- A value cut to the limit. -/
def shortened (value : String) : String :=
  if valueLimit < value.length then String.ofList (value.toList.take valueLimit) ++ "..." else value

/-- The constant of a find, described by the first documentation block in it. -/
def constantUtility? (source : List Char) (f : Found ConstantParts) : Option Utility :=
  let value := Text.strip (String.ofList f.value.value)
  if isFunctionValue value then none
  else
    let whole := String.ofList ((source.drop f.start).take (f.stop - f.start))
    some
      { name := f.value.name
        kind := .constant
        description := (Comment.firstBlock? whole).bind fun b => Comment.description? b.text
        type := f.value.type.map fun t => Text.strip (String.ofList t)
        value := some (shortened value) }

/-! ## Functions -/

/-- The parts of a documented function. -/
structure FunctionParts where
  doc : List Char
  name : String
  params : List Char
  result : Option (List Char)

/-- A documentation block and an exported function, up to the brace of its body. -/
def functionParts? (cs : List Char) : Option (FunctionParts × List Char) := do
  let (doc, rest) ← documented? cs
  let rest ← keyword? "export" rest
  let (name, rest) ← keyword? "function" (optionalKeyword "async" rest) >>= word?
  let rest ← text? "(" (Text.trimStart rest)
  let params := rest.takeWhile (· != ')')
  let rest ← text? ")" (rest.drop params.length)
  let (result, rest) ← annotated? '{' rest
  return (⟨doc, name, params, result⟩, rest)

/-- The function of a find, unless it is a server action. -/
def functionUtility? (f : Found FunctionParts) : Option Utility :=
  if Text.occursIn "@serverAction".toList f.value.doc then none
  else
    some
      { name := f.value.name
        kind := .function
        description := Comment.description? (String.ofList f.value.doc)
        type := f.value.result.map fun t => Text.strip (String.ofList t)
        params := some (parameters (String.ofList f.value.params)) }

/-- The exported utilities of a file: constants, then functions, each in source order. -/
def exportedUtilities (source : String) : List Utility :=
  let cs := source.toList
  (collect documentedConstant? 0 0 cs).filterMap (constantUtility? cs) ++
    (collect functionParts? 0 0 cs).filterMap functionUtility?

end Declaration

end FeatureAtlas
