import FeatureAtlas.Comment.Block
import FeatureAtlas.Declaration.Preceding
import FeatureAtlas.Declaration.Scan

/-!
# Exported types

Interfaces, type aliases and enums that a file exports, with their documentation, their fields or
values, and their source text.
-/

namespace FeatureAtlas

/-- The kinds of exported types. -/
inductive TypeKind where
  | interface
  | typeAlias
  | enumeration
deriving DecidableEq, Repr, Inhabited

/-- The keyword of a kind. -/
def TypeKind.text : TypeKind → String
  | interface => "interface"
  | typeAlias => "type"
  | enumeration => "enum"

/-- The kind with a given keyword. -/
def TypeKind.ofText? (s : String) : Option TypeKind :=
  [interface, typeAlias, enumeration].find? fun k => k.text == s

/-- A field of an interface or object type. -/
structure TypeField where
  name : String
  type : String
  description : Option String := none
deriving DecidableEq, Repr, Inhabited

/-- An exported interface, type alias or enum. -/
structure ExportedType where
  name : String
  kind : TypeKind
  description : Option String := none
  fields : Option (List TypeField) := none
  values : Option (List String) := none
  sourceCode : Option String := none
deriving DecidableEq, Repr, Inhabited

namespace Declaration

/-! ## Fields and members -/

/-- The text of a one-line documentation comment, at the character after its `/**`. Blanks around the
text do not count, except that a comment of blanks alone has its last blank as text. -/
def fieldDocBody? (cs : List Char) : Option (List Char) :=
  let rest := Text.trimStart cs
  match rest with
  | c :: tail =>
    match Text.cut? Comment.closing tail with
    | some (inner, _) => some (Text.trimEnd (c :: inner))
    | none =>
      if Comment.closing.isPrefixOf rest then
        (cs.take (cs.length - rest.length)).getLast?.map ([·])
      else none
  | [] => none

/-- The documentation comment of a line. -/
def fieldDoc? (line : List Char) : Option String :=
  (search (fun cs => Text.after? Comment.opening cs >>= fieldDocBody?) line).map String.ofList

/-- A field's type: everything after the colon, without one semicolon at the end. -/
def fieldType (body : List Char) : String :=
  let value := if body.getLast? == some ';' && 2 ≤ body.length then body.dropLast else body
  Text.strip (Text.removeSuffix (String.ofList value) ";")

/-- A field definition `name: type` or `name?: type` on a trimmed line. -/
def fieldDefinition? (line : List Char) : Option (String × String) := do
  let (name, rest) ← word? line
  let rest := (text? "?" rest).getD rest
  let rest ← text? ":" (Text.trimStart rest)
  let body := Text.trimStart rest
  if body.isEmpty then none else some (name, fieldType body)

/-- Reads one line of an interface body: a comment waits for the field that follows it. -/
def readFieldLine (state : List TypeField × Option String) (line : List Char) :
    List TypeField × Option String :=
  let (fields, pending) := state
  let trimmed := Text.trim line
  match fieldDoc? trimmed with
  | some doc => (fields, some doc)
  | none =>
    match Text.after? ['/', '/'] trimmed with
    | some note => (fields, some (String.ofList (Text.trim note)))
    | none =>
      match fieldDefinition? trimmed with
      | some (name, type) => (fields ++ [⟨name, type, pending⟩], none)
      | none => (fields, pending)

/-- The fields of an interface body. -/
def interfaceFields (body : String) : List TypeField :=
  ((Text.splitOn '\n' body.toList).foldl readFieldLine ([], none)).1

/-- The members of an enum body: the word that starts each piece between commas. -/
def enumValues (body : String) : List String :=
  (Text.splitOn ',' body.toList).filterMap fun piece => (word? (Text.trim piece)).map (·.1)

/-! ## Declarations -/

/-- `export keyword name`, up to the blanks after the name. -/
def exportHead? (keyword : String) (cs : List Char) : Option (String × List Char) := do
  let (name, rest) ← keyword? "export" cs >>= keyword? keyword >>= word?
  return (name, Text.trimStart rest)

/-- The start of an interface, up to and including its brace. -/
def interfaceStart? (cs : List Char) : Option (String × List Char) := do
  let (name, rest) ← exportHead? "interface" cs
  return (name, ← text? "\x7b" rest)

/-- The start of an object type, up to and including its brace. -/
def objectTypeStart? (cs : List Char) : Option (String × List Char) := do
  let (name, rest) ← exportHead? "type" cs
  let rest ← text? "=" rest
  return (name, ← text? "\x7b" (Text.trimStart rest))

/-- A type alias without braces, up to and including its semicolon. -/
def simpleType? (cs : List Char) : Option (String × List Char) := do
  let (name, rest) ← exportHead? "type" cs
  let rest ← text? "=" rest
  let body := rest.takeWhile fun c => c != ';' && c != '{'
  if body.isEmpty then none else return (name, ← text? ";" (rest.drop body.length))

/-- The start of an enum, up to and including its brace. -/
def enumStart? (cs : List Char) : Option (String × List Char) := do
  let (name, rest) ← exportHead? "enum" cs
  return (name, ← text? "\x7b" rest)

/-- The characters of a find, and those from its last character on. -/
def matched {α : Type} (source : List Char) (f : Found α) : List Char :=
  (source.drop f.start).take (f.stop - f.start)

/-- The declaration that a start with a brace opens: its block and its whole text. -/
def opened? {α : Type} (source : List Char) (f : Found α) : Option (List Char × String) :=
  (bracedBlock? (source.drop (f.stop - 1))).map fun block =>
    (block, String.ofList ((matched source f).dropLast ++ block))

/-- A block's text between its braces. -/
def blockBody (block : List Char) : String := String.ofList ((block.drop 1).dropLast)

/-- The exported types whose body is a block. -/
def blockTypes (source : String) (kind : TypeKind)
    (start? : List Char → Option (String × List Char)) : List ExportedType :=
  (collect start? 0 0 source.toList).filterMap fun found =>
    (opened? source.toList found).map fun (block, whole) =>
      let (doc, code) := preceding source found.start whole
      let body := blockBody block
      { name := found.value
        kind
        description := doc.bind Comment.description?
        fields := if kind == .enumeration then none else some (interfaceFields body)
        values := if kind == .enumeration then some (enumValues body) else none
        sourceCode := some code }

/-- The type aliases without braces whose name is not known yet. -/
def simpleTypes (source : String) (known : List String) : List ExportedType :=
  let step (state : List ExportedType × List String) (found : Found String) :=
    let (types, seen) := state
    if seen.contains found.value then state
    else
      let (doc, code) :=
        preceding source found.start (String.ofList (matched source.toList found))
      (types ++ [{ name := found.value, kind := .typeAlias, description := doc.bind Comment.description?,
                   sourceCode := some code }],
       found.value :: seen)
  ((collect simpleType? 0 0 source.toList).foldl step ([], known)).1

/-- The exported types of a file: interfaces, object types, other aliases, enums, each in source
order. -/
def exportedTypes (source : String) : List ExportedType :=
  let objects := blockTypes source .interface interfaceStart? ++
    blockTypes source .typeAlias objectTypeStart?
  objects ++ simpleTypes source (objects.map (·.name)) ++ blockTypes source .enumeration enumStart?

end Declaration

end FeatureAtlas
