import FeatureAtlas.Declaration.Scan

/-!
# Names of declarations

An annotated block is named after a declaration in the text behind it. Exported functions are preferred
to exported constants, and those to functions and constants that are not exported; within one form the
first occurrence counts.
-/

namespace FeatureAtlas.Declaration

/-- `function name` at the front. -/
def functionName? (cs : List Char) : Option String := do
  let (name, _) ← keyword? "function" cs >>= word?
  return name

/-- `function name`, possibly `async`. -/
def function? (cs : List Char) : Option String :=
  functionName? (optionalKeyword "async" cs)

/-- `export function name`, possibly `async`. -/
def exportedFunction? (cs : List Char) : Option String := do
  let rest ← keyword? "export" cs
  function? rest

/-- `export default function name`, possibly `async`. -/
def defaultFunction? (cs : List Char) : Option String := do
  let rest ← keyword? "export" cs >>= keyword? "default"
  function? rest

/-- `export const name`. -/
def exportedConstant? (cs : List Char) : Option String := do
  let (name, _) ← keyword? "export" cs >>= keyword? "const" >>= word?
  return name

/-- `const name =`. -/
def constant? (cs : List Char) : Option String := do
  let (name, rest) ← keyword? "const" cs >>= word?
  let _ ← text? "=" (Text.trimStart rest)
  return name

/-- The forms of declarations that give a name, in order of preference. -/
def nameForms : List (List Char → Option String) :=
  [exportedFunction?, defaultFunction?, exportedConstant?, function?, constant?]

/-- The name of the declaration in a code text. -/
def itemName? (code : String) : Option String :=
  nameForms.findSome? fun form => search form code.toList

/-! ## Exported components -/

/-- A name of ASCII letters and digits that starts with a capital. -/
def componentWord? (cs : List Char) : Option (String × List Char) :=
  match cs with
  | c :: rest =>
    if c.isUpper then
      let tail := rest.takeWhile Char.isAlphanum
      some (String.ofList (c :: tail), rest.drop tail.length)
    else none
  | [] => none

/-- A component name that one of the given characters follows, blanks aside. -/
def componentBefore? (marks : List Char) (cs : List Char) : Option String := do
  let (name, rest) ← componentWord? cs
  let c ← (Text.trimStart rest).head?
  if marks.contains c then some name else none

/-- `export function Name` with parameters or type parameters. -/
def exportedComponent? (cs : List Char) : Option String := do
  let rest ← keyword? "export" cs
  keyword? "function" (optionalKeyword "async" rest) >>= componentBefore? ['(', '<']

/-- `export default function Name` with parameters or type parameters. -/
def defaultComponent? (cs : List Char) : Option String := do
  let rest ← keyword? "export" cs >>= keyword? "default"
  keyword? "function" (optionalKeyword "async" rest) >>= componentBefore? ['(', '<']

/-- `export const Name` with a value or a type. -/
def constantComponent? (cs : List Char) : Option String :=
  keyword? "export" cs >>= keyword? "const" >>= componentBefore? ['=', ':']

/-- The forms of exports that make a component, in order of preference. -/
def componentForms : List (List Char → Option String) :=
  [exportedComponent?, defaultComponent?, constantComponent?]

/-- The exported component of a file. -/
def componentName? (source : String) : Option String :=
  componentForms.findSome? fun form => search form source.toList

end FeatureAtlas.Declaration
