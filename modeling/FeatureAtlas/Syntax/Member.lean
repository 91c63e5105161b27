import FeatureAtlas.Syntax.Type

/-!
# Members

Members of classes and of object literals, and the declarations of classes and functions.
-/

/-!
## Bindings

What a declaration or a parameter binds: a name, or a pattern of names with defaults.
-/

namespace FeatureAtlas.Syntax.Rules

open Syntax.Parser

/-- An optional default. -/
def defaultValue (r : Rules) : Parser Unit := do
  if ← accept "=" then r.assignment false

/-- A member of an object pattern. -/
def patternMember (r : Rules) : Parser Unit := do
  if ← accept "..." then r.pattern
  else
    memberName r
    if ← accept ":" then r.pattern
    defaultValue r

/-- An element of an array pattern. -/
def patternElement (r : Rules) : Parser Unit := do
  let _ ← accept "..."
  r.pattern
  defaultValue r

/-- A name or a pattern. -/
def binding (r : Rules) : Parser Unit := do
  if ← accept "\x7b" then commaList "\x7d" (patternMember r)
  else if ← accept "[" then commaList "]" (patternElement r)
  else
    let _ ← name

/-- The declared variables behind `let`, `const`, `var` or `using`. -/
def declarators (r : Rules) (noIn : Bool) : Parser Unit := do
  whileTrue do
    r.pattern
    let _ ← accept "!"
    if ← accept ":" then r.type
    if ← accept "=" then r.assignment noIn
    accept ","

/-! ## Functions -/


/-- A function behind its keyword: a star, a name, a signature and a body that overloads lack. -/
def functionTail (r : Rules) : Parser Unit := do
  let _ ← accept "*"
  if !((← looksAt "(") || (← looksAt "<")) then
    let _ ← name
  signature r
  if ← looksAt "\x7b" then block r

/-- The rest of a method: a signature and a body that overloads lack. -/
def methodTail (r : Rules) : Parser Unit := do
  signature r
  if ← looksAt "\x7b" then block r

/-! ## Object literals -/

/-- A member of an object literal. A default behind a name occurs where the literal is a pattern. -/
def objectMember (r : Rules) : Parser Unit := do
  if ← accept "..." then r.assignment false
  else
    let _ ← modifier ["async"]
    let _ ← modifier ["get", "set"]
    let _ ← accept "*"
    memberName r
    let _ ← accept "?"
    if (← looksAt "(") || (← looksAt "<") then methodTail r
    else if ← accept ":" then r.assignment false
    else defaultValue r

/-- An object literal. -/
def objectLiteral (r : Rules) : Parser Unit := do
  sign "\x7b"
  commaList "\x7d" (objectMember r)

/-! ## Classes -/

/-- Words that may stand before a member of a class. -/
def memberWords : List String :=
  ["public", "private", "protected", "override", "readonly", "static", "abstract", "declare", "accessor",
   "async", "get", "set"]

/-- A member of a class. -/
def classMember (r : Rules) : Parser Unit := do
  decorators r
  let staticBlock ← parses do
    keyword "static"
    block r
  if !staticBlock then
    whileTrue (modifier memberWords)
    let _ ← accept "*"
    if !(← parses (indexHead r)) then memberName r
    let _ ← accept "?"
    let _ ← accept "!"
    if (← looksAt "(") || (← looksAt "<") then methodTail r
    else
      if ← accept ":" then r.type
      defaultValue r

/-- The members of a class in braces. -/
def classBody (r : Rules) : Parser Unit := do
  sign "\x7b"
  whileTrue do
    if ← looksAt "\x7d" then return false
    if ← accept ";" then return true
    classMember r
    return true
  sign "\x7d"

/-- A class from its keyword on. What it extends is an expression, what it implements are types. -/
def classTail (r : Rules) : Parser Unit := do
  keyword "class"
  let w ← word
  if w != "" && w != "extends" && w != "implements" then
    let _ ← name
  if ← looksAt "<" then typeParameters r
  if ← acceptWord "extends" then
    let m ← mark
    let _ ← r.unary
    let callee ← textFrom m
    if ← looksAt "<" then typeArguments r
    if ← looksAt "(" then
      recordCallee callee
      arguments r
  if ← acceptWord "implements" then
    whileTrue do
      r.type
      accept ","
  classBody r

end FeatureAtlas.Syntax.Rules
