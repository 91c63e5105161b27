import FeatureAtlas.Syntax.Rules

/-!
# Types

Type annotations are read only to be passed over; a type query may contain a call.
-/

namespace FeatureAtlas.Syntax.Rules

open Syntax.Parser

/-- Type parameters in angle brackets. -/
def typeParameters (r : Rules) : Parser Unit := do
  sign "<"
  commaList ">" do
    whileTrue do
      let modifier ← ["const", "in", "out"].anyM fun w => parses do
        keyword w
        ensure ((← word) != "" && (← word) != "extends")
      return modifier
    let _ ← name
    if ← acceptWord "extends" then r.type
    if ← accept "=" then r.type

/-- Words that may stand before a parameter or a member. -/
def accessWords : List String := ["public", "private", "protected", "override", "readonly"]

/-- Takes a modifier that another name, a bracket or a quote follows. -/
def modifier (words : List String) : Parser Bool :=
  words.anyM fun w => parses do
    keyword w
    let c ← next?
    ensure ((← word) != "" || c == some '[' || c == some '{' || c == some '"' || c == some '\'' ||
      c == some '#' || c == some '*' || (c.map Char.isDigit).getD false)

/-- A parameter with its decorators, modifiers, type and default. -/
def parameter (r : Rules) : Parser Unit := do
  decorators r
  whileTrue (modifier accessWords)
  let _ ← accept "..."
  r.pattern
  let _ ← accept "?"
  if ← accept ":" then r.type
  if ← accept "=" then r.assignment false

/-- Parameters in parentheses. -/
def parameters (r : Rules) : Parser Unit := do
  sign "("
  commaList ")" (parameter r)

/-- What a function returns: a type, or a statement about a parameter. -/
def returnType (r : Rules) : Parser Unit := do
  let asserted ← parses do
    keyword "asserts"
    ensure (!(← get).newline)
    let w ← name
    ensure (w != "is")
    if ← acceptWord "is" then r.type
  if !asserted then
    let predicate ← parses do
      let _ ← name
      ensure (!(← get).newline)
      keyword "is"
      r.type
    if !predicate then r.type

/-- Type parameters, parameters and the return type of a function. -/
def signature (r : Rules) : Parser Unit := do
  if ← looksAt "<" then typeParameters r
  parameters r
  if ← accept ":" then returnType r

/-- A function type. -/
def functionType (r : Rules) : Parser Unit := do
  let _ ← acceptWord "abstract"
  let _ ← acceptWord "new"
  if ← looksAt "<" then typeParameters r
  parameters r
  sign "=>"
  returnType r

/-- A type that is built from one type parameter in brackets. -/
def mappedHead (r : Rules) : Parser Unit := do
  if (← looksAt "+") || (← looksAt "-") then token 1
  let _ ← acceptWord "readonly"
  sign "["
  let _ ← name
  keyword "in"
  r.type
  if ← acceptWord "as" then r.type
  sign "]"

/-- The name of a member: a name, a string, a number, a private name or an expression in brackets. -/
def memberName (r : Rules) : Parser Unit := do
  match ← next? with
  | some '[' =>
    token 1
    expression r
    sign "]"
  | some '#' =>
    raw 1
    let _ ← name
  | some c =>
    if c == '"' || c == '\'' then string
    else if c.isDigit then number
    else
      let _ ← name
  | none => failure

/-- An index signature in brackets. -/
def indexHead (r : Rules) : Parser Unit := do
  sign "["
  let _ ← name
  sign ":"
  r.type
  sign "]"

/-- Optional signs behind the head of a member. -/
def optionalSigns : Parser Unit := do
  let _ ← accept "-"
  let _ ← accept "+"
  let _ ← accept "?"
  let _ ← accept "!"

/-- A member of an object type. -/
def typeMember (r : Rules) : Parser Unit := do
  if (← looksAt "(") || (← looksAt "<") then signature r
  else
    let construct ← parses do
      keyword "new"
      ensure ((← looksAt "(") || (← looksAt "<"))
      signature r
    if !construct then
      let special ← parses (mappedHead r)
      if !special then
        whileTrue (modifier ["readonly", "static"])
        if !(← parses (indexHead r)) then
          let _ ← modifier ["get", "set", "async"]
          memberName r
      optionalSigns
      if (← looksAt "(") || (← looksAt "<") then signature r
      else if ← accept ":" then r.type

/-- An object type in braces; members end with commas, semicolons or lines. -/
def objectType (r : Rules) : Parser Unit := do
  sign "\x7b"
  whileTrue do
    if ← looksAt "\x7d" then return false
    if (← accept ",") || (← accept ";") then return true
    typeMember r
    return true
  sign "\x7d"

/-- A member of a tuple type, possibly named. -/
def tupleMember (r : Rules) : Parser Unit := do
  let _ ← accept "..."
  let named ← parses do
    let _ ← name
    let _ ← accept "?"
    sign ":"
  if named then r.type
  else
    r.type
    let _ ← accept "?"

/-- The members of a type query. -/
def queryMembers (r : Rules) : Parser Unit :=
  whileTrue do
    if (← looksAt "?.") || (← looksAt ".") then
      let _ ← accept "?"
      token 1
      let _ ← accept "#"
      let _ ← name
      return true
    else if ← looksAt "[" then
      let index ← parses do
        token 1
        ensure ((← looksAt "\"") || (← looksAt "'") || (((← next?).map Char.isDigit).getD false))
        r.type
        sign "]"
      return index
    else return false

/-- The operand of a type query; a call in it is a call. -/
def typeQuery (r : Rules) : Parser Unit := do
  let m ← mark
  let _ ← name
  queryMembers r
  if ← looksAt "(" then
    recordCallee (← textFrom m)
    arguments r
    queryMembers r
  if ← looksAt "<" then typeArguments r

/-- Words that stand before a type. -/
def typeOperators : List String := ["keyof", "unique", "readonly"]

/-- An inferred type variable, possibly with a bound that no condition follows. -/
def inferred (r : Rules) : Parser Unit := do
  keyword "infer"
  let _ ← name
  let _ ← parses do
    keyword "extends"
    r.type
    ensure (!(← looksAt "?"))

/-- A type that starts with a name. -/
def namedType (r : Rules) : Parser Unit := do
  let operator ← typeOperators.anyM fun w => parses do
    keyword w
    let c ← next?
    ensure ((← word) != "" && (← word) != "extends" || c == some '(' || c == some '[' ||
      c == some '{')
    r.type
  if !operator then
    if ← parses (inferred r) then return
    if ← acceptWord "typeof" then typeQuery r
    else
      let w ← name
      if w == "import" && (← looksAt "(") then arguments r
      whileTrue do
        if ← accept "." then
          let _ ← name
          return true
        else return false
      if ← looksAt "<" then typeArguments r

/-- A type without operators behind it. -/
def primaryType (r : Rules) : Parser Unit := do
  match ← next? with
  | some '{' => objectType r
  | some '[' =>
    token 1
    commaList "]" (tupleMember r)
  | some '(' =>
    if !(← parses (functionType r)) then
      token 1
      r.type
      sign ")"
  | some '<' => functionType r
  | some '\u0060' => Parser.template r.type
  | some '-' =>
    token 1
    number
  | some c =>
    if c == '"' || c == '\'' then string
    else if c.isDigit then number
    else
      let w ← word
      let constructs := w == "new" || w == "abstract"
      let function ← if constructs then parses (functionType r) else pure false
      if !function then namedType r
  | none => failure

/-- A type with the brackets behind it. -/
def postfixType (r : Rules) : Parser Unit := do
  primaryType r
  whileTrue do
    if (← looksAt "[") && !(← get).newline then
      token 1
      if ← accept "]" then return true
      r.type
      sign "]"
      return true
    else return false

/-- A single sign that is not doubled. -/
def acceptSingle (c : Char) : Parser Bool := do
  match ← rest with
  | d :: e :: _ =>
    if d == c && e != c then
      token 1
      return true
    else return false
  | _ => return false

/-- Unions and intersections. -/
def unionType (r : Rules) : Parser Unit := do
  let _ ← acceptSingle '|'
  let _ ← acceptSingle '&'
  postfixType r
  whileTrue do
    if (← acceptSingle '|') || (← acceptSingle '&') then
      let _ ← acceptSingle '|'
      let _ ← acceptSingle '&'
      postfixType r
      return true
    else return false

/-- A type; a conditional one has a condition and two outcomes. -/
def fullType (r : Rules) : Parser Unit := do
  unionType r
  let conditional ← parses do
    keyword "extends"
    r.type
    sign "?"
  if conditional then
    r.type
    sign ":"
    r.type

end FeatureAtlas.Syntax.Rules
