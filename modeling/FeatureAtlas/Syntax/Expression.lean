import FeatureAtlas.Syntax.Element
import FeatureAtlas.Syntax.Member

/-!
# Expressions

The text of every called expression is recorded. A call with type arguments binds more loosely than other
calls: its callee is everything back to the last operator below the shifts, so `await f<T>()` calls
an awaited expression, and there the operand counts as the callee.
-/

namespace FeatureAtlas.Syntax.Rules

open Syntax.Parser

/-! ## Functions -/

/-- The body of an arrow function. -/
def arrowBody (r : Rules) (noIn : Bool) : Parser Unit := do
  sign "=>"
  if ← looksAt "\x7b" then block r else r.assignment noIn

/-- Words that are no names of parameters. -/
def reservedWords : List String :=
  ["function", "class", "new", "typeof", "void", "delete", "await", "if", "for", "while", "do", "switch",
   "case", "default", "return", "throw", "try", "catch", "finally", "var", "const", "export", "import",
   "extends", "in", "instanceof", "else", "break", "continue", "debugger", "with", "enum"]

/-- The head of an arrow function: one name, or a signature. -/
def arrowHead (r : Rules) : Parser Unit := do
  let single ← parses do
    ensure (!reservedWords.contains (← word))
    let _ ← name
    ensure (← looksAt "=>")
  if !single then
    let asynchronous ← parses do
      keyword "async"
      ensure (!(← get).newline)
      let _ ← name
      ensure (← looksAt "=>")
    if !asynchronous then
      let _ ← parses do
        keyword "async"
        ensure ((← looksAt "(") || (← looksAt "<"))
      signature r
      ensure (← looksAt "=>")

/-- An arrow function. -/
def arrowFunction (r : Rules) (noIn : Bool) : Parser Unit := do
  arrowHead r
  arrowBody r noIn

/-! ## Operands -/

/-- A name behind a point. -/
def memberAccess : Parser Unit := do
  if ← looksAt "#" then raw 1
  let _ ← name

/-- The length of the operator that accesses an optional member, unless it is a condition before a
number. -/
def looksAtOptional : Parser Bool := do
  match ← rest with
  | '?' :: '.' :: c :: _ => return !c.isDigit
  | '?' :: '.' :: [] => return true
  | _ => return false

/-- One access, call or template behind an expression that starts at a mark. -/
def postfixStep (r : Rules) (m : Mark) (calls : Bool) : Parser Bool := do
  let callee ← textFrom m
  if calls && (← looksAtOptional) then
    token 2
    if ← looksAt "<" then typeArguments r
    if ← looksAt "(" then
      recordCallee callee
      arguments r
    else if ← accept "[" then
      expression r
      sign "]"
    else if ← looksAt "\u0060" then
      recordCallee callee
      template r
    else memberAccess
    return true
  if (← looksAt ".") && !(← looksAt "...") then
    token 1
    memberAccess
    return true
  if ← accept "[" then
    expression r
    sign "]"
    return true
  if (← looksAt "(") && calls then
    recordCallee callee
    arguments r
    return true
  if (← looksAt "\u0060") && calls then
    recordCallee callee
    template r
    return true
  if (← looksAt "!") && !(← looksAt "!=") && !(← get).newline then
    token 1
    return true
  return false

/-- Accesses, calls and templates behind an expression that starts at a mark. -/
def postfixes (r : Rules) (m : Mark) (calls : Bool) : Parser Unit :=
  whileTrue (postfixStep r m calls)

/-- A constructor call behind its keyword. -/
def construction (r : Rules) (primary : Parser Unit) : Parser Unit := do
  if ← accept "." then
    let _ ← name
  else
    let m ← mark
    primary
    postfixes r m false
    let _ ← parses do
      typeArguments r
      ensure (← looksAt "(")
    if ← looksAt "(" then arguments r

/-- An expression that starts with a name or a keyword. -/
def namedExpression (r : Rules) (primary : Parser Unit) : Parser Unit := do
  let w ← word
  if w == "function" then
    token 8
    functionTail r
  else if w == "class" then r.classDeclaration
  else if w == "new" then
    token 3
    construction r primary
  else
    let asynchronous ← parses do
      keyword "async"
      ensure (!(← get).newline)
      keyword "function"
    if asynchronous then functionTail r
    else
      let _ ← name

/-- An expression that stands for itself. The number bounds nested constructor calls. -/
def primary (r : Rules) : Nat → Parser Unit
  | 0 => failure
  | n + 1 => do
    match ← next? with
    | none => failure
    | some c =>
      if c == '(' then
        token 1
        expression r
        sign ")"
      else if c == '[' then
        token 1
        commaList "]" do
          let _ ← accept "..."
          r.assignment false
      else if c == '{' then objectLiteral r
      else if c == '"' || c == '\'' then string
      else if c == '\u0060' then template r
      else if c == '/' then regex
      else if c == '#' then
        raw 1
        let _ ← name
      else if c == '@' then
        decorators r
        r.classDeclaration
      else if c == '<' then
        ensure (← get).markup
        r.element
        sign ">"
      else if c.isDigit || c == '.' then number
      else namedExpression r (primary r n)

/-- Words that stand before an operand. -/
def unaryWords : List String := ["typeof", "void", "delete"]

/-- Signs that stand before an operand. -/
def unarySigns : List String := ["++", "--", "!", "~", "+", "-"]

/-- Characters that can start an operand. -/
def startsOperand (c : Char) : Bool := isNameChar c || "([\x7b\"'\u0060/<@#+-!~".toList.contains c

/-- An awaited operand, unless the keyword is a name here. -/
def awaited (r : Rules) : Parser String := do
  keyword "await"
  ensure (((← next?).map startsOperand).getD false)
  let m ← mark
  let _ ← r.unary
  textFrom m

/-- A type assertion in angle brackets. -/
def typeAssertion (r : Rules) : Parser Unit := do
  ensure (!(← get).markup)
  sign "<"
  r.type
  sign ">"
  let _ ← r.unary

/-- An operand without operators before it, with what is accessed and called behind it. -/
def postfixExpression (r : Rules) : Parser Unit := do
  let m ← mark
  primary r (← budget)
  postfixes r m true
  if ((← looksAt "++") || (← looksAt "--")) && !(← get).newline then token 2

/-- An operand with the operators before it. -/
def unaryExpression (r : Rules) : Parser Operand := do
  match ← attempt (awaited r) with
  | some text => return .awaited text
  | none =>
    if unaryWords.contains (← word) then
      token (← word).length
      let _ ← r.unary
    else
      match ← unarySigns.findM? looksAt with
      | some s =>
        token s.length
        let _ ← r.unary
      | none =>
        if !(← parses (typeAssertion r)) then postfixExpression r
    return .plain

/-! ## Operators -/

/-- Operators that bind more tightly than a call with type arguments. -/
def tightOperators : List String := ["**", "*", "/", "%", "+", "-", "<<", ">>>", ">>"]

/-- Operators that bind more loosely, longer ones first. -/
def looseOperators : List String :=
  ["===", "!==", "==", "!=", "<=", ">=", "<", ">", "&&", "||", "??", "&", "|", "^"]

/-- Assignment operators, longer ones first. -/
def assignmentOperators : List String :=
  [">>>=", "**=", "<<=", ">>=", "&&=", "||=", "??=", "+=", "-=", "*=", "/=", "%=", "&=", "|=", "^=", "="]

/-- The assignment operator that stands next. -/
def assignmentOperator? : Parser (Option String) := do
  match ← assignmentOperators.findM? looksAt with
  | some "=" => return if (← looksAt "==") || (← looksAt "=>") then none else some "="
  | found => return found

/-- What may follow type arguments that no call follows. -/
def endsInstantiation (c : Option Char) : Bool :=
  match c with
  | none => true
  | some c => ")]\x7d:;,.?=!&|^".toList.contains c

/-- Type arguments behind an expression: of a call, of a template, or alone. -/
def typeArgumentsOf (r : Rules) : Parser Unit := do
  ensure (!(← looksAt "<<") && !(← looksAt "<="))
  typeArguments r
  let c ← next?
  ensure (c == some '(' || c == some '\u0060' || endsInstantiation c)

/-- A call with type arguments behind a chain of operands that starts at a mark. -/
def genericCall (r : Rules) (m : Mark) (operand : Operand) : Parser Bool := do
  let callee ← match operand with
    | .awaited text => pure text
    | .plain => textFrom m
  if ← parses (typeArgumentsOf r) then
    if ← looksAt "(" then
      recordCallee callee
      arguments r
    else if ← looksAt "\u0060" then
      recordCallee callee
      template r
    postfixes r m true
    return true
  else return false

/-- Calls with type arguments behind a chain of operands that starts at a mark. -/
def genericCalls (r : Rules) (m : Mark) (operand : Operand) : Parser Unit := do
  if ← genericCall r m operand then whileTrue (genericCall r m .plain)

/-- Type operators behind an expression. -/
def typeOperator (r : Rules) : Parser Bool :=
  ["as", "satisfies"].anyM fun w => parses do
    ensure (!(← get).newline)
    keyword w
    if !(← acceptWord "const") then r.type

/-- The operator that stands next, and whether it binds tightly. -/
def operator? (noIn : Bool) : Parser (Option (Nat × Bool)) := do
  if (← assignmentOperator?).isSome || (← looksAt "=>") then return none
  let w ← word
  if w == "instanceof" || w == "in" && !noIn then return some (w.length, false)
  if let some s ← tightOperators.findM? looksAt then return some (s.length, true)
  if let some s ← looseOperators.findM? looksAt then return some (s.length, false)
  return none

/-- Operands and operators. A chain of operands under tight operators starts at a mark. The number bounds
the operands. -/
def operators (r : Rules) (noIn : Bool) (m : Mark) (operand : Operand) : Nat → Parser Unit
  | 0 => failure
  | n + 1 => do
    genericCalls r m operand
    whileTrue (typeOperator r)
    match ← operator? noIn with
    | none => return
    | some (length, tight) =>
      token length
      let next ← mark
      let operand ← r.unary
      if tight then operators r noIn m .plain n else operators r noIn next operand n

/-- An expression without assignments and conditions. -/
def binaryExpression (r : Rules) (noIn : Bool) : Parser Unit := do
  let m ← mark
  let operand ← r.unary
  operators r noIn m operand (← budget)

/-- The outcomes of a condition. -/
def conditional (r : Rules) (noIn : Bool) : Parser Unit := do
  if (← looksAt "?") && !(← looksAtOptional) then
    token 1
    r.assignment false
    sign ":"
    r.assignment noIn

/-- What a generator yields. -/
def yielded (r : Rules) (noIn : Bool) : Parser Unit := do
  keyword "yield"
  if ← accept "*" then r.assignment noIn
  else if !(← get).newline && ((← next?).map startsOperand).getD false then r.assignment noIn
  else ensure !((← looksAt "=") || (← looksAt "."))

/-- An assignment expression. -/
def assignmentExpression (r : Rules) (noIn : Bool) : Parser Unit := do
  if ← parses (arrowFunction r noIn) then return
  if ← parses (yielded r noIn) then return
  binaryExpression r noIn
  conditional r noIn
  match ← assignmentOperator? with
  | some s =>
    token s.length
    r.assignment noIn
  | none => return

end FeatureAtlas.Syntax.Rules
