import FeatureAtlas.Syntax.Literal

/-!
# Rules of the grammar

Types, expressions, statements and elements contain each other. Each part of the grammar is written over
the rules it refers to; the grammar itself is built from them level by level.
-/

namespace FeatureAtlas.Syntax

/-- What an operand is, apart from its text. -/
inductive Operand where
  | plain
  /-- An awaited operand with its text. -/
  | awaited (text : String)
deriving DecidableEq, Repr, Inhabited

/-- The rules that parts of the grammar refer to. -/
structure Rules where
  type : Parser Unit
  /-- An assignment expression; where a loop head is read, the operator `in` is not taken. -/
  assignment : (noIn : Bool) → Parser Unit
  unary : Parser Operand
  /-- A statement; imports count at the top only. -/
  statement : (top : Bool) → Parser Unit
  element : Parser Unit
  pattern : Parser Unit
  classDeclaration : Parser Unit

namespace Rules

/-- Rules that match nothing. -/
def empty : Rules where
  type := failure
  assignment := fun _ => failure
  unary := failure
  statement := fun _ => failure
  element := failure
  pattern := failure
  classDeclaration := failure

open Syntax.Parser

/-- Expressions between commas. -/
def expression (r : Rules) : Parser Unit := do
  r.assignment false
  whileTrue do
    if ← accept "," then
      r.assignment false
      return true
    else return false

/-- Arguments in parentheses. -/
def arguments (r : Rules) : Parser Unit := do
  sign "("
  commaList ")" do
    let _ ← accept "..."
    r.assignment false

/-- Type arguments in angle brackets. -/
def typeArguments (r : Rules) : Parser Unit := do
  sign "<"
  commaList ">" r.type

/-- A template with expressions in its holes. -/
def template (r : Rules) : Parser Unit := Parser.template (expression r)

/-- A block of statements. -/
def block (r : Rules) : Parser Unit := do
  sign "\x7b"
  whileTrue do
    if ← looksAt "\x7d" then return false
    r.statement false
    return true
  sign "\x7d"

/-- A decorator: a name with members, possibly called, or an expression in parentheses. -/
def decorator (r : Rules) : Parser Unit := do
  sign "@"
  if ← accept "(" then
    expression r
    sign ")"
  else
    let m ← mark
    let _ ← name
    whileTrue do
      if ← accept "." then
        let _ ← name
        return true
      else return false
    let callee ← textFrom m
    let called ← parses do
      if ← looksAt "<" then typeArguments r
      ensure (← looksAt "(")
    if called then
      recordCallee callee
      arguments r

/-- Any number of decorators. -/
def decorators (r : Rules) : Parser Unit :=
  whileTrue do
    if ← looksAt "@" then
      decorator r
      return true
    else return false

end Rules

end FeatureAtlas.Syntax
