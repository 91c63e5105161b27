import FeatureAtlas.Syntax.Cursor

/-!
# Literals

Strings, numbers, regular expressions and templates. The holes of a template are left to a parser of their
own.
-/

namespace FeatureAtlas.Syntax

/-- The length of a string behind its opening quote, with the closing quote. -/
def stringLength? (quote : Char) : List Char → Option Nat
  | [] => none
  | '\\' :: _ :: rest => (stringLength? quote rest).map (· + 2)
  | c :: rest => if c == quote then some 1 else (stringLength? quote rest).map (· + 1)

/-- The length of a regular expression behind its opening slash, with the closing slash. Inside brackets
a slash is an ordinary character. -/
def regexLength? (inSet : Bool) : List Char → Option Nat
  | [] => none
  | '\\' :: c :: rest => if c == '\n' then none else (regexLength? inSet rest).map (· + 2)
  | c :: rest =>
    if c == '\n' then none
    else if c == '/' && !inSet then some 1
    else
      let inSet := if c == '[' then true else if c == ']' then false else inSet
      (regexLength? inSet rest).map (· + 1)

/-- The number of template characters up to a hole or the closing backtick. -/
def templateText : List Char → Nat
  | [] => 0
  | '\\' :: _ :: rest => templateText rest + 2
  | '$' :: '{' :: _ => 0
  | c :: rest => if c == '\u0060' then 0 else templateText rest + 1

namespace Parser

/-- A string in quotes. -/
def string : Parser Unit := do
  match ← rest with
  | c :: cs =>
    ensure (c == '"' || c == '\'')
    match stringLength? c cs with
    | some n => token (n + 1)
    | none => failure
  | [] => failure

/-- The characters of numbers: digits, letters, separators and points; a sign may follow an exponent. -/
def numberLength (previous : Char) : List Char → Nat
  | [] => 0
  | c :: cs =>
    let exponentSign := (c == '+' || c == '-') && (previous == 'e' || previous == 'E')
    if c.isAlphanum || c == '_' || c == '.' || exponentSign then numberLength c cs + 1 else 0

/-- A number; only numbers without a base of their own have exponents. -/
def number : Parser Unit := do
  let cs ← rest
  let hex := match cs with
    | '0' :: c :: _ => c.isAlpha
    | _ => false
  if hex then token (cs.takeWhile fun c => c.isAlphanum || c == '_').length
  else token (numberLength ' ' cs)

/-- A regular expression with its flags. -/
def regex : Parser Unit := do
  match ← rest with
  | '/' :: cs =>
    match regexLength? false cs with
    | some n =>
      raw (n + 1)
      token ((← rest).takeWhile isNameChar).length
    | none => failure
  | _ => failure

/-- A template, from its opening backtick on. -/
def template (hole : Parser Unit) : Parser Unit := do
  raw 1
  whileTrue do
    raw (templateText (← rest))
    match ← rest with
    | '$' :: '{' :: _ =>
      token 2
      hole
      ensure (← looksAt "\x7d")
      raw 1
      return true
    | _ :: _ => return false
    | [] => failure
  token 1

end Parser

end FeatureAtlas.Syntax
