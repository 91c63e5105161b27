import FeatureAtlas.Syntax.Rules

/-!
# Elements

Elements in angle brackets with attributes and children. The tag of every opening and of every self-closing
element is recorded.
-/

namespace FeatureAtlas.Syntax.Rules

open Syntax.Parser

/-- Characters of tag and attribute names. -/
def isTagChar (c : Char) : Bool := isNameChar c || c == '-'

/-- A part of a tag or attribute name. -/
def tagPart : Parser Unit := do
  let cs ← rest
  ensure (!(nameAt cs).isEmpty)
  token (cs.takeWhile isTagChar).length

/-- A tag: names between points or around a colon. -/
def tagName : Parser String := do
  let m ← mark
  tagPart
  whileTrue do
    if (← looksAt ".") || (← looksAt ":") then
      token 1
      tagPart
      return true
    else return false
  textFrom m

/-- An expression in braces; it may be missing. -/
def hole (r : Rules) : Parser Unit := do
  sign "\x7b"
  let _ ← accept "..."
  if !(← looksAt "\x7d") then expression r

/-- The value of an attribute: an expression in braces, an element, or a text in which nothing is
escaped. -/
def attributeValue (r : Rules) : Parser Unit := do
  match ← rest with
  | '{' :: _ =>
    hole r
    sign "\x7d"
  | '<' :: _ =>
    r.element
    sign ">"
  | quote :: cs =>
    ensure (quote == '"' || quote == '\'')
    let n := (cs.takeWhile (· != quote)).length
    ensure (n < cs.length)
    token (n + 2)
  | [] => failure

/-- One attribute. -/
def oneAttribute (r : Rules) : Parser Unit := do
  if ← looksAt "\x7b" then
    hole r
    sign "\x7d"
  else
    let _ ← tagName
    if ← accept "=" then attributeValue r

/-- The children of an element up to its closing tag. Between tags and holes stands plain text. -/
def children (r : Rules) : Parser Unit :=
  whileTrue do
    let cs ← rest
    raw (cs.takeWhile fun c => c != '<' && c != '{').length
    match ← rest with
    | '{' :: _ =>
      hole r
      ensure (← looksAt "\x7d")
      raw 1
      return true
    | '<' :: _ =>
      let closes ← wouldSucceed do
        sign "<"
        sign "/"
      if closes then return false
      r.element
      ensure (← looksAt ">")
      raw 1
      return true
    | _ => failure

/-- Children and closing tag behind an opening bracket's end, up to the last bracket. -/
def content (r : Rules) : Parser Unit := do
  ensure (← looksAt ">")
  raw 1
  children r
  sign "<"
  sign "/"
  if !(← looksAt ">") then
    let _ ← tagName
  ensure (← looksAt ">")

/-- An element up to the bracket that ends it: what follows decides whether that bracket is followed by
text or by a token. -/
def openElement (r : Rules) : Parser Unit := do
  sign "<"
  if ← looksAt ">" then content r
  else
    let tag ← tagName
    recordTag tag
    if ← looksAt "<" then typeArguments r
    whileTrue do
      if (← looksAt ">") || (← looksAt "/") then return false
      oneAttribute r
      return true
    if ← accept "/" then ensure (← looksAt ">") else content r

end FeatureAtlas.Syntax.Rules
