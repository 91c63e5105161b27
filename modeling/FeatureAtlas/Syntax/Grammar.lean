import FeatureAtlas.Syntax.Statement

/-!
# The grammar and its findings

The rules of one level refer to those of the level below; as many levels as there are characters suffice. The
findings of a file answer the questions of the analysis: its imports, whether a name is rendered as an
element or a member of it is, and whether a name, a member of it or a call of it is called.
-/

namespace FeatureAtlas

namespace Syntax

/-- The rules with a number of levels. -/
def rules : Nat → Rules
  | 0 => Rules.empty
  | n + 1 => {
      type := fun s => (rules n).fullType s
      assignment := fun noIn s => (rules n).assignmentExpression noIn s
      unary := fun s => (rules n).unaryExpression s
      statement := fun top s => (rules n).anyStatement top s
      element := fun s => (rules n).openElement s
      pattern := fun s => (rules n).binding s
      classDeclaration := fun s => (rules n).classTail s }

/-- Levels per character of a source text. -/
def levelsPerChar : Nat := 8

/-- The cursor at the end of a source text. -/
def readAll (source : List Char) (markup : Bool) : Cursor :=
  let start := Cursor.start source markup
  match (rules (levelsPerChar * (source.length + 8))).file start with
  | some (_, s) => s
  | none => start

end Syntax

/-- What the syntax of a file shows. -/
structure SyntaxFindings where
  imports : List ImportDeclaration := []
  /-- The tags of elements. -/
  tags : List String := []
  /-- The texts of called expressions. -/
  callees : List String := []
deriving DecidableEq, Repr, Inhabited

namespace SyntaxFindings

/-- The findings in a source text; elements are possible where `markup` is set. -/
def ofSource (source : String) (markup : Bool) : SyntaxFindings :=
  let s := Syntax.readAll source.toList markup
  ⟨s.imports, s.tags.reverse, s.callees.reverse⟩

/-- A name is rendered if it is a tag, or a tag is a member of it. -/
def isRendered (f : SyntaxFindings) (name : String) : Bool :=
  f.tags.any fun t => t == name || Text.startsWith t (name ++ ".")

/-- A name is called if it, a member of it or a call of it is called. -/
def isCalled (f : SyntaxFindings) (name : String) : Bool :=
  f.callees.any fun c =>
    c == name || Text.startsWith c (name ++ ".") || Text.startsWith c (name ++ "(")

/-- The findings as the analysis asks for them. -/
def facts (f : SyntaxFindings) : SourceFacts := ⟨f.imports, f.isRendered, f.isCalled⟩

/-- Suffixes of files that may hold elements. -/
def markupSuffixes : List String := [".tsx", ".jsx"]

end SyntaxFindings

end FeatureAtlas
