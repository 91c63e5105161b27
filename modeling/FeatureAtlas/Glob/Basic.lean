/-!
# Globs

A glob selects project-relative paths. A star stands for any run of characters inside a segment and a
question mark for one of them; two stars cross segments, and with a slash behind them they also stand for
nothing at all. Every other character stands for itself.
-/

namespace FeatureAtlas

/-- A part of a glob. -/
inductive GlobPart where
  | char (c : Char)
  /-- One character of a segment. -/
  | one
  /-- A run of characters of a segment. -/
  | run
  /-- Any characters but line breaks. -/
  | deep
  /-- Nothing, or any characters but line breaks with a slash behind them. -/
  | segments
deriving DecidableEq, Repr, Inhabited

/-- A glob as the list of its parts. -/
abbrev Glob := List GlobPart

namespace Glob

/-- Reads a glob; every text is one. -/
def ofChars : List Char → Glob
  | '*' :: '*' :: '/' :: rest => .segments :: ofChars rest
  | '*' :: '*' :: rest => .deep :: ofChars rest
  | '*' :: rest => .run :: ofChars rest
  | '?' :: rest => .one :: ofChars rest
  | c :: rest => .char c :: ofChars rest
  | [] => []

/-- Whether a test holds of the text behind some run of characters of a class. -/
def afterRun (p : Char → Bool) (test : List Char → Bool) : List Char → Bool
  | [] => test []
  | c :: cs => test (c :: cs) || p c && afterRun p test cs

/-- Whether a test holds of the text behind some slash with no line break before it. -/
def afterSlash (test : List Char → Bool) : List Char → Bool
  | [] => false
  | c :: cs => c == '/' && test cs || c != '\n' && afterSlash test cs

/-- Whether a glob matches a whole text. -/
def isMatch : Glob → List Char → Bool
  | [], cs => cs.isEmpty
  | .char c :: g, cs =>
    match cs with
    | [] => false
    | d :: ds => c == d && isMatch g ds
  | .one :: g, cs =>
    match cs with
    | [] => false
    | d :: ds => d != '/' && isMatch g ds
  | .run :: g, cs => afterRun (· != '/') (isMatch g) cs
  | .deep :: g, cs => afterRun (· != '\n') (isMatch g) cs
  | .segments :: g, cs => isMatch g cs || afterSlash (isMatch g) cs

end Glob

/-- Whether a path matches one of the given globs. -/
def matchesAny (globs : List String) (path : String) : Bool :=
  globs.any fun g => (Glob.ofChars g.toList).isMatch path.toList

end FeatureAtlas
