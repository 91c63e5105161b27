/-!
# Path patterns

A path pattern is a regular expression over characters, with groups, references, assertions, and greedy,
lazy and possessive repetition. Options in force are resolved when a pattern is read, so each node carries
the options it needs.
-/

namespace FeatureAtlas

/-- The options that a pattern or a part of it can switch on. -/
structure PatternOptions where
  ignoreCase : Bool := false
  multiline : Bool := false
  dotAll : Bool := false
  verbose : Bool := false
  /-- Classes and case are those of ASCII. -/
  ascii : Bool := false
  template : Bool := false
deriving DecidableEq, Repr, Inhabited

/-- Classes with a letter of their own. -/
inductive CharClass where
  | digit
  | space
  | word
deriving DecidableEq, Repr, Inhabited

/-- A member of a character set; characters are code points. -/
inductive SetMember where
  | code (n : Nat)
  | range (lo hi : Nat)
  | ofClass (c : CharClass) (negated : Bool)
deriving DecidableEq, Repr, Inhabited

/-- A test on one character. -/
inductive CharTest where
  | any
  | code (n : Nat) (negated : Bool)
  | set (negated : Bool) (members : List SetMember)
deriving DecidableEq, Repr, Inhabited

/-- A test on a position. -/
inductive Anchor where
  | lineStart
  | lineEnd
  | textStart
  | textEnd
  | wordEdge
  | noWordEdge
deriving DecidableEq, Repr, Inhabited

/-- How a repetition chooses its count. -/
inductive RepeatMode where
  | greedy
  | lazy
  | possessive
deriving DecidableEq, Repr, Inhabited

/-- The least and, where it is bounded, the greatest number of characters that a pattern matches. -/
structure Width where
  least : Nat := 0
  most : Option Nat := some 0
deriving DecidableEq, Repr, Inhabited

/-- A pattern. -/
inductive Pattern where
  | empty
  | one (options : PatternOptions) (test : CharTest)
  | anchor (options : PatternOptions) (a : Anchor)
  | seq (p q : Pattern)
  | alt (p q : Pattern)
  | group (index : Nat) (p : Pattern)
  | atomic (p : Pattern)
  | repeated (options : PatternOptions) (mode : RepeatMode) (least : Nat) (most : Option Nat)
      (p : Pattern)
  | ahead (negated : Bool) (p : Pattern)
  /-- What stands before, over a width that has to be fixed. -/
  | behind (negated : Bool) (width : Width) (p : Pattern)
  | reference (options : PatternOptions) (index : Nat)
  /-- The first branch where the group has matched, else the second. -/
  | conditional (index : Nat) (p q : Pattern)
deriving Repr, Inhabited

namespace Width

/-- The sum of two bounds. -/
def addMost : Option Nat → Option Nat → Option Nat
  | some a, some b => some (a + b)
  | _, _ => none

/-- One width after another. -/
def add (a b : Width) : Width := ⟨a.least + b.least, addMost a.most b.most⟩

/-- Either width. -/
def either (a b : Width) : Width :=
  ⟨min a.least b.least,
    match a.most, b.most with
    | some x, some y => some (max x y)
    | _, _ => none⟩

/-- A width repeated. -/
def repeated (least : Nat) (most : Option Nat) (w : Width) : Width :=
  ⟨w.least * least,
    match w.most, most with
    | some 0, _ => some 0
    | some x, some n => some (x * n)
    | none, some 0 => some 0
    | _, _ => none⟩

end Width

/-- The width of a pattern, given those of the groups that it refers to. -/
def Pattern.width (groups : Nat → Width) : Pattern → Width
  | empty => {}
  | one _ _ => ⟨1, some 1⟩
  | anchor _ _ => {}
  | seq p q => (width groups p).add (width groups q)
  | alt p q => (width groups p).either (width groups q)
  | group _ p => width groups p
  | atomic p => width groups p
  | repeated _ _ least most p => (width groups p).repeated least most
  | ahead _ _ => {}
  | behind _ _ _ => {}
  | reference _ index => groups index
  | conditional _ p q => (width groups p).either (width groups q)

end FeatureAtlas
