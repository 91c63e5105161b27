import FeatureAtlas.Pattern.Syntax
import FeatureAtlas.Text.Basic
import FeatureAtlas.Text.Case
import FeatureAtlas.Text.Integer
import FeatureAtlas.Text.Word

/-!
# Matching patterns

A pattern denotes a matcher: given a place in the text and what has to follow, it tries its
alternatives in order of preference. A repetition makes its required rounds first; each further round must
start at another place than the round before it, so that rounds that match nothing come to an end.
-/

namespace FeatureAtlas.Pattern

/-! ## Characters -/

/-- Other lower-case letters with the same upper case as a lower-case letter. -/
def sameUpper : List (Nat × List Nat) :=
  [(0x69, [0x131]), (0x73, [0x17f]), (0xb5, [0x3bc]), (0x131, [0x69]), (0x17f, [0x73]),
   (0x345, [0x3b9, 0x1fbe]), (0x390, [0x1fd3]), (0x3b0, [0x1fe3]), (0x3b2, [0x3d0]),
   (0x3b5, [0x3f5]), (0x3b8, [0x3d1]), (0x3b9, [0x345, 0x1fbe]), (0x3ba, [0x3f0]),
   (0x3bc, [0xb5]), (0x3c0, [0x3d6]), (0x3c1, [0x3f1]), (0x3c2, [0x3c3]), (0x3c3, [0x3c2]),
   (0x3c6, [0x3d5]), (0x3d0, [0x3b2]), (0x3d1, [0x3b8]), (0x3d5, [0x3c6]), (0x3d6, [0x3c0]),
   (0x3f0, [0x3ba]), (0x3f1, [0x3c1]), (0x3f5, [0x3b5]), (0x432, [0x1c80]), (0x434, [0x1c81]),
   (0x43e, [0x1c82]), (0x441, [0x1c83]), (0x442, [0x1c84, 0x1c85]), (0x44a, [0x1c86]),
   (0x463, [0x1c87]), (0x1c80, [0x432]), (0x1c81, [0x434]), (0x1c82, [0x43e]),
   (0x1c83, [0x441]), (0x1c84, [0x442, 0x1c85]), (0x1c85, [0x442, 0x1c84]), (0x1c86, [0x44a]),
   (0x1c87, [0x463]), (0x1c88, [0xa64b]), (0x1e61, [0x1e9b]), (0x1e9b, [0x1e61]),
   (0x1fbe, [0x345, 0x3b9]), (0x1fd3, [0x390]), (0x1fe3, [0x3b0]), (0xa64b, [0x1c88]),
   (0xfb05, [0xfb06]), (0xfb06, [0xfb05])]

/-- The lower case of a code point. -/
def lowerCode (ascii : Bool) (n : Nat) : Nat :=
  if ascii then (if 65 ≤ n && n ≤ 90 then n + 32 else n)
  else if 0xd800 ≤ n && n ≤ 0xdfff then n else (Text.lowerChar (Char.ofNat n)).toNat

/-- The code points whose lower case counts as that of a given code point. -/
def foldedCodes (ascii : Bool) (n : Nat) : List Nat :=
  let lower := lowerCode ascii n
  if ascii then [lower] else lower :: (sameUpper.lookup lower).getD []

/-- Equality of a code point with a character under the options. -/
def codeMatches (options : PatternOptions) (n : Nat) (c : Char) : Bool :=
  if options.ignoreCase then (foldedCodes options.ascii n).contains (lowerCode options.ascii c.toNat)
  else n == c.toNat

/-- Membership of a character in a class. -/
def classMatches (options : PatternOptions) (cls : CharClass) (c : Char) : Bool :=
  match cls with
  | .digit => if options.ascii then c.isDigit else (Text.digitValue? c).isSome
  | .space =>
    if options.ascii then c == ' ' || 9 ≤ c.toNat && c.toNat ≤ 13 else Text.isBlank c
  | .word => if options.ascii then c.isAlphanum || c == '_' else Text.isWord c

/-- The last code point whose ranges are compared member by member when case is ignored. -/
def foldedRangeEnd : Nat := 0xffff

/-- Membership of a character in a range of code points. -/
def rangeMatches (options : PatternOptions) (lo hi : Nat) (c : Char) : Bool :=
  let within (n : Nat) : Bool := lo ≤ n && n ≤ hi
  if options.ignoreCase then
    let lower := lowerCode options.ascii c.toNat
    within lower || within c.toNat ||
      (List.range' lo (min hi foldedRangeEnd + 1 - lo)).any fun n =>
        (foldedCodes options.ascii n).contains lower
  else within c.toNat

/-- Membership of a character in a member of a set. -/
def memberMatches (options : PatternOptions) (c : Char) : SetMember → Bool
  | .code n => codeMatches options n c
  | .range lo hi => rangeMatches options lo hi c
  | .ofClass cls negated => classMatches options cls c != negated

/-- The outcome of a test on a character. -/
def testMatches (options : PatternOptions) (c : Char) : CharTest → Bool
  | .any => options.dotAll || c != '\n'
  | .code n negated => codeMatches options n c != negated
  | .set negated members => members.any (memberMatches options c) != negated

/-! ## Places -/

/-- A place in a text, with the bounds of the groups matched so far. What stands before is in reverse
order. -/
structure Place where
  before : List Char := []
  after : List Char
  starts : List (Nat × Nat) := []
  stops : List (Nat × Nat) := []
deriving Repr, Inhabited

namespace Place

/-- The number of characters before a place. -/
def offset (s : Place) : Nat := s.before.length

/-- Opens a group. -/
def openGroup (index : Nat) (s : Place) : Place := { s with starts := (index, s.offset) :: s.starts }

/-- Closes a group. -/
def closeGroup (index : Nat) (s : Place) : Place := { s with stops := (index, s.offset) :: s.stops }

/-- The text that a group matched. -/
def groupText? (s : Place) (index : Nat) : Option (List Char) := do
  let start ← s.starts.lookup index
  let stop ← s.stops.lookup index
  if stop < start then none
  else some (((s.before.reverse ++ s.after).drop start).take (stop - start))

/-- The place some characters back. -/
def back? : Nat → Place → Option Place
  | 0, s => some s
  | n + 1, s =>
    match s.before with
    | [] => none
    | c :: cs => back? n { s with before := cs, after := c :: s.after }

/-- The place with the groups of another one. -/
def withGroups (s t : Place) : Place := { s with starts := t.starts, stops := t.stops }

end Place

/-- The outcome of a test on a place. -/
def anchorHolds (options : PatternOptions) (a : Anchor) (s : Place) : Bool :=
  let isWord (c : Option Char) : Bool := (c.map (classMatches options .word)).getD false
  match a with
  | .lineStart => s.before.isEmpty || options.multiline && s.before.head? == some '\n'
  | .lineEnd =>
    s.after.isEmpty || s.after == ['\n'] || options.multiline && s.after.head? == some '\n'
  | .textStart => s.before.isEmpty
  | .textEnd => s.after.isEmpty
  | .wordEdge => isWord s.before.head? != isWord s.after.head?
  | .noWordEdge =>
    !(s.before.isEmpty && s.after.isEmpty) && isWord s.before.head? == isWord s.after.head?

/-! ## Matchers -/

/-- A matcher tries what follows at each place it can reach, in order of preference. -/
abbrev Matcher := Place → (Place → Option Place) → Option Place

namespace Matcher

/-- The place that a matcher prefers. -/
def first (m : Matcher) (s : Place) : Option Place := m s some

/-- A number of rounds. -/
def rounds (m : Matcher) : Nat → Matcher
  | 0, s, k => k s
  | n + 1, s, k => m s fun t => rounds m n t k

/-- Another round is allowed: the bound is not reached, and the round would start at a new place. -/
def mayRepeat (bound : Option Nat) (last : Option Nat) (s : Place) : Bool :=
  bound != some 0 && last != some s.offset

/-- Further rounds, as many as possible first. -/
def greedy (m : Matcher) : Nat → Option Nat → Option Nat → Matcher
  | 0, _, _, s, k => k s
  | fuel + 1, bound, last, s, k =>
    if mayRepeat bound last s then
      (m s fun t => greedy m fuel (bound.map (· - 1)) (some s.offset) t k).or (k s)
    else k s

/-- Further rounds, as few as possible first. -/
def lazy (m : Matcher) : Nat → Option Nat → Option Nat → Matcher
  | 0, _, _, s, k => k s
  | fuel + 1, bound, last, s, k =>
    (k s).or
      (if mayRepeat bound last s then
        m s fun t => lazy m fuel (bound.map (· - 1)) (some s.offset) t k
      else none)

/-- Further rounds, each at its first choice and never taken back. -/
def possessive (m : Matcher) : Nat → Option Nat → Option Nat → Place → Place
  | 0, _, _, s => s
  | fuel + 1, bound, last, s =>
    if mayRepeat bound last s then
      match first m s with
      | some t => possessive m fuel (bound.map (· - 1)) (some s.offset) t
      | none => s
    else s

/-- The required rounds, each at its first choice. -/
def settled (m : Matcher) : Nat → Place → Option Place
  | 0, s => some s
  | n + 1, s => first m s >>= settled m n

/-- A repetition. After the required rounds no more than one further round per character is of use. -/
def repeated (m : Matcher) (mode : RepeatMode) (least : Nat) (most : Option Nat) : Matcher :=
  let bound := most.map (· - least)
  fun s k =>
    match mode with
    | .greedy => rounds m least s fun t => greedy m (t.after.length + 2) bound none t k
    | .lazy => rounds m least s fun t => lazy m (t.after.length + 2) bound none t k
    | .possessive =>
      settled m least s >>= fun t => k (possessive m (t.after.length + 2) bound none t)

end Matcher

/-- One character that passes a test. -/
def matchOne (test : Char → Bool) : Matcher := fun s k =>
  match s.after with
  | [] => none
  | c :: cs => if test c then k { s with before := c :: s.before, after := cs } else none

/-- The characters of a list, one after the other. -/
def matchAll (same : Char → Char → Bool) : List Char → Matcher
  | [], s, k => k s
  | c :: cs, s, k => matchOne (same c) s fun t => matchAll same cs t k

/-- An assertion on what an inner match finds; a positive one keeps its groups. -/
def assertion (negated : Bool) (found : Option Place) : Matcher := fun s k =>
  match found with
  | some t => if negated then none else k (s.withGroups t)
  | none => if negated then k s else none

/-- The matcher that a pattern denotes. -/
def matcher : Pattern → Matcher
  | empty => fun s k => k s
  | one options test => matchOne fun c => testMatches options c test
  | anchor options a => fun s k => if anchorHolds options a s then k s else none
  | seq p q => fun s k => matcher p s fun t => matcher q t k
  | alt p q => fun s k => (matcher p s k).or (matcher q s k)
  | group index p => fun s k =>
    matcher p (s.openGroup index) fun t => k (t.closeGroup index)
  | atomic p => fun s k => Matcher.first (matcher p) s >>= k
  | repeated _ mode least most p => Matcher.repeated (matcher p) mode least most
  | ahead negated p => fun s k => assertion negated (Matcher.first (matcher p) s) s k
  | behind negated width p => fun s k =>
    assertion negated (s.back? width.least >>= Matcher.first (matcher p)) s k
  | reference options index => fun s k =>
    match s.groupText? index with
    | none => none
    | some text =>
      let code (c : Char) := if options.ignoreCase then lowerCode options.ascii c.toNat else c.toNat
      matchAll (fun a b => code a == code b) text s k
  | conditional index p q => fun s k =>
    if (s.groupText? index).isSome then matcher p s k else matcher q s k

/-- Whether a pattern matches at a place or further on. -/
def searchFrom (p : Pattern) (before : List Char) : List Char → Bool
  | [] => (Matcher.first (matcher p) { before, after := [] }).isSome
  | c :: cs =>
    (Matcher.first (matcher p) { before, after := c :: cs }).isSome ||
      searchFrom p (c :: before) cs

/-- Whether a pattern matches somewhere in a text. -/
def occursIn (p : Pattern) (text : String) : Bool := searchFrom p [] text.toList

end FeatureAtlas.Pattern
