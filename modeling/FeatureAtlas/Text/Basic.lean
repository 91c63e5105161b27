/-!
# Texts as sequences of characters

Scanning happens on `List Char`, where every function is structurally recursive; the `String`
versions convert at both ends. Offsets and lengths count characters.
-/

namespace FeatureAtlas.Text

/-! ## Blanks

One class of white space serves trimming, tag lines and patterns alike.
-/

/-- White space: the ASCII controls that separate text, the space, and the Unicode spaces. -/
def isBlank (c : Char) : Bool :=
  let n := c.toNat
  (9 ≤ n && n ≤ 13) || (28 ≤ n && n ≤ 32) || n == 0x85 || n == 0xa0 || n == 0x1680 ||
    (0x2000 ≤ n && n ≤ 0x200a) || n == 0x2028 || n == 0x2029 || n == 0x202f || n == 0x205f ||
    n == 0x3000

/-! ## Trimming -/

/-- Drops leading blanks. -/
def trimStart (cs : List Char) : List Char := cs.dropWhile isBlank

/-- Drops trailing blanks. -/
def trimEnd (cs : List Char) : List Char := (cs.reverse.dropWhile isBlank).reverse

/-- Drops blanks at both ends. -/
def trim (cs : List Char) : List Char := trimEnd (trimStart cs)

/-- Drops blanks at both ends of a string. -/
def strip (s : String) : String := String.ofList (trim s.toList)

/-! ## Splitting -/

/-- The pieces between occurrences of a separator; there is always at least one piece. -/
def splitOn (sep : Char) : List Char → List (List Char)
  | [] => [[]]
  | c :: cs =>
    if c == sep then [] :: splitOn sep cs
    else match splitOn sep cs with
      | [] => [[c]]
      | piece :: pieces => (c :: piece) :: pieces

/-- The pieces of a string between occurrences of a separator. -/
def split (sep : Char) (s : String) : List String := (splitOn sep s.toList).map String.ofList

/-- The pieces of a string, joined by a separator. -/
def join (sep : String) (pieces : List String) : String := sep.intercalate pieces

/-! ## Prefixes, suffixes and occurrences -/

/-- What follows a prefix, if the text starts with it. -/
def after? : List Char → List Char → Option (List Char)
  | [], cs => some cs
  | _ :: _, [] => none
  | p :: ps, c :: cs => if p == c then after? ps cs else none

/-- Whether a string starts with a prefix. -/
def startsWith (s start : String) : Bool := start.toList.isPrefixOf s.toList

/-- Whether a string ends with a suffix. -/
def endsWith (s ending : String) : Bool := ending.toList.isSuffixOf s.toList

/-- The offset of the first occurrence of a text. -/
def indexOf? (needle : List Char) : List Char → Option Nat
  | [] => if needle.isEmpty then some 0 else none
  | c :: cs =>
    if needle.isPrefixOf (c :: cs) then some 0 else (indexOf? needle cs).map (· + 1)

/-- The offset of the last occurrence of a text. -/
def lastIndexOf? (needle : List Char) : List Char → Option Nat
  | [] => if needle.isEmpty then some 0 else none
  | c :: cs =>
    match lastIndexOf? needle cs with
    | some i => some (i + 1)
    | none => if needle.isPrefixOf (c :: cs) then some 0 else none

/-- Whether one text occurs in another. -/
def occursIn (needle : List Char) (cs : List Char) : Bool := (indexOf? needle cs).isSome

/-- Whether a string contains another. -/
def contains (s needle : String) : Bool := occursIn needle.toList s.toList

/-- Drops a suffix once, if the string ends with it. -/
def removeSuffix (s ending : String) : String :=
  if endsWith s ending then String.ofList (s.toList.take (s.toList.length - ending.toList.length))
  else s

/-- Replaces every occurrence of a character by a text. -/
def replaceChar (c : Char) (image : List Char) (cs : List Char) : List Char :=
  cs.flatMap fun d => if d == c then image else [d]

/-- The text before the first occurrence of a nonempty needle, and the text after it. -/
def cut? (needle : List Char) : List Char → Option (List Char × List Char)
  | [] => none
  | c :: cs =>
    match after? needle (c :: cs) with
    | some rest => some ([], rest)
    | none => (cut? needle cs).map fun (before, rest) => (c :: before, rest)

/-! ## Order -/

/-- Strings are ordered by code points. -/
def le (a b : String) : Bool :=
  -- the instance is named, as others for the same order may be in scope
  !(String.decidableLT b a).decide

/-- Ascending order by code points. -/
def sort (xs : List String) : List String := xs.mergeSort le

/-- Ascending order of pairs by their keys. -/
def sortKeys {α : Type} (xs : List (String × α)) : List (String × α) :=
  xs.mergeSort fun a b => le a.1 b.1

/-- Pads with blanks on the right up to a width. -/
def padRight (width : Nat) (s : String) : String :=
  s ++ String.ofList (List.replicate (width - s.length) ' ')

end FeatureAtlas.Text
