import FeatureAtlas.Distinct
import FeatureAtlas.Table
import FeatureAtlas.Text.Basic
import FeatureAtlas.Text.Word

/-!
# Tags

The first tag of a line is an `@`, a word, and either the end of the line, the end of the comment, or
blanks and a value. The value runs to the end of the line or of the comment, without the blanks before
it.
-/

namespace FeatureAtlas.Comment

/-- Tags whose presence is the value. -/
def markerTags : List String := ["serverAction"]

/-- Whether only blanks stand before the end of the line or a closing comment mark. -/
def valueEnds (cs : List Char) : Bool :=
  let rest := Text.trimStart cs
  rest.isEmpty || ['*', '/'].isPrefixOf rest

/-- The characters of a value after its first one. -/
def valueTail : List Char → List Char
  | [] => []
  | c :: cs => if valueEnds (c :: cs) then [] else c :: valueTail cs

/-- The value that follows the blanks after a tag's word. One blank alone is no value; of several
blanks at the end of the line the last one is. -/
def tagValue? (cs : List Char) : Option (List Char) :=
  match Text.trimStart cs with
  | c :: rest => some (c :: valueTail rest)
  | [] => if 2 ≤ cs.length then cs.getLast?.map ([·]) else none

/-- A tag and its value, at the character after an `@`. -/
def tagAt? (cs : List Char) : Option (String × Option (List Char)) :=
  let word := cs.takeWhile Text.isWord
  let rest := cs.drop word.length
  if word.isEmpty then none
  else match rest with
    | [] => some (String.ofList word, none)
    | c :: _ =>
      if Text.isBlank c then some (String.ofList word, tagValue? rest)
      else if ['*', '/'].isPrefixOf rest then some (String.ofList word, none)
      else none

/-- The first tag of a line. -/
def lineTag? : List Char → Option (String × Option (List Char))
  | [] => none
  | c :: cs =>
    if c == '@' then
      match tagAt? cs with
      | some found => some found
      | none => lineTag? cs
    else lineTag? cs

/-- Records a line's tag: marker tags are empty, tags without a value are absent, and a later value
replaces an earlier one. -/
def recordTag (tags : Table String) (line : List Char) : Table String :=
  match lineTag? line with
  | none => tags
  | some (tag, value) =>
    if markerTags.contains tag then tags.set tag ""
    else match value with
      | some v => tags.set tag (String.ofList (Text.trim v))
      | none => tags

/-- The tags of a block, in order of first appearance. -/
def tags (block : String) : Table String :=
  (Text.splitOn '\n' block.toList).foldl recordTag []

/-! ## Comma-separated lists

A list-valued tag names its entries between commas. Entries are trimmed, empty ones dropped, and an
entry counts once.
-/

/-- The entries of a comma-separated text. -/
def entries (value : String) : List String :=
  distinct (((Text.split ',' value).map Text.strip).filter (· != ""))

/-- The entries of an optional text; an absent text has none. -/
def entriesOf (value : Option String) : List String := (value.map entries).getD []

end FeatureAtlas.Comment
