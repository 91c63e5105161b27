import FeatureAtlas.Comment.Block

/-!
# The documentation above a declaration

A declaration is documented by the comment before it if only blanks stand between. The block starts at
the last `/**` before the comment's end.
-/

namespace FeatureAtlas.Declaration

/-- The text before an offset; a negative offset counts from the end. -/
def textBefore (cs : List Char) (index : Int) : List Char :=
  if index < 0 then cs.take (Int.ofNat cs.length + index).toNat else cs.take index.toNat

/-- The documentation block that ends a text, blanks aside. -/
def blockBefore? (before : List Char) : Option (List Char) := do
  let _ ← if Comment.closing.isSuffixOf (Text.trimEnd before) then some () else none
  let stop ← Text.lastIndexOf? Comment.closing before
  let start ← Text.lastIndexOf? Comment.opening (before.take stop)
  return (before.take (stop + 2)).drop start

/-- The documentation above a declaration, and the source text of both. -/
def preceding (source : String) (index : Int) (declaration : String) : Option String × String :=
  match blockBefore? (textBefore source.toList index) with
  | none => (none, Text.strip declaration)
  | some block =>
    let doc := String.ofList block
    (some doc, Text.strip (doc ++ "\n" ++ declaration))

end FeatureAtlas.Declaration
