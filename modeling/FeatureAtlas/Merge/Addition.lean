import FeatureAtlas.Distinct
import FeatureAtlas.Item.Basic

/-!
# Additions to relationship lists

A merge pass is described by its additions: which names join which list of which item. Applying an addition
takes the union, so entries keep their place and new ones are appended once, in the order of the
additions. The growth is the number of entries gained; it is negative where the list had repetitions.
-/

namespace FeatureAtlas

/-- Names that join one relationship list of the item at a place of the item list. -/
structure Addition where
  place : Nat
  relation : Relation
  names : List String
deriving DecidableEq, Repr, Inhabited

/-- An item together with its place in the item list. -/
abbrev Placed := Item × Nat

namespace Merge

/-- The links with names joined to one list. -/
def join (relation : Relation) (names : List String) (l : Links) : Links :=
  l.set relation (union (l.get relation) names)

/-- The change of a list's length when names join it. -/
def growth (relation : Relation) (names : List String) (l : Links) : Int :=
  ((union (l.get relation) names).length : Int) - (l.get relation).length

/-- Applies one addition. -/
def applyOne (items : List Item) (a : Addition) : List Item :=
  items.modify a.place fun i => { i with links := join a.relation a.names i.links }

/-- The growth by one addition. -/
def growthOf (items : List Item) (a : Addition) : Int :=
  match items[a.place]? with
  | none => 0
  | some i => growth a.relation a.names i.links

/-- Applies additions in order and counts the growth. -/
def applyAll (items : List Item) (additions : List Addition) : List Item × Int :=
  additions.foldl (fun (items, n) a => (applyOne items a, n + growthOf items a)) (items, 0)

end Merge

end FeatureAtlas
