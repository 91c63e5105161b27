/-!
# Ordered sets as lists

A list without repetitions keeps each entry at the place of its first occurrence. The union of two lists
is the first one, each entry once, followed by what the second one adds.
-/

namespace FeatureAtlas

variable {α : Type} [BEq α]

/-- Appends an entry unless it is known. -/
def appendNew (known : List α) (x : α) : List α := if known.contains x then known else known ++ [x]

/-- The entries of a list, each at the place of its first occurrence. -/
def distinct (xs : List α) : List α := xs.foldl appendNew []

/-- The order-preserving union. -/
def union (existing added : List α) : List α := distinct (existing ++ added)

end FeatureAtlas
