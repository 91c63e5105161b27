/-!
# Ordered tables

A table lists its entries in the order in which their keys first appeared.
-/

namespace FeatureAtlas

/-- Entries by key, in order of first appearance. -/
abbrev Table (α : Type) := List (String × α)

namespace Table

variable {α : Type}

/-- Changes the entry of a key: a known key keeps its place, a new one comes last. -/
def modify (key : String) (f : Option α → α) : Table α → Table α
  | [] => [(key, f none)]
  | (k, v) :: rest => if k == key then (k, f (some v)) :: rest else (k, v) :: modify key f rest

/-- Sets the entry of a key. -/
def set (key : String) (value : α) (t : Table α) : Table α := t.modify key fun _ => value

/-- Appends one value to the list of a key. -/
def push {β : Type} (key : String) (value : β) (t : Table (List β)) : Table (List β) :=
  t.modify key fun known => known.getD [] ++ [value]

/-- The list of a key; an unknown key has none. -/
def values {β : Type} (t : Table (List β)) (key : String) : List β := (t.lookup key).getD []

/-- Collects entries: a repeated key keeps its first place and takes its last value. -/
def ofEntries (entries : List (String × α)) : Table α :=
  entries.foldl (fun t (k, v) => t.set k v) []

end Table

end FeatureAtlas
