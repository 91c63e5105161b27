import FeatureAtlas.Config.KeyOrder

/-!
# Merging settings

An overlay is merged onto a base mapping by mapping; any other value of the overlay replaces the one of the
base. Mappings inside lists are copied with their text keys alone.
-/

namespace FeatureAtlas.Setting

mutual

/-- A copy whose mappings have text keys alone. -/
def copy : Setting → Setting
  | list xs => list (copyItems xs)
  | map entries => map (copyEntries entries)
  | v => v

/-- Copies of list elements. -/
def copyItems : List Setting → List Setting
  | [] => []
  | x :: xs => copy x :: copyItems xs

/-- Copies of the entries with text keys. -/
def copyEntries : List (SettingKey × Setting) → List (SettingKey × Setting)
  | [] => []
  | (.text k, v) :: rest => (.text k, copy v) :: copyEntries rest
  | _ :: rest => copyEntries rest

end

/-- The entries of an existing mapping; anything else has none. -/
def entriesOf (existing : Option Setting) : List (SettingKey × Setting) :=
  (existing.bind entries?).getD []

/-- Sets entries in order, unless one of them failed. -/
def insertEach : List (SettingKey × Except KeyOrderError Setting) → List (SettingKey × Setting) →
    Except KeyOrderError (List (SettingKey × Setting))
  | [], target => .ok target
  | (k, v) :: rest, target => do insertEach rest (insert k (← v) target)

mutual

/-- The value that results where an overlay meets an existing value. -/
def overlay (existing : Option Setting) : Setting → Except KeyOrderError Setting
  | map entries => do
    let target := entriesOf existing
    let merged ← KeyOrder.sort (overlayEntries target entries)
    return map (← insertEach merged target)
  | v => .ok (copy v)

/-- The values that result for the entries of an overlay. -/
def overlayEntries (target : List (SettingKey × Setting)) :
    List (SettingKey × Setting) → List (SettingKey × Except KeyOrderError Setting)
  | [] => []
  | (k, v) :: rest => (k, overlay (find? k target) v) :: overlayEntries target rest

end

/-- Merges the entries of an overlay onto those of a base. -/
def merge (base changes : List (SettingKey × Setting)) : Except KeyOrderError Setting := do
  let sorted ← KeyOrder.sort base
  overlay (some (map (sorted.map fun (k, v) => (k, copy v)))) (map changes)

/-- Sets the value at a path, replacing what is no mapping on the way. -/
def setPath (value : Setting) : List String → List (SettingKey × Setting) →
    List (SettingKey × Setting)
  | [], target => target
  | [key], target => insert (.text key) value target
  | key :: next :: rest, target =>
    insert (.text key) (map (setPath value (next :: rest) (entriesOf (find? (.text key) target))))
      target

/-- The value at a path. -/
def atPath? : List String → Setting → Option Setting
  | [], v => some v
  | key :: rest, v => v.field? key >>= atPath? rest

end FeatureAtlas.Setting
