import FeatureAtlas.Config.Merge
import FeatureAtlas.Config.PathField

/-!
# Configurations as objects

Mappings and lists are objects: several places can share one, and whoever holds it can change it. A store has the
objects by their addresses, and actions read and change it. Merging is given two mappings as objects. It copies
the base and changes the copy: a mapping of the overlay goes into the mapping that the copy has at the same key,
or into a new one, and any other value is copied and set. Actions that call themselves are given the depth to
which they may do so.
-/

namespace FeatureAtlas

/-- A place for a value: it holds the value itself or the address of an object. -/
inductive Slot where
  | value (v : Setting) (h : v.IsScalar)
  | object (address : Nat)

/-- What an object holds. -/
inductive Cell where
  | list (items : List Slot)
  | map (entries : List (SettingKey × Slot))

/-- The objects, by their addresses. -/
abbrev Store := List Cell

/-- Why an action ends early. -/
inductive StoreError where
  | keys (e : KeyOrderError)
  | missing
  | tooDeep

/-- What reads and changes a store. -/
abbrev Action := StateT Store (Except StoreError)

namespace Store

/-- The object at an address. -/
def cell (address : Nat) : Action Cell := do
  match (← get)[address]? with
  | some c => return c
  | none => throw .missing

/-- A new object, at an address of its own. -/
def make (c : Cell) : Action Nat := modifyGet fun store => (store.length, store ++ [c])

/-- The entries of a mapping. -/
def entries (address : Nat) : Action (List (SettingKey × Slot)) := do
  match ← cell address with
  | .map es => return es
  | .list _ => throw .missing

/-- The entries of a mapping in the order of their keys. -/
def sortedEntries (address : Nat) : Action (List (SettingKey × Slot)) := do
  match KeyOrder.sort (← entries address) with
  | .ok sorted => return sorted
  | .error e => throw (.keys e)

/-- The slot at a key that a mapping has. -/
def field (key : SettingKey) (address : Nat) : Action Slot := do
  match Setting.find? key (← entries address) with
  | some slot => return slot
  | none => throw .missing

/-- Sets a key of a mapping. -/
def assign (key : SettingKey) (slot : Slot) (address : Nat) : Action Unit := do
  let es ← entries address
  modify fun store => store.set address (.map (Setting.insert key slot es))

/-- The address of the mapping in a slot, if there is one. -/
def mapping? : Option Slot → Action (Option Nat)
  | some (.object address) => do
    match ← cell address with
    | .map _ => return some address
    | .list _ => return none
  | _ => return none

/-- A copy with objects of its own, whose mappings have text keys alone. -/
def copy : Nat → Slot → Action Slot
  | _, .value v h => return .value v h
  | 0, .object _ => throw .tooDeep
  | depth + 1, .object address => do
    match ← cell address with
    | .list items => return .object (← make (.list (← items.mapM (copy depth))))
    | .map es =>
      let texts := es.filter fun e => e.1.text?.isSome
      let copies ← texts.mapM fun e => return (e.1, ← copy depth e.2)
      return .object (← make (.map copies))

/-- A copy of a mapping with its keys in order. -/
def copyMapping (depth address : Nat) : Action Nat := do
  let sorted ← sortedEntries address
  make (.map (← sorted.mapM fun e => return (e.1, ← copy depth e.2)))

/-- Merges what an overlay has at a key into a mapping, where `inner` merges a mapping into another one. -/
def mergeKey (inner : Nat → Nat → Action Unit) (depth target changes : Nat) (key : SettingKey) :
    Action Unit := do
  let slot ← field key changes
  match ← mapping? (some slot) with
  | none => assign key (← copy depth slot) target
  | some below =>
    match ← mapping? (Setting.find? key (← entries target)) with
    | some existing => inner existing below
    | none =>
      let nested ← make (.map [])
      inner nested below
      assign key (.object nested) target

/-- Merges the entries of an overlay into a mapping. -/
def mergeInto : Nat → Nat → Nat → Action Unit
  | 0, _, _ => throw .tooDeep
  | depth + 1, target, changes => do
    let sorted ← sortedEntries changes
    sorted.forM fun e => mergeKey (mergeInto depth) depth target changes e.1

/-- Merges a mapping onto a copy of another one, and gives the copy. -/
def merge (depth base changes : Nat) : Action Nat := do
  let merged ← copyMapping depth base
  mergeInto depth merged changes
  return merged

end Store

/-!
## Path fields of a configuration

The path fields of a configuration are resolved in a copy, which is made by merging it onto an empty mapping. As
values that gives a mapping with other texts in it; as objects it changes the mappings of the copy on the way to
each field. Where there is no mapping on the way, a new one is set.
-/

/-- Why the path fields of a configuration cannot be resolved. -/
inductive PathFieldError where
  | keys (e : KeyOrderError)
  | home (e : HomeError)
deriving DecidableEq, Repr, Inhabited

/-- A copy of a configuration whose path fields are resolved. -/
def PathField.normalize (environment : Environment) (base : Path) (config : List (SettingKey × Setting)) :
    Except PathFieldError (List (SettingKey × Setting)) := do
  let merged ← (Setting.merge [] config).mapError .keys
  (resolveAll environment base (Setting.entriesOf (some merged))).mapError .home

namespace Store

/-- The slot at a path. -/
def slotAt? : List String → Slot → Action (Option Slot)
  | [], slot => return some slot
  | key :: rest, slot => do
    match ← mapping? (some slot) with
    | none => return none
    | some address =>
      match Setting.find? (.text key) (← entries address) with
      | none => return none
      | some below => slotAt? rest below

/-- Sets the slot at a path, replacing what is no mapping on the way. -/
def assignAt (slot : Slot) : List String → Nat → Action Unit
  | [], _ => return ()
  | [key], address => assign (.text key) slot address
  | key :: next :: rest, address => do
    match ← mapping? (Setting.find? (.text key) (← entries address)) with
    | some below => assignAt slot (next :: rest) below
    | none =>
      let below ← make (.map [])
      assign (.text key) (.object below) address
      assignAt slot (next :: rest) below

/-- Resolves one field of a mapping, if it holds a text that is not empty. -/
def resolveField (environment : Environment) (base : Path) (address : Nat) (path : List String) :
    Action (Except HomeError Unit) := do
  match ← slotAt? path (.object address) with
  | some (.value (.str raw) _) =>
    if raw == "" then return .ok ()
    else
      match PathField.resolve environment base raw with
      | .error e => return .error e
      | .ok s =>
        assignAt (.value (.str s) trivial) path address
        return .ok ()
  | _ => return .ok ()

/-- Resolves fields of a mapping, up to the first one that cannot be resolved. -/
def resolveFields (environment : Environment) (base : Path) (address : Nat) :
    List (List String) → Action (Except HomeError Unit)
  | [] => return .ok ()
  | path :: rest => do
    match ← resolveField environment base address path with
    | .error e => return .error e
    | .ok () => resolveFields environment base address rest

/-- Merges a configuration onto an empty mapping, and resolves the path fields of that one. -/
def normalizePaths (depth : Nat) (environment : Environment) (base : Path) (config : Nat) :
    Action (Except HomeError Nat) := do
  let empty ← make (.map [])
  let merged ← merge depth empty config
  return (← resolveFields environment base merged PathField.all).map fun _ => merged

end Store

end FeatureAtlas
