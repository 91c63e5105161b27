import FeatureAtlas.FeatureMap.Entry
import FeatureAtlas.Json.Printer
import FeatureAtlas.Time.Calendar

/-!
# The feature map

Items are grouped by feature, in order of the features' first appearance; items without a feature are
uncategorised. Modules' descriptions, types and utilities are listed by module name in ascending order.
-/

namespace FeatureAtlas

/-- The entries of one feature, by kind. -/
structure FeatureGroup where
  screens : List ScreenEntry := []
  components : List ComponentEntry := []
  actions : List ActionEntry := []
  modules : List ModuleEntry := []
  tables : List TableEntry := []
deriving DecidableEq, Repr, Inhabited

namespace FeatureGroup

/-- The number of entries. -/
def size (g : FeatureGroup) : Nat :=
  g.screens.length + g.components.length + g.actions.length + g.modules.length + g.tables.length

/-- Appends an entry to the list of its kind. -/
def add (g : FeatureGroup) : Entry → FeatureGroup
  | .screen e => { g with screens := g.screens ++ [e] }
  | .component e => { g with components := g.components ++ [e] }
  | .action e => { g with actions := g.actions ++ [e] }
  | .module e => { g with modules := g.modules ++ [e] }
  | .table e => { g with tables := g.tables ++ [e] }

/-- The written form of a group. -/
def toJson (g : FeatureGroup) : Json := .obj
  [("screens", .arr (g.screens.map ScreenEntry.toJson)),
   ("components", .arr (g.components.map ComponentEntry.toJson)),
   ("actions", .arr (g.actions.map ActionEntry.toJson)),
   ("modules", .arr (g.modules.map ModuleEntry.toJson)),
   ("tables", .arr (g.tables.map TableEntry.toJson))]

end FeatureGroup

/-- The grouped result; only the timestamp depends on the run. -/
structure FeatureMap where
  features : Table FeatureGroup
  uncategorized : FeatureGroup
  moduleDescriptions : Table String
  moduleTypes : Table (List ExportedType)
  moduleUtilities : Table (List Utility)
  apps : List String
  generatedAt : String
deriving Repr, Inhabited

namespace FeatureMap

/-- Puts an item into the group of its feature. -/
def place (groups : Table FeatureGroup × FeatureGroup) (item : Item) :
    Table FeatureGroup × FeatureGroup :=
  match item.feature with
  | none => (groups.1, groups.2.add (Entry.ofItem item))
  | some f =>
    if f == "" then (groups.1, groups.2.add (Entry.ofItem item))
    else (groups.1.modify f fun known => (known.getD {}).add (Entry.ofItem item), groups.2)

/-- The distinct apps of the items in ascending order, without the unknown one. -/
def appsOf (items : List Item) : List String :=
  Text.sort ((items.map (·.app)).filter fun a => a != "" && a != Projection.unknownApp).eraseDups

/-- The map of the items at a time; there is none for a time outside the calendar. -/
def build? (items : List Item) (descriptions : Table String) (types : Table (List ExportedType))
    (utilities : Table (List Utility)) (now : DateTime) : Option FeatureMap := do
  let stamp ← now.timestamp?
  let (features, uncategorized) := items.foldl place ([], {})
  return {
    features, uncategorized
    moduleDescriptions := Text.sortKeys descriptions
    moduleTypes := Text.sortKeys types
    moduleUtilities := Text.sortKeys utilities
    apps := appsOf items
    generatedAt := stamp }

/-- The written form of the map. -/
def toJson (m : FeatureMap) : Json := .obj
  [("features", .obj (m.features.map fun (name, g) => (name, g.toJson))),
   ("uncategorized", m.uncategorized.toJson),
   ("moduleDescriptions", .obj (m.moduleDescriptions.map fun (name, d) => (name, .str d))),
   ("moduleTypes",
      .obj (m.moduleTypes.map fun (name, ts) => (name, .arr (ts.map ExportedType.toJson)))),
   ("moduleUtilities",
      .obj (m.moduleUtilities.map fun (name, us) => (name, .arr (us.map Utility.toJson)))),
   ("apps", Json.strings m.apps), ("generatedAt", .str m.generatedAt)]

/-- The text of the map's file. -/
def render (m : FeatureMap) : String := Json.indented 2 m.toJson ++ "\n"

end FeatureMap

end FeatureAtlas
