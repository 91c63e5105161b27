import FeatureAtlas.Declaration.ExportedType
import FeatureAtlas.Declaration.Utility
import FeatureAtlas.Item.Basic
import FeatureAtlas.Json.Value

/-!
# Entries of the map

Each kind of item appears in the map with the fields that matter for it. An absent optional field is
left out of the written form; lists are always written.
-/

namespace FeatureAtlas

/-- A screen in the map. -/
structure ScreenEntry where
  name : String
  path : String
  route : Option String
  description : Option String
  usedComponents : List String
  usedActions : List String
  app : String
deriving DecidableEq, Repr, Inhabited

/-- A component in the map. -/
structure ComponentEntry where
  name : String
  path : String
  description : Option String
  usedInScreens : List String
  usedInComponents : List String
  usedActions : List String
  app : String
deriving DecidableEq, Repr, Inhabited

/-- A server action in the map. -/
structure ActionEntry where
  name : String
  path : String
  description : Option String
  usedInScreens : List String
  usedInComponents : List String
  dbTables : List String
  app : String
  actionKind : Option ActionKind
deriving DecidableEq, Repr, Inhabited

/-- A module in the map. -/
structure ModuleEntry where
  name : String
  path : String
  description : Option String
  usedInScreens : List String
  usedInComponents : List String
  usedInActions : List String
  usedInMiddleware : List String
  usedInLayouts : List String
  usedModules : List String
  usedInModules : List String
  app : String
  category : Option String
deriving DecidableEq, Repr, Inhabited

/-- A database table in the map. -/
structure TableEntry where
  name : String
  path : String
  description : Option String
  usedInActions : List String
  app : String
deriving DecidableEq, Repr, Inhabited

/-- An entry of the map. -/
inductive Entry where
  | screen (e : ScreenEntry)
  | component (e : ComponentEntry)
  | action (e : ActionEntry)
  | module (e : ModuleEntry)
  | table (e : TableEntry)
deriving DecidableEq, Repr, Inhabited

/-- The entry of an item. -/
def Entry.ofItem (item : Item) : Entry :=
  let l := item.links
  match item.kind with
  | .screen => .screen {
      name := item.name, path := item.path, route := item.route, description := item.description
      usedComponents := l.usedComponents, usedActions := l.usedActions, app := item.app }
  | .component => .component {
      name := item.name, path := item.path, description := item.description
      usedInScreens := l.usedInScreens, usedInComponents := l.usedInComponents
      usedActions := l.usedActions, app := item.app }
  | .action => .action {
      name := item.name, path := item.path, description := item.description
      usedInScreens := l.usedInScreens, usedInComponents := l.usedInComponents
      dbTables := l.dbTables, app := item.app, actionKind := item.actionKind }
  | .module => .module {
      name := item.name, path := item.path, description := item.description
      usedInScreens := l.usedInScreens, usedInComponents := l.usedInComponents
      usedInActions := l.usedInActions, usedInMiddleware := l.usedInMiddleware
      usedInLayouts := l.usedInLayouts, usedModules := l.usedModules
      usedInModules := l.usedInModules, app := item.app, category := item.category }
  | .table => .table {
      name := item.name, path := item.path, description := item.description
      usedInActions := l.usedInActions, app := item.app }

/-! ## Written form -/

open Json (present strings)

/-- The written form of an optional text. -/
def Json.optional (s : Option String) : Option Json := s.map .str

/-- The written form of a screen. -/
def ScreenEntry.toJson (e : ScreenEntry) : Json := present
  [("name", some (.str e.name)), ("path", some (.str e.path)), ("route", Json.optional e.route),
   ("description", Json.optional e.description), ("usedComponents", some (strings e.usedComponents)),
   ("usedActions", some (strings e.usedActions)), ("app", some (.str e.app))]

/-- The written form of a component. -/
def ComponentEntry.toJson (e : ComponentEntry) : Json := present
  [("name", some (.str e.name)), ("path", some (.str e.path)),
   ("description", Json.optional e.description), ("usedInScreens", some (strings e.usedInScreens)),
   ("usedInComponents", some (strings e.usedInComponents)),
   ("usedActions", some (strings e.usedActions)), ("app", some (.str e.app))]

/-- The written form of an action. -/
def ActionEntry.toJson (e : ActionEntry) : Json := present
  [("name", some (.str e.name)), ("path", some (.str e.path)),
   ("description", Json.optional e.description), ("usedInScreens", some (strings e.usedInScreens)),
   ("usedInComponents", some (strings e.usedInComponents)), ("dbTables", some (strings e.dbTables)),
   ("app", some (.str e.app)), ("actionType", e.actionKind.map fun k => .str k.text)]

/-- The written form of a module. -/
def ModuleEntry.toJson (e : ModuleEntry) : Json := present
  [("name", some (.str e.name)), ("path", some (.str e.path)),
   ("description", Json.optional e.description), ("usedInScreens", some (strings e.usedInScreens)),
   ("usedInComponents", some (strings e.usedInComponents)),
   ("usedInActions", some (strings e.usedInActions)),
   ("usedInMiddleware", some (strings e.usedInMiddleware)),
   ("usedInLayouts", some (strings e.usedInLayouts)), ("usedModules", some (strings e.usedModules)),
   ("usedInModules", some (strings e.usedInModules)), ("app", some (.str e.app)),
   ("category", Json.optional e.category)]

/-- The written form of a table. -/
def TableEntry.toJson (e : TableEntry) : Json := present
  [("name", some (.str e.name)), ("path", some (.str e.path)),
   ("description", Json.optional e.description), ("usedInActions", some (strings e.usedInActions)),
   ("app", some (.str e.app))]

/-- The written form of an entry. -/
def Entry.toJson : Entry → Json
  | .screen e => e.toJson
  | .component e => e.toJson
  | .action e => e.toJson
  | .module e => e.toJson
  | .table e => e.toJson

/-- The written form of a field. -/
def TypeField.toJson (f : TypeField) : Json := present
  [("name", some (.str f.name)), ("type", some (.str f.type)),
   ("description", Json.optional f.description)]

/-- The written form of an exported type. -/
def ExportedType.toJson (t : ExportedType) : Json := present
  [("name", some (.str t.name)), ("kind", some (.str t.kind.text)),
   ("description", Json.optional t.description),
   ("fields", t.fields.map fun fs => .arr (fs.map TypeField.toJson)),
   ("values", t.values.map strings), ("sourceCode", Json.optional t.sourceCode)]

/-- The written form of a parameter. -/
def Parameter.toJson (p : Parameter) : Json := .obj [("name", .str p.name), ("type", .str p.type)]

/-- The written form of a utility. -/
def Utility.toJson (u : Utility) : Json := present
  [("name", some (.str u.name)), ("kind", some (.str u.kind.text)),
   ("description", Json.optional u.description), ("type", Json.optional u.type),
   ("value", Json.optional u.value), ("params", u.params.map fun ps => .arr (ps.map Parameter.toJson))]

end FeatureAtlas
