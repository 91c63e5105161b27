import FeatureAtlas.Path.Projection

/-!
# Items

An item is one discovered entity, with its declared and inferred relationships. Relationship lists are
ordered sets: an entry appears at most once and keeps its place.
-/

namespace FeatureAtlas

/-- The kinds of entities that the map knows. -/
inductive ItemKind where
  | screen
  | component
  | action
  | module
  | table
deriving DecidableEq, Repr, Inhabited

namespace ItemKind

/-- The name of a kind. -/
def text : ItemKind → String
  | screen => "screen"
  | component => "component"
  | action => "action"
  | module => "module"
  | table => "table"

/-- All kinds. -/
def all : List ItemKind := [screen, component, action, module, table]

/-- The kind with a given name. -/
def ofText? (s : String) : Option ItemKind := all.find? fun k => k.text == s

end ItemKind

/-- The relationships that an item can have. -/
inductive Relation where
  | usedComponents
  | usedActions
  | usedInScreens
  | usedInComponents
  | usedInActions
  | usedInMiddleware
  | usedInLayouts
  | usedModules
  | usedInModules
  | dbTables
deriving DecidableEq, Repr, Inhabited

/-- All relationships. -/
def Relation.all : List Relation :=
  [.usedComponents, .usedActions, .usedInScreens, .usedInComponents, .usedInActions,
   .usedInMiddleware, .usedInLayouts, .usedModules, .usedInModules, .dbTables]

/-- The relationship lists of an item. -/
structure Links where
  usedComponents : List String := []
  usedActions : List String := []
  usedInScreens : List String := []
  usedInComponents : List String := []
  usedInActions : List String := []
  usedInMiddleware : List String := []
  usedInLayouts : List String := []
  usedModules : List String := []
  usedInModules : List String := []
  dbTables : List String := []
deriving DecidableEq, Repr, Inhabited

namespace Links

/-- The list of a relationship. -/
def get (l : Links) : Relation → List String
  | .usedComponents => l.usedComponents
  | .usedActions => l.usedActions
  | .usedInScreens => l.usedInScreens
  | .usedInComponents => l.usedInComponents
  | .usedInActions => l.usedInActions
  | .usedInMiddleware => l.usedInMiddleware
  | .usedInLayouts => l.usedInLayouts
  | .usedModules => l.usedModules
  | .usedInModules => l.usedInModules
  | .dbTables => l.dbTables

/-- Replaces the list of a relationship. -/
def set (l : Links) (r : Relation) (names : List String) : Links :=
  match r with
  | .usedComponents => { l with usedComponents := names }
  | .usedActions => { l with usedActions := names }
  | .usedInScreens => { l with usedInScreens := names }
  | .usedInComponents => { l with usedInComponents := names }
  | .usedInActions => { l with usedInActions := names }
  | .usedInMiddleware => { l with usedInMiddleware := names }
  | .usedInLayouts => { l with usedInLayouts := names }
  | .usedModules => { l with usedModules := names }
  | .usedInModules => { l with usedInModules := names }
  | .dbTables => { l with dbTables := names }

theorem get_set_self (l : Links) (r : Relation) (names : List String) :
    (l.set r names).get r = names := by
  cases r <;> rfl

theorem get_set_of_ne (l : Links) {r r' : Relation} (h : r' ≠ r) (names : List String) :
    (l.set r names).get r' = l.get r' := by
  cases r <;> cases r' <;> first | exact absurd rfl h | rfl

end Links

/-- One discovered entity. The path is project-relative and never rewritten. -/
structure Item where
  kind : ItemKind
  name : String
  path : String
  feature : Option String := none
  app : String := Projection.unknownApp
  route : Option String := none
  description : Option String := none
  actionKind : Option ActionKind := none
  category : Option String := none
  links : Links := {}
deriving DecidableEq, Repr, Inhabited

namespace Item

/-- The module that the item's file belongs to. -/
def moduleName (item : Item) : String := Projection.moduleName item.path

/-- The composite identity of an item. -/
def key (item : Item) : String := item.kind.text ++ "/" ++ item.moduleName ++ "/" ++ item.name

end Item

end FeatureAtlas
