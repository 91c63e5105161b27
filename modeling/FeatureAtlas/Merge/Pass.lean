import FeatureAtlas.Log.Event
import FeatureAtlas.Merge.Addition
import FeatureAtlas.Usage.Basic

/-!
# Merge passes

Four passes fold the inferred usages into the declared relationships. Forward: screens and components
take what their own file uses. Reverse: components, actions and modules take the items whose files use
them; middleware and layouts carry no declarations and are named by their app. Tables take the actions
that declare them, compared trimmed and without regard to case. Modules link to each other on both sides at
once.

No pass reads a list that a pass writes: the additions depend on names, kinds, paths and declared tables
alone.
-/

namespace FeatureAtlas

namespace Merge

/-- The items of a kind, with their places. -/
def ofKind (kind : ItemKind) (items : List Item) : List Placed :=
  items.zipIdx.filter fun (i, _) => i.kind == kind

/-- The items declared in a file. -/
def declaredIn (items : List Item) (path : String) : List Item := items.filter (·.path == path)

/-- The names of a file's items of one kind. -/
def namesIn (items : List Item) (kind : ItemKind) (path : String) : List String :=
  ((declaredIn items path).filter (·.kind == kind)).map (·.name)

/-! ## Forward -/

/-- Screens and components take the components and actions that their own file uses. -/
def forward (items : List Item) (analysis : Analysis) : List Addition :=
  items.zipIdx.flatMap fun (item, place) =>
    if item.kind == .screen || item.kind == .component then
      match analysis.usages.lookup item.path with
      | none => []
      | some usage =>
        [⟨place, .usedComponents, usage.components⟩, ⟨place, .usedActions, usage.actions⟩]
    else []

/-! ## Reverse -/

/-- The files that use an item, if it is a component or an action. -/
def users? (reverse : ReverseIndex) (item : Item) : Option (List String) :=
  match item.kind with
  | .component => some (reverse.components.values item.name)
  | .action => some (reverse.actions.values item.name)
  | _ => none

/-- Components and actions take the screens and components whose files use them; an item of the same
name is not its own user. -/
def elementUsers (items : List Item) (reverse : ReverseIndex) : List Addition :=
  items.zipIdx.flatMap fun (item, place) =>
    match users? reverse item with
    | none => []
    | some files =>
      [⟨place, .usedInScreens, files.flatMap (namesIn items .screen)⟩,
       ⟨place, .usedInComponents,
          (files.flatMap (namesIn items .component)).filter (· != item.name)⟩]

/-- A path covers the module at that path, and as a directory every module below it. -/
def covers (modulePath : String) (path : String) : Bool :=
  path == modulePath || Text.startsWith path (Text.removeSuffix modulePath ".ts" ++ "/")

/-- The files that neither belong to middleware nor are layouts. -/
def plainFiles (files : List String) : List String :=
  files.filter fun f => !Projection.isMiddlewareFile f && !Projection.isLayoutFile f

/-- The apps whose middleware is among the files. -/
def middlewareNames (files : List String) : List String :=
  (files.filter Projection.isMiddlewareFile).map fun f => Projection.appLabel f ++ " Middleware"

/-- The apps whose layouts are among the files. -/
def layoutNames (files : List String) : List String :=
  (files.filter fun f => !Projection.isMiddlewareFile f && Projection.isLayoutFile f).map fun f =>
    Projection.appLabel f ++ " Layout"

/-- The lists by which a module records the files that import it. -/
def importers (items : List Item) (files : List String) : List (Relation × List String) :=
  let plain := plainFiles files
  [(.usedInScreens, plain.flatMap (namesIn items .screen)),
   (.usedInComponents, plain.flatMap (namesIn items .component)),
   (.usedInActions, plain.flatMap (namesIn items .action)),
   (.usedInMiddleware, middlewareNames files), (.usedInLayouts, layoutNames files)]

/-- Modules take the screens, components, actions, middleware and layouts that import a path covering
them. -/
def moduleUsers (items : List Item) (reverse : ReverseIndex) : List Addition :=
  reverse.modulePaths.flatMap fun (modulePath, files) =>
    ((ofKind .module items).filter fun (m, _) => covers modulePath m.path).flatMap fun (_, place) =>
      (importers items files).map fun (relation, names) => ⟨place, relation, names⟩

/-- Components, actions and modules take their users. -/
def reverse (items : List Item) (analysis : Analysis) : List Addition :=
  elementUsers items analysis.reverse ++ moduleUsers items analysis.reverse

/-! ## Tables -/

/-- The form in which table names are compared. -/
def tableKey (name : String) : String := Text.lower (Text.strip name)

/-- The actions that declare a table, once per declaration. -/
def actionsOn (items : List Item) (table : String) : List String :=
  (items.filter (·.kind == .action)).flatMap fun action =>
    (action.links.dbTables.filter fun t => tableKey t == tableKey table).map fun _ => action.name

/-- Tables take the actions that declare them. -/
def tables (items : List Item) : List Addition :=
  (ofKind .table items).map fun (table, place) => ⟨place, .usedInActions, actionsOn items table.name⟩

/-! ## Modules -/

/-- The endings of module files. -/
def moduleEndings : List String := [".ts", ".tsx"]

/-- The directory that a source file stands in; any other path stands for itself. -/
def directoryOf (path : String) : String :=
  match Text.lastIndexOf? ['/'] path.toList with
  | none => path
  | some n =>
    match Projection.cutEnding? moduleEndings (path.toList.drop (n + 1)) with
    | some (_ :: _, tail) => String.ofList (path.toList.take n ++ tail)
    | _ => path

/-- The modules that an imported path means: those at the path itself, else at its other ending, else at
its index files, else those directly in the directory of that name. -/
def resolved (modules : List Placed) (modulePath : String) : List Placed :=
  let stem := Projection.dropEnding moduleEndings modulePath
  let at_ (path : String) := modules.filter fun (m, _) => m.path == path
  let exact := [modulePath, stem ++ ".tsx", stem ++ "/index.ts", stem ++ "/index.tsx"].map at_
  (exact.find? (!·.isEmpty)).getD (modules.filter fun (m, _) => directoryOf m.path == stem)

/-- The module links of the usages, importer first. -/
def moduleLinks (modules : List Placed) (usages : Table FileUsage) : List (Placed × Placed) :=
  usages.flatMap fun (file, usage) =>
    (modules.filter fun (m, _) => m.path == file).flatMap fun source =>
      usage.modulePaths.flatMap fun path =>
        ((resolved modules path).filter fun target => target.1.name != source.1.name).map
          fun target => (source, target)

/-- Modules that import each other are linked on both sides. -/
def modules (items : List Item) (analysis : Analysis) : List Addition :=
  (moduleLinks (ofKind .module items) analysis.usages).flatMap fun (source, target) =>
    [⟨source.2, .usedModules, [target.1.name]⟩, ⟨target.2, .usedInModules, [source.1.name]⟩]

end Merge

/-- The merge passes. -/
inductive Pass where
  | forward
  | reverse
  | tables
  | modules
deriving DecidableEq, Repr, Inhabited

namespace Pass

/-- All passes in the order of a full run. -/
def all : List Pass := [forward, reverse, tables, modules]

/-- The additions that a pass makes. -/
def additions (pass : Pass) (items : List Item) (analysis : Analysis) : List Addition :=
  match pass with
  | forward => Merge.forward items analysis
  | reverse => Merge.reverse items analysis
  | tables => Merge.tables items
  | modules => Merge.modules items analysis

/-- Runs one pass and counts the entries it adds. -/
def run (pass : Pass) (items : List Item) (analysis : Analysis) : List Item × Int :=
  Merge.applyAll items (pass.additions items analysis)

end Pass

/-- The number of entries that each pass added. -/
structure MergeStats where
  forward : Int := 0
  reverse : Int := 0
  tables : Int := 0
  modules : Int := 0
deriving DecidableEq, Repr, Inhabited

/-- The number of entries that all passes added. -/
def MergeStats.total (s : MergeStats) : Int := s.forward + s.reverse + s.tables + s.modules

namespace Merge

/-- Runs the two passes that infer links from references, and counts the entries they add together. -/
def runInferred (items : List Item) (analysis : Analysis) : List Item × Int :=
  let (items, forward) := Pass.forward.run items analysis
  let (items, reverse) := Pass.reverse.run items analysis
  (items, forward + reverse)

/-- Runs every pass in order. -/
def runAll (items : List Item) (analysis : Analysis) : List Item × MergeStats :=
  let (items, forward) := Pass.forward.run items analysis
  let (items, reverse) := Pass.reverse.run items analysis
  let (items, tables) := Pass.tables.run items analysis
  let (items, modules) := Pass.modules.run items analysis
  (items, { forward, reverse, tables, modules })

end Merge

/-!
## Report of a merge

The counts of a full merge run, as they are logged and summarised.
-/

/-- The counts by pass, with their total. -/
def MergeStats.fields (s : MergeStats) : List (String × Json) :=
  [("forward", .int s.forward), ("reverse", .int s.reverse), ("tables", .int s.tables),
   ("modules", .int s.modules), ("total", .int s.total)]

/-- The event that ends a merge run over a number of items. -/
def MergeStats.event (s : MergeStats) (items : Nat) : LogEvent :=
  { severity := .info, name := "merge_passes_completed", fields := ("items", .int items) :: s.fields }

end FeatureAtlas
