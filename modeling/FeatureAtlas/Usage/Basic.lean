import FeatureAtlas.Json.Value
import FeatureAtlas.Table

/-!
# Usages

A file's usage lists what the file verifiably uses. The reverse index inverts the usages of all files:
it lists, for each name, the files that use it, in the order of the analysis and without removing
repetitions.
-/

namespace FeatureAtlas

/-- The verified usages of one source file. -/
structure FileUsage where
  path : String
  components : List String := []
  actions : List String := []
  modules : List String := []
  modulePaths : List String := []
deriving DecidableEq, Repr, Inhabited

/-- A usage without names is empty; module paths alone do not count. -/
def FileUsage.isEmpty (u : FileUsage) : Bool :=
  u.components.isEmpty && u.actions.isEmpty && u.modules.isEmpty

/-- For each name or module path, the files that refer to it. -/
structure ReverseIndex where
  components : Table (List String) := []
  actions : Table (List String) := []
  modules : Table (List String) := []
  modulePaths : Table (List String) := []
deriving Repr, Inhabited

namespace ReverseIndex

/-- Records a file under each of the names it uses. -/
def record (file : String) (names : List String) (t : Table (List String)) : Table (List String) :=
  names.foldl (fun t name => t.push name file) t

/-- Inverts the usages. -/
def ofUsages (usages : Table FileUsage) : ReverseIndex where
  components := usages.foldl (fun t (file, u) => record file u.components t) []
  actions := usages.foldl (fun t (file, u) => record file u.actions t) []
  modules := usages.foldl (fun t (file, u) => record file u.modules t) []
  modulePaths := usages.foldl (fun t (file, u) => record file u.modulePaths t) []

end ReverseIndex

/-- The usages per file and their inversion. -/
structure Analysis where
  usages : Table FileUsage
  reverse : ReverseIndex
deriving Repr, Inhabited

/-- The analysis with the given usages. -/
def Analysis.ofUsages (usages : Table FileUsage) : Analysis := ⟨usages, .ofUsages usages⟩

/-!
## The JSON form of an analysis

Usages by file, and the files by what they use.
-/

/-- The fields of a usage. -/
def FileUsage.fields (u : FileUsage) : Table Json :=
  [("filePath", .str u.path), ("usedComponents", Json.strings u.components),
   ("usedActions", Json.strings u.actions), ("usedModules", Json.strings u.modules),
   ("usedModulePaths", Json.strings u.modulePaths)]

/-- The fields of a reverse index: for each kind of name, the files by name. -/
def ReverseIndex.fields (r : ReverseIndex) : Table (Table Json) :=
  let files (t : Table (List String)) : Table Json := t.map fun (k, v) => (k, Json.strings v)
  [("componentToFiles", files r.components), ("actionToFiles", files r.actions),
   ("moduleToFiles", files r.modules), ("modulePathToFiles", files r.modulePaths)]

/-- The fields of an analysis. -/
def Analysis.fields (a : Analysis) : Table Json :=
  [("fileUsages", .obj (a.usages.map fun (k, u) => (k, .obj u.fields))),
   ("reverseRefs", .obj (a.reverse.fields.map fun (k, t) => (k, .obj t)))]

end FeatureAtlas
