import FeatureAtlas.Comment.Block
import FeatureAtlas.Comment.Tag
import FeatureAtlas.Item.Basic

/-!
# Items declared by a block

A documentation block declares an item by one of five tags, the first present one in the order screen,
component, server action, module, table.
-/

/-!
## File metadata

The first documentation block of a file's header speaks for the whole file.
-/

namespace FeatureAtlas

/-- What the header block says about a file. -/
structure FileMetadata where
  feature : Option String := none
  usedInScreens : List String := []
  usedInComponents : List String := []
  dbTables : List String := []
  moduleDescription : Option String := none
  moduleName : Option String := none
deriving DecidableEq, Repr, Inhabited

/-- A text unless it is empty. -/
def nonempty? (s : Option String) : Option String := s.filter (· != "")

/-- The metadata of a header text. At file level the plural component tag lists the users of the
file. -/
def FileMetadata.ofHeader (header : String) : FileMetadata :=
  match Comment.firstBlock? header with
  | none => {}
  | some block =>
    let tags := Comment.tags block.text
    { feature := tags.lookup "feature"
      usedInScreens := Comment.entriesOf (tags.lookup "usedInScreen")
      usedInComponents := Comment.entriesOf (tags.lookup "usedComponents")
      dbTables := Comment.entriesOf (tags.lookup "dbTables")
      moduleDescription := (nonempty? (tags.lookup "description")).or (Comment.description? block.text)
      moduleName := tags.lookup "module" }

end FeatureAtlas

/-! ## Declared items -/

namespace FeatureAtlas.Extraction

/-- A tag's value if it is not empty. -/
def value? (tags : Table String) (tag : String) : Option String := nonempty? (tags.lookup tag)

/-- Whether the tags declare an item of some kind. -/
def declaresItem (tags : Table String) : Bool :=
  (value? tags "screen").isSome || (value? tags "component").isSome || (value? tags "module").isSome ||
    (value? tags "dbTable").isSome || (tags.lookup "serverAction").isSome

/-- The names of a directory and a file of the form `lib/<directory>/<file>.ts` that end a path. The
directory may end a longer segment's tail, as in `my-lib/a/b.ts`. -/
def libraryNames? (path : String) : Option (String × String) := do
  let cs := path.toList
  let (body, _) := Projection.lastBreak cs
  let stem ← ([cs, body].findSome? fun t =>
    if ['.', 't', 's'].isSuffixOf t then some (t.take (t.length - 3)) else none)
  match (Text.splitOn '/' stem).reverse with
  | file :: directory :: parent :: _ =>
    if !file.isEmpty && file.all Text.isWord && !directory.isEmpty && directory.all Text.isWord &&
        ['l', 'i', 'b'].isSuffixOf parent then
      some (String.ofList directory, String.ofList file)
    else none
  | _ => none

/-- The name of a module: the declared name with dashes for slashes, else the library names, else the
file name. -/
def moduleItemName (path : String) (defaultName : Option String) : String :=
  match nonempty? defaultName with
  | some name => String.ofList (Text.replaceChar '/' ['-'] name.toList)
  | none =>
    match libraryNames? path with
    | some (directory, file) => directory ++ "-" ++ file
    | none =>
      let stem := Projection.dropEnding [".ts", ".tsx"] (Path.ofString path).name
      if stem == "" then "unknown" else stem

/-- The kind and name that the tags declare. -/
def declared? (tags : Table String) (path : String) (defaultName : Option String) :
    Option (ItemKind × Option String) :=
  match value? tags "screen" with
  | some name => some (.screen, some name)
  | none => match value? tags "component" with
    | some name => some (.component, some name)
    | none =>
      if (tags.lookup "serverAction").isSome then some (.action, defaultName)
      else if (value? tags "module").isSome then some (.module, some (moduleItemName path defaultName))
      else (value? tags "dbTable").map fun name => (.table, some name)

/-- A list, or a fallback for the empty list. -/
def orElse (xs fallback : List String) : List String := if xs.isEmpty then fallback else xs

/-- The relationships that the tags declare for an item of a kind. -/
def declaredLinks (kind : ItemKind) (tags : Table String) (metadata : FileMetadata) : Links :=
  let listed (tag : String) := Comment.entriesOf (tags.lookup tag)
  match kind with
  | .screen => { usedComponents := listed "usedComponents", usedActions := listed "usedActions" }
  | .component => { usedInScreens := listed "usedInScreen", usedActions := listed "usedActions" }
  | .action =>
    { usedInScreens := orElse (listed "usedInScreen") metadata.usedInScreens
      usedInComponents := orElse (listed "usedInComponent") metadata.usedInComponents
      dbTables := orElse (listed "dbTables") metadata.dbTables }
  | .module => { usedInScreens := listed "usedInScreen", usedInActions := listed "usedInActions" }
  | .table => { usedInActions := listed "usedInActions" }

/-- The item that a block declares, if any. -/
def item? (block path : String) (defaultName : Option String) (metadata : FileMetadata) :
    Option Item := do
  let tags := Comment.tags block
  let (kind, name) ← declared? tags path defaultName
  let name ← nonempty? name
  return {
    kind, name, path
    feature := (value? tags "feature").or metadata.feature
    app := Projection.owningApp path
    route := if kind == .screen then tags.lookup "route" else none
    description := Comment.description? block
    actionKind := if kind == .action then Projection.actionKind? path else none
    category := if kind == .module then tags.lookup "module" else none
    links := declaredLinks kind tags metadata }

end FeatureAtlas.Extraction
