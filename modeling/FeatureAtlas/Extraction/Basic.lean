import FeatureAtlas.Comment.Header
import FeatureAtlas.Declaration.ExportedType
import FeatureAtlas.Declaration.Name
import FeatureAtlas.Declaration.Utility
import FeatureAtlas.Extraction.Block

/-!
# Extraction

One file's text gives its metadata, its items, and its exported types and utilities. The header block
may declare an item for the whole file; component files without such a declaration are recognised by
their exported component; every block behind the header may declare an item of its own.
-/

namespace FeatureAtlas

/-- What one source file declares. -/
structure Extraction where
  path : String
  items : List Item := []
  metadata : FileMetadata := {}
  types : List ExportedType := []
  utilities : List Utility := []
deriving Repr, Inhabited

/-- The module that the file belongs to. -/
def Extraction.moduleName (e : Extraction) : String := Projection.moduleName e.path

namespace Extraction

/-- The text of a source from an offset on. -/
def textFrom (source : String) (offset : Nat) : String := String.ofList (source.toList.drop offset)

/-- The component that a component file exports, described by its header block if it has one. -/
def detectedComponent? (source path : String) (header : Option Comment.Block)
    (metadata : FileMetadata) : Option Item :=
  if Projection.isComponentFile path then
    (Declaration.componentName? source).map fun name =>
      let base : Item := { kind := .component, name, path, app := Projection.owningApp path }
      match header with
      | none => base
      | some block =>
        let tags := Comment.tags block.text
        { base with
          feature := metadata.feature
          description := Comment.description? block.text
          links :=
            { usedInScreens := metadata.usedInScreens
              usedComponents := Comment.entriesOf (tags.lookup "usedComponents")
              usedActions := Comment.entriesOf (tags.lookup "usedActions") } }
  else none

/-- The item of the whole file: declared by the header block, or a detected component. -/
def headerItem? (source path : String) (header : Option Comment.Block) (metadata : FileMetadata) :
    Option Item :=
  match header with
  | none => detectedComponent? source path none metadata
  | some block =>
    let tags := Comment.tags block.text
    if declaresItem tags then
      let named := (tags.lookup "serverAction").isSome || (tags.lookup "dbTable").isSome
      let name := if named then Declaration.itemName? (textFrom source block.stop) else none
      item? block.text path name metadata
    else detectedComponent? source path header metadata

/-- The items of the blocks behind the header, in source order. -/
def bodyItems (source path : String) (start : Nat) (metadata : FileMetadata) : List Item :=
  ((Comment.blocks source).filter fun b => start ≤ b.start).filterMap fun b =>
    item? b.text path (Declaration.itemName? (textFrom source b.stop)) metadata

/-- What a source file declares. -/
def ofSource (source path : String) : Extraction :=
  let path := Projection.normalize path
  let start := Comment.codeStart source
  let header := String.ofList (source.toList.take start)
  let metadata := FileMetadata.ofHeader header
  { path
    items :=
      (headerItem? source path (Comment.firstBlock? header) metadata).toList ++
        bodyItems source path start metadata
    metadata
    types := Declaration.exportedTypes source
    utilities := Declaration.exportedUtilities source }

end Extraction

/-!
## Summary over files

The items of all files, and per module the longest description and the types and utilities of its files,
where the first one of a name counts.
-/

/-- What all files together declare. -/
structure ExtractionSummary where
  items : List Item := []
  descriptions : Table String := []
  types : Table (List ExportedType) := []
  utilities : Table (List Utility) := []
deriving Repr, Inhabited

namespace ExtractionSummary

/-- The known entries followed by those with a new name. -/
def addNamed {α : Type} (name : α → String) (known added : List α) : List α :=
  added.foldl (fun known x => if known.any (name · == name x) then known else known ++ [x]) known

/-- The longer of two descriptions; of equally long ones the first. -/
def longer (known : Option String) (description : String) : String :=
  match known with
  | none => description
  | some k => if k.length < description.length then description else k

/-- Records a description under its module. -/
def addDescription (moduleName : String) (description : Option String) (t : Table String) :
    Table String :=
  match nonempty? description with
  | none => t
  | some d => t.modify moduleName fun known => longer known d

/-- Records named entries under their module. -/
def addEntries {α : Type} (name : α → String) (moduleName : String) (added : List α)
    (t : Table (List α)) : Table (List α) :=
  if added.isEmpty then t
  else t.modify moduleName fun known => addNamed name (known.getD []) added

/-- Adds what one file declares. -/
def add (s : ExtractionSummary) (e : Extraction) : ExtractionSummary where
  items := s.items ++ e.items
  descriptions := addDescription e.moduleName e.metadata.moduleDescription s.descriptions
  types := addEntries ExportedType.name e.moduleName e.types s.types
  utilities := addEntries Utility.name e.moduleName e.utilities s.utilities

/-- The summary of all files, in order. -/
def ofExtractions (es : List Extraction) : ExtractionSummary := es.foldl add {}

end ExtractionSummary

end FeatureAtlas
