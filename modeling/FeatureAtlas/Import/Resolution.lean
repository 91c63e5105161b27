import FeatureAtlas.Path.Projection

/-!
# Resolving import specifiers

A specifier under an alias is taken below the importer's app directory, a relative one from the
importer's own directory. Other specifiers name packages and resolve to nothing.
-/

/-!
## Import declarations

What a source file imports: a module specifier with the names it binds. An import may bind a default name
and named exports under local names, or nothing at all.
-/

namespace FeatureAtlas

/-- A named import: the exported name and the name it has in the importing file. -/
structure ImportBinding where
  name : String
  localName : String
deriving DecidableEq, Repr, Inhabited

/-- One import declaration. -/
structure ImportDeclaration where
  specifier : String
  defaultName : Option String := none
  named : List ImportBinding := []
deriving DecidableEq, Repr, Inhabited

/-- All bindings of a declaration; the default name comes last and is its own local name. -/
def ImportDeclaration.bindings (d : ImportDeclaration) : List ImportBinding :=
  d.named ++ (d.defaultName.map fun n => (⟨n, n⟩ : ImportBinding)).toList

/-- What the analysis asks of a source file. -/
structure SourceFacts where
  imports : List ImportDeclaration
  /-- A local name is rendered as an element. -/
  isRendered : String → Bool
  /-- A local name is called. -/
  isCalled : String → Bool

end FeatureAtlas

/-! ## Resolution -/

namespace FeatureAtlas.Import

/-- The alias that projects have unless they configure others. -/
def defaultAlias : String := "@/"

/-- A module path with a source ending. -/
def withEnding (path : String) : String :=
  if Text.endsWith path ".ts" || Text.endsWith path ".tsx" then path else path ++ ".ts"

/-- A specifier is internal to the project if it is relative or under an alias. -/
def isInternal (aliases : List String) (specifier : String) : Bool :=
  Text.startsWith specifier "." || aliases.any fun a => Text.startsWith specifier a

/-- The project-relative path of the file that a specifier refers to. -/
def resolve? (aliases : List String) (importer specifier : String) : Option String :=
  let importer := Projection.normalize importer
  match aliases.findSome? fun a => Text.after? a.toList specifier.toList with
  | some rest =>
    (Projection.appDirectory? importer).map fun app =>
      withEnding (app ++ "/" ++ String.ofList rest)
  | none =>
    if Text.startsWith specifier "." then
      some (withEnding (Path.normalizeText (Path.joinText (Path.directoryText importer) specifier)))
    else none

end FeatureAtlas.Import
