import FeatureAtlas.Distinct
import FeatureAtlas.Import.Category
import FeatureAtlas.Import.Resolution
import FeatureAtlas.Usage.Basic

/-!
# Verified usages of a file

An internal import counts as a use of a component only where the local name is rendered, and of an
action only where it is called. A module counts on import alone, by name and by resolved path.
-/

namespace FeatureAtlas

namespace FileUsage

/-- Records the names that one declaration verifiably uses. -/
def addDeclaration (patterns : ImportPatterns) (aliases : List String) (facts : SourceFacts)
    (u : FileUsage) (d : ImportDeclaration) : FileUsage :=
  if Import.isInternal aliases d.specifier then
    match ImportCategory.ofSpecifier patterns d.specifier with
    | .none => u
    | .component =>
      let rendered := d.bindings.filter fun b => facts.isRendered b.localName
      { u with components := (rendered.map (·.name)).foldl appendNew u.components }
    | .action =>
      let called := d.bindings.filter fun b => facts.isCalled b.localName
      { u with actions := (called.map (·.name)).foldl appendNew u.actions }
    | .module =>
      { u with
        modules := (d.bindings.map (·.name)).foldl appendNew u.modules
        modulePaths :=
          (Import.resolve? aliases u.path d.specifier).toList.foldl appendNew u.modulePaths }
  else u

/-- The verified usages of a file. -/
def ofFacts (patterns : ImportPatterns) (aliases : List String) (path : String)
    (facts : SourceFacts) : FileUsage :=
  facts.imports.foldl (addDeclaration patterns aliases facts) { path := Projection.normalize path }

end FileUsage

end FeatureAtlas
