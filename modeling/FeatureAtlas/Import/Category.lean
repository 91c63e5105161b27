import FeatureAtlas.Pattern.Match
import FeatureAtlas.Pattern.Reader

/-!
# Import categories

Three lists of path patterns decide what an import specifier refers to. The lists are tried in order,
and the first one with a match wins.
-/

namespace FeatureAtlas

/-- What an import refers to. -/
inductive ImportCategory where
  | component
  | action
  | module
  | none
deriving DecidableEq, Repr, Inhabited

/-- The pattern lists of the categories. -/
structure ImportPatterns where
  component : List Pattern
  action : List Pattern
  module : List Pattern
deriving Repr, Inhabited

/-- The texts of pattern lists. -/
structure PatternTexts where
  component : List String
  action : List String
  module : List String
deriving DecidableEq, Repr, Inhabited

namespace PatternTexts

/-- The pattern lists of an unconfigured project. -/
def default : PatternTexts where
  component := ["/components/", "@/components/", "/app/.*/components/"]
  action := ["/lib/actions/", "@/lib/actions/", "/actions/", "@/actions/"]
  module := ["/lib/(?!actions)", "@/lib/(?!actions)"]

/-- Compiles a list of pattern texts; the first text that is no pattern is reported. -/
def compileAll : List String → Except (String × PatternError) (List Pattern)
  | [] => .ok []
  | s :: rest =>
    match Pattern.compile s with
    | .error e => .error (s, e)
    | .ok p => (compileAll rest).map (p :: ·)

/-- The compiled lists. -/
def compile (t : PatternTexts) : Except (String × PatternError) ImportPatterns := do
  return ⟨← compileAll t.component, ← compileAll t.action, ← compileAll t.module⟩

end PatternTexts

namespace ImportCategory

/-- The category of an import specifier. -/
def ofSpecifier (patterns : ImportPatterns) (specifier : String) : ImportCategory :=
  if patterns.component.any (·.occursIn specifier) then component
  else if patterns.action.any (·.occursIn specifier) then action
  else if patterns.module.any (·.occursIn specifier) then module
  else none

end ImportCategory

end FeatureAtlas
