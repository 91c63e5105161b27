import FeatureAtlas.Config.Merge
import FeatureAtlas.Path.Basic

/-!
# Path fields

Three fields of a configuration are paths. They are resolved against a base directory: variables of the
environment and home directories are expanded first, and the result is normalised.
-/

namespace FeatureAtlas

/-- The variables of a process. -/
abbrev Environment := Table String

namespace Environment

/-- The characters of a variable's name. -/
def isNameChar (c : Char) : Bool := c.isAlphanum || c == '_'

/-- A variable at the start of a text, behind its dollar sign: its name and what follows it. Braces around
the name allow any characters in it. -/
def variableAt? : List Char → Option (String × List Char)
  | '{' :: rest =>
    let name := rest.takeWhile (· != '}')
    match rest.drop name.length with
    | [] => none
    | _ :: after => some (String.ofList name, after)
  | cs =>
    let name := cs.takeWhile isNameChar
    if name.isEmpty then none else some (String.ofList name, cs.drop name.length)

/-- Expands variables; unknown ones stay as they are. The number bounds the characters. -/
def expandChars (environment : Environment) : Nat → List Char → List Char
  | 0, cs => cs
  | _ + 1, [] => []
  | fuel + 1, c :: cs =>
    if c == '$' then
      match variableAt? cs with
      | none => c :: expandChars environment fuel cs
      | some (name, after) =>
        match environment.lookup name with
        | some value => value.toList ++ expandChars environment fuel after
        | none => c :: cs.take (cs.length - after.length) ++ expandChars environment fuel after
    else c :: expandChars environment fuel cs

/-- Expands variables of the environment in a text. -/
def expand (environment : Environment) (s : String) : String :=
  String.ofList (expandChars environment s.length s.toList)

/-- The home directories of accounts that every system has. -/
def accountHomes : List (String × String) :=
  [("root", "/root"), ("daemon", "/usr/sbin"), ("bin", "/bin"), ("sys", "/dev"),
   ("nobody", "/nonexistent")]

/-- A text without the slashes at its end. -/
def dropSlashes (s : String) : String := String.ofList (s.toList.reverse.dropWhile (· == '/')).reverse

/-- The home directory that a segment starting with a tilde stands for. -/
def home? (environment : Environment) (segment : String) : Option String :=
  let directory? :=
    if segment == "~" then environment.lookup "HOME"
    else accountHomes.lookup (String.ofList (segment.toList.drop 1))
  directory?.map fun d => let d := dropSlashes d; if d == "" then "/" else d

end Environment

/-- A home directory that is not known. -/
inductive HomeError where
  | unknownHome
deriving DecidableEq, Repr, Inhabited

/-- The message about an unknown home directory. -/
def HomeError.message : HomeError → String
  | unknownHome => "Could not determine home directory."

namespace Path

/-- Expands a home directory at the start of a relative path. -/
def expandHome (environment : Environment) (p : Path) : Except HomeError Path :=
  match p.parts with
  | first :: rest =>
    if !p.isAbsolute && Text.startsWith first "~" then
      match environment.home? first with
      | none => .error .unknownHome
      | some d =>
        if Text.startsWith d "~" then .error .unknownHome
        else .ok ⟨(ofString d).root, (ofString d).parts ++ rest⟩
    else .ok p
  | [] => .ok p

end Path

namespace PathField

/-- The fields that are paths. -/
def all : List (List String) :=
  [["feature_map", "output_dir"], ["analysis", "tsconfig"], ["observability", "log_file"]]

/-- A path text resolved against a base directory. -/
def resolve (environment : Environment) (base : Path) (raw : String) : Except HomeError String := do
  let p ← (Path.ofString (environment.expand raw)).expandHome environment
  let q := if p.isAbsolute then p else base.join p
  return (Path.ofString (Path.normalizeText q.toString)).toString

/-- Resolves one field, if it holds a text that is not empty. -/
def resolveField (environment : Environment) (base : Path) (entries : List (SettingKey × Setting))
    (path : List String) : Except HomeError (List (SettingKey × Setting)) :=
  match Setting.atPath? path (.map entries) with
  | some (.str raw) =>
    if raw == "" then .ok entries
    else do return Setting.setPath (.str (← resolve environment base raw)) path entries
  | _ => .ok entries

/-- Resolves the path fields of a configuration. -/
def resolveAll (environment : Environment) (base : Path) (entries : List (SettingKey × Setting)) :
    Except HomeError (List (SettingKey × Setting)) :=
  all.foldlM (resolveField environment base) entries

end PathField

end FeatureAtlas
