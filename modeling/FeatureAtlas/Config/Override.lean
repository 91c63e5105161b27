import FeatureAtlas.Config.Merge
import FeatureAtlas.Text.Case
import FeatureAtlas.Text.Integer
import FeatureAtlas.Text.Printable

/-!
# Overrides

Environment variables and command line options override single settings. The variable of a setting is
named after its path; its text is read as the kind of value that it overrides. Settings about the
configuration itself have no variable.
-/

namespace FeatureAtlas

/-- An override that cannot be read. -/
inductive OverrideError where
  | notInteger (variableName : String) (path : List String)
  | notBoolean (variableName : String) (path : List String)
  | emptyKey (key : String)
deriving DecidableEq, Repr, Inhabited

/-- The message about an override. -/
def OverrideError.message : OverrideError → String
  | notInteger variableName path =>
    variableName ++ " -> " ++ Text.join "." path ++ " must be an integer"
  | notBoolean variableName path =>
    variableName ++ " -> " ++ Text.join "." path ++
      " must be a boolean (true/false/1/0/yes/no/on/off)"
  | emptyKey key => "invalid CLI override key " ++ Text.quoted key

/-- Kinds of values that an environment variable can override. -/
inductive OverrideKind where
  | text
  | integer
  | boolean
  | list
deriving DecidableEq, Repr, Inhabited

namespace Override

/-- The kind of a value, if it can be overridden. -/
def kind? : Setting → Option OverrideKind
  | .bool _ => some .boolean
  | .int _ => some .integer
  | .str _ => some .text
  | .list _ => some .list
  | _ => none

mutual

/-- The values below a setting that are no mappings, with their paths, in ascending order of keys. -/
def leaves (path : List String) : Setting → List (List String × Setting)
  | .map entries => (Text.sortKeys (leavesBelow path entries)).flatMap Prod.snd
  | v => [(path, v)]

/-- The leaves below each entry with a text key. -/
def leavesBelow (path : List String) :
    List (SettingKey × Setting) → List (String × List (List String × Setting))
  | [] => []
  | (.text k, v) :: rest => (k, leaves (path ++ [k]) v) :: leavesBelow path rest
  | _ :: rest => leavesBelow path rest

end

/-- The environment variable of a path. -/
def variableName (path : List String) : String :=
  "FEATUREMAP_" ++ Text.join "_" (path.map Text.upper)

/-- What an environment variable overrides. -/
structure Binding where
  path : List String
  kind : OverrideKind
deriving DecidableEq, Repr, Inhabited

/-- The variables of all settings that can be overridden; of two settings with one variable the later
one counts. -/
def bindings (config : Setting) : Table Binding :=
  Table.ofEntries ((leaves [] config).filterMap fun (path, v) =>
    if path.head? == some "meta" then none
    else (kind? v).map fun kind => (variableName path, ⟨path, kind⟩))

/-- Words for yes. -/
def yesWords : List String := ["1", "true", "t", "yes", "y", "on"]

/-- Words for no. -/
def noWords : List String := ["0", "false", "f", "no", "n", "off"]

/-- Reads the text of a variable as a kind of value. -/
def coerce (name : String) (b : Binding) (raw : String) : Except OverrideError Setting :=
  let value := Text.strip raw
  match b.kind with
  | .text => .ok (.str value)
  | .list =>
    .ok (.strings (((Text.split ',' value).map Text.strip).filter (· != "")))
  | .integer =>
    match Text.integer? value with
    | some n => .ok (.int n)
    | none => .error (.notInteger name b.path)
  | .boolean =>
    let word := Text.lower value
    if yesWords.contains word then .ok (.bool true)
    else if noWords.contains word then .ok (.bool false)
    else .error (.notBoolean name b.path)

/-- Sets one variable's value, if the environment has it. -/
def addVariable (environment : Table String) (target : List (SettingKey × Setting))
    (entry : String × Binding) : Except OverrideError (List (SettingKey × Setting)) := do
  match environment.lookup entry.1 with
  | none => return target
  | some raw => return Setting.setPath (← coerce entry.1 entry.2 raw) entry.2.path target

/-- The overrides of the environment for a configuration. -/
def ofEnvironment (config : Setting) (environment : Table String) :
    Except OverrideError (List (SettingKey × Setting)) :=
  (Text.sortKeys (bindings config)).foldlM (addVariable environment) []

/-- Sets one command line option's value, unless it is null. -/
def addOption (target : List (SettingKey × Setting)) (entry : String × Setting) :
    Except OverrideError (List (SettingKey × Setting)) :=
  match entry.2 with
  | .null => .ok target
  | value =>
    let path := (Text.split '.' entry.1).filter (· != "")
    if path.isEmpty then .error (.emptyKey entry.1) else .ok (Setting.setPath value path target)

/-- The overrides of command line options with dotted names. -/
def ofOptions (options : Table Setting) : Except OverrideError (List (SettingKey × Setting)) :=
  (Text.sortKeys options).foldlM addOption []

end Override

end FeatureAtlas
