import FeatureAtlas.Config.Schema
import FeatureAtlas.Distinct
import FeatureAtlas.FileTree.Basic
import FeatureAtlas.Import.Resolution
import FeatureAtlas.Json.Comment
import FeatureAtlas.Json.Reader
import FeatureAtlas.Text.Integer

/-!
# Compiler options

A project may have a compiler configuration, a JSON file with comments. Its options tell which import
specifiers are aliases for paths inside the project.
-/

namespace FeatureAtlas

/-- Why a project cannot be opened. -/
inductive ProjectError where
  | noTsconfig (path : Path)
  | unreadable (path : Path) (e : FileError)
  /-- The file is no text; the message is about its bytes alone. -/
  | notText (e : Utf8Error)
  /-- The file cannot be looked for; the message is the system's. -/
  | notSought (e : FileError)
  | invalidJson (path : Path) (source : String) (e : Json.ReadError)
  /-- An integer in the file has too many digits; the message is about the integer alone. -/
  | longInteger (digits : Nat)
  | rootNotObject (path : Path)
  | optionsNotObject (path : Path)
deriving Inhabited

/-- The message about a project that cannot be opened. -/
def ProjectError.message : ProjectError → String
  | noTsconfig path => "tsconfig not found: " ++ path.toString
  | unreadable path e => "unable to read tsconfig " ++ path.toString ++ ": " ++ e.message
  | notText e => e.message
  | notSought e => e.message
  | longInteger digits =>
    s!"Exceeds the limit ({Text.integerDigitLimit} digits) for integer string conversion: " ++
      s!"value has {digits} digits; use sys.set_int_max_str_digits() to increase the limit"
  | invalidJson path source e => "invalid tsconfig " ++ path.toString ++ ": " ++ e.message source
  | rootNotObject path => "tsconfig root must be an object: " ++ path.toString
  | optionsNotObject path => "compilerOptions must be an object: " ++ path.toString

/-- The options of a compiler configuration. -/
abbrev CompilerOptions := Table Json

namespace CompilerOptions

/-- The options in a text; a configuration without any has none. -/
def ofText (path : Path) (text : String) : Except ProjectError CompilerOptions :=
  let source := Json.withoutComments text
  match Json.longInteger? Text.integerDigitLimit source with
  | some digits => .error (.longInteger digits)
  | none =>
    match Json.read source with
    | .error e => .error (.invalidJson path source e)
    | .ok (.obj fields) =>
      match fields.lookup "compilerOptions" with
      | none => .ok []
      | some (.obj options) => .ok options
      | some _ => .error (.optionsNotObject path)
    | .ok _ => .error (.rootNotObject path)

/-- The file with the options of a project: the given one, or else the usual one. -/
def fileOf (root : List String) (tsconfig : Option Path) : Path :=
  (FileNode.pathOf root).join (tsconfig.getD (Path.ofString Config.defaultTsconfig))

/-- The options of a project: those of the given file, which has to exist, or else those of the usual
one, if it exists. -/
def load (t : FileNode) (root : List String) (tsconfig : Option Path) :
    Except ProjectError CompilerOptions :=
  let path := fileOf root tsconfig
  match t.present root path with
  | .error e => .error (.notSought e)
  | .ok false => if tsconfig.isSome then .error (.noTsconfig path) else .ok []
  | .ok true =>
    match t.readText root path with
    | .error (.refused e) => .error (.unreadable path e)
    | .error (.notText e) => .error (.notText e)
    | .ok text => ofText path text

/-- The alias that a path pattern stands for: patterns end in a slash and a star. -/
def aliasOf? (pattern : String) : Option String :=
  if Text.endsWith pattern "/*" then some (Text.removeSuffix pattern "*") else none

/-- The aliases of a project: the usual one, and those of the path patterns. -/
def aliases (options : CompilerOptions) : List String :=
  match options.lookup "paths" with
  | some (.obj paths) => (paths.filterMap fun (p, _) => aliasOf? p).foldl appendNew [Import.defaultAlias]
  | _ => [Import.defaultAlias]

end CompilerOptions

end FeatureAtlas
