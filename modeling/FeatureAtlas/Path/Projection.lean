import FeatureAtlas.Path.Basic
import FeatureAtlas.Text.Case

/-!
# What a project-relative path says

Module names, owning apps, kinds of actions and roles of files are read off the path alone. Backslashes
count as slashes, and leading `./` are dropped.
-/

namespace FeatureAtlas

/-- Server actions are generic record operations or business operations. -/
inductive ActionKind where
  | crud
  | domain
deriving DecidableEq, Repr, Inhabited

namespace ActionKind

/-- The name of an action kind. -/
def text : ActionKind → String
  | crud => "CRUD"
  | domain => "Domain"

end ActionKind

namespace Projection

/-- Drops leading `./` as often as it stands there. -/
def dropDotSlash : List Char → List Char
  | '.' :: '/' :: rest => dropDotSlash rest
  | cs => cs

/-- The path with forward slashes and without leading `./`. -/
def normalize (path : String) : String :=
  String.ofList (dropDotSlash (Text.replaceChar '\\' ['/'] path.toList))

/-- A text without its last line break, and that line break. -/
def lastBreak (cs : List Char) : List Char × List Char :=
  if cs.getLast? == some '\n' then (cs.dropLast, ['\n']) else (cs, [])

/-- A text in front of the first of the given endings that it has, and what follows the ending: nothing,
or a final line break. -/
def cutEnding? (endings : List String) (cs : List Char) : Option (List Char × List Char) :=
  let cutAt (body tail : List Char) : Option (List Char × List Char) :=
    (endings.find? fun e => e.toList.isSuffixOf body).map fun e =>
      (body.take (body.length - e.toList.length), tail)
  (cutAt cs []).or (cutAt (lastBreak cs).1 (lastBreak cs).2)

/-- Drops the first of the given endings that the text has, also in front of a final line break. -/
def dropEnding (endings : List String) (s : String) : String :=
  match cutEnding? endings s.toList with
  | none => s
  | some (body, tail) => String.ofList (body ++ tail)

/-- The endings of source files. -/
def sourceEndings : List String := [".ts", ".tsx", ".js", ".jsx"]

/-- A file name without its source ending. -/
def dropSourceEnding (name : String) : String := dropEnding sourceEndings name

/-- Directory names that never make a meaningful module name on their own. -/
def genericDirectories : List String :=
  ["app", "lib", "src", "components", "actions", "schema", "apps", "packages", "web", "admin",
   "public"]

/-- A text between an opening and a closing character, which may be the same one. -/
def isBracketed (opening closing : Char) (cs : List Char) : Bool :=
  cs.head? == some opening && cs.getLast? == some closing

/-- The module that a directory names: route groups give their inner name, dynamic segments and
generic directories none. -/
def directoryModule? (directory : String) : Option String :=
  let cs := directory.toList
  if isBracketed '(' ')' cs then some (String.ofList ((cs.drop 1).dropLast))
  else if isBracketed '[' ']' cs then none
  else if directory != "" && !genericDirectories.contains (Text.lower directory) then some directory
  else none

/-- The module of a file: the innermost directory that names one, else the file itself. -/
def moduleName (path : String) : String :=
  let segments := Text.split '/' (normalize path)
  (segments.dropLast.reverse.findSome? directoryModule?).getD
    (dropSourceEnding (segments.getLast?.getD ""))

/-- The first segment below a directory of the given name, if a slash follows it. The directory stands
at the start or after a slash. -/
def segmentBelow? (directory : String) : List String → Option String
  | [] => none
  | d :: rest =>
    match rest with
    | name :: _ :: _ => if d == directory && name != "" then some name
        else segmentBelow? directory rest
    | _ => none

/-- The name with its first character in upper case. -/
def capitalize (name : String) : String :=
  match name.toList with
  | [] => ""
  | c :: cs => String.ofList (Text.upperChar c ++ cs)

/-- Apps whose display name is fixed, by directory name in lower case. -/
def appNames : List (String × String) :=
  [("admin", "Admin"), ("public", "Public"), ("web", "Web"), ("api", "API"), ("mcp", "API")]

/-- The app of files outside every app and package. -/
def unknownApp : String := "Unknown"

/-- The app of files in packages. -/
def sharedApp : String := "Shared"

/-- The display name of the app or package that owns a file. -/
def owningApp (path : String) : String :=
  let segments := Text.split '/' (normalize path)
  match segmentBelow? "apps" segments with
  | some directory => (appNames.lookup (Text.lower directory)).getD (capitalize directory)
  | none => if (segmentBelow? "packages" segments).isSome then sharedApp else unknownApp

/-- The leading `apps/<name>` directory of a path. -/
def appDirectory? (path : String) : Option String :=
  match Text.split '/' (normalize path) with
  | "apps" :: name :: _ :: _ => if name == "" then none else some ("apps/" ++ name)
  | _ => none

/-- The kind of the actions in a file, by the directory below `actions`. -/
def actionKind? (path : String) : Option ActionKind :=
  let p := normalize path
  if Text.contains p "/actions/crud/" then some .crud
  else if Text.contains p "/actions/domain/" then some .domain
  else none

/-- The name of the file without its source ending. -/
def elementName (path : String) : String :=
  dropSourceEnding (Path.ofString (normalize path)).name

/-- A page below an `app` directory. -/
def isScreenFile (path : String) : Bool :=
  let p := normalize path
  Text.contains p "/app/" && Text.endsWith p "/page.tsx"

/-- A TSX file below a `components` directory. -/
def isComponentFile (path : String) : Bool :=
  let p := normalize path
  Text.contains p "/components/" && Text.endsWith p ".tsx"

/-- A TypeScript file below an `actions` directory. -/
def isActionFile (path : String) : Bool :=
  let p := normalize path
  Text.contains p "/actions/" && Text.endsWith p ".ts"

/-- A middleware file. -/
def isMiddlewareFile (path : String) : Bool :=
  let p := normalize path
  Text.endsWith p "/middleware.ts" || Text.endsWith p "/middleware.tsx"

/-- A layout below an `app` directory. -/
def isLayoutFile (path : String) : Bool :=
  let p := normalize path
  Text.contains p "/app/" && Text.endsWith p "/layout.tsx"

/-- The capitalised app directory that owns a file, or `App` outside every app. -/
def appLabel (path : String) : String :=
  match segmentBelow? "apps" (Text.split '/' (normalize path)) with
  | some directory => capitalize directory
  | none => "App"

end Projection

end FeatureAtlas
