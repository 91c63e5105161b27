import FeatureAtlas.Log.Event
import FeatureAtlas.Project.CompilerOptions
import FeatureAtlas.Syntax.Grammar

/-!
# Source projects

A project reads source files on demand and answers questions about their syntax. The imports of a file are
found at the first question for them and kept, and the rendered and called names together at the first
question for one of these. Releasing a file drops its syntax but not what was kept. Closing a project releases
all its files; who holds one of them may still ask it, so a closed project has the files but shows none.
-/

namespace FeatureAtlas

/-- A file of a project. -/
structure SourceFile where
  path : String
  /-- What its syntax shows; nothing after it was released. -/
  findings : SyntaxFindings
  released : Bool := false
  /-- The imports, once they were asked for. -/
  imports? : Option (List ImportDeclaration) := none
  /-- The tags of elements, once a name was asked for. -/
  tags? : Option (List String) := none
  /-- The texts of called expressions, once a name was asked for. -/
  callees? : Option (List String) := none
deriving Repr, Inhabited

/-- What a project refuses. -/
inductive ProjectFault where
  | released (path : String)
  | closed
deriving DecidableEq, Repr, Inhabited

/-- The message about what a project refuses. -/
def ProjectFault.message : ProjectFault → String
  | released path => "syntax tree for " ++ path ++ " was released"
  | closed => "source project is closed"

namespace SourceFile

/-- What the syntax of a file shows, unless it was released. -/
def shown (f : SourceFile) : Except ProjectFault SyntaxFindings :=
  if f.released then .error (.released f.path) else .ok f.findings

/-- The imports of a file, and the file after the question. -/
def askImports (f : SourceFile) : Except ProjectFault (List ImportDeclaration × SourceFile) :=
  match f.imports? with
  | some imports => .ok (imports, f)
  | none => do
    let shown ← f.shown
    return (shown.imports, { f with imports? := some shown.imports })

/-- The tags and the callees of a file, and the file after the question. -/
def usageIndex (f : SourceFile) : Except ProjectFault ((List String × List String) × SourceFile) :=
  match f.tags?, f.callees? with
  | some tags, some callees => .ok ((tags, callees), f)
  | _, _ => do
    let shown ← f.shown
    return ((shown.tags, shown.callees),
      { f with tags? := some shown.tags, callees? := some shown.callees })

/-- Whether something holds of the rendered and called names of a file, and the file after the
question. -/
def askUses (f : SourceFile) (question : SyntaxFindings → Bool) :
    Except ProjectFault (Bool × SourceFile) := do
  let ((tags, callees), f) ← f.usageIndex
  return (question { tags, callees }, f)

/-- The file without its syntax. -/
def release (f : SourceFile) : SourceFile := { f with findings := {}, released := true }

end SourceFile

/-- A project: where it is, its compiler options and the files read so far, by relative path. -/
structure SourceProject where
  root : List String
  options : CompilerOptions := []
  files : Table SourceFile := []
  closed : Bool := false
deriving Inhabited

namespace SourceProject

/-- Opens the project in a directory. -/
def ofDirectory (t : FileNode) (root : List String) (tsconfig : Option Path) :
    Except ProjectError SourceProject := do
  return { root, options := ← CompilerOptions.load t root tsconfig }

/-- The aliases of the project. -/
def aliases (p : SourceProject) : List String := p.options.aliases

/-- Whether a specifier starts with an alias. -/
def isAlias (p : SourceProject) (specifier : String) : Bool :=
  p.aliases.any (Text.startsWith specifier)

/-- The files of the project; a closed one has none. -/
def sourceFiles (p : SourceProject) : List SourceFile :=
  if p.closed then [] else p.files.map Prod.snd

/-- The event of a file that cannot be read. -/
def skipped (path error : String) : LogEvent :=
  { severity := .warning, name := "source_file_skipped"
    fields := [("path", .str path), ("error", .str error)] }

/-- The path of a file from the root of the file system. -/
def absolutePath (p : SourceProject) (path : Path) : Path := (FileNode.pathOf p.root).join path

/-- The path of a file as the project knows it. -/
def relativePath (p : SourceProject) (path : Path) : String :=
  ((p.absolutePath path).relativeTo (FileNode.pathOf p.root)).toString

/-- Reads a file for the first time. -/
def readFile (t : FileNode) (p : SourceProject) (path : Path) : Except ReadFailure SourceFile := do
  let absolute := p.absolutePath path
  let source ← t.readRawText p.root absolute
  return {
    path := p.relativePath path
    findings := .ofSource source (SyntaxFindings.markupSuffixes.contains absolute.suffix) }

/-- Adds a file unless it is known; a file that cannot be read is skipped. -/
def add (t : FileNode) (p : SourceProject) (path : Path) :
    Except ProjectFault (SourceProject × Option SourceFile × List LogEvent) :=
  if p.closed then .error .closed
  else
    let relative := p.relativePath path
    match p.files.lookup relative with
    | some known => .ok (p, some known, [])
    | none =>
      match p.readFile t path with
      | .error e => .ok (p, none, [skipped relative e.message])
      | .ok f => .ok ({ p with files := p.files.set relative f }, some f, [])

/-- Adds files in order. -/
def addAll (t : FileNode) (p : SourceProject) :
    List Path → Except ProjectFault (SourceProject × List SourceFile × List LogEvent)
  | [] => .ok (p, [], [])
  | path :: rest => do
    let (p, added, events) ← p.add t path
    let (p, more, moreEvents) ← p.addAll t rest
    return (p, added.toList ++ more, events ++ moreEvents)

/-- The imports of a known file, and the project after the question. -/
def askImports (p : SourceProject) (path : String) :
    Except ProjectFault (Option (List ImportDeclaration) × SourceProject) :=
  match p.files.lookup path with
  | none => .ok (none, p)
  | some f => do
    let (imports, f) ← f.askImports
    return (some imports, { p with files := p.files.set path f })

/-- Whether something holds of the names in a known file, and the project after the question. -/
def askUses (p : SourceProject) (path : String) (question : SyntaxFindings → Bool) :
    Except ProjectFault (Option Bool × SourceProject) :=
  match p.files.lookup path with
  | none => .ok (none, p)
  | some f => do
    let (answer, f) ← f.askUses question
    return (some answer, { p with files := p.files.set path f })

/-- Releases a known file. -/
def release (p : SourceProject) (path : String) : SourceProject :=
  { p with files := p.files.map fun (k, f) => if k == path then (k, f.release) else (k, f) }

/-- Closes the project. -/
def close (p : SourceProject) : SourceProject :=
  { p with files := p.files.map fun (k, f) => (k, f.release), closed := true }

end SourceProject

end FeatureAtlas
