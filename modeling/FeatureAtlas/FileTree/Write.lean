import FeatureAtlas.FileTree.Canonical
import FeatureAtlas.Text.Encoding

/-!
# Writing files

A file is written under a temporary name in the directory of its target and then takes the target's name in
one step. Whatever step is refused, the temporary file goes again and the tree is as it was before.
-/

namespace FeatureAtlas

/-- What is written to a file. -/
inductive Payload where
  | bytes (content : List UInt8)
  | text (content encoding : String)
deriving DecidableEq, Repr, Inhabited

/-- The bytes that are written. -/
def Payload.encoded : Payload → Except EncodingError (List UInt8)
  | bytes content => .ok content
  | text content encoding => do (← Encoding.ofName encoding).encode content

/-- Why a file was not written. -/
inductive WriteError where
  | noParent (e : CanonicalError)
  | parentNotDirectory (parent : Path)
  | refused (e : FileError)
  | encoding (e : EncodingError)
deriving DecidableEq, Repr, Inhabited

/-- The message about a file that was not written. -/
def WriteError.message : WriteError → String
  | noParent e => e.message
  | parentNotDirectory parent => parent.toString ++ " is not a directory"
  | refused e => e.message
  | encoding e => e.message

/-- The steps of a write that the system may refuse for reasons of its own. -/
inductive WriteStep where
  | create
  | write
  | replace
deriving DecidableEq, Repr, Inhabited

namespace FileNode

/-- Whether the node at a place is a directory. -/
def isDirectoryAt (t : FileNode) (place : List String) : Bool :=
  ((t.node? place).bind entries?).isSome

/-- A new empty file in a directory. -/
def createFile (t : FileNode) (parent : List String) (name : String) : Except FileError FileNode :=
  if nameLimit < name.utf8ByteSize then
    .error { fault := .nameTooLong, path := (pathOf (parent ++ [name])).toString }
  else .ok (t.put parent name (file []))

/-- Moves a file from a place to a path, in the stead of what is there. A directory is not replaced, and
`..` is no name. -/
def replace (t : FileNode) (parent : List String) (name : String) (content : List UInt8)
    (cwd : List String) (target : Path) : Except FileError FileNode :=
  let refused (fault : FileFault) : FileError :=
    { fault, path := (pathOf (parent ++ [name])).toString, second := some target.toString }
  match t.locate cwd target.parent with
  | .error fault => .error (refused fault)
  | .ok place =>
    if !t.isDirectoryAt place then .error (refused .notDirectory)
    else if target.name == ".." || target.name == "" then .error (refused .busy)
    else if nameLimit < target.name.utf8ByteSize then .error (refused .nameTooLong)
    else if t.isDirectoryAt (place ++ [target.name]) then .error (refused .isDirectory)
    else .ok ((t.remove parent name).put place target.name (file content))

/-- A step that the system may refuse. -/
def attempt (refuse : WriteStep → Option FileFault) (step : WriteStep) (path : Path)
    (action : Except FileError FileNode) : Except FileError FileNode :=
  match refuse step with
  | some fault => .error { fault, path := path.toString }
  | none => action

/-- Writes a file under a temporary name and moves it to its target; `refuse` says which steps the system
refuses, and `fresh` is the part of the temporary name that no other file has. -/
def writeUnder (refuse : WriteStep → Option FileFault) (fresh : String) (cwd : List String)
    (target : Path) (data : Payload) (t : FileNode) : FileNode × Except WriteError Unit :=
  match t.canonicalStrict cwd target.parent with
  | .error e => (t, .error (.noParent e))
  | .ok parent =>
    if !t.isDirectoryAt parent then (t, .error (.parentNotDirectory (pathOf parent)))
    else
      let name := "." ++ target.name ++ "." ++ fresh ++ ".tmp"
      let temporary := pathOf (parent ++ [name])
      match attempt refuse .create temporary (t.createFile parent name) with
      | .error e => (t, .error (.refused e))
      | .ok created =>
        let failed (e : WriteError) : FileNode × Except WriteError Unit :=
          (created.remove parent name, .error e)
        match data.encoded with
        | .error e => failed (.encoding e)
        | .ok content =>
          match attempt refuse .write temporary (.ok (created.put parent name (file content))) with
          | .error e => failed (.refused e)
          | .ok written =>
            match attempt refuse .replace temporary
                (written.replace parent name content cwd target) with
            | .error e => failed (.refused e)
            | .ok done => (done, .ok ())

/-- Writes a file in one step. -/
def write (fresh : String) (cwd : List String) (target : Path) (data : Payload) (t : FileNode) :
    FileNode × Except WriteError Unit :=
  t.writeUnder (fun _ => none) fresh cwd target data

/-! ## Directories and growing files -/

/-- A new directory at a path. -/
def makeDirectory (t : FileNode) (cwd : List String) (p : Path) : Except FileError FileNode :=
  let refused (fault : FileFault) : FileError := { fault, path := p.toString }
  match t.locate cwd p.parent with
  | .error fault => .error (refused fault)
  | .ok place =>
    if p.name == "" || p.name == ".." then .error (refused .exists_)
    else match t.status place p.name with
      | .ok _ => .error (refused .exists_)
      | .error .notFound => .ok (t.put place p.name (directory []))
      | .error fault => .error (refused fault)

/-- A new directory at a path with all directories above it that are missing; an existing directory is
left alone. The number bounds the directories. -/
def makeDirectoriesFrom (cwd : List String) : Nat → Path → FileNode → Except FileError FileNode
  | depth, p, t =>
    match t.makeDirectory cwd p with
    | .ok made => .ok made
    | .error e =>
      if e.fault == .notFound then
        match depth with
        | 0 => .error e
        | n + 1 => do
          let above ← makeDirectoriesFrom cwd n p.parent t
          match above.makeDirectory cwd p with
          | .ok made => .ok made
          | .error e => if above.isDirectory cwd p then .ok above else .error e
      else if t.isDirectory cwd p then .ok t
      else .error e

/-- A directory at a path with all directories above it. -/
def makeDirectories (t : FileNode) (cwd : List String) (p : Path) : Except FileError FileNode :=
  makeDirectoriesFrom cwd p.parts.length p t

/-- Appends to the file at a path, which need not exist; its directory has to. -/
def append (t : FileNode) (cwd : List String) (p : Path) (content : List UInt8) :
    Except FileError FileNode :=
  let refused (fault : FileFault) : FileError := { fault, path := p.toString }
  match t.locate cwd p with
  | .ok place =>
    match t.node? place with
    | some (file known) => .ok (t.put place.dropLast (place.getLast?.getD "") (file (known ++ content)))
    | _ => .error (refused .isDirectory)
  | .error .notFound =>
    match t.canonical cwd p with
    | .ok place =>
      match t.status place.dropLast (place.getLast?.getD "") with
      | .error .notFound =>
        if t.isDirectoryAt place.dropLast then
          .ok (t.put place.dropLast (place.getLast?.getD "") (file content))
        else .error (refused .notFound)
      | .error fault => .error (refused fault)
      | .ok _ => .error (refused .notFound)
    | .error _ => .error (refused .tooManyLinks)
  | .error fault => .error (refused fault)

/-- Puts a node at an absolute path, with the directories above it; where that cannot be, the tree stays
as it is. -/
def plant (t : FileNode) (path : Path) (node : FileNode) : FileNode :=
  match t.makeDirectories [] path.parent with
  | .error _ => t
  | .ok made =>
    match made.locate [] path.parent with
    | .ok place => made.put place path.name node
    | .error _ => t

end FileNode

end FeatureAtlas
