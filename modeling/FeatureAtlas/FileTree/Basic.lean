import FeatureAtlas.Path.Basic
import FeatureAtlas.Table
import FeatureAtlas.Text.Printable
import FeatureAtlas.Text.Utf8

/-!
# File trees

A file tree is a directory with files, directories and symbolic links below it. Places in it are lists of
names from the root. Paths are followed through links the way the system does it, with a bound on the
number of links.
-/

namespace FeatureAtlas

/-- A file, a directory or a symbolic link. -/
inductive FileNode where
  | file (content : List UInt8)
  | directory (entries : List (String × FileNode))
  | link (target : String)
deriving Repr, Inhabited

/-- Why the system refuses an operation. -/
inductive FileFault where
  | notFound
  | exists_
  | notDirectory
  | isDirectory
  | busy
  | nameTooLong
  | tooManyLinks
deriving DecidableEq, Repr, Inhabited

namespace FileFault

/-- The number of a fault. -/
def number : FileFault → Nat
  | notFound => 2
  | busy => 16
  | exists_ => 17
  | notDirectory => 20
  | isDirectory => 21
  | nameTooLong => 36
  | tooManyLinks => 40

/-- The wording of a fault. -/
def text : FileFault → String
  | notFound => "No such file or directory"
  | busy => "Device or resource busy"
  | exists_ => "File exists"
  | notDirectory => "Not a directory"
  | isDirectory => "Is a directory"
  | nameTooLong => "File name too long"
  | tooManyLinks => "Too many levels of symbolic links"

end FileFault

/-- A refused operation on a path, or from one path to another. -/
structure FileError where
  fault : FileFault
  path : String
  second : Option String := none
deriving DecidableEq, Repr, Inhabited

/-- The message about a refused operation. -/
def FileError.message (e : FileError) : String :=
  "[Errno " ++ toString e.fault.number ++ "] " ++ e.fault.text ++ ": " ++ Text.quoted e.path ++
    match e.second with
    | none => ""
    | some p => " -> " ++ Text.quoted p

namespace FileNode

/-- The entries of a directory. -/
def entries? : FileNode → Option (Table FileNode)
  | directory entries => some entries
  | _ => none

/-- The node at a place; links are not followed. -/
def node? (t : FileNode) : List String → Option FileNode
  | [] => some t
  | n :: rest =>
    match t with
    | directory entries =>
      match entries.lookup n with
      | none => none
      | some child => child.node? rest
    | _ => none

/-- Changes the entries of the directory at a place. -/
def modifyDirectory (f : Table FileNode → Table FileNode) : List String → FileNode → FileNode
  | [], directory entries => directory (f entries)
  | n :: rest, directory entries =>
    directory (entries.map fun (k, child) =>
      if k == n then (k, child.modifyDirectory f rest) else (k, child))
  | _, t => t

/-- Puts a node into the directory at a place, in the stead of what has its name. -/
def put (t : FileNode) (place : List String) (name : String) (node : FileNode) : FileNode :=
  modifyDirectory (fun entries => entries.set name node) place t

/-- Removes what has a name in the directory at a place. -/
def remove (t : FileNode) (place : List String) (name : String) : FileNode :=
  modifyDirectory (fun entries => entries.filter (·.1 != name)) place t

/-! ## Following paths -/

/-- Where a walk stands when it ends or meets a link. -/
inductive Walk where
  | reached (place : List String)
  /-- A link at a place has to be followed before the rest. -/
  | linked (place : List String) (target : Path) (rest : List String)
deriving Repr, Inhabited

/-- The directory from which the target of a link at a place is seen. -/
def linkBase (place : List String) (target : Path) : List String :=
  if target.isAbsolute then [] else place.dropLast

/-- The longest name, in bytes. -/
def nameLimit : Nat := 255

/-- Walks from a place along names until a link has to be followed. -/
def walk (t : FileNode) (followLast : Bool) (here : List String) :
    List String → Except FileFault Walk
  | [] => .ok (.reached here)
  | n :: rest =>
    match t.node? here with
    | some (directory entries) =>
      if n == ".." then walk t followLast here.dropLast rest
      else if nameLimit < n.utf8ByteSize then .error .nameTooLong
      else match entries.lookup n with
        | none => .error .notFound
        | some (link target) =>
          if rest.isEmpty && !followLast then .ok (.reached (here ++ [n]))
          else .ok (.linked (here ++ [n]) (Path.ofString target) rest)
        | some _ => walk t followLast (here ++ [n]) rest
    | _ => .error .notDirectory

/-- The most links on a path. -/
def linkLimit : Nat := 40

/-- Follows names from a place through at most a number of links. -/
def follow (t : FileNode) (followLast : Bool) : Nat → List String → List String →
    Except FileFault (List String)
  | links, here, names => do
    match ← walk t followLast here names with
    | .reached place => return place
    | .linked place target rest =>
      match links with
      | 0 => .error .tooManyLinks
      | n + 1 => follow t followLast n (linkBase place target) (target.parts ++ rest)

/-- The place of what a path from a directory denotes. -/
def locate (t : FileNode) (cwd : List String) (p : Path) : Except FileFault (List String) :=
  t.follow true linkLimit (if p.isAbsolute then [] else cwd) p.parts

/-- Whether a path denotes anything. What has too long a name on the way cannot be looked for. -/
def present (t : FileNode) (cwd : List String) (p : Path) : Except FileError Bool :=
  match t.locate cwd p with
  | .ok _ => .ok true
  | .error .nameTooLong => .error { fault := .nameTooLong, path := p.toString }
  | .error _ => .ok false

/-- What a path denotes. -/
def find? (t : FileNode) (cwd : List String) (p : Path) : Option FileNode :=
  (t.locate cwd p).toOption >>= t.node?

/-- Whether a path denotes a directory. -/
def isDirectory (t : FileNode) (cwd : List String) (p : Path) : Bool :=
  ((t.find? cwd p).bind entries?).isSome

/-- The path of a place. -/
def pathOf (place : List String) : Path := ⟨"/", place⟩

/-! ## Reading -/

/-- The bytes of the file that a path denotes. -/
def read (t : FileNode) (cwd : List String) (p : Path) : Except FileError (List UInt8) :=
  match t.locate cwd p with
  | .error fault => .error { fault, path := p.toString }
  | .ok place =>
    match t.node? place with
    | some (file content) => .ok content
    | some (directory _) => .error { fault := .isDirectory, path := p.toString }
    | _ => .error { fault := .notFound, path := p.toString }

end FileNode

/-!
## Reading text files

A text file is read as a whole: its bytes have to be UTF-8.
-/

/-- Why a text file cannot be read. -/
inductive ReadFailure where
  | refused (e : FileError)
  | notText (e : Utf8Error)
deriving DecidableEq, Repr, Inhabited

/-- The message about a text file that cannot be read. -/
def ReadFailure.message : ReadFailure → String
  | refused e => e.message
  | notText e => e.message

namespace FileNode

/-- The text of the file that a path denotes, with its line ends as they are. -/
def readRawText (t : FileNode) (cwd : List String) (p : Path) : Except ReadFailure String :=
  match t.read cwd p with
  | .error e => .error (.refused e)
  | .ok bytes =>
    match Utf8.decode bytes with
    | .error e => .error (.notText e)
    | .ok s => .ok s

/-- The text of the file that a path denotes, with line feeds as line ends. -/
def readText (t : FileNode) (cwd : List String) (p : Path) : Except ReadFailure String :=
  (t.readRawText cwd p).map Text.withNewlines

end FileNode

end FeatureAtlas
