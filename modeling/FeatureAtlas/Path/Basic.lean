import FeatureAtlas.Text.Basic

/-!
# POSIX paths

A path is a root (none, one slash, or exactly two) and named parts. Empty parts and `.` carry no
meaning and are dropped on reading; `..` is kept until a path is normalised.
-/

namespace FeatureAtlas

/-- A path: `root` is empty, `/` or `//`, and no part is empty or `.`. -/
structure Path where
  root : String
  parts : List String
deriving DecidableEq, Repr, Inhabited

namespace Path

/-- Exactly two leading slashes are a root of their own; any other number counts as one. -/
def rootOf (cs : List Char) : String :=
  match (cs.takeWhile (· == '/')).length with
  | 0 => ""
  | 2 => "//"
  | _ => "/"

/-- Reads a path. -/
def ofString (s : String) : Path :=
  ⟨rootOf s.toList, (Text.split '/' s).filter fun p => p != "" && p != "."⟩

/-- The text of a path; the empty path is the current directory. -/
def toString (p : Path) : String :=
  let body := Text.join "/" p.parts
  if p.root == "" && p.parts.isEmpty then "." else p.root ++ body

/-- Whether the path starts at the root of the file system. -/
def isAbsolute (p : Path) : Bool := p.root != ""

/-- The path `q` taken from `p`: an absolute `q` stands alone. -/
def join (p q : Path) : Path := if q.isAbsolute then q else ⟨p.root, p.parts ++ q.parts⟩

/-- The last part, empty for a bare root. -/
def name (p : Path) : String := p.parts.getLast?.getD ""

/-- The directory that holds the path; a bare root holds itself. -/
def parent (p : Path) : Path := ⟨p.root, p.parts.dropLast⟩

/-- The last suffix of a file name with its dot; a leading or trailing dot starts none. -/
def suffixOf (name : String) : String :=
  let cs := name.toList
  match Text.lastIndexOf? ['.'] cs with
  | some i => if 0 < i && i + 1 < cs.length then String.ofList (cs.drop i) else ""
  | none => ""

/-- The last suffix of the path's name. -/
def suffix (p : Path) : String := suffixOf p.name

/-! ## Normal form -/

/-- Adds one part to a reversed normal form: `..` cancels the part before it, vanishes at the root, and
stays at the front of a relative path. -/
def pushPart (rooted : Bool) (acc : List String) (part : String) : List String :=
  if part == "" || part == "." then acc
  else if part != ".." then part :: acc
  else match acc with
    | [] => if rooted then [] else [part]
    | last :: rest => if last == ".." then part :: acc else rest

/-- Resolves `.` and `..` by the names alone. -/
def normalizeParts (rooted : Bool) (parts : List String) : List String :=
  (parts.foldl (pushPart rooted) []).reverse

/-- The normal form of a path. -/
def normalize (p : Path) : Path := ⟨p.root, normalizeParts p.isAbsolute p.parts⟩

/-- The normal form of a path's text. -/
def normalizeText (s : String) : String := (normalize (ofString s)).toString

/-- The text before the last slash, without the slashes that end it unless it is all slashes. -/
def directoryText (s : String) : String :=
  let head := (s.toList.reverse.dropWhile (· != '/'))
  if head.all (· == '/') then String.ofList head.reverse
  else String.ofList (head.dropWhile (· == '/')).reverse

/-- Joins two path texts with one slash; an absolute second text stands alone. -/
def joinText (a b : String) : String :=
  if Text.startsWith b "/" then b
  else if a == "" || Text.endsWith a "/" then a ++ b
  else a ++ "/" ++ b

/-- What is left of two lists after their common start. -/
def dropCommon : List String → List String → List String × List String
  | a :: as, b :: bs => if a == b then dropCommon as bs else (a :: as, b :: bs)
  | as, bs => (as, bs)

/-- The path of `target` as seen from the directory `base`; both are absolute. -/
def relativeTo (target base : Path) : Path :=
  let (up, down) := dropCommon (normalize base).parts (normalize target).parts
  ⟨"", up.map (fun _ => "..") ++ down⟩

end Path

end FeatureAtlas
