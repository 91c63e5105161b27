import FeatureAtlas.FileTree.Basic

/-!
# Canonical paths

The canonical place of a path has no links and no `..` on it. Links are followed one by one; while the target
of a link is followed, meeting that link again is a loop.
-/

namespace FeatureAtlas

/-- Why a path has no canonical place. -/
inductive CanonicalError where
  | refused (e : FileError)
  | loop (path : Path)
deriving DecidableEq, Repr, Inhabited

/-- The message about a path without a canonical place. -/
def CanonicalError.message : CanonicalError → String
  | refused e => e.message
  | loop path => "Symlink loop from " ++ Text.quoted path.toString

namespace FileNode

/-- What stands at a name in a directory, or why nothing can. -/
def status (t : FileNode) (here : List String) (name : String) : Except FileFault FileNode :=
  match t.node? here with
  | some (directory entries) =>
    if nameLimit < name.utf8ByteSize then .error .nameTooLong
    else match entries.lookup name with
      | some node => .ok node
      | none => .error .notFound
  | some _ => .error .notDirectory
  | none => .error .notFound

/-- Walks along names until a link has to be followed. What does not exist is refused by a strict walk and
kept by any other. -/
def canonicalWalk (t : FileNode) (strict : Bool) (here : List String) :
    List String → Except FileError Walk
  | [] => .ok (.reached here)
  | n :: rest =>
    if n == ".." then canonicalWalk t strict here.dropLast rest
    else match t.status here n with
      | .ok (link target) => .ok (.linked (here ++ [n]) (Path.ofString target) rest)
      | .ok _ => canonicalWalk t strict (here ++ [n]) rest
      | .error fault =>
        if strict then .error { fault, path := (pathOf (here ++ [n])).toString }
        else canonicalWalk t strict (here ++ [n]) rest

/-- The canonical place of names seen from a place. The frames are the links being followed, innermost
first, with the names behind each; the number bounds how many links are followed. -/
def canonicalFrom (t : FileNode) (strict : Bool) (links : Nat)
    (frames : List (List String × List String)) (here names : List String) :
    Except CanonicalError (List String) :=
  match t.canonicalWalk strict here names with
  | .error e => .error (.refused e)
  | .ok (.reached place) =>
    match frames with
    | [] => .ok place
    | (_, rest) :: outer => canonicalFrom t strict links outer place rest
  | .ok (.linked place target rest) =>
    let left := if strict then [] else rest ++ frames.flatMap Prod.snd
    let loop : CanonicalError := .loop (Path.normalize (pathOf (place ++ left)))
    if frames.any (·.1 == place) then .error loop
    else match links with
      | 0 => .error loop
      | n + 1 =>
        canonicalFrom t strict n ((place, rest) :: frames) (linkBase place target) target.parts
termination_by (links, frames.length)

/-- The most links that are followed on the way to a canonical place. -/
def canonicalLimit : Nat := 1000

/-- The canonical place of a path from a directory; the path need not exist. -/
def canonical (t : FileNode) (cwd : List String) (p : Path) :
    Except CanonicalError (List String) :=
  t.canonicalFrom false canonicalLimit [] (if p.isAbsolute then [] else cwd) p.parts

/-- The canonical place of a path that has to exist. -/
def canonicalStrict (t : FileNode) (cwd : List String) (p : Path) :
    Except CanonicalError (List String) :=
  t.canonicalFrom true canonicalLimit [] (if p.isAbsolute then [] else cwd) p.parts

end FileNode

end FeatureAtlas
