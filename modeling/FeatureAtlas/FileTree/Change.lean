import FeatureAtlas.FileTree.Basic

/-!
# Changes between file trees

What a tree has that an older one has not: new directories, and files that are new or have new content.
-/

namespace FeatureAtlas

/-- A difference between a tree and an older one. -/
inductive FileChange where
  | file (place : List String) (content : List UInt8)
  | directory (place : List String)
deriving DecidableEq, Repr, Inhabited

namespace FileNode

mutual

/-- The changes from an older node at a place to a node. -/
def changesFrom (place : List String) (old : Option FileNode) : FileNode → List FileChange
  | file content =>
    match old with
    | some (file known) => if known == content then [] else [.file place content]
    | _ => [.file place content]
  | directory entries =>
    match old with
    | some (directory known) => changesWithin place known entries
    | _ => .directory place :: changesWithin place [] entries
  | link _ => []

/-- The changes from older entries of a directory to entries. -/
def changesWithin (place : List String) (old : List (String × FileNode)) :
    List (String × FileNode) → List FileChange
  | [] => []
  | (name, node) :: rest =>
    changesFrom (place ++ [name]) (old.lookup name) node ++ changesWithin place old rest

end

/-- The changes from an older tree to a tree. -/
def changes (old new : FileNode) : List FileChange := new.changesFrom [] (some old)

end FileNode

end FeatureAtlas
