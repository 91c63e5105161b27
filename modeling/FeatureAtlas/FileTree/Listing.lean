import FeatureAtlas.FileTree.Basic

/-!
# Listings

What lies below a directory: every file with its content, links to files followed, and the directories that
are empty.
-/

namespace FeatureAtlas.FileNode

mutual

/-- The listing of a node at a place; `base` is the number of names that are left out of the paths. -/
def listingAt (t : FileNode) (base : Nat) (place : List String) :
    FileNode → List (String × Option (List UInt8))
  | file content => [(Text.join "/" (place.drop base), some content)]
  | directory [] => [(Text.join "/" (place.drop base) ++ "/", none)]
  | directory (e :: rest) => listingWithin t base place (e :: rest)
  | link _ =>
    match t.read [] (pathOf place) with
    | .ok content => [(Text.join "/" (place.drop base), some content)]
    | .error _ => []

/-- The listings of the entries of a directory. -/
def listingWithin (t : FileNode) (base : Nat) (place : List String) :
    List (String × FileNode) → List (String × Option (List UInt8))
  | [] => []
  | (name, node) :: rest =>
    listingAt t base (place ++ [name]) node ++ listingWithin t base place rest

end

/-- The files and the empty directories below the directory at a place, by their paths from there. -/
def listing (t : FileNode) (place : List String) : List (String × Option (List UInt8)) :=
  match t.node? place with
  | some (directory entries) => listingWithin t place.length place entries
  | _ => []

end FeatureAtlas.FileNode
