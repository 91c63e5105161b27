import FeatureAtlas.FileTree.Basic
import FeatureAtlas.Glob.Basic

/-!
# Collecting files

The files of a project are found by walking its directories. Links to directories are not entered, nor are
the directories of tools; what is left is selected by globs and listed in ascending order.
-/

namespace FeatureAtlas.FileNode

/-- Directories that are never entered. -/
def prunedNames : List String := [".git", "node_modules"]

mutual

/-- The places of the files below a node at a place. Links count as files unless they lead to a
directory. -/
def filesBelow (leadsToDirectory : List String → Bool) (here : List String) :
    FileNode → List (List String)
  | directory entries => filesAmong leadsToDirectory here entries
  | _ => []

/-- The places of the files among and below the entries of a directory. -/
def filesAmong (leadsToDirectory : List String → Bool) (here : List String) :
    List (String × FileNode) → List (List String)
  | [] => []
  | (name, directory entries) :: rest =>
    (if prunedNames.contains name then []
    else filesAmong leadsToDirectory (here ++ [name]) entries) ++
      filesAmong leadsToDirectory here rest
  | (name, link _) :: rest =>
    (if leadsToDirectory (here ++ [name]) then [] else [here ++ [name]]) ++
      filesAmong leadsToDirectory here rest
  | (name, file _) :: rest => (here ++ [name]) :: filesAmong leadsToDirectory here rest

end

/-- The paths of the files below a directory, as seen from it. -/
def relativeFiles (t : FileNode) (root : List String) : List String :=
  match t.node? root with
  | some node =>
    (filesBelow (fun place => t.isDirectory [] (pathOf (root ++ place))) [] node).map (Text.join "/")
  | none => []

/-- The files below a directory that match one of the first globs and none of the second, in ascending
order. -/
def collect (t : FileNode) (root : List String) (included excluded : List String) : List String :=
  Text.sort ((t.relativeFiles root).filter fun p =>
    matchesAny included p && !matchesAny excluded p)

end FeatureAtlas.FileNode
