import Mathlib
import FeatureAtlas.Proofs.FileTree.Removal

/-!
# Which files are collected

`Reaches` describes a walk through a tree by the entries of the directories on the way: it enters directories
only, so it follows no link, and none of the pruned ones. What is collected below a directory is exactly what
such walks come to from there, as far as it counts as a file and is selected by the globs. The path of a file
tells its names, so every file is listed once.
-/

namespace FeatureAtlas.FileNode

/-! ## Walks -/

/-- Names lead from a node to another one through the entries of directories. A pruned directory is not
entered. -/
inductive Reaches : FileNode → List String → FileNode → Prop
  | here (node : FileNode) : Reaches node [] node
  | enter {entries : List (String × FileNode)} {name : String} {child node : FileNode}
      {names : List String} (hentry : (name, child) ∈ entries)
      (hentered : names ≠ [] → name ∉ prunedNames) (h : Reaches child names node) :
      Reaches (directory entries) (name :: names) node

/-- A node at a place counts as a file: it is no directory, and no link that leads to one. -/
def CountsAsFile (t : FileNode) (place : List String) : FileNode → Prop
  | file _ => True
  | directory _ => False
  | link _ => t.isDirectory [] (pathOf place) = false

theorem reaches_iff {t node : FileNode} (h : t.Keyed) {names : List String} :
    Reaches t names node ↔
      t.node? names = some node ∧ ∀ n ∈ names.dropLast, prunedNames.contains n = false := by
  induction names generalizing t with
  | nil =>
    rw [node?_nil]
    constructor
    · rintro ⟨⟩
      exact ⟨rfl, nofun⟩
    · rintro ⟨⟨⟩, -⟩
      exact .here node
  | cons name names ih =>
    cases t with
    | file bytes => exact iff_of_false nofun nofun
    | link target => exact iff_of_false nofun nofun
    | directory entries =>
      have hmem {child : FileNode} : entries.lookup name = some child ↔ (name, child) ∈ entries :=
        Table.lookup_eq_some_iff_mem (h [] entries (node?_nil _))
      have hpruned : (∀ n ∈ (name :: names).dropLast, prunedNames.contains n = false) ↔
          (names ≠ [] → name ∉ prunedNames) ∧
            ∀ n ∈ names.dropLast, prunedNames.contains n = false := by
        cases names with
        | nil => simp
        | cons m names => simp [List.dropLast_cons_cons]
      rw [node?_directory_cons, Option.bind_eq_some_iff, hpruned]
      constructor
      · intro hreaches
        cases hreaches with
        | @enter _ _ child _ _ hentry hentered hbelow =>
          obtain ⟨hnode, hrest⟩ := (ih (h.of_mem hentry)).mp hbelow
          exact ⟨⟨child, hmem.mpr hentry, hnode⟩, hentered, hrest⟩
      · rintro ⟨⟨child, hlookup, hnode⟩, hentered, hrest⟩
        have hentry := hmem.mp hlookup
        exact .enter hentry hentered ((ih (h.of_mem hentry)).mpr ⟨hnode, hrest⟩)

section

variable {t : FileNode} {root : List String} {entries : List (String × FileNode)}

/-- The sources below a directory are what a walk from there comes to and counts as a file. -/
theorem sourceAt_iff_reaches (hkeyed : t.Keyed) (hroot : t.node? root = some (directory entries))
    {names : List String} : t.SourceAt root names ↔
      ∃ node, Reaches (directory entries) names node ∧ t.CountsAsFile (root ++ names) node := by
  simp only [reaches_iff (hkeyed.of_node? hroot)]
  rw [← listed_iff_sourceAt hroot, Listed, List.nil_append]
  constructor
  · rintro ⟨hpruned, ⟨bytes, hnode⟩ | ⟨target, hnode, hleads⟩⟩
    · exact ⟨file bytes, ⟨hnode, hpruned⟩, trivial⟩
    · exact ⟨link target, ⟨hnode, hpruned⟩, hleads⟩
  · rintro ⟨node, ⟨hnode, hpruned⟩, hfile⟩
    cases node with
    | file bytes => exact ⟨hpruned, .inl ⟨bytes, hnode⟩⟩
    | directory below => exact hfile.elim
    | link target => exact ⟨hpruned, .inr ⟨target, hnode, hfile⟩⟩

/-! ## The collected files -/

/-- The path of a source tells its names. -/
theorem SourceAt.join_inj (hproper : t.Proper) {names names' : List String}
    (h : t.SourceAt root names) (h' : t.SourceAt root names')
    (heq : Text.join "/" names = Text.join "/" names') : names = names' := by
  have hpath := h.ofString_join hproper
  rw [heq, h'.ofString_join hproper] at hpath
  exact (Path.mk.inj hpath).2.symm

theorem nodup_relativeFiles (hkeyed : t.Keyed) (hproper : t.Proper) (root : List String) :
    (t.relativeFiles root).Nodup := by
  obtain ⟨places, hplaces, hnodup, hmem⟩ := exists_relativeFiles hkeyed root
  rw [hplaces]
  refine List.pairwise_map.mpr (hnodup.imp_of_mem fun hnames hnames' hne heq ↦ hne ?_)
  exact SourceAt.join_inj hproper ((hmem _).mp hnames) ((hmem _).mp hnames') heq

theorem mem_relativeFiles (hkeyed : t.Keyed) {path : String} :
    path ∈ t.relativeFiles root ↔ ∃ names, path = Text.join "/" names ∧ t.SourceAt root names := by
  obtain ⟨places, hplaces, -, hmem⟩ := exists_relativeFiles hkeyed root
  simp only [hplaces, List.mem_map, hmem, and_comm, eq_comm]

theorem matchesAny_iff_exists {globs : List String} {path : String} :
    matchesAny globs path = true ↔ ∃ glob ∈ globs, matchesAny [glob] path = true := by
  simp [matchesAny]

/-- **The collected files are exactly the selected ones**, in ascending order and each of them once, in
whatever order the directories list their entries. -/
theorem collect_selects (hkeyed : t.Keyed) (hproper : t.Proper)
    (hroot : t.node? root = some (directory entries)) (included excluded : List String) :
    (t.collect root included excluded).Pairwise (· < ·) ∧
      (∀ path, path ∈ t.collect root included excluded ↔
        (∃ names node, path = Text.join "/" names ∧ Reaches (directory entries) names node ∧
          t.CountsAsFile (root ++ names) node) ∧
        (∃ glob ∈ included, matchesAny [glob] path = true) ∧
        ∀ glob ∈ excluded, matchesAny [glob] path = false) ∧
      ∀ t', t.Same t' → t'.Keyed →
        t'.collect root included excluded = t.collect root included excluded := by
  refine ⟨?_, fun path ↦ ?_, fun t' hsame hkeyed' ↦ by rw [hsame.collect_eq hkeyed hkeyed']⟩
  · exact Text.pairwise_lt_sort ((nodup_relativeFiles hkeyed hproper root).filter _)
  · have hexcluded : matchesAny excluded path = false ↔
        ∀ glob ∈ excluded, matchesAny [glob] path = false := by
      rw [← Bool.not_eq_true, matchesAny_iff_exists]
      simp
    rw [collect, Text.sort, List.mem_mergeSort, List.mem_filter, mem_relativeFiles hkeyed,
      Bool.and_eq_true, Bool.not_eq_true', matchesAny_iff_exists, hexcluded]
    simp only [sourceAt_iff_reaches hkeyed hroot, exists_and_left]

/-- Links to files are collected, as are broken ones, but no links to directories and nothing from the
directories of tools. -/
theorem collect_selects_links :
    let src := directory
      [("b.ts", file []), (".git", directory [("c.ts", file [])]), ("a.ts", file [])]
    let project := directory [("shared.ts", link "src"), ("src", src), ("main.ts", link "src/a.ts"),
      ("node_modules", directory [("d.ts", file [])]), ("lost.ts", link "none"), ("t.ts", file [])]
    let t := directory [("project", project)]
    let files := ["lost.ts", "main.ts", "src/a.ts", "src/b.ts"]
    t.Keyed ∧ t.Proper ∧ t.node? ["project"] = some project ∧
      t.collect ["project"] ["**/*.ts"] ["?.ts"] = files ∧ files.Pairwise (· < ·) ∧
      (∃ names node, "main.ts" = Text.join "/" names ∧ Reaches project names node ∧
        t.CountsAsFile (["project"] ++ names) node) ∧
      ∀ t', t.Same t' → t'.Keyed → t'.collect ["project"] ["**/*.ts"] ["?.ts"] = files := by
  intro src project t files
  have hkeyed : t.Keyed := by
    have hgit : (directory [("c.ts", file [])]).Keyed :=
      keyed_directory (by decide) (by simp [keyed_file])
    have hmodules : (directory [("d.ts", file [])]).Keyed :=
      keyed_directory (by decide) (by simp [keyed_file])
    have hsrc : src.Keyed := keyed_directory (by decide) (by simp [keyed_file, hgit])
    have hproject : project.Keyed :=
      keyed_directory (by decide) (by simp [keyed_file, keyed_link, hsrc, hmodules])
    exact keyed_directory (by decide) (by simp [hproject])
  have hproper : t.Proper := by
    have hgit : (directory [("c.ts", file [])]).Proper :=
      proper_directory (by decide) (by simp [proper_file])
    have hmodules : (directory [("d.ts", file [])]).Proper :=
      proper_directory (by decide) (by simp [proper_file])
    have hsrc : src.Proper := proper_directory (by decide) (by simp [proper_file, hgit])
    have hproject : project.Proper :=
      proper_directory (by decide) (by simp [proper_file, proper_link, hsrc, hmodules])
    exact proper_directory (by decide) (by simp [hproject])
  have hfiles : t.collect ["project"] ["**/*.ts"] ["?.ts"] = files := by
    have hrelative : t.relativeFiles ["project"]
        = ["src/b.ts", "src/a.ts", "main.ts", "lost.ts", "t.ts"] := by cbv
    have hselected : ["src/b.ts", "src/a.ts", "main.ts", "lost.ts", "t.ts"].filter
          (fun p ↦ matchesAny ["**/*.ts"] p && !matchesAny ["?.ts"] p)
        = ["src/b.ts", "src/a.ts", "main.ts", "lost.ts"] := by decide +kernel
    rw [collect, hrelative, hselected]
    exact (Text.sort_eq_of_perm (by decide)).trans (Text.sort_of_pairwise (by decide +kernel))
  have hroot : t.node? ["project"] = some project := rfl
  obtain ⟨hascending, hmem, hsame⟩ := collect_selects hkeyed hproper hroot ["**/*.ts"] ["?.ts"]
  rw [hfiles] at hascending hmem hsame
  have hmain : "main.ts" ∈ files := by simp [files]
  exact ⟨hkeyed, hproper, hroot, hfiles, hascending, ((hmem "main.ts").mp hmain).1, hsame⟩

end

end FeatureAtlas.FileNode
