import FeatureAtlas.Proofs.FileTree.Collect
import FeatureAtlas.Proofs.FileTree.Follow
import FeatureAtlas.Proofs.FileTree.Write

/-!
# Changing one name

A node is put into a directory, or taken from it, under one name. That changes the place with this name and
what lies below it, and no other. What was put under a new name leaves no trace once it is removed.
-/

namespace FeatureAtlas.FileNode

/-- What is at each place after a change of what one name in a directory leads to. -/
theorem content?_modifyDirectory {f : Table FileNode → Table FileNode} {name : String}
    {node : Option FileNode}
    (hf : ∀ entries n, (f entries).lookup n = if n = name then node else entries.lookup n)
    (t : FileNode) (place q : List String) :
    (t.modifyDirectory f place).content? q =
      if t.content? place = some .directory ∧ place ++ [name] <+: q then
        node.bind (·.content? (q.drop (place.length + 1)))
      else t.content? q := by
  induction place generalizing t q with
  | nil =>
    cases t with
    | file bytes => exact (if_neg fun h ↦ nomatch h.1).symm
    | link target => exact (if_neg fun h ↦ nomatch h.1).symm
    | directory entries =>
      cases q with
      | nil => exact (if_neg fun h ↦ by simp at h).symm
      | cons n q =>
        rw [modifyDirectory, content?_directory_cons, content?_directory_cons, hf]
        simp only [List.nil_append, List.cons_prefix_cons, List.nil_prefix, and_true]
        by_cases hn : n = name
        · rw [if_pos hn, if_pos ⟨rfl, hn.symm⟩]
          rfl
        · rw [if_neg hn, if_neg fun h ↦ hn h.2.symm]
  | cons m place ih =>
    cases t with
    | file bytes => exact (if_neg fun h ↦ nomatch h.1).symm
    | link target => exact (if_neg fun h ↦ nomatch h.1).symm
    | directory entries =>
      cases q with
      | nil => exact (if_neg fun h ↦ by simp at h).symm
      | cons n q =>
        rw [modifyDirectory, content?_directory_cons, content?_directory_cons,
          content?_directory_cons, lookup_map_entries]
        simp only [List.cons_append, List.cons_prefix_cons]
        by_cases hn : n = m
        · subst hn
          cases entries.lookup n with
          | none => simp
          | some child => simpa using ih child q
        · rw [if_neg fun h ↦ hn h.2.1.symm]
          cases entries.lookup n with
          | none => rfl
          | some child => rw [Option.map_some, if_neg (by simpa using hn)]

theorem content?_put (t : FileNode) (place : List String) (name : String) (node : FileNode)
    (q : List String) :
    (t.put place name node).content? q =
      if t.content? place = some .directory ∧ place ++ [name] <+: q then
        node.content? (q.drop (place.length + 1))
      else t.content? q := by
  rw [put, content?_modifyDirectory fun entries n ↦ Table.lookup_set name node entries n]
  rfl

theorem content?_remove (t : FileNode) (place : List String) (name : String) (q : List String) :
    (t.remove place name).content? q = if place ++ [name] <+: q then none else t.content? q := by
  rw [remove, content?_modifyDirectory fun entries n ↦ lookup_filter_ne entries name n]
  by_cases hplace : t.content? place = some .directory
  · simp only [hplace, true_and, Option.bind_none]
  · rw [if_neg fun h ↦ hplace h.1]
    split
    · next h =>
      -- what is no directory has nothing below it
      obtain ⟨r, rfl⟩ := h
      refine Decidable.byContradiction fun hne ↦ ?_
      rw [List.append_assoc] at hne
      exact hplace (content?_of_append (by simp) hne)
    · rfl

section

variable {t : FileNode} {place q : List String} {name : String} {node : FileNode} {c : Content}

/-- Below a place that is not there nothing is. -/
theorem not_prefix_of_content? {p : List String} (hp : t.content? p = none)
    (hq : t.content? q = some c) : ¬ p <+: q := by
  rintro ⟨r, rfl⟩
  cases r with
  | nil =>
    rw [List.append_nil, hp] at hq
    cases hq
  | cons n r =>
    have hdirectory := content?_of_append (List.cons_ne_nil n r) (hq ▸ Option.some_ne_none c)
    rw [hp] at hdirectory
    cases hdirectory

/-- A node under a new name changes nothing that is there. -/
theorem content?_put_new (hname : t.content? (place ++ [name]) = none)
    (hq : t.content? q = some c) : (t.put place name node).content? q = some c := by
  rw [content?_put, if_neg fun h ↦ not_prefix_of_content? hname hq h.2, hq]

end

/-! ## Several changes -/

theorem modifyDirectory_modifyDirectory (f g : Table FileNode → Table FileNode) (place : List String)
    (t : FileNode) :
    (t.modifyDirectory g place).modifyDirectory f place = t.modifyDirectory (f ∘ g) place := by
  induction place generalizing t with
  | nil => cases t <;> rfl
  | cons n place ih =>
    cases t with
    | file bytes => rfl
    | link target => rfl
    | directory entries =>
      rw [modifyDirectory, modifyDirectory, modifyDirectory, List.map_map]
      refine congrArg directory (List.map_congr_left ?_)
      rintro ⟨k, child⟩ -
      by_cases hk : k = n
      · simp only [Function.comp_apply, hk, beq_self_eq_true, if_true, ih]
      · simp only [Function.comp_apply, beq_eq_false_iff_ne.mpr hk, Bool.false_eq_true, if_false]

/-- A change that leaves the directory at a place as it is leaves the tree as it is. -/
theorem modifyDirectory_eq_self {f : Table FileNode → Table FileNode} {t : FileNode} (h : t.Keyed)
    {place : List String}
    (hf : ∀ entries, t.node? place = some (directory entries) → f entries = entries) :
    t.modifyDirectory f place = t := by
  induction place generalizing t with
  | nil =>
    cases t with
    | file bytes => rfl
    | link target => rfl
    | directory entries => rw [modifyDirectory, hf entries (node?_nil _)]
  | cons n place ih =>
    cases t with
    | file bytes => rfl
    | link target => rfl
    | directory entries =>
      rw [modifyDirectory]
      refine congrArg directory ((List.map_congr_left ?_).trans (List.map_id _))
      rintro ⟨k, child⟩ hentry
      by_cases hk : k = n
      · subst hk
        have hlookup : entries.lookup k = some child :=
          (Table.lookup_eq_some_iff_mem (h [] entries (node?_nil _))).mpr hentry
        have hchild : child.modifyDirectory f place = child := by
          refine ih (h.of_mem hentry) fun below hbelow ↦ hf below ?_
          rw [node?_directory_cons, hlookup, Option.bind_some, hbelow]
        simp only [beq_self_eq_true, if_true, hchild, id_eq]
      · simp only [beq_eq_false_iff_ne.mpr hk, Bool.false_eq_true, if_false, id_eq]

theorem filter_set (entries : Table FileNode) (name : String) (node : FileNode) :
    (entries.set name node).filter (·.1 != name) = entries.filter (·.1 != name) := by
  induction entries with
  | nil => simp [Table.set, Table.modify]
  | cons entry rest ih =>
    obtain ⟨k, child⟩ := entry
    rw [Table.set, Table.modify]
    by_cases hk : k = name
    · simp [hk]
    · rw [if_neg (by simpa using hk), ← Table.set, List.filter_cons, List.filter_cons, ih]

section

variable {t : FileNode} {place : List String} {name : String}

/-- What was put under a name does not matter once it is removed. -/
theorem remove_put (node : FileNode) :
    (t.put place name node).remove place name = t.remove place name := by
  rw [remove, put, modifyDirectory_modifyDirectory]
  exact congrArg (modifyDirectory · place t) (funext fun entries ↦ filter_set entries name node)

/-- There is nothing to remove under a new name. -/
theorem remove_of_new (h : t.Keyed) (hname : t.content? (place ++ [name]) = none) :
    t.remove place name = t := by
  refine modifyDirectory_eq_self h fun entries hplace ↦ List.filter_eq_self.mpr fun entry hentry ↦ ?_
  have hlookup : entries.lookup name = none := by
    rw [content?, node?_append, hplace, Option.bind_some, node?_directory_cons,
      Option.map_eq_none_iff] at hname
    cases hentry : entries.lookup name with
    | none => rfl
    | some child => simp [hentry, node?_nil] at hname
  rw [bne_comm]
  exact List.lookup_eq_none_iff.mp hlookup entry hentry

end

end FeatureAtlas.FileNode
