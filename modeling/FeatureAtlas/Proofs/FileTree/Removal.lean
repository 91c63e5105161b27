import FeatureAtlas.Proofs.FileTree.Change
import FeatureAtlas.Proofs.FileTree.Collect
import FeatureAtlas.Proofs.FileTree.Places

/-!
# Removing collected files

Removing a name from a directory takes away the place with that name and what lies below it, and nothing
else. So a tree without some of its collected files, none of which is text, is a tree without garbled
places, and what is collected from it is what was collected before without these files.
-/

namespace FeatureAtlas.FileNode

/-! ## One name -/

theorem Keyed.remove {t : FileNode} (h : t.Keyed) (place : List String) (name : String) :
    (t.remove place name).Keyed := by
  induction place generalizing t with
  | nil =>
    cases t with
    | file bytes => exact h
    | link target => exact h
    | directory entries =>
      have hkeys : Table.NodupKeys entries := h [] entries (node?_nil _)
      refine keyed_directory (List.Nodup.sublist (List.filter_sublist.map Prod.fst) hkeys) ?_
      exact fun entry hentry ↦ h.of_mem (List.mem_filter.mp hentry).1
  | cons m place ih =>
    cases t with
    | file bytes => exact h
    | link target => exact h
    | directory entries =>
      rw [FileNode.remove, modifyDirectory]
      refine keyed_directory ?_ ?_
      · have hsame : ∀ e : String × FileNode,
            (if e.1 == m then (e.1, e.2.modifyDirectory (·.filter (·.1 != name)) place)
              else (e.1, e.2)).1 = e.1 := by
          intro e
          split <;> rfl
        rw [Table.NodupKeys, List.map_map]
        exact (List.map_congr_left fun e _ ↦ hsame e).symm ▸ h [] entries (node?_nil _)
      · intro entry hentry
        obtain ⟨e, he, rfl⟩ := List.mem_map.mp hentry
        dsimp only
        split
        · exact ih (h.of_mem he)
        · exact h.of_mem he

/-! ## Several files -/

/-- The tree without some files below a directory, by their paths from there. -/
def withoutFiles (t : FileNode) (root files : List String) : FileNode :=
  files.foldl
    (fun t f ↦ t.remove (root ++ (Path.ofString f).parent.parts) (Path.ofString f).name) t

theorem Keyed.withoutFiles {t : FileNode} (h : t.Keyed) (root files : List String) :
    (t.withoutFiles root files).Keyed := by
  induction files generalizing t with
  | nil => exact h
  | cons f files ih => exact ih (h.remove _ _)

theorem content?_withoutFiles {files : List String} (h : ∀ f ∈ files, (Path.ofString f).parts ≠ [])
    (t : FileNode) (root q : List String) :
    (t.withoutFiles root files).content? q =
      if ∃ f ∈ files, root ++ (Path.ofString f).parts <+: q then none else t.content? q := by
  induction files generalizing t with
  | nil => simp [withoutFiles]
  | cons f files ih =>
    rw [withoutFiles, List.foldl_cons, ← withoutFiles,
      ih (fun g hg ↦ h g (List.mem_cons_of_mem f hg)), content?_remove, List.append_assoc,
      Path.parent_append_name (h f List.mem_cons_self)]
    simp only [List.mem_cons, exists_eq_or_imp]
    by_cases hf : root ++ (Path.ofString f).parts <+: q
    · simp only [hf, true_or, if_true, ite_self]
    · simp only [hf, false_or, if_false]

/-! ## Collected files -/

/-- The names lead from a directory to a file, or to a link that leads to no directory, and not through a
pruned directory. -/
def SourceAt (t : FileNode) (root names : List String) : Prop :=
  names ≠ [] ∧ (∀ n ∈ names.dropLast, prunedNames.contains n = false) ∧
    ((∃ bytes, t.content? (root ++ names) = some (.file bytes)) ∨
      ∃ target, t.content? (root ++ names) = some (.link target) ∧
        t.isDirectory [] (pathOf (root ++ names)) = false)

theorem SourceAt.exists_content {t : FileNode} {root names : List String}
    (h : t.SourceAt root names) :
    ∃ c, t.content? (root ++ names) = some c ∧ c ≠ .directory := by
  obtain ⟨-, -, ⟨bytes, hfile⟩ | ⟨target, hlink, -⟩⟩ := h
  · exact ⟨_, hfile, nofun⟩
  · exact ⟨_, hlink, nofun⟩

theorem SourceAt.content?_root {t : FileNode} {root names : List String}
    (h : t.SourceAt root names) : t.content? root = some .directory := by
  obtain ⟨c, hc, -⟩ := h.exists_content
  exact content?_of_append h.1 (by rw [hc]; exact Option.some_ne_none c)

theorem SourceAt.proper {t : FileNode} {root names : List String} (h : t.SourceAt root names)
    (hproper : t.Proper) : ∀ n ∈ root ++ names, ProperName n := by
  obtain ⟨c, hc, -⟩ := h.exists_content
  exact hproper.names (by rw [hc]; exact Option.some_ne_none c)

/-- The path of a source names its place. -/
theorem SourceAt.ofString_join {t : FileNode} {root names : List String}
    (h : t.SourceAt root names) (hproper : t.Proper) :
    Path.ofString (Text.join "/" names) = ⟨"", names⟩ :=
  Path.ofString_join fun n hn ↦ h.proper hproper n (List.mem_append_right root hn)

theorem listed_iff_sourceAt {t : FileNode} {root : List String}
    {entries : List (String × FileNode)} (hroot : t.node? root = some (directory entries))
    {names : List String} :
    Listed (fun place ↦ t.isDirectory [] (pathOf (root ++ place))) [] (directory entries) names ↔
      t.SourceAt root names := by
  have hbelow : t.node? (root ++ names) = (directory entries).node? names := by
    rw [node?_append, hroot, Option.bind_some]
  rw [Listed, SourceAt]
  simp only [List.nil_append, content?_file, content?_link, hbelow]
  refine (and_iff_right_of_imp ?_).symm
  rintro ⟨-, hnode⟩ rfl
  simp [node?_nil] at hnode

/-- The files below a directory are found once each, at the places where they are. -/
theorem exists_relativeFiles {t : FileNode} (h : t.Keyed) (root : List String) :
    ∃ places : List (List String), t.relativeFiles root = places.map (Text.join "/") ∧
      places.Nodup ∧ ∀ names, names ∈ places ↔ t.SourceAt root names := by
  have hnothing (hne : t.content? root ≠ some .directory) (names : List String) :
      names ∈ [] ↔ t.SourceAt root names :=
    iff_of_false List.not_mem_nil fun hsource ↦ hne hsource.content?_root
  rw [relativeFiles]
  cases hroot : t.node? root with
  | none =>
    refine ⟨[], rfl, List.nodup_nil, hnothing ?_⟩
    simp [content?, hroot]
  | some node =>
    cases node with
    | file bytes =>
      refine ⟨[], rfl, List.nodup_nil, hnothing ?_⟩
      simp [content?, hroot, content]
    | link target =>
      refine ⟨[], rfl, List.nodup_nil, hnothing ?_⟩
      simp [content?, hroot, content]
    | directory entries =>
      have hkeyed : (directory entries).Keyed := h.of_node? hroot
      refine ⟨_, rfl, nodup_filesAmong hkeyed, fun names ↦ ?_⟩
      rw [filesBelow, mem_filesAmong hkeyed]
      simp only [List.nil_append, exists_eq_left', listed_iff_sourceAt hroot]

section

variable {t : FileNode} {root files : List String}

/-- Files of a proper tree that are collected below a directory. -/
theorem exists_sourceAt_of_mem (hkeyed : t.Keyed) (hproper : t.Proper) {f : String}
    (hf : f ∈ t.relativeFiles root) :
    ∃ names, f = Text.join "/" names ∧ t.SourceAt root names ∧ Path.ofString f = ⟨"", names⟩ := by
  obtain ⟨places, hplaces, -, hmem⟩ := exists_relativeFiles hkeyed root
  rw [hplaces] at hf
  obtain ⟨names, hnames, rfl⟩ := List.mem_map.mp hf
  have hsource := (hmem names).mp hnames
  exact ⟨names, rfl, hsource, hsource.ofString_join hproper⟩

/-- The file is collected, but its bytes are no text. -/
def NotText (t : FileNode) (root : List String) (f : String) : Prop :=
  ∃ e, t.readRawText root ((pathOf root).join (Path.ofString f)) = .error (.notText e)

/-- **A tree without files that are no text is a tree without garbled places.** -/
theorem without_withoutFiles (hkeyed : t.Keyed) (hproper : t.Proper)
    (hfiles : ∀ f ∈ files, f ∈ t.relativeFiles root) (hgarbled : ∀ f ∈ files, t.NotText root f) :
    Without t (t.withoutFiles root files)
      (fun place ↦ ∃ f ∈ files, place = root ++ (Path.ofString f).parts) := by
  have hparts : ∀ f ∈ files, (Path.ofString f).parts ≠ [] := by
    intro f hf
    obtain ⟨names, -, hsource, hpath⟩ := exists_sourceAt_of_mem hkeyed hproper (hfiles f hf)
    rw [hpath]
    exact hsource.1
  have hspoiled : ∀ f ∈ files, t.LeadsToGarbled (root ++ (Path.ofString f).parts) := by
    intro f hf
    obtain ⟨names, -, hsource, hpath⟩ := exists_sourceAt_of_mem hkeyed hproper (hfiles f hf)
    obtain ⟨c, hc, -⟩ := hsource.exists_content
    obtain ⟨e, he⟩ := hgarbled f hf
    rw [hpath] at he ⊢
    have hne : root ++ names ≠ [] := List.append_ne_nil_of_right_ne_nil root hsource.1
    exact leadsToGarbled_of_notText hne (hsource.proper hproper) hc he
  refine ⟨⟨?_, ?_, ?_⟩, ?_⟩
  · rintro place ⟨f, hf, rfl⟩
    exact (hspoiled f hf).ne_directory
  · rintro place ⟨f, hf, rfl⟩
    rw [content?_withoutFiles hparts, if_pos ⟨f, hf, List.prefix_refl _⟩]
  · intro place hplace
    rw [content?_withoutFiles hparts]
    split
    · next h =>
      -- what lies below a garbled place is not there before either
      obtain ⟨f, hf, rest, rfl⟩ := h
      have hrest : rest ≠ [] := by
        rintro rfl
        exact hplace ⟨f, hf, List.append_nil _⟩
      by_cases hbelow : t.content? (root ++ (Path.ofString f).parts ++ rest) = none
      · exact hbelow.symm
      · exact absurd (content?_of_append hrest hbelow) (hspoiled f hf).ne_directory
    · rfl
  · rintro place ⟨f, hf, rfl⟩
    exact hspoiled f hf

theorem Without.sourceAt_iff {t' : FileNode} {gone : List String → Prop} (h : Without t t' gone)
    {names : List String} :
    t'.SourceAt root names ↔ t.SourceAt root names ∧ ¬ gone (root ++ names) := by
  rw [SourceAt, SourceAt, h.isDirectory_eq]
  by_cases hgone : gone (root ++ names)
  · simp [h.deleted _ hgone, hgone]
  · simp [h.kept _ hgone, hgone]

theorem relativeFiles_withoutFiles (hkeyed : t.Keyed) (hproper : t.Proper)
    (hfiles : ∀ f ∈ files, f ∈ t.relativeFiles root) (hgarbled : ∀ f ∈ files, t.NotText root f) :
    ((t.withoutFiles root files).relativeFiles root).Perm
      ((t.relativeFiles root).filter (· ∉ files)) := by
  obtain ⟨places, hplaces, hnodup, hmem⟩ := exists_relativeFiles hkeyed root
  obtain ⟨places', hplaces', hnodup', hmem'⟩ :=
    exists_relativeFiles (hkeyed.withoutFiles root files) root
  have hpaths : ∀ f ∈ files, ∃ names, f = Text.join "/" names ∧ Path.ofString f = ⟨"", names⟩ := by
    intro f hf
    obtain ⟨names, hnames, -, hpath⟩ := exists_sourceAt_of_mem hkeyed hproper (hfiles f hf)
    exact ⟨names, hnames, hpath⟩
  have hperm : places'.Perm (places.filter fun names ↦ Text.join "/" names ∉ files) := by
    refine (List.perm_ext_iff_of_nodup hnodup' (hnodup.filter _)).mpr fun names ↦ ?_
    rw [hmem', (without_withoutFiles hkeyed hproper hfiles hgarbled).sourceAt_iff,
      List.mem_filter, hmem, decide_eq_true_iff]
    refine and_congr_right fun hsource ↦ not_congr ⟨?_, fun hf ↦ ⟨_, hf, ?_⟩⟩
    · rintro ⟨f, hf, hplace⟩
      obtain ⟨names', rfl, hpath⟩ := hpaths f hf
      rw [hpath, List.append_right_inj] at hplace
      rw [hplace]
      exact hf
    · rw [hsource.ofString_join hproper]
  rw [hplaces, hplaces', List.filter_map]
  exact hperm.map _

/-- **Removed files are collected no more, and all others still are.** -/
theorem collect_withoutFiles (hkeyed : t.Keyed) (hproper : t.Proper)
    (hfiles : ∀ f ∈ files, f ∈ t.relativeFiles root) (hgarbled : ∀ f ∈ files, t.NotText root f)
    (included excluded : List String) :
    (t.withoutFiles root files).collect root included excluded
      = (t.collect root included excluded).filter (· ∉ files) := by
  have hperm := (relativeFiles_withoutFiles hkeyed hproper hfiles hgarbled).filter
    fun p ↦ matchesAny included p && !matchesAny excluded p
  rw [collect, collect, Text.sort_eq_of_perm hperm, ← Text.sort_filter, List.filter_filter,
    List.filter_filter]
  exact congrArg Text.sort (List.filter_congr fun p _ ↦ Bool.and_comm _ _)

end

end FeatureAtlas.FileNode
