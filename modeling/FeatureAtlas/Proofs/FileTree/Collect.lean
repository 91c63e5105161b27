import FeatureAtlas.FileTree.Collect
import FeatureAtlas.Proofs.FileTree.Same
import FeatureAtlas.Proofs.Text.Order

/-!
# Collected files

A walk through a tree meets each file once, wherever the directories list it: the places it lists are those
that `Listed` describes by the content of the tree alone. Sorted, they are the same for two trees that hold
the same, whatever the order of their directories.
-/

namespace FeatureAtlas.FileNode

/-- Each directory lists a name once. -/
def Keyed (t : FileNode) : Prop :=
  ∀ place entries, t.node? place = some (directory entries) → Table.NodupKeys entries

theorem Keyed.of_node? {t u : FileNode} (h : t.Keyed) {place : List String}
    (hu : t.node? place = some u) : u.Keyed := by
  intro rest entries hentries
  refine h (place ++ rest) entries ?_
  rw [node?_append, hu, Option.bind_some, hentries]

theorem keyed_file (bytes : List UInt8) : (file bytes).Keyed := by
  intro place entries h
  cases place <;> cases h

theorem keyed_link (target : String) : (link target).Keyed := by
  intro place entries h
  cases place <;> cases h

theorem keyed_directory {entries : List (String × FileNode)} (hkeys : Table.NodupKeys entries)
    (h : ∀ entry ∈ entries, entry.2.Keyed) : (directory entries).Keyed := by
  intro place below hbelow
  cases place with
  | nil =>
    cases hbelow
    exact hkeys
  | cons n r =>
    rw [node?_directory_cons] at hbelow
    obtain ⟨child, hlookup, hchild⟩ := Option.bind_eq_some_iff.mp hbelow
    exact h (n, child) ((Table.lookup_eq_some_iff_mem hkeys).mp hlookup) r below hchild

theorem Keyed.of_mem {entries : List (String × FileNode)} (h : (directory entries).Keyed)
    {entry : String × FileNode} (hentry : entry ∈ entries) : entry.2.Keyed := by
  have hlookup := (Table.lookup_eq_some_iff_mem (h [] entries (node?_nil _))).mpr hentry
  have hnode : (directory entries).node? [entry.1] = some entry.2 := by
    rw [node?_directory_cons, hlookup, Option.bind_some, node?_nil]
  exact h.of_node? hnode

section

variable {name : String} {child : FileNode} {rest : List (String × FileNode)}

theorem node?_cons_self (r : List String) :
    (directory ((name, child) :: rest)).node? (name :: r) = child.node? r := by
  rw [node?_directory_cons, List.lookup_cons_self, Option.bind_some]

theorem node?_cons_of_ne {n : String} (h : n ≠ name) (r : List String) :
    (directory ((name, child) :: rest)).node? (n :: r) = (directory rest).node? (n :: r) := by
  rw [node?_directory_cons, node?_directory_cons, List.lookup_cons, beq_eq_false_iff_ne.mpr h]

theorem Keyed.not_mem (h : (directory ((name, child) :: rest)).Keyed) : rest.lookup name = none := by
  have hnodup := h [] _ (node?_nil _)
  rw [List.lookup_eq_none_iff]
  intro entry hentry
  rw [bne_iff_ne]
  exact fun heq ↦ (List.nodup_cons.mp hnodup).1 (List.mem_map.mpr ⟨entry, hentry, heq.symm⟩)

theorem Keyed.of_child (h : (directory ((name, child) :: rest)).Keyed) : child.Keyed :=
  h.of_node? ((node?_cons_self []).trans (node?_nil child))

theorem Keyed.of_rest (h : (directory ((name, child) :: rest)).Keyed) : (directory rest).Keyed := by
  intro place entries hentries
  cases place with
  | nil =>
    rw [node?_nil] at hentries
    cases hentries
    exact (List.nodup_cons.mp (h [] _ (node?_nil _))).2
  | cons n r =>
    have hne : n ≠ name := by
      rintro rfl
      rw [node?_directory_cons, h.not_mem] at hentries
      cases hentries
    exact h (n :: r) entries ((node?_cons_of_ne hne r).trans hentries)

end

/-! ## Listed places -/

/-- A place below a node, which is itself somewhere, that a walk lists: a file or a link that leads to no
directory, inside of no pruned directory. -/
def Listed (leads : List String → Bool) (here : List String) (t : FileNode) (place : List String) :
    Prop :=
  (∀ n ∈ place.dropLast, prunedNames.contains n = false) ∧
    ((∃ bytes, t.node? place = some (file bytes)) ∨
      ∃ target, t.node? place = some (link target) ∧ leads (here ++ place) = false)

section

variable {leads : List String → Bool} {here : List String} {name : String} {child : FileNode}
  {rest : List (String × FileNode)}

theorem Same.listed_iff {t t' : FileNode} (h : t.Same t') {place : List String} :
    Listed leads here t place ↔ Listed leads here t' place := by
  have halike := h.alike place
  rw [Listed, Listed]
  generalize t.node? place = u, t'.node? place = v at halike ⊢
  cases halike <;> simp

theorem exists_of_listed {entries : List (String × FileNode)} {place : List String}
    (h : Listed leads here (directory entries) place) :
    ∃ n r node, place = n :: r ∧ entries.lookup n = some node := by
  cases place with
  | nil => simp [Listed, node?_nil] at h
  | cons n r =>
    cases hlookup : entries.lookup n with
    | none => simp [Listed, node?_directory_cons, hlookup] at h
    | some node => exact ⟨n, r, node, rfl, hlookup⟩

theorem listed_cons_self {r : List String} :
    Listed leads here (directory ((name, child) :: rest)) (name :: r) ↔
      (r ≠ [] → prunedNames.contains name = false) ∧ Listed leads (here ++ [name]) child r := by
  rw [Listed, Listed, node?_cons_self, List.append_assoc, List.singleton_append]
  cases r with
  | nil => simp
  | cons n r =>
    rw [List.dropLast_cons_cons, List.forall_mem_cons, and_assoc]
    simp

theorem listed_cons_of_ne {n : String} (h : n ≠ name) {r : List String} :
    Listed leads here (directory ((name, child) :: rest)) (n :: r) ↔
      Listed leads here (directory rest) (n :: r) := by
  rw [Listed, Listed, node?_cons_of_ne h]

/-- A listed place is below the first entry or below one of the others. -/
theorem listed_cons (h : (directory ((name, child) :: rest)).Keyed) {place : List String} :
    Listed leads here (directory ((name, child) :: rest)) place ↔
      (∃ r, place = name :: r ∧ (r ≠ [] → prunedNames.contains name = false) ∧
        Listed leads (here ++ [name]) child r) ∨
      Listed leads here (directory rest) place := by
  constructor
  · intro hlisted
    obtain ⟨n, r, -, rfl, -⟩ := exists_of_listed hlisted
    by_cases hn : n = name
    · subst hn
      exact Or.inl ⟨r, rfl, listed_cons_self.mp hlisted⟩
    · exact Or.inr ((listed_cons_of_ne hn).mp hlisted)
  · rintro (⟨r, rfl, hlisted⟩ | hlisted)
    · exact listed_cons_self.mpr hlisted
    · obtain ⟨n, r, node, rfl, hlookup⟩ := exists_of_listed hlisted
      have hn : n ≠ name := by
        rintro rfl
        rw [h.not_mem] at hlookup
        cases hlookup
      exact (listed_cons_of_ne hn).mpr hlisted

theorem listed_link {target : String} {r : List String} :
    Listed leads here (link target) r ↔ r = [] ∧ leads here = false := by
  cases r with
  | nil => simp [Listed, node?_nil]
  | cons n r => simp [Listed, node?]

theorem listed_file {bytes : List UInt8} {r : List String} :
    Listed leads here (file bytes) r ↔ r = [] := by
  cases r with
  | nil => simp [Listed, node?_nil]
  | cons n r => simp [Listed, node?]

end

/-! ## The walk -/

section

variable {leads : List String → Bool} {here : List String} {place : List String}

/-- The places that a walk lists below an entry and below the entries behind it. -/
theorem exists_listed_cons {name : String} {child : FileNode} {rest : List (String × FileNode)}
    (h : (directory ((name, child) :: rest)).Keyed) :
    (∃ r, place = here ++ r ∧ Listed leads here (directory ((name, child) :: rest)) r) ↔
      (∃ r, place = here ++ [name] ++ r ∧ (r ≠ [] → prunedNames.contains name = false) ∧
        Listed leads (here ++ [name]) child r) ∨
      ∃ r, place = here ++ r ∧ Listed leads here (directory rest) r := by
  constructor
  · rintro ⟨r, rfl, hlisted⟩
    rcases (listed_cons h).mp hlisted with ⟨r, rfl, hbelow⟩ | hrest
    · exact Or.inl ⟨r, by simp, hbelow⟩
    · exact Or.inr ⟨r, rfl, hrest⟩
  · rintro (⟨r, rfl, hbelow⟩ | ⟨r, rfl, hrest⟩)
    · exact ⟨name :: r, by simp, (listed_cons h).mpr (Or.inl ⟨r, rfl, hbelow⟩)⟩
    · exact ⟨r, rfl, (listed_cons h).mpr (Or.inr hrest)⟩

/-- **A walk lists the listed places.** -/
theorem mem_filesAmong {entries : List (String × FileNode)} (h : (directory entries).Keyed) :
    place ∈ filesAmong leads here entries ↔
      ∃ r, place = here ++ r ∧ Listed leads here (directory entries) r := by
  induction here, entries using filesAmong.induct with
  | case1 here =>
    simp only [filesAmong, List.not_mem_nil, false_iff]
    rintro ⟨r, -, hlisted⟩
    obtain ⟨n, _, _, -, hlookup⟩ := exists_of_listed hlisted
    cases hlookup
  | case2 here name entries rest ihchild ihrest =>
    rw [filesAmong, List.mem_append, ihrest h.of_rest, exists_listed_cons h]
    refine or_congr_left ?_
    constructor
    · intro hmem
      by_cases hpruned : prunedNames.contains name = true
      · rw [if_pos hpruned] at hmem
        cases hmem
      · rw [if_neg hpruned] at hmem
        obtain ⟨r, hplace, hlisted⟩ := (ihchild h.of_child).mp hmem
        exact ⟨r, hplace, fun _ ↦ by simpa using hpruned, hlisted⟩
    · rintro ⟨r, hplace, hpruned, hlisted⟩
      have hr : r ≠ [] := by
        obtain ⟨n, r, _, rfl, -⟩ := exists_of_listed hlisted
        exact List.cons_ne_nil n r
      rw [if_neg (by simpa using hpruned hr)]
      exact (ihchild h.of_child).mpr ⟨r, hplace, hlisted⟩
  | case3 here name target rest ihrest =>
    rw [filesAmong, List.mem_append, ihrest h.of_rest, exists_listed_cons h]
    simp only [listed_link]
    cases leads (here ++ [name]) <;> simp
  | case4 here name bytes rest ihrest =>
    rw [filesAmong, List.mem_cons, ihrest h.of_rest, exists_listed_cons h]
    simp [listed_file]

theorem exists_of_mem_filesAmong {entries : List (String × FileNode)}
    (h : (directory entries).Keyed) (hmem : place ∈ filesAmong leads here entries) :
    ∃ n r node, place = here ++ n :: r ∧ entries.lookup n = some node := by
  obtain ⟨r, hplace, hlisted⟩ := (mem_filesAmong h).mp hmem
  obtain ⟨n, r, node, rfl, hlookup⟩ := exists_of_listed hlisted
  exact ⟨n, r, node, hplace, hlookup⟩

/-- What lies below an entry lies below none of the entries behind it. -/
theorem not_mem_filesAmong_rest {name : String} {child : FileNode}
    {rest : List (String × FileNode)} (h : (directory ((name, child) :: rest)).Keyed)
    (r : List String) : here ++ [name] ++ r ∉ filesAmong leads here rest := by
  intro hmem
  obtain ⟨n, r', node, hplace, hlookup⟩ := exists_of_mem_filesAmong h.of_rest hmem
  rw [List.append_assoc, List.singleton_append, List.append_right_inj] at hplace
  cases hplace
  rw [h.not_mem] at hlookup
  cases hlookup

/-- A walk lists no place twice. -/
theorem nodup_filesAmong {entries : List (String × FileNode)} (h : (directory entries).Keyed) :
    (filesAmong leads here entries).Nodup := by
  induction here, entries using filesAmong.induct with
  | case1 here =>
    rw [filesAmong]
    exact List.nodup_nil
  | case2 here name entries rest ihchild ihrest =>
    rw [filesAmong]
    split
    · exact ihrest h.of_rest
    · refine List.nodup_append.mpr ⟨ihchild h.of_child, ihrest h.of_rest, ?_⟩
      rintro place hchild _ hrest rfl
      obtain ⟨r, rfl, -⟩ := (mem_filesAmong h.of_child).mp hchild
      exact not_mem_filesAmong_rest h r hrest
  | case3 here name target rest ihrest =>
    rw [filesAmong]
    split
    · exact ihrest h.of_rest
    · exact List.nodup_cons.mpr
        ⟨by simpa using not_mem_filesAmong_rest h [], ihrest h.of_rest⟩
  | case4 here name bytes rest ihrest =>
    rw [filesAmong]
    exact List.nodup_cons.mpr ⟨by simpa using not_mem_filesAmong_rest h [], ihrest h.of_rest⟩

/-- A walk through same trees lists the same places. -/
theorem Same.perm_filesAmong {entries entries' : List (String × FileNode)}
    (h : (directory entries).Same (directory entries')) (hkeyed : (directory entries).Keyed)
    (hkeyed' : (directory entries').Keyed) :
    (filesAmong leads here entries).Perm (filesAmong leads here entries') := by
  refine (List.perm_ext_iff_of_nodup (nodup_filesAmong hkeyed) (nodup_filesAmong hkeyed')).mpr ?_
  intro place
  simp only [mem_filesAmong hkeyed, mem_filesAmong hkeyed', h.listed_iff]

end

/-! ## The collected files -/

theorem Same.perm_relativeFiles {t t' : FileNode} (h : t.Same t') (hkeyed : t.Keyed)
    (hkeyed' : t'.Keyed) (root : List String) :
    (t.relativeFiles root).Perm (t'.relativeFiles root) := by
  have halike := h.alike root
  have hbelow : ∀ u, t.node? root = some u → u.Keyed := fun _ ↦ hkeyed.of_node?
  have hbelow' : ∀ u, t'.node? root = some u → u.Keyed := fun _ ↦ hkeyed'.of_node?
  rw [relativeFiles, relativeFiles, h.isDirectory_eq]
  generalize t.node? root = u, t'.node? root = v at halike hbelow hbelow' ⊢
  cases halike with
  | none | file | link => exact List.Perm.refl _
  | directory hsame =>
    exact (hsame.perm_filesAmong (hbelow _ rfl) (hbelow' _ rfl)).map _

/-- **The collected files do not depend on the order of directories.** -/
theorem Same.collect_eq {t t' : FileNode} (h : t.Same t') (hkeyed : t.Keyed)
    (hkeyed' : t'.Keyed) : t.collect = t'.collect := by
  funext root included excluded
  exact Text.sort_eq_of_perm ((h.perm_relativeFiles hkeyed hkeyed' root).filter _)

end FeatureAtlas.FileNode
