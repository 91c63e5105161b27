import FeatureAtlas.Proofs.Table
import FeatureAtlas.Usage.Basic

/-!
# The reverse index inverts the usages

For each name the index lists the files that use it, in the order of the usages and once per mention. All
four indexes are one construction over a choice of names; the choice is a parameter here.

Two folds are nested: one over the names of a file, one over the files. What a name's list and the keys are
after either of them is stated for any table to start from; where the keys of the usages are distinct, the
lists and the keys together are all there is to say about an index, and `Inverts` collects them.
-/

namespace FeatureAtlas.ReverseIndex

/-- The index of one kind of names, from a table on. -/
private def inverted (names : FileUsage → List String) (usages : Table FileUsage)
    (t : Table (List String)) : Table (List String) :=
  usages.foldl (fun t (file, u) ↦ record file (names u) t) t

theorem values_record (file : String) (names : List String) (t : Table (List String))
    (name : String) :
    (record file names t).values name = t.values name ++ List.replicate (names.count name) file := by
  induction names generalizing t with
  | nil => simp [record]
  | cons n names ih =>
    rw [record, List.foldl_cons, ← record, ih]
    by_cases h : n = name
    · subst h
      rw [Table.values_push_self, List.count_cons_self, List.append_assoc, List.replicate_succ,
        List.singleton_append]
    · rw [Table.values_push_of_ne (Ne.symm h), List.count_cons_of_ne h]

private theorem values_inverted (names : FileUsage → List String) (usages : Table FileUsage)
    (name : String) :
    ∀ t : Table (List String), (inverted names usages t).values name
      = t.values name ++ usages.flatMap fun e ↦ List.replicate ((names e.2).count name) e.1 := by
  induction usages with
  | nil => intro t; simp [inverted]
  | cons e usages ih =>
    intro t
    rw [inverted, List.foldl_cons, ← inverted, ih, values_record, List.flatMap_cons,
      List.append_assoc]

private theorem mem_values_inverted {names : FileUsage → List String} {usages : Table FileUsage}
    {file name : String} :
    file ∈ (inverted names usages []).values name ↔ ∃ u, (file, u) ∈ usages ∧ name ∈ names u := by
  rw [values_inverted]
  simp only [Table.values, List.lookup_nil, Option.getD_none, List.nil_append, List.mem_flatMap,
    List.mem_replicate, ne_eq, List.count_eq_zero, Decidable.not_not, Prod.exists]
  constructor
  · rintro ⟨f, u, hu, hname, rfl⟩
    exact ⟨u, hu, hname⟩
  · rintro ⟨u, hu, hname⟩
    exact ⟨file, u, hu, hname, rfl⟩

theorem mem_components_ofUsages {usages : Table FileUsage} {file name : String} :
    file ∈ (ofUsages usages).components.values name ↔
      ∃ u, (file, u) ∈ usages ∧ name ∈ u.components :=
  mem_values_inverted

theorem mem_actions_ofUsages {usages : Table FileUsage} {file name : String} :
    file ∈ (ofUsages usages).actions.values name ↔ ∃ u, (file, u) ∈ usages ∧ name ∈ u.actions :=
  mem_values_inverted

theorem mem_modulePaths_ofUsages {usages : Table FileUsage} {file path : String} :
    file ∈ (ofUsages usages).modulePaths.values path ↔
      ∃ u, (file, u) ∈ usages ∧ path ∈ u.modulePaths :=
  mem_values_inverted

/-! ## The whole index -/

private theorem keys_record (file : String) (names : List String) (t : Table (List String)) :
    (record file names t).map Prod.fst = names.foldl appendNew (t.map Prod.fst) := by
  induction names generalizing t with
  | nil => rfl
  | cons name names ih => rw [record, List.foldl_cons, ← record, ih, Table.push, Table.keys_modify,
      List.foldl_cons]

private theorem keys_inverted (names : FileUsage → List String) (usages : Table FileUsage)
    (t : Table (List String)) : (inverted names usages t).map Prod.fst
      = (usages.flatMap fun e ↦ names e.2).foldl appendNew (t.map Prod.fst) := by
  induction usages generalizing t with
  | nil => rfl
  | cons e usages ih =>
    rw [inverted, List.foldl_cons, ← inverted, ih, keys_record, List.flatMap_cons,
      List.foldl_append]

/-- Each file stands under a name once for each time it mentions it. -/
private theorem count_flatMap_replicate {usages : Table FileUsage} (h : usages.NodupKeys)
    (times : FileUsage → Nat) (file : String) :
    (usages.flatMap fun e ↦ List.replicate (times e.2) e.1).count file
      = (usages.lookup file).elim 0 times := by
  induction usages with
  | nil => rfl
  | cons e usages ih =>
    obtain ⟨key, u⟩ := e
    obtain ⟨hkey, hrest⟩ := List.nodup_cons.mp h
    rw [List.flatMap_cons, List.count_append, ih hrest, List.lookup_cons]
    by_cases hfile : file = key
    · subst hfile
      have hnone : usages.lookup file = none := by
        refine List.lookup_eq_none_iff.mpr fun e he ↦ bne_iff_ne.mpr ?_
        exact fun heq ↦ hkey (List.mem_map.mpr ⟨e, he, heq.symm⟩)
      rw [hnone, beq_self_eq_true, List.count_replicate_self]
      rfl
    · rw [beq_eq_false_iff_ne.mpr hfile, List.count_eq_zero_of_not_mem, Nat.zero_add]
      exact fun hmem ↦ hfile (List.eq_of_mem_replicate hmem)

/-- The index lists, under each name of one kind, the files of the usages that mention it. -/
structure Inverts (names : FileUsage → List String) (usages : Table FileUsage)
    (index : Table (List String)) : Prop where
  /-- A file stands under a name as often as it mentions the name. -/
  count : ∀ name file,
    (index.values name).count file = ((usages.lookup file).elim [] names).count name
  mem_keys : ∀ name, name ∈ index.map Prod.fst ↔
    ∃ file u, usages.lookup file = some u ∧ name ∈ names u
  /-- The files of a name stand in the order of the usages. -/
  files : ∀ name, (index.values name).Pairwise fun f g ↦
    (usages.map Prod.fst).idxOf f ≤ (usages.map Prod.fst).idxOf g
  /-- The names stand in the order in which the usages first mention them. -/
  keys : ListsFirst (usages.flatMap fun e ↦ names e.2) (index.map Prod.fst)

private theorem inverts_inverted (names : FileUsage → List String) {usages : Table FileUsage}
    (h : usages.NodupKeys) : Inverts names usages (inverted names usages []) := by
  have hvalues : ∀ name, (inverted names usages []).values name
      = usages.flatMap fun e ↦ List.replicate ((names e.2).count name) e.1 :=
    fun name ↦ values_inverted names usages name []
  have hkeys : ListsFirst (usages.flatMap fun e ↦ names e.2)
      ((inverted names usages []).map Prod.fst) := by
    rw [keys_inverted]
    exact listsFirst_distinct _
  refine ⟨fun name file ↦ ?_, fun name ↦ ?_, fun name ↦ ?_, hkeys⟩
  · rw [hvalues, count_flatMap_replicate h fun u ↦ (names u).count name]
    cases usages.lookup file <;> rfl
  · rw [hkeys.mem_iff]
    simp only [List.mem_flatMap, Prod.exists, Table.lookup_eq_some_iff_mem h]
  · have hordered : usages.Pairwise fun e e' ↦
        (usages.map Prod.fst).idxOf e.1 < (usages.map Prod.fst).idxOf e'.1 := by
      have hfirst := (listsFirst_distinct (usages.map Prod.fst)).ordered
      rwa [distinct_of_nodup h, List.pairwise_map] at hfirst
    rw [hvalues]
    refine List.pairwise_flatMap.mpr ⟨fun e _ ↦ ?_, hordered.imp fun hlt f hf g hg ↦ ?_⟩
    · exact List.pairwise_replicate.mpr (Or.inr (Nat.le_refl _))
    · rw [List.eq_of_mem_replicate hf, List.eq_of_mem_replicate hg]
      exact Nat.le_of_lt hlt

/-- **The reverse index is the exact inverse of the usages**, for each of the four kinds of names. -/
theorem ofUsages_inverts {usages : Table FileUsage} (h : usages.NodupKeys) :
    Inverts FileUsage.components usages (ofUsages usages).components ∧
      Inverts FileUsage.actions usages (ofUsages usages).actions ∧
      Inverts FileUsage.modules usages (ofUsages usages).modules ∧
      Inverts FileUsage.modulePaths usages (ofUsages usages).modulePaths :=
  ⟨inverts_inverted _ h, inverts_inverted _ h, inverts_inverted _ h, inverts_inverted _ h⟩

/-- Two files that share a name, which one of them mentions twice. -/
theorem ofUsages_inverts_repeated :
    let usages : Table FileUsage := [
      ("web/page.tsx", { path := "web/page.tsx", components := ["Card", "Badge"] }),
      ("web/list.tsx", { path := "web/list.tsx", components := ["Badge", "Row", "Badge"] })]
    usages.NodupKeys ∧
      (ofUsages usages).components = [("Card", ["web/page.tsx"]),
        ("Badge", ["web/page.tsx", "web/list.tsx", "web/list.tsx"]), ("Row", ["web/list.tsx"])] ∧
      Inverts FileUsage.components usages (ofUsages usages).components := by
  intro usages
  have hkeys : usages.NodupKeys := by decide
  exact ⟨hkeys, by decide, (ofUsages_inverts hkeys).1⟩

end FeatureAtlas.ReverseIndex
