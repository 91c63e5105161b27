import FeatureAtlas.Proofs.Distinct
import FeatureAtlas.Table
import FeatureAtlas.Text.Basic

/-!
# Laws of ordered tables

A table answers for each key through `List.lookup`, so every operation is described by what it does to the
entry of one key and that it leaves the others alone. Where each key stands once, an entry is found exactly
if it is there.
-/

namespace FeatureAtlas.Table

variable {α β : Type}

/-- Each key stands once. -/
def NodupKeys (t : Table α) : Prop := (t.map Prod.fst).Nodup

instance (t : Table α) : Decidable t.NodupKeys := inferInstanceAs (Decidable (List.Nodup _))

theorem lookup_eq_some_iff_mem {t : Table α} (h : t.NodupKeys) {key : String} {value : α} :
    t.lookup key = some value ↔ (key, value) ∈ t := by
  induction t with
  | nil => simp
  | cons entry rest ih =>
    obtain ⟨k, v⟩ := entry
    rw [NodupKeys, List.map_cons, List.nodup_cons] at h
    rw [List.lookup_cons, List.mem_cons, Prod.mk.injEq]
    by_cases hk : key = k
    · subst hk
      have hrest : (key, value) ∉ rest := fun hmem ↦ h.1 (List.mem_map.mpr ⟨_, hmem, rfl⟩)
      simp [hrest, eq_comm]
    · rw [beq_eq_false_iff_ne.mpr hk]
      simp only [hk, false_and, false_or]
      exact ih h.2

/-- Where each key stands once, the order of the entries does not matter. -/
theorem lookup_eq_of_perm {t u : Table α} (h : t.Perm u) (ht : t.NodupKeys) (key : String) :
    t.lookup key = u.lookup key := by
  have hu : u.NodupKeys := (h.map Prod.fst).nodup_iff.mp ht
  refine Option.ext fun value ↦ ?_
  rw [lookup_eq_some_iff_mem ht, lookup_eq_some_iff_mem hu, h.mem_iff]

/-! ## Tables in the order of their keys -/

theorem sortKeys_perm (t : Table α) : (Text.sortKeys t).Perm t := List.mergeSort_perm t _

theorem nodupKeys_sortKeys {t : Table α} (h : t.NodupKeys) : NodupKeys (Text.sortKeys t) :=
  ((sortKeys_perm t).map Prod.fst).nodup_iff.mpr h

/-! ## Changing one entry -/

theorem lookup_modify_self (key : String) (f : Option α → α) (t : Table α) :
    (t.modify key f).lookup key = some (f (t.lookup key)) := by
  induction t with
  | nil => rw [modify, List.lookup_cons, beq_self_eq_true, List.lookup_nil]
  | cons entry rest ih =>
    obtain ⟨k, v⟩ := entry
    rw [modify]
    by_cases hk : k = key
    · rw [if_pos (beq_iff_eq.mpr hk), hk, List.lookup_cons_self, List.lookup_cons_self]
    · have hne : (key == k) = false := beq_eq_false_iff_ne.mpr (Ne.symm hk)
      rw [if_neg (by simpa using hk), List.lookup_cons, List.lookup_cons, hne, ih]

theorem lookup_modify_of_ne {key other : String} (h : other ≠ key) (f : Option α → α)
    (t : Table α) : (t.modify key f).lookup other = t.lookup other := by
  induction t with
  | nil => rw [modify, List.lookup_cons, beq_eq_false_iff_ne.mpr h]
  | cons entry rest ih =>
    obtain ⟨k, v⟩ := entry
    rw [modify]
    by_cases hk : k = key
    · subst hk
      rw [if_pos (beq_self_eq_true k), List.lookup_cons, List.lookup_cons,
        beq_eq_false_iff_ne.mpr h]
    · rw [if_neg (by simpa using hk), List.lookup_cons, List.lookup_cons, ih]

theorem lookup_set (key : String) (value : α) (t : Table α) (other : String) :
    (t.set key value).lookup other = if other = key then some value else t.lookup other := by
  rw [set]
  split
  · next h => rw [h, lookup_modify_self]
  · next h => rw [lookup_modify_of_ne h]

/-- The keys form an ordered set, to which a change adds its own. -/
theorem keys_modify (key : String) (f : Option α → α) (t : Table α) :
    (t.modify key f).map Prod.fst = appendNew (t.map Prod.fst) key := by
  induction t with
  | nil => rfl
  | cons entry rest ih =>
    obtain ⟨k, v⟩ := entry
    rw [modify]
    by_cases hk : k = key
    · simp [appendNew, hk]
    · rw [if_neg (by simpa using hk), List.map_cons, ih]
      by_cases hmem : key ∈ rest.map Prod.fst <;> simp [appendNew, hmem, Ne.symm hk]

theorem NodupKeys.modify {t : Table α} (h : t.NodupKeys) (key : String) (f : Option α → α) :
    (t.modify key f).NodupKeys := by
  rw [NodupKeys, keys_modify]
  exact nodup_appendNew h key

/-- Values that are changed by key keep their keys. -/
theorem lookup_map_values (g : String → α → β) (t : Table α) (key : String) :
    List.lookup key (t.map fun entry ↦ (entry.1, g entry.1 entry.2)) = (t.lookup key).map (g key) := by
  induction t with
  | nil => rfl
  | cons entry rest ih =>
    obtain ⟨k, v⟩ := entry
    rw [List.map_cons, List.lookup_cons, List.lookup_cons, ih]
    by_cases hk : key = k
    · rw [hk, beq_self_eq_true]
      rfl
    · rw [beq_eq_false_iff_ne.mpr hk]

/-- A new key comes last. -/
theorem set_of_not_mem {key : String} {t : Table α} (h : key ∉ t.map Prod.fst) (value : α) :
    t.set key value = t ++ [(key, value)] := by
  induction t with
  | nil => rfl
  | cons entry rest ih =>
    rw [List.map_cons, List.mem_cons, not_or] at h
    rw [set, modify, if_neg (by simpa using Ne.symm h.1), ← set, ih h.2, List.cons_append]

/-! ## Collected entries -/

theorem nodupKeys_ofEntries (entries : List (String × α)) : (ofEntries entries).NodupKeys := by
  have hrun : ∀ t : Table α, t.NodupKeys →
      (entries.foldl (fun t e ↦ t.set e.1 e.2) t).NodupKeys := by
    induction entries with
    | nil => exact fun t ht ↦ ht
    | cons entry entries ih => exact fun t ht ↦ ih _ (ht.modify _ _)
  exact hrun [] List.nodup_nil

/-- Collecting entries of different keys changes nothing. -/
theorem ofEntries_of_nodupKeys {entries : Table α} (h : entries.NodupKeys) :
    ofEntries entries = entries := by
  have hrun : ∀ t : Table α, (t ++ entries).NodupKeys →
      entries.foldl (fun t e ↦ t.set e.1 e.2) t = t ++ entries := by
    clear h
    induction entries with
    | nil => simp
    | cons entry entries ih =>
      intro t ht
      have hnew : entry.1 ∉ t.map Prod.fst := by
        intro hmem
        rw [NodupKeys, List.map_append, List.nodup_append] at ht
        exact ht.2.2 _ hmem _ List.mem_cons_self rfl
      rw [List.foldl_cons, set_of_not_mem hnew, ih _ (by rwa [List.append_assoc]), List.append_assoc]
      rfl
  exact hrun [] h

theorem mem_of_mem_set {key : String} {value : α} {t : Table α} {e : String × α}
    (h : e ∈ t.set key value) : e ∈ t ∨ e = (key, value) := by
  induction t with
  | nil => exact Or.inr (List.mem_singleton.mp h)
  | cons entry rest ih =>
    obtain ⟨k, v⟩ := entry
    rw [set, modify] at h
    split at h
    · next hk =>
      rw [beq_iff_eq.mp hk] at h
      exact (List.mem_cons.mp h).symm.imp_left fun hrest ↦ List.mem_cons_of_mem _ hrest
    · rcases List.mem_cons.mp h with rfl | hrest
      · exact Or.inl List.mem_cons_self
      · exact (ih hrest).imp_left fun hmem ↦ List.mem_cons_of_mem _ hmem

theorem mem_of_mem_ofEntries {entries : List (String × α)} {e : String × α}
    (h : e ∈ ofEntries entries) : e ∈ entries := by
  have hrun : ∀ t : Table α, e ∈ entries.foldl (fun t e ↦ t.set e.1 e.2) t → e ∈ t ∨ e ∈ entries := by
    clear h
    induction entries with
    | nil => exact fun t h ↦ Or.inl h
    | cons entry entries ih =>
      intro t h
      rcases ih _ h with hset | hmem
      · refine (mem_of_mem_set hset).imp_right fun heq ↦ ?_
        rw [heq]
        exact List.mem_cons_self
      · exact Or.inr (List.mem_cons_of_mem _ hmem)
  exact (hrun [] h).resolve_left List.not_mem_nil

theorem set_map_values (g : α → β) (key : String) (value : α) (t : Table α) :
    Table.set key (g value) (t.map fun e ↦ (e.1, g e.2)) = (t.set key value).map fun e ↦ (e.1, g e.2) := by
  induction t with
  | nil => rfl
  | cons entry rest ih =>
    obtain ⟨k, v⟩ := entry
    simp only [set, List.map_cons, modify] at ih ⊢
    split
    · rfl
    · rw [ih, List.map_cons]

/-- Values may be changed before their entries are collected, or behind that. -/
theorem ofEntries_map_values (g : α → β) (entries : List (String × α)) :
    ofEntries (entries.map fun e ↦ (e.1, g e.2)) = (ofEntries entries).map fun e ↦ (e.1, g e.2) := by
  have hrun : ∀ t : Table α,
      (entries.map fun e ↦ (e.1, g e.2)).foldl (fun t e ↦ Table.set e.1 e.2 t)
        (t.map fun e ↦ (e.1, g e.2))
        = (entries.foldl (fun t e ↦ Table.set e.1 e.2 t) t).map fun e ↦ (e.1, g e.2) := by
    induction entries with
    | nil => exact fun _ ↦ rfl
    | cons entry entries ih =>
      intro t
      rw [List.map_cons, List.foldl_cons, List.foldl_cons, ← ih, ← set_map_values]
  exact hrun []

/-- The keys of collected entries stand in the order of their first entries. -/
theorem keys_ofEntries (entries : List (String × α)) :
    (ofEntries entries).map Prod.fst = distinct (entries.map Prod.fst) := by
  have hrun : ∀ t : Table α, (entries.foldl (fun t e ↦ t.set e.1 e.2) t).map Prod.fst =
      (entries.map Prod.fst).foldl appendNew (t.map Prod.fst) := by
    induction entries with
    | nil => exact fun _ ↦ rfl
    | cons entry entries ih =>
      intro t
      rw [List.foldl_cons, ih, set, keys_modify, List.map_cons, List.foldl_cons]
  exact hrun []

/-- Of the entries of one key the last one counts. -/
theorem lookup_ofEntries_reverse (entries : List (String × α)) (key : String) :
    (ofEntries entries).lookup key = entries.reverse.lookup key := by
  have hrun : ∀ t : Table α, (entries.foldl (fun t e ↦ t.set e.1 e.2) t).lookup key =
      (entries.reverse.lookup key).or (t.lookup key) := by
    induction entries with
    | nil => exact fun _ ↦ rfl
    | cons entry entries ih =>
      intro t
      obtain ⟨k, v⟩ := entry
      have hlast : (t.set k v).lookup key = (List.lookup key [(k, v)]).or (t.lookup key) := by
        rw [lookup_set, List.lookup_cons]
        by_cases hk : key = k
        · simp [hk]
        · rw [if_neg hk, beq_eq_false_iff_ne.mpr hk, List.lookup_nil, Option.none_or]
      rw [List.foldl_cons, ih, hlast, List.reverse_cons, List.lookup_append, Option.or_assoc]
  rw [ofEntries, hrun, List.lookup_nil, Option.or_none]

/-- Where the entries of one key agree, collecting them finds exactly these. -/
theorem lookup_ofEntries_of_agree {entries : List (String × α)} {key : String}
    (h : ∀ v w, (key, v) ∈ entries → (key, w) ∈ entries → v = w) {value : α} :
    (ofEntries entries).lookup key = some value ↔ (key, value) ∈ entries := by
  have hmem : ∀ {v}, entries.reverse.lookup key = some v → (key, v) ∈ entries := by
    intro v hv
    obtain ⟨before, behind, hsplit, -⟩ := List.lookup_eq_some_iff.mp hv
    exact List.mem_reverse.mp (hsplit ▸ List.mem_append_right before List.mem_cons_self)
  rw [lookup_ofEntries_reverse]
  refine ⟨hmem, fun hvalue ↦ ?_⟩
  cases hfound : entries.reverse.lookup key with
  | none =>
    have hkey : (key != key) = true :=
      List.lookup_eq_none_iff.mp hfound (key, value) (List.mem_reverse.mpr hvalue)
    simp at hkey
  | some v => rw [h v value (hmem hfound) hvalue]

/-- Where the entries of each key agree, collecting them finds exactly the entries. -/
theorem lookup_ofEntries {entries : List (String × α)}
    (h : ∀ key v w, (key, v) ∈ entries → (key, w) ∈ entries → v = w) {key : String} {value : α} :
    (ofEntries entries).lookup key = some value ↔ (key, value) ∈ entries :=
  lookup_ofEntries_of_agree (h key)

/-! ## Lists by key -/

theorem values_push_self (key : String) (value : β) (t : Table (List β)) :
    (t.push key value).values key = t.values key ++ [value] := by
  rw [values, push, lookup_modify_self, Option.getD_some, values]

theorem values_push_of_ne {key other : String} (h : other ≠ key) (value : β)
    (t : Table (List β)) : (t.push key value).values other = t.values other := by
  rw [values, push, lookup_modify_of_ne h, values]

end FeatureAtlas.Table
