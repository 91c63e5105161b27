import FeatureAtlas.Distinct

/-!
# Laws of ordered sets

The accumulator of `distinct` only ever grows at its end, and never by an entry it has. Membership,
absence of repetitions and absorption are therefore invariants of `appendNew`; each is proved for one
entry, then for a fold from an arbitrary accumulator, and read off for `distinct` and `union`.
-/

namespace FeatureAtlas

variable {α : Type} [BEq α] [LawfulBEq α]

/-! ## One entry -/

theorem mem_appendNew {known : List α} {x y : α} : y ∈ appendNew known x ↔ y ∈ known ∨ y = x := by
  rw [appendNew]
  split
  · next h =>
    refine ⟨Or.inl, ?_⟩
    rintro (hy | rfl)
    · exact hy
    · exact List.contains_iff_mem.mp h
  · rw [List.mem_append, List.mem_singleton]

theorem nodup_appendNew {known : List α} (h : known.Nodup) (x : α) : (appendNew known x).Nodup := by
  rw [appendNew]
  split
  · exact h
  · next hx =>
    rw [List.contains_iff_mem] at hx
    refine List.nodup_append.mpr ⟨h, List.pairwise_singleton _ _, ?_⟩
    rintro a ha b hb rfl
    exact hx (List.mem_singleton.mp hb ▸ ha)

theorem appendNew_of_mem {known : List α} {x : α} (h : x ∈ known) : appendNew known x = known :=
  if_pos (List.contains_iff_mem.mpr h)

/-! ## Folds from any accumulator -/

theorem mem_foldl_appendNew {xs known : List α} {y : α} :
    y ∈ xs.foldl appendNew known ↔ y ∈ known ∨ y ∈ xs := by
  induction xs generalizing known with
  | nil => simp
  | cons x xs ih => rw [List.foldl_cons, ih, mem_appendNew, List.mem_cons, or_assoc]

theorem nodup_foldl_appendNew {known : List α} (h : known.Nodup) (xs : List α) :
    (xs.foldl appendNew known).Nodup := by
  induction xs generalizing known with
  | nil => exact h
  | cons x xs ih => exact ih (nodup_appendNew h x)

theorem foldl_appendNew_of_subset {xs known : List α} (h : xs ⊆ known) :
    xs.foldl appendNew known = known := by
  induction xs with
  | nil => rfl
  | cons x xs ih =>
    rw [List.foldl_cons, appendNew_of_mem (h List.mem_cons_self)]
    exact ih fun y hy ↦ h (List.mem_cons_of_mem x hy)

omit [LawfulBEq α] in
theorem prefix_foldl_appendNew (xs known : List α) : known <+: xs.foldl appendNew known := by
  induction xs generalizing known with
  | nil => exact List.prefix_refl known
  | cons x xs ih =>
    have hstep : known <+: appendNew known x := by
      rw [appendNew]
      split
      · exact List.prefix_refl known
      · exact List.prefix_append known [x]
    exact hstep.trans (ih (appendNew known x))

/-- On entries that are all new and all different, the fold is concatenation. -/
theorem foldl_appendNew_of_nodup {xs known : List α} (h : (known ++ xs).Nodup) :
    xs.foldl appendNew known = known ++ xs := by
  induction xs generalizing known with
  | nil => simp
  | cons x xs ih =>
    have hx : x ∉ known := by
      intro hmem
      exact (List.nodup_append.mp h).2.2 x hmem x List.mem_cons_self rfl
    have hstep : appendNew known x = known ++ [x] := by
      rw [appendNew, if_neg (by rwa [List.contains_iff_mem])]
    rw [List.foldl_cons, hstep, ih (by rwa [List.append_assoc, List.singleton_append]),
      List.append_assoc, List.singleton_append]

/-- Entries that were gathered elsewhere add to a list what they would have added before. -/
theorem foldl_appendNew_foldl (xs added known : List α) :
    (xs.foldl appendNew added).foldl appendNew known =
      xs.foldl appendNew (added.foldl appendNew known) := by
  induction xs generalizing added with
  | nil => rfl
  | cons x xs ih =>
    have hstep : (appendNew added x).foldl appendNew known =
        appendNew (added.foldl appendNew known) x := by
      by_cases hx : x ∈ added
      · rw [appendNew_of_mem hx, appendNew_of_mem (mem_foldl_appendNew.mpr (Or.inr hx))]
      · rw [appendNew, if_neg (by rwa [List.contains_iff_mem]), List.foldl_append]
        rfl
    rw [List.foldl_cons, ih, hstep, List.foldl_cons]

/-! ## Distinct entries and unions -/

@[simp] theorem mem_distinct {xs : List α} {y : α} : y ∈ distinct xs ↔ y ∈ xs := by
  rw [distinct, mem_foldl_appendNew]
  simp

theorem nodup_distinct (xs : List α) : (distinct xs).Nodup :=
  nodup_foldl_appendNew List.nodup_nil xs

theorem nodup_eraseDups : ∀ xs : List α, xs.eraseDups.Nodup
  | [] => List.nodup_nil
  | x :: xs => by
    have hrest := nodup_eraseDups (xs.filter fun y ↦ !y == x)
    rw [List.eraseDups_cons, List.nodup_cons, List.mem_eraseDups, List.mem_filter]
    exact ⟨by simp, hrest⟩
termination_by xs => xs.length
decreasing_by exact Nat.lt_succ_of_le (List.length_filter_le _ xs)

theorem distinct_of_nodup {xs : List α} (h : xs.Nodup) : distinct xs = xs :=
  foldl_appendNew_of_nodup h

@[simp] theorem mem_union {existing added : List α} {y : α} :
    y ∈ union existing added ↔ y ∈ existing ∨ y ∈ added := by
  rw [union, mem_distinct, List.mem_append]

theorem nodup_union (existing added : List α) : (union existing added).Nodup := nodup_distinct _

/-- The union with a list without repetitions only adds to its end. -/
theorem union_eq_foldl {existing : List α} (h : existing.Nodup) (added : List α) :
    union existing added = added.foldl appendNew existing := by
  have hfold : existing.foldl appendNew [] = existing := distinct_of_nodup h
  rw [union, distinct, List.foldl_append, hfold]

/-- A list without repetitions absorbs what it holds. -/
theorem union_of_subset {existing added : List α} (h : existing.Nodup) (hsub : added ⊆ existing) :
    union existing added = existing := by
  rw [union_eq_foldl h, foldl_appendNew_of_subset hsub]

theorem prefix_union {existing : List α} (h : existing.Nodup) (added : List α) :
    existing <+: union existing added := by
  rw [union_eq_foldl h]
  exact prefix_foldl_appendNew added existing

/-! ## First occurrences -/

/-- The second list has the entries of the first one, in the order in which they first occur there. -/
structure ListsFirst (xs firsts : List α) : Prop where
  mem_iff : ∀ x, x ∈ firsts ↔ x ∈ xs
  ordered : firsts.Pairwise fun x y ↦ xs.idxOf x < xs.idxOf y

omit [LawfulBEq α] in
theorem ListsFirst.nodup {xs firsts : List α} (h : ListsFirst xs firsts) : firsts.Nodup :=
  List.nodup_iff_pairwise_ne.mpr <| h.ordered.imp fun hlt heq ↦ by
    rw [heq] at hlt
    exact Nat.lt_irrefl _ hlt

theorem listsFirst_appendNew {before known : List α} (h : ListsFirst before known) (x : α) :
    ListsFirst (before ++ [x]) (appendNew known x) where
  mem_iff y := by rw [mem_appendNew, h.mem_iff, List.mem_append, List.mem_singleton]
  ordered := by
    have hkept : ∀ y ∈ known, (before ++ [x]).idxOf y = before.idxOf y := fun y hy ↦ by
      rw [List.idxOf_append, if_pos ((h.mem_iff y).mp hy)]
    have hordered : known.Pairwise fun y z ↦ (before ++ [x]).idxOf y < (before ++ [x]).idxOf z :=
      h.ordered.imp_of_mem fun hy hz hlt ↦ by rwa [hkept _ hy, hkept _ hz]
    by_cases hx : x ∈ known
    · rwa [appendNew_of_mem hx]
    · have hnew : x ∉ before := fun hmem ↦ hx ((h.mem_iff x).mpr hmem)
      rw [appendNew, if_neg (by rwa [List.contains_iff_mem])]
      refine List.pairwise_append.mpr ⟨hordered, List.pairwise_singleton _ _, fun y hy z hz ↦ ?_⟩
      obtain rfl := List.mem_singleton.mp hz
      -- a new entry stands behind all that came before
      rw [hkept y hy, List.idxOf_append, if_neg hnew]
      exact Nat.lt_of_lt_of_le (List.idxOf_lt_length_of_mem ((h.mem_iff y).mp hy))
        (Nat.le_add_left _ _)

theorem listsFirst_foldl {before known : List α} (h : ListsFirst before known) (xs : List α) :
    ListsFirst (before ++ xs) (xs.foldl appendNew known) := by
  induction xs generalizing before known with
  | nil => rwa [List.append_nil]
  | cons x xs ih =>
    have hstep := ih (listsFirst_appendNew h x)
    rwa [List.append_assoc, List.singleton_append] at hstep

theorem listsFirst_distinct (xs : List α) : ListsFirst xs (distinct xs) :=
  listsFirst_foldl ⟨fun _ ↦ Iff.rfl, List.Pairwise.nil⟩ xs

/-! ## Set algebra -/

omit [LawfulBEq α] in
theorem distinct_append (xs ys : List α) : distinct (xs ++ ys) = ys.foldl appendNew (distinct xs) :=
  List.foldl_append

/-- Repetitions in front add nothing. -/
theorem distinct_distinct_append (xs ys : List α) : distinct (distinct xs ++ ys) = distinct (xs ++ ys) := by
  rw [distinct_append, distinct_of_nodup (nodup_distinct xs), distinct_append]

/-- Repetitions behind add nothing. -/
theorem distinct_append_distinct (xs ys : List α) : distinct (xs ++ distinct ys) = distinct (xs ++ ys) := by
  have hrun := foldl_appendNew_foldl ys [] (distinct xs)
  rw [distinct_append, distinct_append]
  exact hrun

theorem union_union_left (a b c : List α) : union (union a b) c = union a (b ++ c) := by
  rw [union, union, union, distinct_distinct_append, List.append_assoc]

theorem union_union_right (a b c : List α) : union a (union b c) = union a (b ++ c) := by
  rw [union, union, union, distinct_append_distinct]

/-- A list without repetitions absorbs exactly what it holds. -/
theorem union_eq_left_iff {existing added : List α} (h : existing.Nodup) :
    union existing added = existing ↔ added ⊆ existing := by
  refine ⟨fun heq x hx ↦ ?_, union_of_subset h⟩
  rw [← heq]
  exact mem_union.mpr (Or.inr hx)

/-- **The union of lists is an order-preserving union of sets.** It has no repetitions, and it lists exactly the
entries of both lists in the order in which they first occur in the first list followed by the second. It is
associative, and a third list that comes behind both may as well be put behind the second one. A union absorbs
exactly the lists whose entries all occur in one of its parts. -/
theorem union_ordered_algebra (a b c : List String) :
    (union a b).Nodup ∧ ListsFirst (a ++ b) (union a b) ∧
      union (union a b) c = union a (union b c) ∧ union a (union b c) = union a (b ++ c) ∧
      ∀ d, union (union a b) d = union a b ↔ ∀ x ∈ d, x ∈ a ++ b := by
  refine ⟨nodup_union a b, listsFirst_distinct (a ++ b), ?_, union_union_right a b c, fun d ↦ ?_⟩
  · rw [union_union_left, union_union_right]
  · rw [union_eq_left_iff (nodup_union a b), List.subset_def]
    simp only [mem_union, List.mem_append]

end FeatureAtlas
