import FeatureAtlas.Text.Basic

/-!
# Splitting undoes joining

Pieces that the separator does not occur in can be joined by it and split again. This is what reads the parts
of a path, the words of a dotted name and the lines of a block back from what was put together. The other way
round, the pieces of a text join to it, and they fall into two groups exactly where it has a separator.
-/

namespace FeatureAtlas.Text

theorem splitOn_eq (sep : Char) (cs : List Char) : splitOn sep cs = cs.splitOn sep := by
  induction cs with
  | nil => rfl
  | cons c cs ih =>
    rw [splitOn, List.splitOn, List.splitOnP_cons_eq_if_modifyHead, ih, List.splitOn]
    split
    · rfl
    · cases hpieces : cs.splitOnP (· == sep) with
      | nil => exact absurd hpieces (List.splitOnP_ne_nil _ cs)
      | cons piece pieces => rfl

section

variable {sep : Char} {between : String} {pieces : List String}

theorem splitOn_join (hsep : between.toList = [sep]) (hne : pieces ≠ [])
    (h : ∀ piece ∈ pieces, sep ∉ piece.toList) :
    splitOn sep (join between pieces).toList = pieces.map String.toList := by
  have hfree : ∀ cs ∈ pieces.map String.toList, sep ∉ cs := by
    intro cs hcs
    obtain ⟨piece, hpiece, rfl⟩ := List.mem_map.mp hcs
    exact h piece hpiece
  rw [splitOn_eq, join, String.toList_intercalate, hsep]
  exact List.splitOn_intercalate sep hfree (by simpa using hne)

theorem split_join (hsep : between.toList = [sep]) (hne : pieces ≠ [])
    (h : ∀ piece ∈ pieces, sep ∉ piece.toList) : split sep (join between pieces) = pieces := by
  rw [split, splitOn_join hsep hne h, List.map_map]
  exact (List.map_congr_left fun piece _ ↦ String.ofList_toList).trans (List.map_id pieces)

end

/-! ## Pieces of a text -/

section

variable {sep : Char} {cs : List Char}

theorem splitOn_ne_nil (sep : Char) (cs : List Char) : splitOn sep cs ≠ [] := by
  rw [splitOn_eq]
  exact List.splitOn_ne_nil sep cs

theorem intercalate_splitOn (sep : Char) (cs : List Char) :
    [sep].intercalate (splitOn sep cs) = cs := by
  rw [splitOn_eq, List.intercalate_splitOn]

theorem split_ne_nil (sep : Char) (s : String) : split sep s ≠ [] := by
  rw [split, Ne, List.map_eq_nil_iff]
  exact splitOn_ne_nil sep s.toList

/-- The pieces of a string join to it. -/
theorem join_split {between : String} (hsep : between.toList = [sep]) (s : String) :
    join between (split sep s) = s := by
  have hpieces : (split sep s).map String.toList = splitOn sep s.toList := by
    rw [split, List.map_map]
    exact (List.map_congr_left fun cs _ ↦ String.toList_ofList).trans (List.map_id _)
  refine String.toList_injective ?_
  rw [join, String.toList_intercalate, hsep, hpieces, intercalate_splitOn]

theorem splitOn_of_not_mem (h : sep ∉ cs) : splitOn sep cs = [cs] := by
  rw [splitOn_eq, List.splitOn_eq_singleton h]

theorem splitOn_append (front rest : List Char) :
    splitOn sep (front ++ sep :: rest) = splitOn sep front ++ splitOn sep rest := by
  simp only [splitOn_eq, List.splitOn]
  exact List.splitOnP_append_cons front rest (beq_self_eq_true sep)

theorem splitOn_cons_self (cs : List Char) : splitOn sep (sep :: cs) = [] :: splitOn sep cs := by
  rw [splitOn, if_pos (beq_self_eq_true sep)]

theorem exists_splitOn_cons {c : Char} (hc : c ≠ sep) (cs : List Char) :
    ∃ piece pieces, splitOn sep cs = piece :: pieces ∧
      splitOn sep (c :: cs) = (c :: piece) :: pieces := by
  rw [splitOn, if_neg (by simpa using hc)]
  cases hcs : splitOn sep cs with
  | nil => exact absurd hcs (splitOn_ne_nil sep cs)
  | cons piece pieces => exact ⟨piece, pieces, rfl, rfl⟩

theorem not_mem_of_mem_splitOn {piece : List Char} (h : piece ∈ splitOn sep cs) : sep ∉ piece := by
  induction cs generalizing piece with
  | nil =>
    rw [splitOn, List.mem_singleton] at h
    exact h ▸ List.not_mem_nil
  | cons c cs ih =>
    by_cases hc : c = sep
    · rw [hc, splitOn_cons_self, List.mem_cons] at h
      rcases h with rfl | h
      · exact List.not_mem_nil
      · exact ih h
    · obtain ⟨first, others, hcs, hsplit⟩ := exists_splitOn_cons hc cs
      rw [hsplit, List.mem_cons] at h
      rcases h with rfl | h
      · have hfirst : sep ∉ first := ih (hcs ▸ List.mem_cons_self)
        exact fun hmem ↦ (List.mem_cons.mp hmem).elim (fun heq ↦ hc heq.symm) hfirst
      · exact ih (hcs ▸ List.mem_cons_of_mem first h)

/-- The first piece goes up to the first separator. -/
theorem exists_splitOn_takeWhile (sep : Char) (cs : List Char) :
    ∃ pieces, splitOn sep cs = cs.takeWhile (· != sep) :: pieces := by
  induction cs with
  | nil => exact ⟨[], rfl⟩
  | cons c cs ih =>
    by_cases hc : c = sep
    · rw [hc, splitOn_cons_self, List.takeWhile_cons_of_neg (by simp)]
      exact ⟨_, rfl⟩
    · obtain ⟨pieces, hpieces⟩ := ih
      obtain ⟨first, others, hcs, hsplit⟩ := exists_splitOn_cons hc cs
      rw [hpieces] at hcs
      obtain ⟨rfl, rfl⟩ := List.cons.inj hcs
      exact ⟨pieces, by rw [hsplit, List.takeWhile_cons_of_pos (by simpa using hc)]⟩

/-- Texts joined by a separator are split one by one. -/
theorem splitOn_intercalate {texts : List (List Char)} (h : texts ≠ []) :
    splitOn sep ([sep].intercalate texts) = texts.flatMap (splitOn sep) := by
  induction texts with
  | nil => exact absurd rfl h
  | cons text texts ih =>
    cases texts with
    | nil => simp
    | cons next texts =>
      rw [List.intercalate_cons_cons, List.append_assoc, List.singleton_append, splitOn_append,
        ih (List.cons_ne_nil next texts)]
      rfl

/-- The pieces fall into two groups exactly where the text has a separator. -/
theorem splitOn_eq_append_iff {before behind : List (List Char)} (hbefore : before ≠ [])
    (hbehind : behind ≠ []) :
    splitOn sep cs = before ++ behind ↔
      ∃ front rest, cs = front ++ sep :: rest ∧ splitOn sep front = before ∧
        splitOn sep rest = behind := by
  constructor
  · intro h
    induction cs generalizing before with
    | nil =>
      obtain ⟨piece, pieces, rfl⟩ := List.exists_cons_of_ne_nil hbefore
      rw [List.cons_append] at h
      exact absurd (List.append_eq_nil_iff.mp (List.cons.inj h).2.symm).2 hbehind
    | cons c cs ih =>
      obtain ⟨piece, pieces, rfl⟩ := List.exists_cons_of_ne_nil hbefore
      by_cases hc : c = sep
      · rw [hc, splitOn_cons_self, List.cons_append] at h
        obtain ⟨rfl, hpieces⟩ := List.cons.inj h
        by_cases hlast : pieces = []
        · exact ⟨[], cs, by rw [hc]; rfl, by rw [hlast]; rfl, by rw [hpieces, hlast]; rfl⟩
        · obtain ⟨front, rest, rfl, hfront, hrest⟩ := ih hlast hpieces
          exact ⟨c :: front, rest, rfl, by rw [hc, splitOn_cons_self, hfront], hrest⟩
      · obtain ⟨first, others, hcs, hsplit⟩ := exists_splitOn_cons hc cs
        rw [hsplit, List.cons_append] at h
        obtain ⟨rfl, hothers⟩ := List.cons.inj h
        obtain ⟨front, rest, rfl, hfront, hrest⟩ :=
          ih (List.cons_ne_nil first pieces) (by rw [hcs, hothers, List.cons_append])
        obtain ⟨first', others', hfront', hsplit'⟩ := exists_splitOn_cons hc front
        rw [hfront] at hfront'
        cases hfront'
        exact ⟨c :: front, rest, rfl, hsplit', hrest⟩
  · rintro ⟨front, rest, rfl, rfl, rfl⟩
    exact splitOn_append front rest

end

/-!
## Where a text occurs last

A search from the right finds the place behind which the text occurs no more. The place is described by how it
takes the text apart: what is in front of the occurrence, and a rest in which there is no other one. An
occurrence may overlap the one that is found, so the rest begins with its second character.
-/

theorem lastIndexOf?_eq_none_iff {needle cs : List Char} (hne : needle ≠ []) :
    lastIndexOf? needle cs = none ↔ ¬needle <:+: cs := by
  induction cs with
  | nil => simp [lastIndexOf?, hne]
  | cons c cs ih =>
    rw [lastIndexOf?, List.infix_cons_iff, not_or, ← List.isPrefixOf_iff_prefix]
    cases hlast : lastIndexOf? needle cs with
    | some i =>
      have hoccurs : needle <:+: cs := Classical.byContradiction fun hnot ↦ by
        rw [ih.mpr hnot] at hlast
        cases hlast
      simp [hoccurs]
    | none => simp [ih.mp hlast]

/-- The last occurrence is the one behind whose first character there is none. -/
theorem lastIndexOf?_eq_some_iff {needle cs : List Char} (hne : needle ≠ []) {i : Nat} :
    lastIndexOf? needle cs = some i ↔
      ∃ front rest, cs = front ++ (needle ++ rest) ∧ front.length = i ∧
        ¬needle <:+: (needle ++ rest).tail := by
  induction cs generalizing i with
  | nil => simp [lastIndexOf?, hne]
  | cons c cs ih =>
    rw [lastIndexOf?]
    constructor
    · intro h
      cases hlast : lastIndexOf? needle cs with
      | some k =>
        rw [hlast] at h
        obtain ⟨front, rest, hcs, hfront, hrest⟩ := ih.mp hlast
        exact ⟨c :: front, rest, by rw [hcs, List.cons_append], by
          rw [List.length_cons, hfront]; exact Option.some.inj h, hrest⟩
      | none =>
        rw [hlast] at h
        obtain ⟨hhere, hi⟩ := Option.ite_none_right_eq_some.mp h
        obtain ⟨rest, hrest⟩ := List.isPrefixOf_iff_prefix.mp hhere
        refine ⟨[], rest, hrest.symm, Option.some.inj hi, ?_⟩
        rw [hrest]
        exact (lastIndexOf?_eq_none_iff hne).mp hlast
    · rintro ⟨front, rest, hcs, rfl, hrest⟩
      -- an occurrence here is the last one only if there is none further on
      cases front with
      | nil =>
        rw [List.nil_append] at hcs
        rw [← hcs, List.tail_cons] at hrest
        rw [(lastIndexOf?_eq_none_iff hne).mpr hrest]
        exact if_pos (List.isPrefixOf_iff_prefix.mpr ⟨rest, hcs.symm⟩)
      | cons d front =>
        obtain ⟨rfl, htail⟩ := List.cons.inj hcs
        rw [ih.mpr ⟨front, rest, htail, rfl, hrest⟩]
        rfl

theorem lastIndexOf?_append {c : Char} (before : List Char) {behind : List Char}
    (h : c ∉ behind) : lastIndexOf? [c] (before ++ c :: behind) = some before.length := by
  refine (lastIndexOf?_eq_some_iff (List.cons_ne_nil c [])).mpr ⟨before, behind, rfl, rfl, ?_⟩
  rw [List.singleton_append, List.tail_cons]
  exact fun hin ↦ h (hin.subset List.mem_cons_self)

end FeatureAtlas.Text
