import FeatureAtlas.Comment.Block

/-!
# Blocks in the order of a source

The blocks of a source come in ascending order of their starts, so those from an offset on are those up to
another offset followed by those from there on.
-/

namespace FeatureAtlas.Comment

theorem le_start_of_mem_scan {offset skip : Nat} {cs : List Char} {b : Block}
    (h : b ∈ scan offset skip cs) : offset ≤ b.start := by
  induction cs generalizing offset skip with
  | nil => cases h
  | cons c cs ih =>
    rw [scan.eq_def] at h
    cases skip with
    | succ n => exact Nat.le_of_succ_le (ih h)
    | zero =>
      dsimp only at h
      split at h
      · rcases List.mem_cons.mp h with rfl | h
        · exact Nat.le_refl _
        · exact Nat.le_of_succ_le (ih h)
      · exact Nat.le_of_succ_le (ih h)

theorem pairwise_scan (offset skip : Nat) (cs : List Char) :
    (scan offset skip cs).Pairwise fun a b ↦ a.start < b.start := by
  induction cs generalizing offset skip with
  | nil => exact .nil
  | cons c cs ih =>
    rw [scan.eq_def]
    cases skip with
    | succ n => exact ih (offset + 1) n
    | zero =>
      dsimp only
      split
      · exact List.pairwise_cons.mpr ⟨fun b hb ↦ le_start_of_mem_scan hb, ih _ _⟩
      · exact ih _ _

theorem pairwise_blocks (source : String) :
    (blocks source).Pairwise fun a b ↦ a.start < b.start :=
  pairwise_scan 0 0 source.toList

/-- The blocks from an offset on, cut at a later offset. -/
theorem filter_le_start (source : String) {start stop : Nat} (h : start ≤ stop) :
    ((blocks source).filter fun b ↦ start ≤ b.start)
      = ((blocks source).filter fun b ↦ start ≤ b.start && b.start < stop) ++
        (blocks source).filter fun b ↦ stop ≤ b.start := by
  have hsorted := pairwise_blocks source
  generalize blocks source = bs at hsorted ⊢
  induction bs with
  | nil => rfl
  | cons b bs ih =>
    obtain ⟨hb, hbs⟩ := List.pairwise_cons.mp hsorted
    by_cases hstop : stop ≤ b.start
    · -- all later blocks are behind the later offset as well
      have hall : ∀ c ∈ b :: bs, stop ≤ c.start := by
        intro c hc
        rcases List.mem_cons.mp hc with rfl | hc
        · exact hstop
        · exact Nat.le_trans hstop (Nat.le_of_lt (hb c hc))
      have hstart : (b :: bs).filter (fun b ↦ start ≤ b.start) = b :: bs :=
        List.filter_eq_self.mpr fun c hc ↦ by simpa using Nat.le_trans h (hall c hc)
      have hbetween : (b :: bs).filter (fun b ↦ start ≤ b.start && b.start < stop) = [] :=
        List.filter_eq_nil_iff.mpr fun c hc ↦ by simpa using fun _ ↦ hall c hc
      have hbehind : (b :: bs).filter (fun b ↦ stop ≤ b.start) = b :: bs :=
        List.filter_eq_self.mpr fun c hc ↦ by simpa using hall c hc
      rw [hstart, hbetween, hbehind, List.nil_append]
    · have hbehind : (b :: bs).filter (fun b ↦ stop ≤ b.start) = bs.filter fun b ↦ stop ≤ b.start :=
        List.filter_cons_of_neg (by simpa using hstop)
      rw [hbehind]
      by_cases hstart : start ≤ b.start
      · rw [List.filter_cons_of_pos (by simpa using hstart),
          List.filter_cons_of_pos (by simpa using ⟨hstart, Nat.lt_of_not_le hstop⟩), ih hbs,
          List.cons_append]
      · rw [List.filter_cons_of_neg (by simpa using hstart),
          List.filter_cons_of_neg (by simp [hstart]), ih hbs]

end FeatureAtlas.Comment
