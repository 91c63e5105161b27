import FeatureAtlas.Proofs.Merge.Pass

/-!
# The order of merge passes

Passes write different lists and read none that a pass writes, so any two of them commute; and each one
absorbs its own additions, so a second run of it has nothing to add. For a sequence of passes this leaves
only the set of passes that occur in it.
-/

namespace FeatureAtlas

namespace Pass

open Merge

/-- A pass makes the same additions to items of the same declarations. -/
private theorem run_eq_of_declared {items items' : List Item}
    (h : items'.map Item.declared = items.map Item.declared) (pass : Pass) (analysis : Analysis) :
    pass.run items' analysis = applyAll items' (pass.additions items analysis) := by
  rw [run, additions_congr h]

/-- **A pass is idempotent**: run again, it changes no item and counts nothing. -/
theorem run_run (pass : Pass) (items : List Item) (analysis : Analysis) :
    pass.run (pass.run items analysis).1 analysis = ((pass.run items analysis).1, 0) := by
  rw [run_eq_of_declared (pass.map_declared_run items analysis)]
  exact applyAll_applyAll items (pass.additions items analysis)

/-- **Passes commute.** -/
theorem run_comm (p q : Pass) (items : List Item) (analysis : Analysis) :
    (q.run (p.run items analysis).1 analysis).1 = (p.run (q.run items analysis).1 analysis).1 := by
  by_cases hpq : p = q
  · rw [hpq]
  · rw [run_eq_of_declared (p.map_declared_run items analysis) q,
      run_eq_of_declared (q.map_declared_run items analysis) p, run, run]
    simp only [applyAll_fst]
    exact foldl_applyOne_comm (fun a ha b hb ↦ apart_of_ne hpq ha hb) items

end Pass

namespace Merge

/-! ## Sequences of passes -/

/-- The items after a sequence of passes. -/
def runPasses (passes : List Pass) (items : List Item) (analysis : Analysis) : List Item :=
  passes.foldl (fun items pass ↦ (pass.run items analysis).1) items

theorem runPasses_append (s t : List Pass) (items : List Item) (analysis : Analysis) :
    runPasses (s ++ t) items analysis = runPasses t (runPasses s items analysis) analysis :=
  List.foldl_append

theorem runPasses_perm {s t : List Pass} (h : s.Perm t) (items : List Item) (analysis : Analysis) :
    runPasses s items analysis = runPasses t items analysis :=
  h.foldl_eq' (fun p _ q _ items ↦ Pass.run_comm p q items analysis) items

/-- A pass that occurred has nothing left to do: moved to the end of the sequence, it runs twice. -/
theorem run_runPasses_of_mem {p : Pass} {s : List Pass} (h : p ∈ s) (items : List Item)
    (analysis : Analysis) :
    p.run (runPasses s items analysis) analysis = (runPasses s items analysis, 0) := by
  have hperm : s.Perm (s.erase p ++ [p]) :=
    (List.perm_cons_erase h).trans (List.perm_append_singleton p _).symm
  rw [runPasses_perm hperm, runPasses_append]
  exact p.run_run (runPasses (s.erase p) items analysis) analysis

theorem runPasses_append_of_subset {s t : List Pass} (h : t ⊆ s) (items : List Item)
    (analysis : Analysis) : runPasses (s ++ t) items analysis = runPasses s items analysis := by
  rw [runPasses_append]
  induction t with
  | nil => rfl
  | cons p t ih =>
    have hp := run_runPasses_of_mem (h List.mem_cons_self) items analysis
    rw [runPasses, List.foldl_cons, hp]
    exact ih fun q hq ↦ h (List.mem_cons_of_mem p hq)

theorem runPasses_eq_of_mem_iff {s t : List Pass} (h : ∀ p, p ∈ s ↔ p ∈ t) (items : List Item)
    (analysis : Analysis) : runPasses s items analysis = runPasses t items analysis := by
  calc runPasses s items analysis
      = runPasses (s ++ t) items analysis :=
        (runPasses_append_of_subset (fun p hp ↦ (h p).mpr hp) items analysis).symm
    _ = runPasses (t ++ s) items analysis := runPasses_perm List.perm_append_comm items analysis
    _ = runPasses t items analysis :=
        runPasses_append_of_subset (fun p hp ↦ (h p).mp hp) items analysis

/-! ## Full runs -/

theorem runAll_fst (items : List Item) (analysis : Analysis) :
    (runAll items analysis).1 = runPasses Pass.all items analysis := by
  rw [runAll, runPasses, Pass.all, List.foldl_cons, List.foldl_cons, List.foldl_cons,
    List.foldl_cons, List.foldl_nil]

/-- Where every pass has occurred, a full run changes nothing and counts nothing. -/
theorem runAll_runPasses {s : List Pass} (h : ∀ p, p ∈ s) (items : List Item)
    (analysis : Analysis) :
    runAll (runPasses s items analysis) analysis = (runPasses s items analysis, {}) := by
  have hrun := fun p ↦ run_runPasses_of_mem (h p) items analysis
  simp only [runAll, hrun]

/-- **The order of passes is irrelevant.** After any sequence of passes the items depend only on which
passes occurred; a pass that occurred before changes no list and counts nothing; and a second full run
counts nothing for each pass and leaves every item as it was. -/
theorem merge_passes_confluent (items : List Item) (analysis : Analysis) :
    (∀ s t : List Pass, (∀ p, p ∈ s ↔ p ∈ t) →
      runPasses s items analysis = runPasses t items analysis) ∧
    (∀ (s : List Pass) (p : Pass), p ∈ s →
      p.run (runPasses s items analysis) analysis = (runPasses s items analysis, 0)) ∧
    runAll (runAll items analysis).1 analysis
      = ((runAll items analysis).1, { forward := 0, reverse := 0, tables := 0, modules := 0 }) := by
  refine ⟨fun s t h ↦ runPasses_eq_of_mem_iff h items analysis,
    fun s p h ↦ run_runPasses_of_mem h items analysis, ?_⟩
  rw [runAll_fst]
  exact runAll_runPasses (fun p ↦ by cases p <;> decide) items analysis

end Merge

end FeatureAtlas
