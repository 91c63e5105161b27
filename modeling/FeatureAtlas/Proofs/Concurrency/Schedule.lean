import FeatureAtlas.Proofs.Concurrency.Outcome

/-!
# The eager schedule of a worker pool

A schedule that ends exists for every positive limit: the eager one keeps as many tasks running as it may,
and each of its rounds ends one.
-/

namespace FeatureAtlas

namespace Pool

variable {α : Type} {limit : Nat} {values : List α} {p : Pool α}

theorem handOverFirst_map_ok {found : List α} (hf : p.failure = none)
    (hreported : p.reported = found.map Except.ok) :
    handOverFirst found.length p
      = { p with reported := [], results := p.results ++ found } := by
  induction found generalizing p with
  | nil =>
    obtain ⟨semaphore, waiting, running, finished, results, failure, reported, lost, cancelled⟩ := p
    dsimp only at hreported ⊢
    rw [hreported, List.append_nil]
    rfl
  | cons a found ih =>
    have hfirst : p.handOver 0
        = { p with reported := found.map Except.ok, results := p.results ++ [a] } := by
      simp only [handOver, hf, hreported, List.map_cons, List.getElem?_cons_zero,
        List.eraseIdx_cons_zero]
    have hrest := ih (p := { p with
      reported := found.map Except.ok, results := p.results ++ [a] }) hf rfl
    rw [List.length_cons, handOverFirst, hfirst, hrest, List.append_assoc, List.singleton_append]

theorem step_collect {found : List α} (hf : p.failure = none) (hreported : p.reported = [])
    (hfinished : p.finished = found.map Except.ok) :
    p.step .collect
      = { p with finished := [], reported := [], results := p.results ++ found } := by
  have hreport : p.report = { p with reported := found.map Except.ok, finished := [] } := by
    simp only [report, hf, hreported, hfinished]
  rw [step, hreport, List.length_map]
  exact handOverFirst_map_ok hf rfl

/-- A pool between two rounds of an eager schedule: no task that ended is still to be handed over. -/
structure Steady (limit : Nat) (values : List α) (p : Pool α) : Prop where
  keeps : p.Keeps limit (values.map Except.ok)
  finished : p.finished = []
  reported : p.reported = []

/-- The number of tasks that did not end. -/
def left (p : Pool α) : Nat := p.waiting.length + p.running.length

/-- Something runs as long as something waits. -/
def Fed (p : Pool α) : Prop := p.waiting ≠ [] → p.running ≠ []

/-- A start finds a task running or a permit free, so something runs after it. -/
theorem Steady.start (h : p.Steady limit values) (hlimit : 0 < limit) :
    (p.step .start).Steady limit values ∧ (p.step .start).Fed ∧ (p.step .start).left = p.left := by
  have hf := h.keeps.failure_eq_none
  have hkeeps := h.keeps.step .start
  cases hw : p.waiting with
  | nil =>
    have hstep : p.step .start = p := by simp only [step, hf, hw]
    rw [hstep]
    exact ⟨h, fun hne ↦ absurd hw hne, rfl⟩
  | cons task rest =>
    by_cases hfree : p.semaphore.inUse < p.semaphore.limit
    · rw [step_start_of_some hf hw (if_pos hfree)] at hkeeps ⊢
      refine ⟨⟨hkeeps, h.finished, h.reported⟩, fun _ ↦ by simp, ?_⟩
      simp only [left, hw, List.length_append, List.length_cons, List.length_nil]
      omega
    · have hstep : p.step .start = p := by
        simp only [step, hf, hw, Semaphore.acquire?, if_neg hfree]
      have hrunning : p.running ≠ [] := by
        rw [h.keeps.inUse_eq, h.keeps.limit_eq] at hfree
        exact List.ne_nil_of_length_pos (by omega)
      rw [hstep]
      exact ⟨h, fun _ ↦ hrunning, rfl⟩

theorem Steady.starts (h : p.Steady limit values) (hlimit : 0 < limit) (k : Nat) :
    (p.run (List.replicate k .start)).Steady limit values ∧
      (p.Fed ∨ 0 < k → (p.run (List.replicate k .start)).Fed) ∧
      (p.run (List.replicate k .start)).left = p.left := by
  induction k generalizing p with
  | zero => exact ⟨h, fun hfed ↦ hfed.resolve_right (Nat.lt_irrefl 0), rfl⟩
  | succ k ih =>
    obtain ⟨hsteady, hfed, hleft⟩ := h.start hlimit
    obtain ⟨hsteady', hfed', hleft'⟩ := ih hsteady
    rw [List.replicate_succ, run_cons]
    exact ⟨hsteady', fun _ ↦ hfed' (Or.inl hfed), hleft'.trans hleft⟩

/-- A round ends the first running task, hands it over and starts another. -/
theorem Steady.round (h : p.Steady limit values) (hlimit : 0 < limit) (hfed : p.Fed) {n : Nat}
    (hleft : p.left = n + 1) :
    (p.run [.finish 0, .collect, .start]).Steady limit values ∧
      (p.run [.finish 0, .collect, .start]).Fed ∧
      (p.run [.finish 0, .collect, .start]).left = n := by
  cases hr : p.running with
  | nil =>
    have hwaiting : p.waiting ≠ [] := by
      rw [left, hr] at hleft
      exact List.ne_nil_of_length_pos (by simp at hleft; omega)
    exact absurd hr (hfed hwaiting)
  | cons task rest =>
    have hfirst : p.running[0]? = some task := by
      rw [hr]
      rfl
    have hmem : task ∈ p.tasks := by simp [tasks, hr]
    obtain ⟨a, -, ha⟩ := List.mem_map.mp (h.keeps.perm.mem_iff.mp hmem)
    have hheld : p.semaphore.inUse ≠ 0 := by
      rw [h.keeps.inUse_eq, hr]
      exact Nat.succ_ne_zero _
    have hfinish := step_finish_of_some hfirst (if_neg hheld)
    have hfinished : (p.step (.finish 0)).finished = [a].map Except.ok := by
      rw [hfinish, h.finished, List.nil_append, ← ha, List.map_singleton]
    have hreported : (p.step (.finish 0)).reported = [] := by
      rw [hfinish]
      exact h.reported
    have hkeeps := h.keeps.step (.finish 0)
    have hcollect := step_collect hkeeps.failure_eq_none hreported hfinished
    have hsteady : ((p.step (.finish 0)).step .collect).Steady limit values := by
      refine ⟨hkeeps.step .collect, ?_, ?_⟩ <;> rw [hcollect]
    obtain ⟨hsteady', hfed', hleft'⟩ := hsteady.start hlimit
    refine ⟨hsteady', hfed', hleft'.trans ?_⟩
    rw [hcollect, hfinish]
    simp only [left, hr, List.eraseIdx_cons_zero, List.length_cons] at hleft ⊢
    omega

theorem Steady.rounds (h : p.Steady limit values) (hlimit : 0 < limit) (hfed : p.Fed) {n : Nat}
    (hleft : p.left = n) :
    (p.run (List.replicate n [.finish 0, .collect, .start]).flatten).isDone = true := by
  induction n generalizing p with
  | zero =>
    simp only [left, Nat.add_eq_zero_iff, List.length_eq_zero_iff] at hleft
    exact isDone_iff.mpr ⟨hleft.1, hleft.2, fun _ ↦ ⟨h.finished, h.reported⟩⟩
  | succ n ih =>
    obtain ⟨hsteady, hfed', hleft'⟩ := h.round hlimit hfed hleft
    rw [List.replicate_succ, List.flatten_cons, run_append]
    exact ih hsteady hfed' hleft'

/-- **The eager schedule ends** under every positive limit. -/
theorem isDone_eager (hlimit : 0 < limit) (values : List α) :
    ((fresh limit (values.map Except.ok)).run (eager limit values.length)).isDone = true := by
  have hsteady : (fresh limit (values.map Except.ok)).Steady limit values :=
    ⟨keeps_fresh limit _, rfl, rfl⟩
  have hleft : (fresh limit (values.map (Except.ok (ε := TaskFailure)))).left = values.length := by
    simp [left, fresh]
  obtain ⟨hsteady', hfed, hleft'⟩ := hsteady.starts hlimit (min limit values.length)
  rw [eager, run_append]
  refine hsteady'.rounds hlimit (hfed ?_) (hleft'.trans hleft)
  cases values with
  | nil => exact Or.inl fun hne ↦ absurd rfl hne
  | cons a values => exact Or.inr (Nat.lt_min.mpr ⟨hlimit, by simp⟩)

end Pool

end FeatureAtlas
