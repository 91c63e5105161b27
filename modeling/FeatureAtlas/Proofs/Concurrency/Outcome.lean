import FeatureAtlas.Proofs.Concurrency.Ledger
import Mathlib.Data.List.Perm.Subperm

/-!
# How a worker pool ends

A pool is done when no task is left. From its ledger it follows what it has handed over by then: without a
failure the results of all tasks, and with one a part of them, each as often as there are tasks for it. The
permits are back in both cases.

Being done is the same as having no move to make, and every event that changes the pool leaves less work.
So whatever the schedule, a run that goes on comes to its end.
-/

namespace FeatureAtlas

namespace Pool

variable {α : Type} {limit : Nat} {all : List (PoolTask α)} {p : Pool α}

/-! ## What was handed over -/

theorem isDone_iff : p.isDone = true ↔
    p.waiting = [] ∧ p.running = [] ∧ (p.failure = none → p.finished = [] ∧ p.reported = []) := by
  cases hf : p.failure with
  | none => simp [isDone, hf, and_assoc]
  | some f => simp [isDone, hf]

theorem Keeps.subperm_results (h : p.Keeps limit all) : (p.results.map Except.ok).Subperm all := by
  have hsub : (p.results.map Except.ok).Sublist p.tasks :=
    (List.sublist_append_right _ _).trans (List.sublist_append_left _ _)
  exact hsub.subperm.trans h.perm.subperm

theorem Keeps.mem_of_failure (h : p.Keeps limit all) {f : TaskFailure} (hf : p.failure = some f) :
    Except.error f ∈ all := by
  have htask : (Except.error f : PoolTask α) ∈ p.tasks := by
    simp [tasks, hf]
  exact h.perm.mem_iff.mp htask

/-- Tasks that have values do not stop a pool. -/
theorem Keeps.failure_eq_none {values : List α} (h : p.Keeps limit (values.map Except.ok)) :
    p.failure = none := by
  by_contra hne
  obtain ⟨f, hf⟩ := Option.ne_none_iff_exists'.mp hne
  obtain ⟨a, -, ha⟩ := List.mem_map.mp (h.mem_of_failure hf)
  cases ha

/-- A pool that is done without a failure has handed every task over. -/
theorem Keeps.perm_results (h : p.Keeps limit all) (hdone : p.isDone = true)
    (hf : p.failure = none) : (p.results.map Except.ok).Perm all := by
  obtain ⟨hwaiting, hrunning, hended⟩ := isDone_iff.mp hdone
  obtain ⟨hfinished, hreported⟩ := hended hf
  obtain ⟨hlost, -⟩ := h.unfailed hf
  have htasks : p.tasks = p.results.map Except.ok := by
    simp [tasks, hwaiting, hrunning, hfinished, hreported, hlost, hf]
  rw [← htasks]
  exact h.perm

/-- A pool that is done after a failure has cancelled and awaited what it neither handed over nor lost. -/
theorem Keeps.perm_of_failure (h : p.Keeps limit all) (hdone : p.isDone = true) {f : TaskFailure}
    (hf : p.failure = some f) :
    p.finished.Perm p.cancelled ∧
      (p.results.map Except.ok ++ Except.error f :: (p.lost ++ p.cancelled)).Perm all := by
  classical
  obtain ⟨hwaiting, hrunning, -⟩ := isDone_iff.mp hdone
  obtain ⟨hreported, hcancelled⟩ := h.failed (by rw [hf]; exact nofun)
  rw [hwaiting, hrunning, List.nil_append, List.nil_append] at hcancelled
  refine ⟨hcancelled, .trans ?_ h.perm⟩
  rw [List.perm_iff_count]
  intro t
  have hcount := hcancelled.count_eq t
  simp only [tasks, hwaiting, hrunning, hreported, hf, Option.toList_some, List.map_cons,
    List.map_nil, List.count_append, List.count_cons, List.count_nil]
  omega

/-! ## Coming to an end -/

/-- No event changes the pool. -/
def Stuck (p : Pool α) : Prop := ∀ e, p.step e = p

/-- None of the moves finds a task where it looks for one. -/
theorem Keeps.stuck_of_isDone (h : p.Keeps limit all) (hdone : p.isDone = true) : p.Stuck := by
  obtain ⟨hwaiting, hrunning, hended⟩ := isDone_iff.mp hdone
  have hreported : p.reported = [] := by
    by_cases hf : p.failure = none
    · exact (hended hf).2
    · exact (h.failed hf).1
  have hnone : ∀ q, ¬Move p q := by
    intro q hmove
    cases hmove with
    | start unfailed free waits => rw [hwaiting] at waits; cases waits
    | finish held runs => rw [hrunning] at runs; cases runs
    | withdraw waits => rw [hwaiting] at waits; cases waits
    | report unfailed none_left ended => exact ended (hended unfailed).1
    | result unfailed stands => rw [hreported] at stands; cases stands
    | fail unfailed stands => rw [hreported] at stands; cases stands
  intro e
  obtain heq | ⟨q, hmove, -⟩ := (moves_step p e).cases_head
  · exact heq.symm
  · exact absurd hmove (hnone q)

theorem Keeps.running_eq_nil (h : p.Keeps limit all) (hstuck : p.Stuck) : p.running = [] := by
  cases hr : p.running with
  | nil => rfl
  | cons task rest =>
    have hfirst : p.running[0]? = some task := by
      rw [hr]
      rfl
    have hheld : p.semaphore.inUse ≠ 0 := by
      rw [h.inUse_eq, hr]
      exact Nat.succ_ne_zero _
    have hfinish := (step_finish_of_some hfirst (if_neg hheld)).symm.trans (hstuck (.finish 0))
    have hlength := congrArg (fun q ↦ q.finished.length) hfinish
    simp at hlength

theorem Keeps.waiting_eq_nil (h : p.Keeps limit all) (hlimit : 0 < limit) (hstuck : p.Stuck) :
    p.waiting = [] := by
  cases hw : p.waiting with
  | nil => rfl
  | cons task rest =>
    by_cases hf : p.failure = none
    · -- no task runs, so a permit is free for the first one that waits
      have hfree : p.semaphore.inUse < p.semaphore.limit := by
        rw [h.inUse_eq, h.running_eq_nil hstuck, h.limit_eq]
        exact hlimit
      have hstart := (step_start_of_some hf hw (if_pos hfree)).symm.trans (hstuck .start)
      have hlength := congrArg (fun q ↦ q.running.length) hstart
      simp at hlength
    · -- a stopped pool lets every waiting task end
      have hfirst : p.waiting[0]? = some task := by
        rw [hw]
        rfl
      have hmay : p.withdraws task = true := by
        unfold withdraws
        split
        · rfl
        · exact Option.isSome_iff_ne_none.mpr hf
      have hwithdraw := (step_withdraw_of_some hfirst hmay).symm.trans (hstuck (.withdraw 0))
      have hlength := congrArg (fun q ↦ q.finished.length) hwithdraw
      simp at hlength

theorem Stuck.reported_eq_nil (hstuck : p.Stuck) (hf : p.failure = none) : p.reported = [] := by
  have hhand : p.handOver 0 = p := hstuck (.handOver 0)
  cases hr : p.reported with
  | nil => rfl
  | cons task rest =>
    have hlength := congrArg (fun q ↦ q.reported.length) hhand
    cases task with
    | ok a => simp [handOver, hf, hr] at hlength
    | error f => simp [handOver, stop, hf, hr] at hlength

theorem Stuck.finished_eq_nil (hstuck : p.Stuck) (hf : p.failure = none) : p.finished = [] := by
  have hreport : p.report = p := hstuck .report
  have hfinished := congrArg (fun q ↦ q.finished) hreport
  simp only [report, hf, hstuck.reported_eq_nil hf] at hfinished
  exact hfinished.symm

/-- **A pool is done when nothing can happen any more.** -/
theorem Keeps.isDone_iff_stuck (h : p.Keeps limit all) (hlimit : 0 < limit) :
    p.isDone = true ↔ p.Stuck := by
  refine ⟨h.stuck_of_isDone, fun hstuck ↦ isDone_iff.mpr ?_⟩
  exact ⟨h.waiting_eq_nil hlimit hstuck, h.running_eq_nil hstuck,
    fun hf ↦ ⟨hstuck.finished_eq_nil hf, hstuck.reported_eq_nil hf⟩⟩

/-- After a failure an event starts no task. -/
theorem running_sublist_of_failure (hf : p.failure ≠ none) (e : Event) :
    (p.step e).running.Sublist p.running := by
  have hmoves := moves_step p e
  generalize p.step e = q at hmoves ⊢
  have hboth : q.failure ≠ none ∧ q.running.Sublist p.running := by
    induction hmoves with
    | refl => exact ⟨hf, .refl _⟩
    | tail _ hmove ih =>
      obtain ⟨hfailed, hsub⟩ := ih
      cases hmove with
      | finish held runs => exact ⟨hfailed, (List.eraseIdx_sublist _ _).trans hsub⟩
      | withdraw waits => exact ⟨hfailed, hsub⟩
      | start unfailed | report unfailed | result unfailed | fail unfailed =>
        exact absurd unfailed hfailed
  exact hboth.2

/-! ## Runs -/

/-- What a pool with a limit accounts for after a schedule, done or not. -/
structure Accounts (limit : Nat) (all : List (PoolTask α)) (p : Pool α) : Prop where
  /-- No more tasks run at once than there are permits, now or before. -/
  bounded : p.running.length ≤ limit ∧ p.semaphore.peak ≤ limit
  /-- What was handed over are results of tasks, each at most once. -/
  once : (p.results.map Except.ok).Subperm all
  /-- Where every task has a value, the results are these values in some order. -/
  complete : ∀ values, all = values.map Except.ok → p.isDone = true →
    p.outcome = .ok p.results ∧ p.results.Perm values
  /-- Where a task fails, the failure of such a task is raised. The rest was handed over, ended along with
  it, or was cancelled; and each task that was cancelled has ended. -/
  stopped : ∀ f, Except.error f ∈ all → p.isDone = true →
    ∃ g, p.outcome = .error g ∧ Except.error g ∈ all ∧ p.finished.Perm p.cancelled ∧
      (p.results.map Except.ok ++ Except.error g :: (p.lost ++ p.cancelled)).Perm all
  /-- After a failure every task that waits, runs or was not reported is cancelled, and none starts. -/
  cancels : p.failure ≠ none → (p.waiting ++ p.running ++ p.finished).Perm p.cancelled ∧
    ∀ e, (p.step e).running.Sublist p.running
  /-- All permits come back. -/
  returned : p.isDone = true → p.semaphore.inUse = 0
  /-- The pool is done exactly when no event changes it. -/
  ends : p.isDone = true ↔ p.Stuck
  /-- Every event that changes it leaves less work. -/
  advances : ∀ e, p.step e = p ∨ (p.step e).work < p.work

theorem Keeps.outcome_of_values (h : p.Keeps limit all) {values : List α}
    (hall : all = values.map Except.ok) (hdone : p.isDone = true) :
    p.outcome = .ok p.results ∧ p.results.Perm values := by
  have hf : p.failure = none := by
    rw [hall] at h
    exact h.failure_eq_none
  have hperm := (h.perm_results hdone hf).filterMap Except.toOption
  have hvalues : ∀ as : List α, (as.map Except.ok : List (PoolTask α)).filterMap Except.toOption = as := by
    intro as
    rw [List.filterMap_map]
    exact List.filterMap_some
  rw [hall, hvalues, hvalues] at hperm
  exact ⟨by rw [outcome, hf], hperm⟩

theorem Keeps.outcome_of_failure (h : p.Keeps limit all) {f : TaskFailure}
    (hmem : Except.error f ∈ all) (hdone : p.isDone = true) :
    ∃ g, p.outcome = .error g ∧ Except.error g ∈ all ∧ p.finished.Perm p.cancelled ∧
      (p.results.map Except.ok ++ Except.error g :: (p.lost ++ p.cancelled)).Perm all := by
  cases hf : p.failure with
  | none =>
    -- all tasks would have been handed over as results
    obtain ⟨a, -, ha⟩ := List.mem_map.mp ((h.perm_results hdone hf).mem_iff.mpr hmem)
    cases ha
  | some g =>
    obtain ⟨hawaited, hperm⟩ := h.perm_of_failure hdone hf
    exact ⟨g, by rw [outcome, hf], h.mem_of_failure hf, hawaited, hperm⟩

/-- **A pool loses and duplicates nothing**, whatever the tasks, the limit and the schedule. -/
theorem run_accounts {limit : Int} (hlimit : 1 ≤ limit) (all : List (PoolTask α)) :
    ∃ p, create limit all = .ok p ∧ ∀ schedule, Accounts limit.toNat all (p.run schedule) := by
  refine ⟨fresh limit.toNat all, create_eq_ok hlimit all, fun schedule ↦ ?_⟩
  have h := (keeps_fresh limit.toNat all).run schedule
  have hpos : 0 < limit.toNat := by omega
  have hbounded : ((fresh limit.toNat all).run schedule).running.length ≤ limit.toNat :=
    h.inUse_eq ▸ h.inUse_le
  refine
    { bounded := ⟨hbounded, h.peak_le⟩
      once := h.subperm_results
      complete := fun values ↦ h.outcome_of_values
      stopped := fun f ↦ h.outcome_of_failure
      cancels := fun hf ↦ ⟨(h.failed hf).2, running_sublist_of_failure hf⟩
      returned := fun hdone ↦ ?_
      ends := h.isDone_iff_stuck hpos
      advances := fun e ↦ (moves_step _ e).eq_or_work_lt }
  rw [h.inUse_eq, (isDone_iff.mp hdone).2.1]
  rfl

/-- Of five tasks under two permits, two end together. One has a value, which is handed over while a third
task starts; the other failed, and three tasks are cancelled. -/
theorem run_accounts_failed_batch :
    let all : List (PoolTask Nat) :=
      [.ok 1, .error (.raised "disk"), .error .cancelled, .ok 4, .ok 5]
    let schedule : List Event :=
      [.start, .start, .finish 0, .finish 0, .report, .handOver 0, .start, .handOver 0,
        .start, .withdraw 1, .finish 0, .withdraw 0]
    (1 : Int) ≤ 2 ∧ ∃ p, create 2 all = .ok p ∧ (p.run schedule).isDone = true ∧
      (p.run schedule).results = [1] ∧ (p.run schedule).outcome = .error (.raised "disk") ∧
      (p.run schedule).cancelled = [.ok 4, .ok 5, .error .cancelled] ∧
      Accounts 2 all (p.run schedule) := by
  intro all schedule
  obtain ⟨p, hp, h⟩ := run_accounts (by decide : (1 : Int) ≤ 2) all
  have hfresh : p = fresh 2 all := Except.ok.inj (hp.symm.trans (create_eq_ok (by decide) all))
  refine ⟨by decide, p, hp, ?_, ?_, ?_, ?_, h schedule⟩ <;> rw [hfresh]
  · decide +kernel
  · decide +kernel
  · cbv
  · cbv

end Pool

end FeatureAtlas
