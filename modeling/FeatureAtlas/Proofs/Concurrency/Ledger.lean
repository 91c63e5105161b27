import FeatureAtlas.Concurrency.Pool
import FeatureAtlas.Proofs.Concurrency.Gate
import Mathlib.Logic.Relation

/-!
# The ledger of a worker pool

Whatever happens in a pool, no task is lost and none is made: an event only moves tasks on, from waiting to
running, to finished, to reported, and from there to the results, to the failure or to what is lost with the
failure. The permits follow the tasks that run. So a run is known by its ledger, and by two facts about the
way in which it ends: as long as nothing failed nothing is lost or cancelled, and after a failure the
cancelled tasks are those that were still to be reported, of which none starts any more.

`Move` says once what can happen, and `moves_step` that every event is made of moves. `Keeps` puts the facts
together; a move preserves it, and therefore every schedule does. Each move makes the work that is left
smaller, and a pool that is not done has a move to make, so no schedule can go on for ever.
-/

namespace FeatureAtlas

namespace Pool

variable {α : Type}

theorem run_append (p : Pool α) (s s' : List Event) : p.run (s ++ s') = (p.run s).run s' :=
  List.foldl_append

theorem run_cons (p : Pool α) (e : Event) (s : List Event) : p.run (e :: s) = (p.step e).run s :=
  rfl

/-! ## Moves -/

/-- One move of a pool. -/
inductive Move (p : Pool α) : Pool α → Prop where
  /-- The first waiting task gets a permit. -/
  | start {task : PoolTask α} {rest : List (PoolTask α)} (unfailed : p.failure = none)
    (free : p.semaphore.inUse < p.semaphore.limit) (waits : p.waiting = task :: rest) :
    Move p { p with
      semaphore := { p.semaphore with
        inUse := p.semaphore.inUse + 1
        peak := max p.semaphore.peak (p.semaphore.inUse + 1) }
      waiting := rest
      running := p.running ++ [task] }
  /-- A running task ends and gives its permit back. -/
  | finish {place : Nat} {task : PoolTask α} (held : 0 < p.semaphore.inUse)
    (runs : p.running[place]? = some task) :
    Move p { p with
      semaphore := { p.semaphore with inUse := p.semaphore.inUse - 1 }
      running := p.running.eraseIdx place
      finished := p.finished ++ [task] }
  /-- A waiting task ends without a permit. -/
  | withdraw {place : Nat} {task : PoolTask α} (waits : p.waiting[place]? = some task) :
    Move p { p with waiting := p.waiting.eraseIdx place, finished := p.finished ++ [task] }
  /-- The finished tasks are reported. -/
  | report (unfailed : p.failure = none) (none_left : p.reported = []) (ended : p.finished ≠ []) :
    Move p { p with reported := p.finished, finished := [] }
  /-- A result is handed over. -/
  | result {place : Nat} {a : α} (unfailed : p.failure = none)
    (stands : p.reported[place]? = some (.ok a)) :
    Move p { p with reported := p.reported.eraseIdx place, results := p.results ++ [a] }
  /-- A failure is handed over and stops the pool. -/
  | fail {place : Nat} {f : TaskFailure} (unfailed : p.failure = none)
    (stands : p.reported[place]? = some (.error f)) :
    Move p { p with
      failure := some f
      reported := []
      lost := p.lost ++ p.reported.eraseIdx place
      cancelled := p.waiting ++ p.running ++ p.finished }

/-- What a number of moves leads to. -/
abbrev Moves : Pool α → Pool α → Prop := Relation.ReflTransGen Move

theorem step_start_of_some {p : Pool α} {task : PoolTask α} {rest : List (PoolTask α)}
    {taken : Semaphore} (hf : p.failure = none) (hw : p.waiting = task :: rest)
    (ha : p.semaphore.acquire? = some taken) :
    p.step .start
      = { p with semaphore := taken, waiting := rest, running := p.running ++ [task] } := by
  simp only [step, hf, hw, ha]

theorem step_finish_of_some {p : Pool α} {place : Nat} {task : PoolTask α} {given : Semaphore}
    (hr : p.running[place]? = some task) (hg : p.semaphore.release = .ok given) :
    p.step (.finish place)
      = { p with
          semaphore := given
          running := p.running.eraseIdx place
          finished := p.finished ++ [task] } := by
  simp only [step, hr, hg]

theorem step_withdraw_of_some {p : Pool α} {place : Nat} {task : PoolTask α}
    (hw : p.waiting[place]? = some task) (hmay : p.withdraws task = true) :
    p.step (.withdraw place)
      = { p with waiting := p.waiting.eraseIdx place, finished := p.finished ++ [task] } := by
  simp only [step, hw, hmay, if_true]

theorem moves_start (p : Pool α) : Moves p (p.step .start) := by
  rw [step]
  split
  · next task rest taken hf hw ha =>
    obtain ⟨hfree, rfl⟩ : p.semaphore.inUse < p.semaphore.limit ∧ _ = taken := by
      rw [Semaphore.acquire?] at ha
      split at ha
      · next hfree => exact ⟨hfree, Option.some.inj ha⟩
      · cases ha
    exact .single (.start hf hfree hw)
  · exact .refl

theorem moves_finish (p : Pool α) (place : Nat) : Moves p (p.step (.finish place)) := by
  rw [step]
  split
  · next task given hr hg =>
    obtain ⟨hheld, rfl⟩ : p.semaphore.inUse ≠ 0 ∧ _ = given := by
      rw [Semaphore.release] at hg
      split at hg
      · cases hg
      · next hheld => exact ⟨hheld, Except.ok.inj hg⟩
    exact .single (.finish (by omega) hr)
  · exact .refl

theorem moves_withdraw (p : Pool α) (place : Nat) : Moves p (p.step (.withdraw place)) := by
  rw [step]
  split
  · next task hw =>
    split
    · exact .single (.withdraw hw)
    · exact .refl
  · exact .refl

theorem moves_report (p : Pool α) : Moves p p.report := by
  rw [report]
  split
  · next hf hr =>
    by_cases hended : p.finished = []
    · -- nothing finished, so nothing is reported
      obtain ⟨semaphore, waiting, running, finished, results, failure, reported, lost, cancelled⟩ := p
      dsimp only at hr hended
      subst hr hended
      exact .refl
    · exact .single (.report hf hr hended)
  · exact .refl

theorem moves_handOver (p : Pool α) (place : Nat) : Moves p (p.handOver place) := by
  rw [handOver]
  split
  · next a hf hr => exact .single (.result hf hr)
  · next f hf hr => exact .single (.fail hf hr)
  · exact .refl

theorem moves_handOverFirst (n : Nat) (p : Pool α) : Moves p (handOverFirst n p) := by
  induction n generalizing p with
  | zero => exact .refl
  | succ n ih => exact (moves_handOver p 0).trans (ih _)

/-- An event is made of moves; one that cannot happen is made of none. -/
theorem moves_step (p : Pool α) (e : Event) : Moves p (p.step e) := by
  cases e with
  | start => exact moves_start p
  | finish place => exact moves_finish p place
  | withdraw place => exact moves_withdraw p place
  | report => exact moves_report p
  | handOver place => exact moves_handOver p place
  | collect => exact (moves_report p).trans (moves_handOverFirst _ _)

/-! ## The tasks -/

/-- The tasks of a pool, wherever they stand. -/
def tasks (p : Pool α) : List (PoolTask α) :=
  p.waiting ++ p.running ++ p.finished ++ p.reported ++ p.lost ++ p.results.map Except.ok ++
    p.failure.toList.map Except.error

/-- A move neither loses nor makes a task: each is as often in the pool as before. -/
theorem Move.perm_tasks {p q : Pool α} (h : Move p q) : q.tasks.Perm p.tasks := by
  classical
  rw [List.perm_iff_count]
  intro t
  cases h with
  | start unfailed free waits =>
    simp only [tasks, waits, List.count_append, List.count_cons, List.count_nil]
    omega
  | finish held runs =>
    have hcount := (perm_cons_eraseIdx runs).count_eq t
    simp only [tasks, List.count_append, List.count_cons, List.count_nil] at hcount ⊢
    omega
  | withdraw waits =>
    have hcount := (perm_cons_eraseIdx waits).count_eq t
    simp only [tasks, List.count_append, List.count_cons, List.count_nil] at hcount ⊢
    omega
  | report unfailed none_left ended =>
    simp only [tasks, none_left, List.count_append, List.count_nil]
    omega
  | result unfailed stands =>
    have hcount := (perm_cons_eraseIdx stands).count_eq t
    simp only [tasks, List.map_append, List.map_cons, List.map_nil, List.count_append,
      List.count_cons, List.count_nil] at hcount ⊢
    omega
  | fail unfailed stands =>
    have hcount := (perm_cons_eraseIdx stands).count_eq t
    simp only [tasks, unfailed, Option.toList_none, Option.toList_some, List.map_cons, List.map_nil,
      List.count_append, List.count_cons, List.count_nil] at hcount ⊢
    omega

/-- After a failure the tasks that were not reported only end. -/
theorem Move.perm_unreported {p q : Pool α} (h : Move p q) (hfailed : p.failure ≠ none) :
    (q.waiting ++ q.running ++ q.finished).Perm (p.waiting ++ p.running ++ p.finished) := by
  classical
  rw [List.perm_iff_count]
  intro t
  cases h with
  | finish held runs =>
    have hcount := (perm_cons_eraseIdx runs).count_eq t
    simp only [List.count_append, List.count_cons, List.count_nil] at hcount ⊢
    omega
  | withdraw waits =>
    have hcount := (perm_cons_eraseIdx waits).count_eq t
    simp only [List.count_append, List.count_cons, List.count_nil] at hcount ⊢
    omega
  | start unfailed | report unfailed | result unfailed | fail unfailed =>
    exact absurd unfailed hfailed

/-! ## What every run keeps -/

/-- What is true of a pool with a limit and tasks after any schedule. -/
structure Keeps (limit : Nat) (all : List (PoolTask α)) (p : Pool α) : Prop where
  limit_eq : p.semaphore.limit = limit
  /-- Each running task holds a permit, and no other does. -/
  inUse_eq : p.semaphore.inUse = p.running.length
  inUse_le : p.semaphore.inUse ≤ limit
  peak_le : p.semaphore.peak ≤ limit
  perm : p.tasks.Perm all
  /-- Nothing is lost or cancelled as long as nothing failed. -/
  unfailed : p.failure = none → p.lost = [] ∧ p.cancelled = []
  /-- After a failure nothing is handed over, and what was not reported is cancelled. -/
  failed : p.failure ≠ none →
    p.reported = [] ∧ (p.waiting ++ p.running ++ p.finished).Perm p.cancelled

theorem Keeps.move {limit : Nat} {all : List (PoolTask α)} {p q : Pool α} (h : p.Keeps limit all)
    (hmove : Move p q) : q.Keeps limit all := by
  have hperm : q.tasks.Perm all := hmove.perm_tasks.trans h.perm
  have hlimit := h.limit_eq
  have hinUse := h.inUse_eq
  have hle := h.inUse_le
  have hpeak := h.peak_le
  have hunreported := hmove.perm_unreported
  cases hmove with
  | @start task rest unfailed free waits =>
    have hnow : p.semaphore.inUse + 1 ≤ limit := by omega
    have hrunning : p.semaphore.inUse + 1 = (p.running ++ [task]).length := by
      rw [List.length_append, List.length_singleton, hinUse]
    exact ⟨hlimit, hrunning, hnow, Nat.max_le.mpr ⟨hpeak, hnow⟩, hperm, h.unfailed,
      fun hne ↦ absurd unfailed hne⟩
  | @finish place task held runs =>
    have hplace : place < p.running.length := (List.getElem?_eq_some_iff.mp runs).1
    have hrunning : p.semaphore.inUse - 1 = (p.running.eraseIdx place).length := by
      rw [List.length_eraseIdx_of_lt hplace, hinUse]
    exact ⟨hlimit, hrunning, Nat.le_trans (Nat.sub_le _ _) hle, hpeak, hperm, h.unfailed,
      fun hne ↦ ⟨(h.failed hne).1, (hunreported hne).trans (h.failed hne).2⟩⟩
  | withdraw waits =>
    exact ⟨hlimit, hinUse, hle, hpeak, hperm, h.unfailed,
      fun hne ↦ ⟨(h.failed hne).1, (hunreported hne).trans (h.failed hne).2⟩⟩
  | report unfailed none_left ended =>
    exact ⟨hlimit, hinUse, hle, hpeak, hperm, h.unfailed, fun hne ↦ absurd unfailed hne⟩
  | result unfailed stands =>
    exact ⟨hlimit, hinUse, hle, hpeak, hperm, h.unfailed, fun hne ↦ absurd unfailed hne⟩
  | fail unfailed stands =>
    exact ⟨hlimit, hinUse, hle, hpeak, hperm, nofun, fun _ ↦ ⟨rfl, .refl _⟩⟩

theorem Keeps.moves {limit : Nat} {all : List (PoolTask α)} {p q : Pool α} (h : p.Keeps limit all)
    (hmoves : Moves p q) : q.Keeps limit all := by
  induction hmoves with
  | refl => exact h
  | tail _ hmove ih => exact ih.move hmove

theorem Keeps.step {limit : Nat} {all : List (PoolTask α)} {p : Pool α} (h : p.Keeps limit all)
    (e : Event) : (p.step e).Keeps limit all :=
  h.moves (moves_step p e)

/-- **Every schedule keeps the ledger.** -/
theorem Keeps.run {limit : Nat} {all : List (PoolTask α)} {p : Pool α} (h : p.Keeps limit all)
    (s : List Event) : (p.run s).Keeps limit all := by
  induction s generalizing p with
  | nil => exact h
  | cons e s ih => exact ih (h.step e)

/-- A pool before its first task. -/
def fresh (limit : Nat) (all : List (PoolTask α)) : Pool α :=
  { semaphore := { limit }, waiting := all, running := [], finished := []
    results := [], failure := none }

theorem create_eq_ok {limit : Int} (hlimit : 1 ≤ limit) (all : List (PoolTask α)) :
    create limit all = .ok (fresh limit.toNat all) := by
  have hpos : 0 < limit := by omega
  rw [create, Semaphore.create, if_pos hpos]
  rfl

theorem keeps_fresh (limit : Nat) (all : List (PoolTask α)) : (fresh limit all).Keeps limit all where
  limit_eq := rfl
  inUse_eq := rfl
  inUse_le := Nat.zero_le limit
  peak_le := Nat.zero_le limit
  perm := by simp [tasks, fresh]
  unfailed _ := ⟨rfl, rfl⟩
  failed h := absurd rfl h

/-! ## The work that is left -/

/-- The moves that the tasks of a pool have to make at most. -/
def work (p : Pool α) : Nat :=
  4 * p.waiting.length + 3 * p.running.length + 2 * p.finished.length + p.reported.length

theorem Move.work_lt {p q : Pool α} (h : Move p q) : q.work < p.work := by
  cases h with
  | start unfailed free waits =>
    simp only [work, waits, List.length_append, List.length_cons, List.length_nil]
    omega
  | @finish place task held runs =>
    have hplace : place < p.running.length := (List.getElem?_eq_some_iff.mp runs).1
    simp only [work, List.length_eraseIdx_of_lt hplace, List.length_append, List.length_singleton]
    omega
  | @withdraw place task waits =>
    have hplace : place < p.waiting.length := (List.getElem?_eq_some_iff.mp waits).1
    simp only [work, List.length_eraseIdx_of_lt hplace, List.length_append, List.length_singleton]
    omega
  | report unfailed none_left ended =>
    have hsome : 0 < p.finished.length := List.length_pos_iff.mpr ended
    simp only [work, none_left, List.length_nil]
    omega
  | @result place a unfailed stands =>
    have hplace : place < p.reported.length := (List.getElem?_eq_some_iff.mp stands).1
    simp only [work, List.length_eraseIdx_of_lt hplace]
    omega
  | @fail place f unfailed stands =>
    have hplace : place < p.reported.length := (List.getElem?_eq_some_iff.mp stands).1
    simp only [work, List.length_nil]
    omega

theorem Moves.eq_or_work_lt {p q : Pool α} (h : Moves p q) : q = p ∨ q.work < p.work := by
  induction h with
  | refl => exact Or.inl rfl
  | tail _ hmove ih =>
    refine Or.inr ?_
    obtain rfl | hlt := ih
    · exact hmove.work_lt
    · exact Nat.lt_trans hmove.work_lt hlt

end Pool

end FeatureAtlas
