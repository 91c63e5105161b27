import FeatureAtlas.Concurrency.Semaphore
import Mathlib.Data.List.Induction
import Mathlib.Data.List.Perm.Basic
import Mathlib.Order.Bounds.Basic

/-!
# The permits of a semaphore

A permit is free, or handed to a waiter whose task has not gone on yet, or in use. An event moves permits
between these three and never makes or loses one, so the permits that are not in use and those that are come
to the limit after every sequence of events. The counters follow: the use goes up by one exactly where a
request ends with a permit, and down by one exactly where a permit is given back.

`Change` says once what an event can do to the counters and to the permits that are not in use, and
`change_step` that every event does one of these. What holds of runs is then an induction on the last event.
-/

namespace FeatureAtlas

theorem perm_cons_eraseIdx {α : Type} {xs : List α} {place : Nat} {x : α}
    (h : xs[place]? = some x) : (x :: xs.eraseIdx place).Perm xs := by
  obtain ⟨hplace, rfl⟩ := List.getElem?_eq_some_iff.mp h
  exact List.getElem_cons_eraseIdx_perm hplace

/-! ## The queue -/

namespace Waiter

/-- Whether a waiter was handed a permit. -/
def holds : Waiter → Bool
  | granted => true
  | revoked => true
  | waiting => false
  | withdrawn => false

theorem grantFirst?_eq_none {queue : List Waiter} : grantFirst? queue = none ↔ .waiting ∉ queue := by
  fun_induction grantFirst? queue with
  | case1 => simp
  | case2 rest => simp
  | case3 w rest hw ih =>
    have hne : Waiter.waiting ≠ w := fun heq ↦ hw heq.symm
    rw [Option.map_eq_none_iff, ih, List.mem_cons, not_or, and_iff_right hne]

/-- One waiter more holds a permit then. -/
theorem countP_grantFirst? {queue next : List Waiter} (h : grantFirst? queue = some next) :
    next.countP holds = queue.countP holds + 1 := by
  fun_induction grantFirst? queue generalizing next with
  | case1 => cases h
  | case2 rest =>
    obtain rfl := Option.some.inj h
    simp [holds, List.countP_cons]
  | case3 w rest hw ih =>
    obtain ⟨rest', hrest, rfl⟩ := Option.map_eq_some_iff.mp h
    rw [List.countP_cons, List.countP_cons, ih hrest]
    omega

end Waiter

namespace Gate

/-- The permits that are handed to waiters. -/
def handed (g : Gate) : Nat := g.queue.countP Waiter.holds

/-- The permits that are not in use. -/
def spare (g : Gate) : Int := g.free + (g.handed : Int)

/-- Nobody waits for a free permit: if one is left while somebody waits, another one was handed out, and the
waiter that has it wakes the next one. -/
def Attended (g : Gate) : Prop := 0 < g.free → .waiting ∈ g.queue → ∃ w ∈ g.queue, w.holds = true

/-! ## One event -/

/-- What an event can do, told by what it leads to. -/
inductive Change (g g' : Gate) : Reply → Prop
  | acquired (counters : g'.counters = g.counters.take) (spare : g'.spare = g.spare - 1) :
    Change g g' .acquired
  | released {exit : Exit} (held : 0 < g.counters.inUse)
    (counters : g'.counters = { g.counters with inUse := g.counters.inUse - 1 })
    (spare : g'.spare = g.spare + 1) : Change g g' (.released exit)
  | refused {e : SemaphoreError} (none_held : g.counters.inUse = 0) (same : g' = g) :
    Change g g' (.refused e)
  | queued (counters : g'.counters = g.counters) (spare : g'.spare = g.spare) : Change g g' .queued
  | cancelled (counters : g'.counters = g.counters) (spare : g'.spare = g.spare) :
    Change g g' .cancelled
  | nothing (counters : g'.counters = g.counters) (spare : g'.spare = g.spare) :
    Change g g' .nothing

variable {g : Gate}

@[simp] theorem counters_wakeNext (g : Gate) : g.wakeNext.counters = g.counters := by
  rw [wakeNext]
  split <;> rfl

/-- A permit that is handed to a waiter is still not in use. -/
@[simp] theorem spare_wakeNext (g : Gate) : g.wakeNext.spare = g.spare := by
  rw [wakeNext]
  split
  · next queue hqueue =>
    simp only [spare, handed, Waiter.countP_grantFirst? hqueue]
    omega
  · rfl

theorem free_wakeNext (h : 0 < g.free) : 0 ≤ g.wakeNext.free := by
  rw [wakeNext]
  split
  · exact Int.le_sub_one_of_lt h
  · exact Int.le_of_lt h

theorem attended_wakeNext (g : Gate) : g.wakeNext.Attended := by
  rw [wakeNext]
  split
  · next queue hqueue =>
    intro _ _
    refine List.countP_pos_iff.mp ?_
    rw [Waiter.countP_grantFirst? hqueue]
    exact Nat.succ_pos _
  · next hnone => exact fun _ hwaits ↦ absurd hwaits (Waiter.grantFirst?_eq_none.mp hnone)

/-- A waiter that leaves the queue takes its permit along. -/
theorem spare_eraseIdx {place : Nat} {w : Waiter} (h : g.queue[place]? = some w) :
    ({ g with queue := g.queue.eraseIdx place } : Gate).spare
      = g.spare - if w.holds then 1 else 0 := by
  have hcount := (perm_cons_eraseIdx h).countP_eq Waiter.holds
  rw [List.countP_cons] at hcount
  simp only [spare, handed, ← hcount]
  split <;> omega

/-- The permit of a waiter stays with it. -/
theorem spare_set {place : Nat} {w w' : Waiter} (h : g.queue[place]? = some w)
    (hholds : w'.holds = w.holds) :
    ({ g with queue := g.queue.set place w' } : Gate).spare = g.spare := by
  obtain ⟨hplace, rfl⟩ := List.getElem?_eq_some_iff.mp h
  have hset := (List.set_perm_cons_eraseIdx hplace w').countP_eq Waiter.holds
  have hcount := (perm_cons_eraseIdx h).countP_eq Waiter.holds
  rw [List.countP_cons] at hset hcount
  rw [hholds] at hset
  simp only [spare, handed, hset, hcount]

theorem change_request (g : Gate) : Change g g.request.1 g.request.2 := by
  rw [request]
  split
  · refine .queued rfl ?_
    simp [spare, handed, Waiter.holds]
  · refine .acquired rfl ?_
    simp only [spare, handed]
    omega

theorem change_resume (g : Gate) (place : Nat) :
    Change g (g.resume place).1 (g.resume place).2 := by
  simp only [resume]
  split
  · next hplace =>
    have hleft := spare_eraseIdx hplace
    -- waking the next waiter is no further use of a permit
    split
    · refine .acquired (by simp) ?_
      exact (spare_wakeNext { g with queue := g.queue.eraseIdx place }).trans hleft
    · exact .acquired rfl hleft
  · next hplace =>
    have hleft := spare_eraseIdx hplace
    refine .cancelled (by simp) ?_
    rw [spare_wakeNext]
    simp only [Waiter.holds, if_true, spare] at hleft ⊢
    simp only [handed] at hleft ⊢
    omega
  · next hplace => exact .cancelled rfl ((spare_eraseIdx hplace).trans (Int.sub_zero _))
  · exact .nothing rfl rfl
  · exact .nothing rfl rfl

theorem change_cancel (g : Gate) (place : Nat) : Change g (g.cancel place) .nothing := by
  rw [cancel]
  split
  · next hplace => exact .nothing rfl (spare_set hplace rfl)
  · next hplace => exact .nothing rfl (spare_set hplace rfl)
  · exact .nothing rfl rfl

theorem change_release (g : Gate) (exit : Exit) :
    Change g (g.release exit).1 (g.release exit).2 := by
  rw [release, Semaphore.release]
  by_cases hheld : g.counters.inUse = 0
  · rw [if_pos hheld]
    exact .refused hheld rfl
  · rw [if_neg hheld]
    refine .released (Nat.pos_of_ne_zero hheld) (by simp) ?_
    rw [spare_wakeNext]
    simp only [spare, handed]
    omega

/-- Every event does one of the changes. -/
theorem change_step (g : Gate) (e : Event) : Change g (g.step e).1 (g.step e).2 := by
  cases e with
  | acquire => exact change_request g
  | enter => exact change_request g
  | resume place => exact change_resume g place
  | cancel place => exact change_cancel g place
  | release => exact change_release g .normal
  | leave exit => exact change_release g exit

/-- Whether a permit was given back. -/
def Reply.isReleased : Reply → Bool
  | released _ => true
  | _ => false

/-- The counters after a change: the limit stays, the peak is raised to the use, and the use goes up or down
with the permits that are not in use. -/
theorem Change.account {g' : Gate} {r : Reply} (h : Change g g' r)
    (hle : g.counters.inUse ≤ g.counters.peak) :
    g'.counters.limit = g.counters.limit ∧
      g'.counters.peak = max g'.counters.inUse g.counters.peak ∧
      g'.counters.inUse + (if r.isReleased then 1 else 0)
        = g.counters.inUse + (if r = .acquired then 1 else 0) ∧
      g'.spare + (g'.counters.inUse : Int) = g.spare + (g.counters.inUse : Int) := by
  cases h with
  | acquired counters spare =>
    rw [counters, spare]
    refine ⟨rfl, Nat.max_comm _ _, rfl, ?_⟩
    simp only [Semaphore.take]
    omega
  | released held counters spare =>
    rw [counters, spare]
    refine ⟨rfl, (Nat.max_eq_right (Nat.le_trans (Nat.sub_le _ _) hle)).symm, ?_, ?_⟩
    · exact Nat.sub_add_cancel held
    · dsimp only
      omega
  | refused none_held same =>
    rw [same]
    exact ⟨rfl, (Nat.max_eq_right hle).symm, rfl, rfl⟩
  | queued counters spare | cancelled counters spare | nothing counters spare =>
    rw [counters, spare]
    exact ⟨rfl, (Nat.max_eq_right hle).symm, rfl, rfl⟩

/-! ## No permit is overdrawn, and none lies idle -/

theorem free_step (h : 0 ≤ g.free) (e : Event) : 0 ≤ (g.step e).1.free := by
  have hrelease : ∀ exit, 0 ≤ (g.release exit).1.free := fun exit ↦ by
    rw [release]
    split
    · exact free_wakeNext (Int.lt_add_one_of_le h)
    · exact h
  have hrequest : 0 ≤ g.request.1.free := by
    rw [request]
    split
    · exact h
    · next hopen =>
      have hfree : g.free ≠ 0 := fun hzero ↦ hopen (by simp [isLocked, hzero])
      dsimp only
      omega
  cases e with
  | acquire => exact hrequest
  | enter => exact hrequest
  | resume place =>
    simp only [step, resume]
    split
    · split
      · next hfree => exact free_wakeNext hfree
      · exact h
    · exact free_wakeNext (Int.lt_add_one_of_le h)
    · exact h
    · exact h
    · exact h
  | cancel place =>
    simp only [step, cancel]
    split <;> exact h
  | release => exact hrelease .normal
  | leave exit => exact hrelease exit

theorem Attended.request (h : g.Attended) : g.request.1.Attended := by
  rw [Gate.request]
  split
  · next hlocked =>
    intro hfree _
    -- with a free permit, only a waiter in front makes a request wait
    have hzero : (g.free == 0) = false := beq_eq_false_iff_ne.mpr (Int.ne_of_gt hfree)
    rw [isLocked, hzero, Bool.false_or, List.any_eq_true] at hlocked
    obtain ⟨w, hmem, hw⟩ := hlocked
    have hholds : ∃ w ∈ g.queue, w.holds = true := by
      cases w with
      | waiting => exact h hfree hmem
      | granted => exact ⟨_, hmem, rfl⟩
      | revoked => exact ⟨_, hmem, rfl⟩
      | withdrawn => exact absurd hw (by decide)
    exact hholds.imp fun w hw ↦ ⟨List.mem_append_left _ hw.1, hw.2⟩
  · next hopen =>
    intro _ hwaits
    have hlocked : g.isLocked = true := by
      rw [isLocked, Bool.or_eq_true, List.any_eq_true]
      exact Or.inr ⟨.waiting, hwaits, by decide⟩
    exact absurd hlocked hopen

theorem Attended.resume (h : g.Attended) (place : Nat) : (g.resume place).1.Attended := by
  simp only [Gate.resume]
  split
  · split
    · exact attended_wakeNext _
    · next hfree => exact fun hpos ↦ absurd hpos hfree
  · exact attended_wakeNext _
  · next hplace =>
    have hperm := perm_cons_eraseIdx hplace
    intro hfree hwaits
    obtain ⟨w, hmem, hw⟩ := h hfree (hperm.mem_iff.mp (List.mem_cons_of_mem _ hwaits))
    rcases List.mem_cons.mp (hperm.mem_iff.mpr hmem) with rfl | hrest
    · cases hw
    · exact ⟨w, hrest, hw⟩
  · exact h
  · exact h

theorem Attended.cancel (h : g.Attended) (place : Nat) : (g.cancel place).Attended := by
  rw [Gate.cancel]
  split
  · next hplace =>
    obtain ⟨hlt, hget⟩ := List.getElem?_eq_some_iff.mp hplace
    have hset := List.set_perm_cons_eraseIdx hlt Waiter.withdrawn
    have hperm := perm_cons_eraseIdx hplace
    intro hfree hwaits
    obtain ⟨w, hmem, hw⟩ := h hfree (List.mem_of_getElem? hplace)
    -- the one that was cancelled held no permit
    rcases List.mem_cons.mp (hperm.mem_iff.mpr hmem) with rfl | hrest
    · cases hw
    · exact ⟨w, hset.mem_iff.mpr (List.mem_cons_of_mem _ hrest), hw⟩
  · next hplace =>
    obtain ⟨hlt, -⟩ := List.getElem?_eq_some_iff.mp hplace
    exact fun _ _ ↦ ⟨.revoked, List.mem_set hlt _, rfl⟩
  · exact h

theorem Attended.step (h : g.Attended) (e : Event) : (g.step e).1.Attended := by
  have hrelease : ∀ exit, (g.release exit).1.Attended := fun exit ↦ by
    rw [release]
    split
    · exact attended_wakeNext _
    · exact h
  cases e with
  | acquire => exact h.request
  | enter => exact h.request
  | resume place => exact h.resume place
  | cancel place => exact h.cancel place
  | release => exact hrelease .normal
  | leave exit => exact hrelease exit

/-! ## Runs -/

theorem run_concat (g : Gate) (events : List Event) (e : Event) :
    g.run (events ++ [e]) = ((g.run events).step e).1 := by
  rw [run, run, List.foldl_append, List.foldl_cons, List.foldl_nil]

theorem replies_concat (g : Gate) (events : List Event) (e : Event) :
    g.replies (events ++ [e]) = g.replies events ++ [((g.run events).step e).2] := by
  induction events generalizing g with
  | nil => rfl
  | cons e' events ih =>
    rw [List.cons_append, replies, ih, replies, List.cons_append]
    rfl

/-- Whether an event is to give a permit back. -/
def Event.GivesBack : Event → Prop
  | release => True
  | leave _ => True
  | _ => False

/-- The permits in use after each of the events, and before the first. -/
def uses (g : Gate) (events : List Event) : Set Nat :=
  {n | ∃ earlier, earlier <+: events ∧ (g.run earlier).counters.inUse = n}

theorem uses_concat (g : Gate) (events : List Event) (e : Event) :
    g.uses (events ++ [e]) = insert (g.run (events ++ [e])).counters.inUse (g.uses events) := by
  ext n
  simp only [uses, Set.mem_ofPred_eq, Set.mem_insert_iff, List.prefix_concat_iff]
  constructor
  · rintro ⟨earlier, rfl | hprefix, rfl⟩
    · exact Or.inl rfl
    · exact Or.inr ⟨earlier, hprefix, rfl⟩
  · rintro (rfl | ⟨earlier, hprefix, rfl⟩)
    · exact ⟨_, Or.inl rfl, rfl⟩
    · exact ⟨earlier, Or.inr hprefix, rfl⟩

/-- The counters and the permits of a gate after a sequence of events. -/
structure Consistent (limit : Nat) (start : Gate) (events : List Event) : Prop where
  limit_eq : (start.run events).counters.limit = limit
  inUse_le : (start.run events).counters.inUse ≤ (start.run events).counters.peak
  peak_le : (start.run events).counters.peak ≤ limit
  /-- The use is what was acquired and not given back. -/
  balanced : (start.run events).counters.inUse + (start.replies events).countP Reply.isReleased
    = (start.replies events).count .acquired
  /-- The peak is the highest use there was. -/
  highest : IsGreatest (start.uses events) (start.run events).counters.peak
  /-- No permit is made or lost. -/
  capacity : 0 ≤ (start.run events).free ∧
    (start.run events).spare + ((start.run events).counters.inUse : Int) = (limit : Int)
  /-- Nobody waits for a permit that nobody has. -/
  attended : (start.run events).Attended
  /-- Only a permit that is not in use is not taken back, and then nothing changes. -/
  refuses : ∀ e, (∃ error, ((start.run events).step e).2 = .refused error) ↔
    e.GivesBack ∧ (start.run events).counters.inUse = 0
  unchanged : ∀ e error, ((start.run events).step e).2 = .refused error →
    ((start.run events).step e).1 = start.run events

theorem refused_iff (g : Gate) (e : Event) :
    (∃ error, (g.step e).2 = .refused error) ↔ e.GivesBack ∧ g.counters.inUse = 0 := by
  have hrelease : ∀ exit, (∃ error, (g.release exit).2 = .refused error) ↔ g.counters.inUse = 0 := by
    intro exit
    rw [release, Semaphore.release]
    by_cases hheld : g.counters.inUse = 0
    · simp [hheld]
    · simp [hheld]
  cases e with
  | acquire =>
    simp only [step, request, Event.GivesBack]
    split <;> simp
  | enter =>
    simp only [step, request, Event.GivesBack]
    split <;> simp
  | resume place =>
    simp only [step, resume, Event.GivesBack]
    split <;> simp
  | cancel place => simp [step, Event.GivesBack]
  | release => exact (hrelease .normal).trans (and_iff_right trivial).symm
  | leave exit => exact (hrelease exit).trans (and_iff_right trivial).symm

theorem step_of_refused {e : Event} {error : SemaphoreError} (h : (g.step e).2 = .refused error) :
    (g.step e).1 = g := by
  have hchange := change_step g e
  rw [h] at hchange
  cases hchange with
  | refused none_held same => exact same

theorem consistent_nil (limit : Nat) : Consistent limit (ofSemaphore { limit }) [] where
  limit_eq := rfl
  inUse_le := Nat.le_refl 0
  peak_le := Nat.zero_le limit
  balanced := rfl
  highest := by
    refine ⟨⟨[], List.prefix_refl _, rfl⟩, ?_⟩
    rintro n ⟨earlier, hprefix, rfl⟩
    rw [List.prefix_nil.mp hprefix]
    rfl
  capacity := ⟨by simp [run, ofSemaphore], by simp [run, ofSemaphore, spare, handed]⟩
  attended := fun _ hwaits ↦ absurd hwaits List.not_mem_nil
  refuses := refused_iff _
  unchanged := fun _ _ ↦ step_of_refused

theorem Consistent.concat {limit : Nat} {start : Gate} {events : List Event}
    (h : Consistent limit start events) (e : Event) : Consistent limit start (events ++ [e]) := by
  have hfree := free_step h.capacity.1 e
  have hattended := h.attended.step e
  obtain ⟨hlimit, hpeak, huse, hspare⟩ := (change_step (start.run events) e).account h.inUse_le
  rw [← run_concat] at hlimit hpeak huse hspare hfree hattended
  have hcapacity := hspare.trans h.capacity.2
  have hinUse : (start.run (events ++ [e])).counters.inUse ≤ limit := by
    have hnonneg : 0 ≤ (start.run (events ++ [e])).spare := Int.add_nonneg hfree (Int.natCast_nonneg _)
    omega
  refine
    { limit_eq := hlimit.trans h.limit_eq
      inUse_le := hpeak ▸ Nat.le_max_left _ _
      peak_le := hpeak ▸ Nat.max_le.mpr ⟨hinUse, h.peak_le⟩
      balanced := ?_
      highest := ?_
      capacity := ⟨hfree, hcapacity⟩
      attended := hattended
      refuses := refused_iff _
      unchanged := fun _ _ ↦ step_of_refused }
  · have hbalanced := h.balanced
    rw [replies_concat, List.countP_append, List.count_append, List.countP_singleton,
      List.count_singleton]
    simp only [beq_iff_eq]
    omega
  · rw [uses_concat, hpeak]
    exact h.highest.insert _

theorem consistent_run (limit : Nat) (events : List Event) :
    Consistent limit (ofSemaphore { limit }) events := by
  induction events using List.reverseRecOn with
  | nil => exact consistent_nil limit
  | append_singleton events e ih => exact ih.concat e

/-- **The counters are right after every sequence of events**, in whatever order tasks ask, wait, are
cancelled and give back. -/
theorem counters_consistent {limit : Int} (hlimit : 1 ≤ limit) :
    ∃ start, create limit = .ok start ∧ ∀ events, Consistent limit.toNat start events := by
  refine ⟨ofSemaphore { limit := limit.toNat }, ?_, consistent_run limit.toNat⟩
  have hpos : 0 < limit := hlimit
  rw [create, Semaphore.create, if_pos hpos]
  rfl

/-- One permit and three tasks. Two of them wait; the permit is handed to the first one, which is cancelled
before it goes on, so it passes the permit on to the second one. That one leaves its block by an exception,
and giving back once more is refused. -/
theorem counters_consistent_passed_on :
    let events : List Event := [.acquire, .enter, .enter, .release, .cancel 0, .resume 0, .resume 0,
      .leave (.raised "disk"), .leave .normal]
    (1 : Int) ≤ 1 ∧ ∃ start, create 1 = .ok start ∧
      start.replies events = [.acquired, .queued, .queued, .released .normal, .nothing, .cancelled,
        .acquired, .released (.raised "disk"), .refused .nothingToRelease] ∧
      start.run events = { counters := { limit := 1, inUse := 0, peak := 1 }, free := 1 } ∧
      Consistent 1 start events := by
  intro events
  obtain ⟨start, hstart, h⟩ := counters_consistent (by decide : (1 : Int) ≤ 1)
  obtain rfl : ofSemaphore { limit := 1 } = start := Except.ok.inj hstart
  exact ⟨by decide, _, hstart, by decide, by decide, h events⟩

end Gate

end FeatureAtlas
