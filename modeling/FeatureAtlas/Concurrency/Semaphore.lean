/-!
# Semaphores with counters

A semaphore hands out a limited number of permits and records how many are in use and how many were in use
at most. A request waits in a queue while no permit is free or somebody stands in the queue already. A permit
that is given back goes to the first one that waits. It is counted as in use only when the task that waited
goes on; in between that task can be cancelled, and then the permit goes to the next one.

The order in which tasks ask, go on, are cancelled and give back is free. It is an argument of `Gate.run`, a
list of events; an event that cannot happen is passed over.
-/

namespace FeatureAtlas

/-- A semaphore: its limit, the permits in use and the most that were in use at once. -/
structure Semaphore where
  limit : Nat
  inUse : Nat := 0
  peak : Nat := 0
deriving DecidableEq, Repr, Inhabited

/-- What a semaphore refuses. -/
inductive SemaphoreError where
  | limitNotPositive
  | nothingToRelease
deriving DecidableEq, Repr, Inhabited

/-- The message about a refused operation. -/
def SemaphoreError.message : SemaphoreError → String
  | limitNotPositive => "limit must be > 0"
  | nothingToRelease => "release called more times than acquire"

namespace Semaphore

/-- A semaphore with all its permits. -/
def create (limit : Int) : Except SemaphoreError Semaphore :=
  if 0 < limit then .ok { limit := limit.toNat } else .error .limitNotPositive

/-- Counts one more permit as in use. -/
def take (s : Semaphore) : Semaphore :=
  { s with inUse := s.inUse + 1, peak := max s.peak (s.inUse + 1) }

/-- Takes a permit, if one is free. -/
def acquire? (s : Semaphore) : Option Semaphore :=
  if s.inUse < s.limit then some s.take else none

/-- Gives a permit back. -/
def release (s : Semaphore) : Except SemaphoreError Semaphore :=
  if s.inUse = 0 then .error .nothingToRelease else .ok { s with inUse := s.inUse - 1 }

end Semaphore

/-! ## Waiters -/

/-- A request in the queue, by how far it is. -/
inductive Waiter where
  /-- It waits for a permit. -/
  | waiting
  /-- It was handed a permit, and its task has not gone on yet. -/
  | granted
  /-- It was handed a permit, but its task was cancelled before it went on. -/
  | revoked
  /-- Its task was cancelled before it was handed a permit. -/
  | withdrawn
deriving DecidableEq, Repr, Inhabited

/-- The queue in which the first one that waits was handed a permit, if one waits. -/
def Waiter.grantFirst? : List Waiter → Option (List Waiter)
  | [] => none
  | .waiting :: rest => some (.granted :: rest)
  | w :: rest => (grantFirst? rest).map (w :: ·)

/-- A semaphore with the queue in front of it. -/
structure Gate where
  counters : Semaphore
  /-- The permits that are neither in use nor handed to a waiter. -/
  free : Int
  queue : List Waiter := []
deriving DecidableEq, Repr, Inhabited

namespace Gate

/-- How a block that holds a permit is left. -/
inductive Exit where
  | normal
  | raised (message : String)
deriving DecidableEq, Repr, Inhabited

/-- What happens at a gate. A block can be left at any time, also when its permit was given back inside it. -/
inductive Event where
  /-- A task asks for a permit. -/
  | acquire
  /-- A task asks for a permit for a block. -/
  | enter
  /-- The task of the waiter at a place goes on, unless it waits. -/
  | resume (place : Nat)
  /-- The task of the waiter at a place is cancelled. -/
  | cancel (place : Nat)
  /-- A task gives a permit back. -/
  | release
  /-- A task leaves a block and gives its permit back. -/
  | leave (exit : Exit)
deriving DecidableEq, Repr, Inhabited

/-- What an event leads to. -/
inductive Reply where
  /-- A request ended with a permit. -/
  | acquired
  /-- A request waits. -/
  | queued
  /-- A request ended without a permit, because its task was cancelled. -/
  | cancelled
  /-- A permit was given back; an exception that left a block goes on. -/
  | released (exit : Exit)
  /-- There was no permit to give back; this error takes the place of an exception that left a block. -/
  | refused (e : SemaphoreError)
  /-- No call ended. -/
  | nothing
deriving DecidableEq, Repr, Inhabited

/-- A gate with nobody in front of it. -/
def ofSemaphore (s : Semaphore) : Gate := { counters := s, free := Int.ofNat s.limit - Int.ofNat s.inUse }

/-- A gate with all its permits. -/
def create (limit : Int) : Except SemaphoreError Gate := (Semaphore.create limit).map ofSemaphore

/-- Whether a request has to wait: no permit is free, or somebody came first and was not withdrawn. -/
def isLocked (g : Gate) : Bool := g.free == 0 || g.queue.any (· != .withdrawn)

/-- Hands a free permit to the first one that waits. -/
def wakeNext (g : Gate) : Gate :=
  match Waiter.grantFirst? g.queue with
  | some queue => { g with free := g.free - 1, queue }
  | none => g

/-- Asks for a permit. -/
def request (g : Gate) : Gate × Reply :=
  if g.isLocked then ({ g with queue := g.queue ++ [.waiting] }, .queued)
  else ({ g with free := g.free - 1, counters := g.counters.take }, .acquired)

/-- Lets the task of a waiter go on: it leaves the queue with its permit, or passes the permit on if it was
cancelled meanwhile. -/
def resume (g : Gate) (place : Nat) : Gate × Reply :=
  let left : Gate := { g with queue := g.queue.eraseIdx place }
  match g.queue[place]? with
  | some .granted =>
    let woken := if 0 < left.free then left.wakeNext else left
    ({ woken with counters := woken.counters.take }, .acquired)
  | some .revoked => ({ left with free := left.free + 1 }.wakeNext, .cancelled)
  | some .withdrawn => (left, .cancelled)
  | some .waiting | none => (g, .nothing)

/-- Cancels the task of a waiter, which learns of it when it goes on. -/
def cancel (g : Gate) (place : Nat) : Gate :=
  match g.queue[place]? with
  | some .waiting => { g with queue := g.queue.set place .withdrawn }
  | some .granted => { g with queue := g.queue.set place .revoked }
  | _ => g

/-- Gives a permit back, at the end of a block or without one. -/
def release (g : Gate) (exit : Exit) : Gate × Reply :=
  match g.counters.release with
  | .ok counters => ({ g with counters, free := g.free + 1 }.wakeNext, .released exit)
  | .error e => (g, .refused e)

/-- The gate after an event, and what the event led to. -/
def step (g : Gate) : Event → Gate × Reply
  | .acquire | .enter => g.request
  | .resume place => g.resume place
  | .cancel place => (g.cancel place, .nothing)
  | .release => g.release .normal
  | .leave exit => g.release exit

/-- The gate after a sequence of events. -/
def run (g : Gate) (events : List Event) : Gate := events.foldl (fun g e => (g.step e).1) g

/-- What the events of a sequence lead to. -/
def replies (g : Gate) : List Event → List Reply
  | [] => []
  | e :: rest => (g.step e).2 :: replies (g.step e).1 rest

end Gate

/-! ## Without waiting -/

namespace Semaphore

/-- What a task does that never waits: where it would have to, it is cancelled at once. -/
inductive Event where
  | acquire
  | enter
  | release
  | leave
deriving DecidableEq, Repr, Inhabited

/-- How an event ends. -/
inductive Reply where
  | done
  | blocked
  | refused (e : SemaphoreError)
deriving DecidableEq, Repr, Inhabited

/-- The gate after an event, and how the event ended. -/
def attempt (g : Gate) : Event → Gate × Reply
  | .acquire | .enter =>
    match g.request with
    | (queued, .queued) => (((queued.cancel g.queue.length).resume g.queue.length).1, .blocked)
    | (taken, _) => (taken, .done)
  | .release | .leave =>
    match g.release .normal with
    | (same, .refused e) => (same, .refused e)
    | (given, _) => (given, .done)

/-- The replies to a sequence of events, each with the counters after it. -/
def attempts (g : Gate) : List Event → List (Semaphore × Reply)
  | [] => []
  | e :: rest => ((attempt g e).1.counters, (attempt g e).2) :: attempts (attempt g e).1 rest

/-- The replies to a sequence of events at a semaphore that nobody waits for. -/
def run (s : Semaphore) (events : List Event) : List (Semaphore × Reply) :=
  attempts (Gate.ofSemaphore s) events

end Semaphore

end FeatureAtlas
