import FeatureAtlas.Concurrency.Semaphore

/-!
# Worker pools

A pool runs tasks, each under a permit of one semaphore. The tasks that ended are reported together and
handed over one by one. The first failure that is handed over stops the pool: the tasks that were not
reported yet are cancelled, and the pool waits until each of them has ended. What was reported along with
the failure is lost.

The order of starts, ends, reports and handovers is free. It is an argument of `Pool.run`, a list of events;
an event that cannot happen is passed over.
-/

namespace FeatureAtlas

/-- How a task fails. -/
inductive TaskFailure where
  | raised (message : String)
  | cancelled
deriving DecidableEq, Repr, Inhabited

/-- The message about a failed task. -/
def TaskFailure.message : TaskFailure → String
  | raised message => message
  | cancelled => "worker task cancelled"

/-- A task is known by how it ends. -/
abbrev PoolTask (α : Type) := Except TaskFailure α

/-- The state of a pool. -/
structure Pool (α : Type) where
  semaphore : Semaphore
  /-- Tasks without a permit. -/
  waiting : List (PoolTask α)
  /-- Tasks with a permit. -/
  running : List (PoolTask α)
  /-- Tasks that ended and were not reported. -/
  finished : List (PoolTask α)
  /-- The results handed over. -/
  results : List α
  /-- The failure that stopped the pool. -/
  failure : Option TaskFailure
  /-- Tasks that were reported and not handed over yet. -/
  reported : List (PoolTask α) := []
  /-- Tasks that were reported along with the failure. -/
  lost : List (PoolTask α) := []
  /-- Tasks that the pool cancelled when it was stopped, whether or not they ended since. -/
  cancelled : List (PoolTask α) := []
deriving Inhabited

/-- A pool without a task at a time. -/
inductive PoolError where
  | limitNotPositive
deriving DecidableEq, Repr, Inhabited

/-- The message about a refused pool. -/
def PoolError.message : PoolError → String
  | limitNotPositive => "max_concurrency must be > 0"

namespace Pool

variable {α : Type}

/-- What happens in a pool. -/
inductive Event where
  /-- The next waiting task gets a permit. -/
  | start
  /-- The running task at a place ends and gives its permit back. -/
  | finish (place : Nat)
  /-- The waiting task at a place was cancelled and ends without a permit. -/
  | withdraw (place : Nat)
  /-- The finished tasks are reported, once those reported before are handed over. -/
  | report
  /-- The reported task at a place is handed over. -/
  | handOver (place : Nat)
  /-- What is reported, or else finished, is handed over at once. -/
  | collect
deriving DecidableEq, Repr, Inhabited

/-- A pool before its first task. -/
def create (limit : Int) (tasks : List (PoolTask α)) : Except PoolError (Pool α) :=
  match Semaphore.create limit with
  | .error _ => .error .limitNotPositive
  | .ok semaphore =>
    .ok { semaphore, waiting := tasks, running := [], finished := [], results := [], failure := none }

/-- Reports the finished tasks. -/
def report (p : Pool α) : Pool α :=
  match p.failure, p.reported with
  | none, [] => { p with reported := p.finished, finished := [] }
  | _, _ => p

/-- Stops a pool: what was reported is lost, and what was not is cancelled. -/
def stop (p : Pool α) (f : TaskFailure) : Pool α :=
  { p with
    failure := some f
    reported := []
    lost := p.lost ++ p.reported
    cancelled := p.waiting ++ p.running ++ p.finished }

/-- Hands the reported task at a place over; a failure stops the pool. -/
def handOver (p : Pool α) (place : Nat) : Pool α :=
  let rest := p.reported.eraseIdx place
  match p.failure, p.reported[place]? with
  | none, some (.ok a) => { p with reported := rest, results := p.results ++ [a] }
  | none, some (.error f) => { p with reported := rest }.stop f
  | _, _ => p

/-- Hands a number of reported tasks over, in order. -/
def handOverFirst : Nat → Pool α → Pool α
  | 0, p => p
  | n + 1, p => handOverFirst n (p.handOver 0)

/-- Whether a waiting task may end without a permit: it is cancelled, or the pool was stopped. -/
def withdraws (p : Pool α) : PoolTask α → Bool
  | .error .cancelled => true
  | _ => p.failure.isSome

/-- The pool after an event. -/
def step (p : Pool α) : Event → Pool α
  | .start =>
    match p.failure, p.waiting, p.semaphore.acquire? with
    | none, task :: rest, some semaphore =>
      { p with semaphore, waiting := rest, running := p.running ++ [task] }
    | _, _, _ => p
  | .finish place =>
    match p.running[place]?, p.semaphore.release with
    | some task, .ok semaphore =>
      { p with semaphore, running := p.running.eraseIdx place, finished := p.finished ++ [task] }
    | _, _ => p
  | .withdraw place =>
    match p.waiting[place]? with
    | some task =>
      if p.withdraws task then
        { p with waiting := p.waiting.eraseIdx place, finished := p.finished ++ [task] }
      else p
    | none => p
  | .report => p.report
  | .handOver place => p.handOver place
  | .collect => handOverFirst p.report.reported.length p.report

/-- The pool after a sequence of events. -/
def run (p : Pool α) (events : List Event) : Pool α := events.foldl step p

/-- Whether no task is left: all have ended, and without a failure all are handed over. -/
def isDone (p : Pool α) : Bool :=
  p.waiting.isEmpty && p.running.isEmpty &&
    (p.failure.isSome || p.finished.isEmpty && p.reported.isEmpty)

/-- The schedule that starts as many tasks as it can, and for each one that ends starts the next. -/
def eager (limit count : Nat) : List Event :=
  List.replicate (min limit count) .start ++
    (List.replicate count [.finish 0, .collect, .start]).flatten

/-- The results of a pool that is done, or its failure. -/
def outcome (p : Pool α) : Except TaskFailure (List α) :=
  match p.failure with
  | some f => .error f
  | none => .ok p.results

end Pool

end FeatureAtlas
