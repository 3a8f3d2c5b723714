import Noema.Lib.PyRuntime
import Noema.Lib.System

/-!
# The worker pool (`workers/pool.py`)

`submit` puts a task into a bounded queue and waits for the event of the task; the workers take
tasks from the queue, run their functions and set the events. `shutdown` sets the events of all
tasks, cancels the workers and waits for them to end.

- `Submission`: a call of `submit` with its task: at the queue, at its event, or at its end. Its
  caller may be cancelled at each of the two awaits.
- `WorkerPhase`: a worker waits for a task, runs one, or has ended.
- `finish`: what a call makes of its task when the event is set: the result, the exception, or
  whatever the fields of a task that never ran hold.

A step is what happens between two awaits. How a function ends is in the events, also for one that
is hit by the cancellation of its worker. A pool is started once. The record says which functions
were started and how they ended; the code has none.
-/

namespace Noema.Workers

open Noema.Lib

/-- How a function ends: it returns, it raises an `Exception`, or it raises something else, as a
cancellation is. -/
inductive FuncEnd (V : Type) where
  | returned (value : V)
  | raised (e : PyExc)
  | aborted

/-- `TaskState`. -/
inductive TaskState where
  | pending
  | running
  | completed
  | failed
  deriving DecidableEq, Repr

/-- `WorkerTask`. A `none` is the `None` that `result` and `error` start with. -/
structure WorkerTask (V : Type) where
  id : String
  state : TaskState := .pending
  result : Option V := none
  error : Option PyExc := none
  done : Bool := false

/-- Where a call of `submit` is: at the queue, at its event, or at its end. -/
inductive SubmitPhase (V : Type) where
  | putting
  | waiting
  | returned (result : Option V)
  | raised (error : Option PyExc)
  | cancelled

/-- A call of `submit` with its task. -/
structure Submission (V : Type) where
  task : WorkerTask V
  phase : SubmitPhase V

/-- Where a worker is. -/
inductive WorkerPhase where
  | getting
  | running (task : Nat)
  | ended
  deriving DecidableEq, Repr

/-- What became of the functions. -/
inductive PoolRecord (V : Type) where
  | started (task : Nat)
  | ended (task : Nat) (ending : FuncEnd V)

/-- The settings of a pool. -/
structure PoolConfig where
  maxWorkers : Nat
  maxQueueSize : Int

/-- A `WorkerPool` with the calls of `submit`, by their number, and the record of the functions,
the last first. -/
structure WorkerPool (V : Type) where
  running : Bool
  /-- A call of `shutdown` has returned. -/
  stopped : Bool
  queue : List Nat
  tasks : String → Option Nat
  submissions : Nat → Option (Submission V)
  next : Nat
  workers : Nat → WorkerPhase
  record : List (PoolRecord V)

/-- The steps of the calls and the workers. -/
inductive PoolEvent (V : Type) where
  /-- A call of `submit`, with the id of its task. -/
  | submit (id : String)
  /-- The queue has room for the task of a call. -/
  | put (call : Nat)
  /-- A call wakes up. -/
  | resume (call : Nat)
  /-- The caller cancels a call. -/
  | cancel (call : Nat)
  | get (worker : Nat)
  | funcEnds (worker : Nat) (ending : FuncEnd V)
  /-- The cancellation reaches a worker at the queue. -/
  | workerStops (worker : Nat)
  | shutdown
  | shutdownReturns

/-- `Queue.full()`. -/
def PoolConfig.full (cfg : PoolConfig) (queue : List Nat) : Prop :=
  0 < cfg.maxQueueSize ∧ cfg.maxQueueSize ≤ queue.length

instance (cfg : PoolConfig) (queue : List Nat) : Decidable (cfg.full queue) :=
  inferInstanceAs (Decidable (_ ∧ _))

/-- A task after its function. -/
def WorkerTask.close {V : Type} (task : WorkerTask V) : FuncEnd V → WorkerTask V
  | .returned value => { task with result := some value, state := .completed, done := true }
  | .raised e => { task with error := some e, state := .failed, done := true }
  | .aborted => { task with done := true }

namespace WorkerPool

variable {V : Type} (cfg : PoolConfig) (s : WorkerPool V)

/-- A call is in another state. -/
def set (call : Nat) (sub : Submission V) : WorkerPool V :=
  { s with submissions := Function.update s.submissions call (some sub) }

/-- `submit` (pool.py:150) after the event is set. -/
def finish (call : Nat) (sub : Submission V) : WorkerPool V :=
  { s.set call
      { sub with
        phase :=
          if sub.task.state = .failed then .raised sub.task.error else .returned sub.task.result } with
    tasks := Function.update s.tasks sub.task.id none }

/-- A task goes into the queue, and its call to its event. -/
def enqueue (call : Nat) (sub : Submission V) : WorkerPool V :=
  let s := { s with queue := s.queue ++ [call] }
  if sub.task.done then s.finish call sub else s.set call { sub with phase := .waiting }

/-- `submit` up to its first `await`. -/
def submit (id : String) : WorkerPool V :=
  if s.running then
    let sub : Submission V := ⟨{ id }, .putting⟩
    let s' := { s.set s.next sub with
      tasks := Function.update s.tasks id (some s.next), next := s.next + 1 }
    if cfg.full s.queue then s' else s'.enqueue s.next sub
  else s

/-- A call of `submit` ends with the cancellation. The task stays in `_tasks` when it was at the
queue. -/
def cancel (call : Nat) (sub : Submission V) : Option (WorkerPool V) :=
  match sub.phase with
  | .putting => some (s.set call { sub with phase := .cancelled })
  | .waiting =>
    some { s.set call { sub with phase := .cancelled } with
      tasks := Function.update s.tasks sub.task.id none }
  | _ => none

/-- `_worker_loop` (pool.py:196) with a task, up to its function. -/
def run (worker call : Nat) (sub : Submission V) (rest : List Nat) : WorkerPool V :=
  { s.set call { sub with task := { sub.task with state := .running } } with
    queue := rest
    workers := Function.update s.workers worker (.running call)
    record := .started call :: s.record }

/-- `_worker_loop` after the function: the event is set in any case. Only an `Exception` is caught,
and a worker that goes on looks at `_running`. -/
def funcEnds (worker call : Nat) (sub : Submission V) (ending : FuncEnd V) : WorkerPool V :=
  { s.set call { sub with task := sub.task.close ending } with
    workers := Function.update s.workers worker
      (match ending with
        | .aborted => .ended
        | _ => if s.running then .getting else .ended)
    record := .ended call ending :: s.record }

/-- `shutdown` (pool.py:124) up to its `await`: the events of the tasks in `_tasks` are set. -/
def shutdown : WorkerPool V :=
  { s with
    running := false
    submissions := fun call => (s.submissions call).map fun sub =>
      if s.tasks sub.task.id = some call then { sub with task := { sub.task with done := true } }
      else sub }

/-- A step of the pool. After `shutdown` a worker at the queue gets its cancellation only. -/
def step : PoolEvent V → Option (WorkerPool V)
  | .submit id => some (s.submit cfg id)
  | .put call =>
    match s.submissions call with
    | some ⟨task, .putting⟩ =>
      -- `queue.put` waits for room
      if cfg.full s.queue then none else some (s.enqueue call ⟨task, .putting⟩)
    | _ => none
  | .resume call =>
    match s.submissions call with
    | some ⟨task, .waiting⟩ => if task.done then some (s.finish call ⟨task, .waiting⟩) else none
    | _ => none
  | .cancel call => (s.submissions call).bind (s.cancel call)
  | .get worker =>
    match s.workers worker, s.queue with
    | .getting, call :: rest =>
      if s.running then (s.submissions call).map fun sub => s.run worker call sub rest else none
    | _, _ => none
  | .funcEnds worker ending =>
    match s.workers worker with
    | .running call => (s.submissions call).map fun sub => s.funcEnds worker call sub ending
    | _ => none
  -- `worker.cancel()` of a worker that waits for a task
  | .workerStops worker =>
    if s.workers worker = .getting ∧ ¬ s.running then
      some { s with workers := Function.update s.workers worker .ended }
    else none
  | .shutdown => some s.shutdown
  | .shutdownReturns =>
    -- `shutdown` awaits the workers
    if ¬ s.running ∧ ∀ worker < cfg.maxWorkers, s.workers worker = .ended then
      some { s with stopped := true, tasks := fun _ => none }
    else none

end WorkerPool

/-- A pool after `start`. -/
def poolSystem (V : Type) (cfg : PoolConfig) : System (WorkerPool V) (PoolEvent V) where
  init :=
    { running := true
      stopped := false
      queue := []
      tasks := fun _ => none
      submissions := fun _ => none
      next := 0
      workers := fun worker => if worker < cfg.maxWorkers then .getting else .ended
      record := [] }
  step s := s.step cfg

end Noema.Workers
