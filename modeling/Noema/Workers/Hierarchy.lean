import Noema.Lib.PyRuntime
import Noema.Lib.System

/-!
# The worker hierarchy (`workers/hierarchy.py`)

`WorkerHierarchy.execute` runs `WorkerNode.process` on the root task. A node asks the decomposer for
subtasks, spawns a node for each of them and waits for all of these; without subtasks it asks the
executor. Every node but the root holds a permit of the semaphore from its start to its end, also
while it waits.

- `Phase`, `HierarchyState`: where the nodes are, and the free permits. A node is known by its
  position in the tree of tasks.
- `subtasks`: what a node spawns: at most so many, and none at the greatest depth.
- `split`, `Inner`: the tree of a task, as the callbacks make it, whatever a run has opened of it.

The semaphore serves the spawned nodes in the order in which they arrive, and they may arrive in any
order: any of them may be the next to get a permit. The callbacks are functions of their arguments,
and they return or raise. What a callback does while it runs is not modelled, so that a callback
that never returns is left out.
-/

namespace Noema.Workers

open Noema.Lib

/-- `HierarchyTask`, as the callbacks see it. Its id is its position: `i :: id` is the subtask `i`
of the task `id`. -/
structure HierarchyTask where
  id : List Nat
  description : String
  depth : Nat := 0
  parentId : Option (List Nat) := none
  deriving DecidableEq, Repr

/-- The results that the hierarchy makes itself. -/
class TaskResult (R : Type) where
  /-- `{"task": description, "status": "no_executor"}`. -/
  noExecutor : String → R
  /-- The list that `asyncio.gather` returns, with the exceptions as values. -/
  gathered : List (Except PyExc R) → R

/-- The settings and the callbacks of a call of `execute`. -/
structure WorkerHierarchy (R : Type) where
  decomposer : Option (HierarchyTask → Except PyExc (List String))
  executor : Option (HierarchyTask → Except PyExc R)
  aggregator : Option (HierarchyTask → List (Except PyExc R) → Except PyExc R)
  maxDepth : Nat
  maxChildren : Nat
  maxConcurrent : Nat
  one_le_maxDepth : 1 ≤ maxDepth
  one_le_maxChildren : 1 ≤ maxChildren
  one_le_maxConcurrent : 1 ≤ maxConcurrent

/-- Where a node is. -/
inductive Phase (R : Type) where
  /-- At the semaphore. -/
  | acquiring
  | decomposing
  | executing
  /-- In `asyncio.gather`, with a number of subtasks. -/
  | collecting (count : Nat)
  | aggregating (results : List (Except PyExc R))
  | done (result : Except PyExc R)

/-- A `WorkerNode` with its task. -/
structure Node (R : Type) where
  task : HierarchyTask
  phase : Phase R

/-- The nodes at their positions, and the free permits. -/
structure HierarchyState (R : Type) where
  nodes : List Nat → Option (Node R)
  free : Nat

/-- A node goes on: it gets a permit, a callback ends, or `asyncio.gather` does. -/
inductive HierarchyEvent where
  | acquire (id : List Nat)
  | decomposed (id : List Nat)
  | executed (id : List Nat)
  | joined (id : List Nat)
  | aggregated (id : List Nat)
  deriving DecidableEq, Repr

namespace HierarchyState

variable {R : Type} (s : HierarchyState R) (id : List Nat) (task : HierarchyTask)

/-- A node is in another phase. -/
def move (phase : Phase R) : HierarchyState R :=
  { s with nodes := Function.update s.nodes id (some ⟨task, phase⟩) }

/-- A node ends, and gives its permit back. -/
def finish (result : Except PyExc R) : HierarchyState R :=
  { s.move id task (.done result) with free := if id = [] then s.free else s.free + 1 }

/-- A node spawns its subtasks. -/
def spawn (subtasks : List HierarchyTask) : HierarchyState R :=
  { s.move id task (.collecting subtasks.length) with
    nodes
      | i :: parent =>
        if parent = id then subtasks[i]?.map fun subtask => ⟨subtask, .acquiring⟩
        else (s.move id task (.collecting subtasks.length)).nodes (i :: parent)
      | [] => (s.move id task (.collecting subtasks.length)).nodes [] }

/-- The results of the subtasks of a node, when all have ended. -/
def childResults (count : Nat) : Option (List (Except PyExc R)) :=
  (List.range count).mapM fun i => (s.nodes (i :: id)).bind fun node =>
    match node.phase with
    | .done result => some result
    | _ => none

/-- The root task has ended. -/
def Finished : Prop := ∃ task result, s.nodes [] = some ⟨task, .done result⟩

end HierarchyState

namespace WorkerHierarchy

variable {R : Type} (h : WorkerHierarchy R)

/-- The phase at the start of `process`. -/
def begin (task : HierarchyTask) : Phase R :=
  if h.decomposer.isSome ∧ task.depth < h.maxDepth then .decomposing else .executing

/-- The subtasks for the answer of the decomposer. -/
def subtasks (task : HierarchyTask) (descriptions : List String) : List HierarchyTask :=
  (descriptions.take h.maxChildren).mapIdx fun i description =>
    { id := i :: task.id, description, depth := task.depth + 1, parentId := some task.id }

/-- The answer of the decomposer. -/
def decompose (task : HierarchyTask) : Except PyExc (List String) :=
  match h.decomposer with
  | some decomposer => decomposer task
  | none => .ok []

/-- `process` (hierarchy.py:86) after the decomposer. -/
def decomposed (s : HierarchyState R) (id : List Nat) (task : HierarchyTask) : HierarchyState R :=
  match h.decompose task with
  | .error e => s.finish id task (.error e)
  | .ok descriptions =>
    if descriptions = [] then s.move id task .executing
    else s.spawn id task (h.subtasks task descriptions)

variable [TaskResult R]

/-- `_execute` (hierarchy.py:159). -/
def execute (task : HierarchyTask) : Except PyExc R :=
  match h.executor with
  | some executor => executor task
  | none => .ok (TaskResult.noExecutor task.description)

/-- The answer of the aggregator; without one it is the list of the results. -/
def aggregate (task : HierarchyTask) (results : List (Except PyExc R)) : Except PyExc R :=
  match h.aggregator with
  | some aggregator => aggregator task results
  | none => .ok (TaskResult.gathered results)

/-- `process` after `asyncio.gather`. -/
def joined (s : HierarchyState R) (id : List Nat) (task : HierarchyTask)
    (results : List (Except PyExc R)) : HierarchyState R :=
  if h.aggregator.isSome then s.move id task (.aggregating results)
  else s.finish id task (.ok (TaskResult.gathered results))

/-- A step of the hierarchy. -/
def step (s : HierarchyState R) : HierarchyEvent → Option (HierarchyState R)
  | .acquire id =>
    match s.nodes id with
    | some ⟨task, .acquiring⟩ =>
      -- any node at the semaphore may be the next one
      if 0 < s.free then some { s.move id task (h.begin task) with free := s.free - 1 } else none
    | _ => none
  | .decomposed id =>
    match s.nodes id with
    | some ⟨task, .decomposing⟩ => some (h.decomposed s id task)
    | _ => none
  | .executed id =>
    match s.nodes id with
    | some ⟨task, .executing⟩ => some (s.finish id task (h.execute task))
    | _ => none
  | .joined id =>
    match s.nodes id with
    -- `asyncio.gather` is over when all subtasks have ended
    | some ⟨task, .collecting count⟩ => (s.childResults id count).map (h.joined s id task)
    | _ => none
  | .aggregated id =>
    match s.nodes id with
    | some ⟨task, .aggregating results⟩ => some (s.finish id task (h.aggregate task results))
    | _ => none

/-- `execute` (hierarchy.py:233) on a description. -/
def system (description : String) : System (HierarchyState R) HierarchyEvent where
  init :=
    let root : HierarchyTask := { id := [], description }
    ⟨Function.update (fun _ => none) [] (some ⟨root, h.begin root⟩), h.maxConcurrent⟩
  step := h.step

end WorkerHierarchy

/-! ## The tree of a task -/

namespace WorkerHierarchy

variable {R : Type} (h : WorkerHierarchy R)

/-- The subtasks that a node spawns. -/
def split (task : HierarchyTask) : List HierarchyTask :=
  match h.begin task with
  | .decomposing =>
    match h.decompose task with
    | .ok descriptions => h.subtasks task descriptions
    | .error _ => []
  | _ => []

/-- The task at a position below the root task. -/
def taskAt (description : String) : List Nat → Option HierarchyTask
  | [] => some { id := [], description }
  | i :: id => (taskAt description id).bind fun task => (h.split task)[i]?

/-- The task at the position has subtasks. -/
def Inner (description : String) (id : List Nat) : Prop :=
  ∃ task, h.taskAt description id = some task ∧ h.split task ≠ []

end WorkerHierarchy

end Noema.Workers
