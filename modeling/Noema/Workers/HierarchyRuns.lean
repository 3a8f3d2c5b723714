import Noema.Lib.Opening
import Noema.Workers.Hierarchy

/-!
# Runs of the worker hierarchy

A node that collects keeps its permit until its subtasks have ended, and they need permits too.

- `Move`, `step_cases`: what a step is: a node gets a permit, goes on with it, spawns its subtasks,
  or ends.
- `HierarchyInv`: the nodes are those of the tree, as far as it was opened, and each permit is free
  or with one of them.
- `HierarchyInv.acquiring_below`: below a node that has not ended there is one at the semaphore, or
  a step is enabled; by induction on the depth that is left.
- `HierarchyInv.inner_of_stuck`: so when no step is enabled, all permits are with nodes that
  collect.
- `openedState`, `reachable_openedState`: when the tree has that many tasks with subtasks, a run can
  open them all, from the root on (`Lib.Opening`); `openedState_stuck`: no step is enabled then.
- **`deadlockFree_iff`**: in every reachable state in which the root task has not ended a step is
  enabled, if and only if fewer tasks than there are permits have subtasks, the root not counted.
  The tree may be infinite; the number is one of `ℕ∞`.
- `chain_deadlock`: one permit and two levels of subtasks.
-/

namespace Noema.Workers

open Noema.Lib

variable {R : Type}

/-- The node has a permit, or is the root. -/
def Phase.Holds : Phase R → Prop
  | .acquiring => False
  | .done _ => False
  | _ => True

/-- The node has not spawned anything. -/
def Phase.Fresh : Phase R → Prop
  | .acquiring => True
  | .decomposing => True
  | _ => False

/-! ## The tree -/

namespace WorkerHierarchy

variable {h : WorkerHierarchy R} {description : String} {task : HierarchyTask} {id : List Nat}

theorem begin_holds (h : WorkerHierarchy R) (task : HierarchyTask) : (h.begin task).Holds := by
  rw [begin]
  split
  · trivial
  · trivial

/-- Only a node that decomposes has subtasks. -/
theorem begin_of_split (hsplit : h.split task ≠ []) :
    h.begin task = .decomposing ∧ task.depth < h.maxDepth := by
  by_cases hbegin : h.decomposer.isSome ∧ task.depth < h.maxDepth
  · exact ⟨if_pos hbegin, hbegin.2⟩
  · rw [split, begin, if_neg hbegin] at hsplit
    exact absurd rfl hsplit

theorem split_of_begin (hbegin : h.begin task = .decomposing) {descriptions : List String}
    (hdecompose : h.decompose task = .ok descriptions) :
    h.split task = h.subtasks task descriptions := by
  rw [split, hbegin]
  dsimp only
  rw [hdecompose]

theorem subtasks_eq_nil_iff {descriptions : List String} :
    h.subtasks task descriptions = [] ↔ descriptions = [] := by
  rw [subtasks, List.mapIdx_eq_nil_iff, List.take_eq_nil_iff]
  exact or_iff_right (Nat.one_le_iff_ne_zero.mp h.one_le_maxChildren)

theorem mem_split {i : Nat} {subtask : HierarchyTask} (hmem : (h.split task)[i]? = some subtask) :
    subtask.id = i :: task.id ∧ subtask.depth = task.depth + 1 := by
  have hsplit : h.split task ≠ [] := by
    intro hnil
    rw [hnil] at hmem
    cases hmem
  rcases hdecompose : h.decompose task with e | descriptions
  · rw [split, (begin_of_split hsplit).1] at hsplit
    dsimp only at hsplit
    rw [hdecompose] at hsplit
    exact absurd rfl hsplit
  · rw [split_of_begin (begin_of_split hsplit).1 hdecompose, subtasks, List.getElem?_mapIdx] at hmem
    obtain ⟨description, -, rfl⟩ := Option.map_eq_some_iff.mp hmem
    exact ⟨rfl, rfl⟩

theorem taskAt_cons {i : Nat} (hparent : h.taskAt description id = some task) :
    h.taskAt description (i :: id) = (h.split task)[i]? := by
  rw [taskAt, hparent, Option.bind_some]

/-- A task is as deep in the tree as its position is long, and no deeper than the bound. -/
theorem taskAt_depth (hat : h.taskAt description id = some task) :
    task.id = id ∧ task.depth = id.length ∧ id.length ≤ h.maxDepth := by
  induction id generalizing task with
  | nil =>
    cases hat
    exact ⟨rfl, rfl, Nat.zero_le _⟩
  | cons i id ih =>
    obtain ⟨parent, hparent, hmem⟩ := Option.bind_eq_some_iff.mp hat
    obtain ⟨hid, hdepth, -⟩ := ih hparent
    obtain ⟨hid', hdepth'⟩ := mem_split hmem
    have hlt : parent.depth < h.maxDepth := by
      refine (begin_of_split (h := h) fun hnil => ?_).2
      rw [hnil] at hmem
      cases hmem
    refine ⟨by rw [hid', hid], by rw [hdepth', hdepth, List.length_cons], ?_⟩
    rw [List.length_cons, ← hdepth]
    exact hlt

/-- The parent of a task has subtasks. -/
theorem Inner.parent {i : Nat} (hinner : h.Inner description (i :: id)) :
    h.Inner description id := by
  obtain ⟨task, hat, -⟩ := hinner
  obtain ⟨parent, hparent, hmem⟩ := Option.bind_eq_some_iff.mp hat
  refine ⟨parent, hparent, fun hnil => ?_⟩
  rw [hnil] at hmem
  cases hmem

theorem Inner.root (hinner : h.Inner description id) : h.Inner description [] := by
  induction id with
  | nil => exact hinner
  | cons i id ih => exact ih hinner.parent

end WorkerHierarchy

/-! ## Steps -/

/-- What a step does: a node gets a permit, goes on with it, spawns its subtasks, or ends. -/
inductive Move (h : WorkerHierarchy R) (s : HierarchyState R) : HierarchyState R → Prop
  | acquire {id : List Nat} {task : HierarchyTask} (node : s.nodes id = some ⟨task, .acquiring⟩)
      (free : 0 < s.free) :
      Move h s { s.move id task (h.begin task) with free := s.free - 1 }
  | goOn {id : List Nat} {task : HierarchyTask} {phase phase' : Phase R}
      (node : s.nodes id = some ⟨task, phase⟩) (holds : phase.Holds) (holds' : phase'.Holds)
      (used : ¬ phase'.Fresh) (notCollecting : ∀ count, phase' ≠ .collecting count) :
      Move h s (s.move id task phase')
  | spawn {id : List Nat} {task : HierarchyTask} (node : s.nodes id = some ⟨task, .decomposing⟩)
      (split : h.split task ≠ []) : Move h s (s.spawn id task (h.split task))
  | finish {id : List Nat} {task : HierarchyTask} {phase : Phase R}
      (node : s.nodes id = some ⟨task, phase⟩) (holds : phase.Holds)
      (result : Except PyExc R) : Move h s (s.finish id task result)

section Step

variable {h : WorkerHierarchy R} {s s' : HierarchyState R} {id : List Nat} {task : HierarchyTask}

theorem move_decomposed (hnode : s.nodes id = some ⟨task, .decomposing⟩)
    (hbegin : h.begin task = .decomposing) : Move h s (h.decomposed s id task) := by
  rw [WorkerHierarchy.decomposed]
  rcases hdecompose : h.decompose task with e | descriptions
  · exact .finish hnode trivial _
  · dsimp only
    split
    · exact .goOn hnode trivial trivial (fun hfresh => hfresh) fun count heq => by cases heq
    next hne =>
      have hsplit := WorkerHierarchy.split_of_begin hbegin hdecompose
      rw [← hsplit]
      refine .spawn hnode fun hnil => hne ?_
      rwa [hsplit, WorkerHierarchy.subtasks_eq_nil_iff] at hnil

variable [TaskResult R]

theorem move_joined {count : Nat} (hnode : s.nodes id = some ⟨task, .collecting count⟩)
    (results : List (Except PyExc R)) : Move h s (h.joined s id task results) := by
  rw [WorkerHierarchy.joined]
  split
  · exact .goOn hnode trivial trivial (fun hfresh => hfresh) fun count heq => by cases heq
  · exact .finish hnode trivial _

/-- What a step of a node can be. -/
theorem step_cases {e : HierarchyEvent} (hstep : h.step s e = some s') :
    (∃ id task, s.nodes id = some ⟨task, .acquiring⟩ ∧ 0 < s.free ∧
      s' = { s.move id task (h.begin task) with free := s.free - 1 }) ∨
    (∃ id task, s.nodes id = some ⟨task, .decomposing⟩ ∧ s' = h.decomposed s id task) ∨
    (∃ id task, s.nodes id = some ⟨task, .executing⟩ ∧ s' = s.finish id task (h.execute task)) ∨
    (∃ id task count results, s.nodes id = some ⟨task, .collecting count⟩ ∧
      s.childResults id count = some results ∧ s' = h.joined s id task results) ∨
    ∃ id task results, s.nodes id = some ⟨task, .aggregating results⟩ ∧
      s' = s.finish id task (h.aggregate task results) := by
  cases e with
  | acquire id =>
    rw [WorkerHierarchy.step] at hstep
    split at hstep
    next task hnode =>
      obtain ⟨hfree, heq⟩ := Option.ite_none_right_eq_some.mp hstep
      exact .inl ⟨id, task, hnode, hfree, (Option.some.inj heq).symm⟩
    next => cases hstep
  | decomposed id =>
    rw [WorkerHierarchy.step] at hstep
    split at hstep
    next task hnode => exact .inr (.inl ⟨id, task, hnode, (Option.some.inj hstep).symm⟩)
    next => cases hstep
  | executed id =>
    rw [WorkerHierarchy.step] at hstep
    split at hstep
    next task hnode => exact .inr (.inr (.inl ⟨id, task, hnode, (Option.some.inj hstep).symm⟩))
    next => cases hstep
  | joined id =>
    rw [WorkerHierarchy.step] at hstep
    split at hstep
    next task count hnode =>
      obtain ⟨results, hresults, heq⟩ := Option.map_eq_some_iff.mp hstep
      exact .inr (.inr (.inr (.inl ⟨id, task, count, results, hnode, hresults, heq.symm⟩)))
    next => cases hstep
  | aggregated id =>
    rw [WorkerHierarchy.step] at hstep
    split at hstep
    next task results hnode =>
      exact .inr (.inr (.inr (.inr ⟨id, task, results, hnode, (Option.some.inj hstep).symm⟩)))
    next => cases hstep

/-- A step is a move. -/
theorem move_of_step
    (hdecomposing : ∀ id task, s.nodes id = some ⟨task, .decomposing⟩ →
      h.begin task = .decomposing)
    {e : HierarchyEvent} (hstep : h.step s e = some s') : Move h s s' := by
  obtain ⟨id, task, hnode, hfree, rfl⟩ | ⟨id, task, hnode, rfl⟩ | ⟨id, task, hnode, rfl⟩ |
    ⟨id, task, count, results, hnode, -, rfl⟩ | ⟨id, task, results, hnode, rfl⟩ := step_cases hstep
  · exact .acquire hnode hfree
  · exact move_decomposed hnode (hdecomposing id task hnode)
  · exact .finish hnode trivial _
  · exact move_joined hnode results
  · exact .finish hnode trivial _

end Step

/-! ## The permits -/

section Permits

variable {h : WorkerHierarchy R} {description : String} {s s' : HierarchyState R}
  {id : List Nat} {task : HierarchyTask} {phase : Phase R}

theorem nodes_move (s : HierarchyState R) (id : List Nat) (task : HierarchyTask) (phase : Phase R) :
    (s.move id task phase).nodes id = some ⟨task, phase⟩ :=
  Function.update_self ..

theorem nodes_move_of_ne {id' : List Nat} (hne : id' ≠ id) (task : HierarchyTask)
    (phase : Phase R) : (s.move id task phase).nodes id' = s.nodes id' :=
  Function.update_of_ne hne ..

/-- There is a node that has a permit, or is the root. -/
def HoldsAt (s : HierarchyState R) (id : List Nat) : Prop :=
  ∃ node, s.nodes id = some node ∧ node.phase.Holds

theorem holdsAt_of_node (hnode : s.nodes id = some ⟨task, phase⟩) :
    HoldsAt s id ↔ phase.Holds := by
  constructor
  · rintro ⟨node, hnode', hholds⟩
    rw [hnode] at hnode'
    cases hnode'
    exact hholds
  · exact fun hholds => ⟨_, hnode, hholds⟩

theorem holdsAt_congr (heq : s'.nodes id = s.nodes id) : HoldsAt s' id ↔ HoldsAt s id := by
  rw [HoldsAt, HoldsAt, heq]

/-- The permits that are not free are with the nodes that hold one. -/
def Permits (h : WorkerHierarchy R) (s : HierarchyState R) : Prop :=
  ∃ holders : Finset (List Nat), (∀ id, id ∈ holders ↔ id ≠ [] ∧ HoldsAt s id) ∧
    s.free + holders.card = h.maxConcurrent

theorem Permits.congr (hs : Permits h s) (hfree : s'.free = s.free)
    (hholds : ∀ id, HoldsAt s' id ↔ HoldsAt s id) : Permits h s' := by
  obtain ⟨holders, hmem, hcard⟩ := hs
  refine ⟨holders, fun id => ?_, by rw [hfree, hcard]⟩
  rw [hmem, hholds]

theorem Permits.goOn (hs : Permits h s) (hnode : s.nodes id = some ⟨task, phase⟩)
    (hholds : phase.Holds) {phase' : Phase R} (hholds' : phase'.Holds) :
    Permits h (s.move id task phase') := by
  refine hs.congr rfl ?_
  intro id'
  by_cases heq : id' = id
  · subst heq
    rw [holdsAt_of_node hnode, holdsAt_of_node (nodes_move ..)]
    exact iff_of_true hholds' hholds
  · exact holdsAt_congr (nodes_move_of_ne heq ..)

theorem Permits.acquire (hs : Permits h s) (hroot : id ≠ [])
    (hnode : s.nodes id = some ⟨task, .acquiring⟩) (hfree : 0 < s.free) (hholds : phase.Holds) :
    Permits h { s.move id task phase with free := s.free - 1 } := by
  obtain ⟨holders, hmem, hcard⟩ := hs
  have hnew : id ∉ holders := fun hin => (holdsAt_of_node hnode).mp ((hmem id).mp hin).2
  refine ⟨insert id holders, fun id' => ?_, ?_⟩
  · rw [Finset.mem_insert]
    by_cases heq : id' = id
    · subst heq
      exact iff_of_true (.inl rfl) ⟨hroot, _, nodes_move .., hholds⟩
    · rw [or_iff_right heq, hmem]
      exact and_congr_right' (holdsAt_congr (nodes_move_of_ne heq ..)).symm
  · rw [Finset.card_insert_of_notMem hnew]
    show s.free - 1 + (holders.card + 1) = h.maxConcurrent
    omega

theorem Permits.finish (hs : Permits h s) (hnode : s.nodes id = some ⟨task, phase⟩)
    (hholds : phase.Holds) (result : Except PyExc R) : Permits h (s.finish id task result) := by
  obtain ⟨holders, hmem, hcard⟩ := hs
  refine ⟨holders.erase id, fun id' => ?_, ?_⟩
  · rw [Finset.mem_erase, hmem]
    by_cases heq : id' = id
    · subst heq
      refine iff_of_false (fun hin => hin.1 rfl) ?_
      intro hin
      exact (holdsAt_of_node (nodes_move s id' task (.done result))).mp hin.2
    · rw [and_iff_right heq]
      exact and_congr_right' (holdsAt_congr (nodes_move_of_ne heq ..)).symm
  · show (if id = [] then s.free else s.free + 1) + (holders.erase id).card = h.maxConcurrent
    split
    next hroot =>
      rw [Finset.erase_eq_of_notMem fun hin => ((hmem id).mp hin).1 hroot, hcard]
    next hroot =>
      have hin : id ∈ holders := (hmem id).mpr ⟨hroot, _, hnode, hholds⟩
      have hpos := Finset.card_pos.mpr ⟨id, hin⟩
      rw [Finset.card_erase_of_mem hin]
      omega

end Permits

/-! ## The invariant -/

/-- The nodes are those of the tree, as far as it was opened, and each permit is free or with one
of them. -/
structure HierarchyInv (h : WorkerHierarchy R) (description : String) (s : HierarchyState R) :
    Prop where
  tasks : ∀ id node, s.nodes id = some node → h.taskAt description id = some node.task
  root : ∃ node, s.nodes [] = some node ∧ node.phase ≠ .acquiring
  decomposing : ∀ id task, s.nodes id = some ⟨task, .decomposing⟩ → h.begin task = .decomposing
  /-- A node that has spawned nothing has no nodes below it. -/
  fresh : ∀ id, (∀ node, s.nodes id = some node → node.phase.Fresh) → ∀ i, s.nodes (i :: id) = none
  collecting : ∀ id task count, s.nodes id = some ⟨task, .collecting count⟩ →
    h.split task ≠ [] ∧ ∀ i < count, s.nodes (i :: id) ≠ none
  permits : Permits h s

section Inv

variable {h : WorkerHierarchy R} {description : String} {s s' : HierarchyState R}
  {id : List Nat} {task : HierarchyTask} {phase : Phase R}

/-- A node that is there goes to another phase, which is neither of the two with subtasks to
come. -/
theorem HierarchyInv.move (hs : HierarchyInv h description s)
    (hnode : s.nodes id = some ⟨task, phase⟩) {phase' : Phase R}
    (hdecomposing : phase' = .decomposing → h.begin task = .decomposing)
    (hfresh : phase'.Fresh → phase.Fresh) (hacquiring : phase' ≠ .acquiring)
    (hcollecting : ∀ count, phase' ≠ .collecting count) {free : Nat}
    (hpermits : Permits h { s.move id task phase' with free }) :
    HierarchyInv h description { s.move id task phase' with free } := by
  have hself : (s.move id task phase').nodes id = some ⟨task, phase'⟩ := nodes_move ..
  have hother : ∀ id', id' ≠ id → (s.move id task phase').nodes id' = s.nodes id' :=
    fun id' hne => nodes_move_of_ne hne ..
  have hnone : ∀ id', s.nodes id' ≠ none ↔ (s.move id task phase').nodes id' ≠ none := by
    intro id'
    by_cases heq : id' = id
    · subst heq
      rw [hself, hnode]
      exact iff_of_true (Option.some_ne_none _) (Option.some_ne_none _)
    · rw [hother id' heq]
  -- only the phase of the node changes, so each field is the old one away from it
  refine { tasks := fun id' node hnode' => ?_, root := ?_, decomposing := fun id' task' hnode' => ?_,
           fresh := fun id' hall i => ?_, collecting := fun id' task' count hnode' => ?_,
           permits := hpermits }
  · by_cases heq : id' = id
    · subst heq
      rw [hself] at hnode'
      cases hnode'
      exact hs.tasks id' ⟨task, phase⟩ hnode
    · rw [hother id' heq] at hnode'
      exact hs.tasks id' node hnode'
  · obtain ⟨node, hroot, hne⟩ := hs.root
    by_cases heq : [] = id
    · subst heq
      exact ⟨_, hself, hacquiring⟩
    · exact ⟨node, (hother [] heq).trans hroot, hne⟩
  · by_cases heq : id' = id
    · subst heq
      rw [hself] at hnode'
      cases hnode'
      exact hdecomposing rfl
    · rw [hother id' heq] at hnode'
      exact hs.decomposing id' task' hnode'
  · have hbelow : s.nodes (i :: id') = none := by
      refine hs.fresh id' (fun node hnode' => ?_) i
      by_cases heq : id' = id
      · subst heq
        rw [hnode] at hnode'
        cases hnode'
        exact hfresh (hall _ hself)
      · exact hall node ((hother id' heq).trans hnode')
    by_contra hsome
    exact (hnone (i :: id')).mpr hsome hbelow
  · by_cases heq : id' = id
    · subst heq
      rw [hself] at hnode'
      cases hnode'
      exact absurd rfl (hcollecting count)
    · rw [hother id' heq] at hnode'
      obtain ⟨hsplit, hchildren⟩ := hs.collecting id' task' count hnode'
      exact ⟨hsplit, fun i hi => (hnone (i :: id')).mp (hchildren i hi)⟩

theorem nodes_spawn_child (s : HierarchyState R) (id : List Nat) (task : HierarchyTask)
    (subtasks : List HierarchyTask) (i : Nat) : (s.spawn id task subtasks).nodes (i :: id) =
      subtasks[i]?.map fun subtask => ⟨subtask, .acquiring⟩ :=
  if_pos rfl

theorem nodes_spawn_of_not_child {id' : List Nat} (hchild : ∀ i, id' ≠ i :: id)
    (subtasks : List HierarchyTask) : (s.spawn id task subtasks).nodes id' =
      (s.move id task (.collecting subtasks.length)).nodes id' := by
  cases id' with
  | nil => rfl
  | cons i parent =>
    refine if_neg fun heq => hchild i ?_
    rw [heq]

theorem nodes_spawn_self (s : HierarchyState R) (id : List Nat) (task : HierarchyTask)
    (subtasks : List HierarchyTask) :
    (s.spawn id task subtasks).nodes id = some ⟨task, .collecting subtasks.length⟩ := by
  rw [nodes_spawn_of_not_child fun i heq => List.cons_ne_self i id heq.symm]
  exact nodes_move ..

theorem nodes_spawn_of_ne {id' : List Nat} (hne : id' ≠ id) (hchild : ∀ i, id' ≠ i :: id)
    (subtasks : List HierarchyTask) : (s.spawn id task subtasks).nodes id' = s.nodes id' := by
  rw [nodes_spawn_of_not_child hchild]
  exact nodes_move_of_ne hne ..

/-- A node spawns its subtasks. -/
theorem HierarchyInv.spawn (hs : HierarchyInv h description s)
    (hnode : s.nodes id = some ⟨task, .decomposing⟩) (hsplit : h.split task ≠ []) :
    HierarchyInv h description (s.spawn id task (h.split task)) := by
  have hchildren : ∀ i, s.nodes (i :: id) = none := by
    refine hs.fresh id ?_
    intro node hnode'
    rw [hnode] at hnode'
    cases hnode'
    trivial
  have hself := nodes_spawn_self s id task (h.split task)
  have hchild := nodes_spawn_child s id task (h.split task)
  have hother : ∀ id', id' ≠ id → (∀ i, id' ≠ i :: id) →
      (s.spawn id task (h.split task)).nodes id' = s.nodes id' :=
    fun id' hne hnot => nodes_spawn_of_ne hne hnot _
  -- A position is one of the new ones, that of the node, or another one.
  have hcases : ∀ id', (∃ i, id' = i :: id) ∨ id' = id ∨ id' ≠ id ∧ ∀ i, id' ≠ i :: id := by
    intro id'
    by_cases hnew : ∃ i, id' = i :: id
    · exact .inl hnew
    · by_cases heq : id' = id
      · exact .inr (.inl heq)
      · exact .inr (.inr ⟨heq, fun i hi => hnew ⟨i, hi⟩⟩)
  have hkept : ∀ id', s.nodes id' ≠ none →
      (s.spawn id task (h.split task)).nodes id' ≠ none := by
    intro id' hsome
    rcases hcases id' with ⟨i, rfl⟩ | rfl | ⟨hne, hnot⟩
    · exact absurd (hchildren i) hsome
    · rw [hself]
      exact Option.some_ne_none _
    · rwa [hother id' hne hnot]
  refine { tasks := fun id' node hnode' => ?_, root := ?_, decomposing := fun id' task' hnode' => ?_,
           fresh := fun id' hall i => ?_, collecting := fun id' task' count hnode' => ?_,
           permits := hs.permits.congr rfl fun id' => ?_ }
  · rcases hcases id' with ⟨i, rfl⟩ | rfl | ⟨hne, hnot⟩
    · rw [hchild] at hnode'
      obtain ⟨subtask, hmem, rfl⟩ := Option.map_eq_some_iff.mp hnode'
      rw [WorkerHierarchy.taskAt_cons (hs.tasks id _ hnode), hmem]
    · rw [hself] at hnode'
      cases hnode'
      exact hs.tasks id' ⟨task, .decomposing⟩ hnode
    · rw [hother id' hne hnot] at hnode'
      exact hs.tasks id' node hnode'
  · obtain ⟨node, hroot, hne⟩ := hs.root
    by_cases heq : [] = id
    · subst heq
      exact ⟨_, hself, fun heq => by cases heq⟩
    · exact ⟨node, (hother [] heq fun i hi => by cases hi).trans hroot, hne⟩
  · rcases hcases id' with ⟨i, rfl⟩ | rfl | ⟨hne, hnot⟩
    · rw [hchild] at hnode'
      obtain ⟨subtask, -, heq⟩ := Option.map_eq_some_iff.mp hnode'
      cases heq
    · rw [hself] at hnode'
      cases hnode'
    · rw [hother id' hne hnot] at hnode'
      exact hs.decomposing id' task' hnode'
  · rcases hcases id' with ⟨j, rfl⟩ | rfl | ⟨hne, hnot⟩
    · rw [hother]
      · refine hs.fresh (j :: id) (fun node hnode' => ?_) i
        rw [hchildren] at hnode'
        cases hnode'
      · intro heq
        have hlength := congrArg List.length heq
        rw [List.length_cons, List.length_cons] at hlength
        omega
      · exact fun k heq => List.cons_ne_self j id (List.cons.inj heq).2
    · exact False.elim (hall _ hself)
    · have hbelow : s.nodes (i :: id') = none := by
        refine hs.fresh id' (fun node hnode' => ?_) i
        exact hall node ((hother id' hne hnot).trans hnode')
      rw [hother, hbelow]
      · rintro rfl
        rw [hnode] at hbelow
        cases hbelow
      · exact fun k heq => hne (List.cons.inj heq).2
  · rcases hcases id' with ⟨i, rfl⟩ | rfl | ⟨hne, hnot⟩
    · rw [hchild] at hnode'
      obtain ⟨subtask, -, heq⟩ := Option.map_eq_some_iff.mp hnode'
      cases heq
    · rw [hself] at hnode'
      cases hnode'
      refine ⟨hsplit, fun i hi => ?_⟩
      rw [hchild, List.getElem?_eq_getElem hi]
      exact Option.some_ne_none _
    · rw [hother id' hne hnot] at hnode'
      obtain ⟨hsplit', hbelow⟩ := hs.collecting id' task' count hnode'
      exact ⟨hsplit', fun i hi => hkept _ (hbelow i hi)⟩
  · rcases hcases id' with ⟨i, rfl⟩ | rfl | ⟨hne, hnot⟩
    · refine iff_of_false ?_ ?_
      · rintro ⟨node, hnode', hholds⟩
        rw [hchild] at hnode'
        obtain ⟨subtask, -, rfl⟩ := Option.map_eq_some_iff.mp hnode'
        exact hholds
      · rintro ⟨node, hnode', -⟩
        rw [hchildren] at hnode'
        cases hnode'
    · rw [holdsAt_of_node hself, holdsAt_of_node hnode]
      exact iff_of_true trivial trivial
    · exact holdsAt_congr (hother id' hne hnot)

theorem begin_ne (h : WorkerHierarchy R) (task : HierarchyTask) :
    h.begin task ≠ .acquiring ∧ ∀ count, h.begin task ≠ .collecting count := by
  rw [WorkerHierarchy.begin]
  split
  · exact ⟨fun heq => (by cases heq), fun count heq => by cases heq⟩
  · exact ⟨fun heq => (by cases heq), fun count heq => by cases heq⟩

theorem hierarchyInv_of_move (hs : HierarchyInv h description s) (hmove : Move h s s') :
    HierarchyInv h description s' := by
  cases hmove with
  | @acquire id task hnode hfree =>
    have hroot : id ≠ [] := by
      rintro rfl
      -- the root never is at the semaphore
      obtain ⟨root, hroot, hne⟩ := hs.root
      rw [hroot] at hnode
      cases hnode
      exact hne rfl
    exact hs.move hnode (fun heq => heq) (fun _ => trivial) (begin_ne h task).1
      (begin_ne h task).2 (hs.permits.acquire hroot hnode hfree (h.begin_holds task))
  | @goOn id task phase phase' hnode hholds hholds' hused hcollecting =>
    refine hs.move hnode (fun heq => ?_) (fun hfresh => absurd hfresh hused) (fun heq => ?_)
      hcollecting (hs.permits.goOn hnode hholds hholds')
    · subst heq
      exact absurd trivial hused
    · subst heq
      exact hholds'
  | spawn hnode hsplit => exact hs.spawn hnode hsplit
  | finish hnode hholds result =>
    refine hs.move hnode (fun heq => ?_) (fun hfresh => ?_) (fun heq => ?_) (fun count heq => ?_)
      (hs.permits.finish hnode hholds result)
    · cases heq
    · exact False.elim hfresh
    · cases heq
    · cases heq

variable [TaskResult R]

theorem hierarchyInv_init (h : WorkerHierarchy R) (description : String) :
    HierarchyInv h description (h.system description).init := by
  have hroot : (h.system description).init.nodes [] =
      some ⟨{ id := [], description }, h.begin { id := [], description }⟩ := rfl
  have hother : ∀ id, id ≠ [] → (h.system description).init.nodes id = none :=
    fun id hne => dif_neg hne
  -- the root is the only node
  refine { tasks := fun id node hnode => ?_, root := ⟨_, hroot, (begin_ne h _).1⟩,
           decomposing := fun id task hnode => ?_,
           fresh := fun id _ i => hother _ (List.cons_ne_nil i id),
           collecting := fun id task count hnode => ?_,
           permits := ⟨∅, fun id => ?_, rfl⟩ }
  · by_cases heq : id = []
    · subst heq
      rw [hroot] at hnode
      cases hnode
      rfl
    · rw [hother id heq] at hnode
      cases hnode
  · by_cases heq : id = []
    · subst heq
      rw [hroot] at hnode
      injection hnode with hnode
      injection hnode with htask hphase
      rw [← htask, hphase]
    · rw [hother id heq] at hnode
      cases hnode
  · by_cases heq : id = []
    · subst heq
      rw [hroot] at hnode
      injection hnode with hnode
      injection hnode with htask hphase
      exact absurd hphase ((begin_ne h _).2 count)
    · rw [hother id heq] at hnode
      cases hnode
  · refine iff_of_false (Finset.notMem_empty id) ?_
    rintro ⟨hne, node, hnode, -⟩
    rw [hother id hne] at hnode
    cases hnode

theorem hierarchyInv_reachable (hs : (h.system description).Reachable s) :
    HierarchyInv h description s := by
  refine hs.invariant (hierarchyInv_init h description) ?_
  intro s e s' hs hstep
  exact hierarchyInv_of_move hs (move_of_step hs.decomposing hstep)

/-! ## Progress -/

/-- A step is enabled. -/
def Enabled (h : WorkerHierarchy R) (s : HierarchyState R) : Prop :=
  ∃ e s', h.step s e = some s'

/-- A node with a permit goes on, unless it waits for its subtasks. -/
theorem enabled_of_holds (hnode : s.nodes id = some ⟨task, phase⟩) (hholds : phase.Holds) :
    Enabled h s ∨ ∃ count, phase = .collecting count := by
  cases phase with
  | acquiring => exact False.elim hholds
  | decomposing => exact .inl ⟨.decomposed id, _, by rw [WorkerHierarchy.step, hnode]⟩
  | executing => exact .inl ⟨.executed id, _, by rw [WorkerHierarchy.step, hnode]⟩
  | collecting count => exact .inr ⟨count, rfl⟩
  | aggregating results => exact .inl ⟨.aggregated id, _, by rw [WorkerHierarchy.step, hnode]⟩
  | done result => exact False.elim hholds

/-- The join is enabled when all subtasks have ended. -/
theorem enabled_of_children {count : Nat} (hnode : s.nodes id = some ⟨task, .collecting count⟩)
    (hdone : ∀ i < count, ∃ child result, s.nodes (i :: id) = some child ∧
      child.phase = .done result) : Enabled h s := by
  have hresults : ∃ results, s.childResults id count = some results := by
    refine exists_mapM_iff.mpr ?_
    intro i hi
    obtain ⟨child, result, hchild, hphase⟩ := hdone i (List.mem_range.mp hi)
    exact ⟨result, by rw [hchild, Option.bind_some, hphase]⟩
  obtain ⟨results, hresults⟩ := hresults
  refine ⟨.joined id, h.joined s id task results, ?_⟩
  rw [WorkerHierarchy.step, hnode]
  dsimp only
  rw [hresults, Option.map_some]

/-- Below a node that has not ended there is one at the semaphore, or a step is enabled. -/
theorem HierarchyInv.acquiring_below (hs : HierarchyInv h description s) {node : Node R}
    (hnode : s.nodes id = some node) (hunfinished : ∀ result, node.phase ≠ .done result) :
    Enabled h s ∨ ∃ id' task, s.nodes id' = some ⟨task, .acquiring⟩ := by
  -- The depth of the tree bounds the way down.
  obtain ⟨n, hn⟩ : ∃ n, h.maxDepth < n + id.length := ⟨h.maxDepth + 1, by omega⟩
  induction n generalizing id node with
  | zero =>
    have hdepth := (WorkerHierarchy.taskAt_depth (hs.tasks id node hnode)).2.2
    omega
  | succ n ih =>
    obtain ⟨task, phase⟩ := node
    by_cases hacquiring : phase = .acquiring
    · subst hacquiring
      exact .inr ⟨id, task, hnode⟩
    have hholds : phase.Holds := by
      cases phase with
      | acquiring => exact hacquiring rfl
      | done result => exact hunfinished result rfl
      | _ => trivial
    rcases enabled_of_holds hnode hholds with henabled | ⟨count, rfl⟩
    · exact .inl henabled
    · by_cases hdone : ∀ i < count, ∃ child result, s.nodes (i :: id) = some child ∧
          child.phase = .done result
      · exact .inl (enabled_of_children hnode hdone)
      · push Not at hdone
        obtain ⟨i, hi, hchild⟩ := hdone
        obtain ⟨child, hthere⟩ := Option.ne_none_iff_exists'.mp
          ((hs.collecting id task count hnode).2 i hi)
        exact ih hthere (fun result => hchild child result hthere) (by rw [List.length_cons]; omega)

/-- A state without an enabled step in which the root task has not ended has all permits with
nodes that wait for their subtasks. -/
theorem HierarchyInv.inner_of_stuck (hs : HierarchyInv h description s) (hroot : ¬ s.Finished)
    (hstuck : ¬ Enabled h s) : (h.maxConcurrent : ℕ∞) ≤ {id | id ≠ [] ∧ h.Inner description id}.encard := by
  obtain ⟨root, hnode, -⟩ := hs.root
  have hunfinished : ∀ result, root.phase ≠ .done result := by
    rintro result hphase
    exact hroot ⟨root.task, result, by rw [hnode, ← hphase]⟩
  obtain ⟨id, task, hacquiring⟩ := (hs.acquiring_below hnode hunfinished).resolve_left hstuck
  -- a node waits at the semaphore, so no permit is free
  have hfree : s.free = 0 := by
    by_contra hfree
    refine hstuck ⟨.acquire id, { s.move id task (h.begin task) with free := s.free - 1 }, ?_⟩
    rw [WorkerHierarchy.step, hacquiring]
    exact if_pos (Nat.pos_of_ne_zero hfree)
  obtain ⟨holders, hmem, hcard⟩ := hs.permits
  rw [hfree, Nat.zero_add] at hcard
  rw [← hcard, ← Set.encard_coe_eq_coe_finsetCard]
  refine Set.encard_le_encard ?_
  intro id' hin
  obtain ⟨hne, ⟨task', phase⟩, hnode', hholds⟩ := (hmem id').mp hin
  obtain ⟨count, rfl⟩ := (enabled_of_holds hnode' hholds).resolve_left hstuck
  exact ⟨hne, task', hs.tasks id' _ hnode', (hs.collecting id' task' count hnode').1⟩

end Inv

/-! ## The way into a deadlock -/

section Opened

variable {h : WorkerHierarchy R} {description : String} {opened : List (List Nat)}
  {id : List Nat} {task : HierarchyTask}

/-- The state in which the root and the nodes at some positions have spawned their subtasks. -/
def openedState (h : WorkerHierarchy R) (description : String) (opened : List (List Nat)) :
    HierarchyState R where
  nodes id :=
    if id = [] ∨ id ∈ opened then
      (h.taskAt description id).map fun task => ⟨task, .collecting (h.split task).length⟩
    else
      match id with
      | [] => none
      | _ :: parent =>
        if parent = [] ∨ parent ∈ opened then
          (h.taskAt description id).map fun task => ⟨task, .acquiring⟩
        else none
  free := h.maxConcurrent - opened.length

/-- Only the opened nodes collect, and the others are at the semaphore. -/
theorem openedState_phase {node : Node R}
    (hnode : (openedState h description opened).nodes id = some node) :
    node.phase = .acquiring ∨ (id = [] ∨ id ∈ opened) ∧
      h.taskAt description id = some node.task ∧
        node.phase = .collecting (h.split node.task).length := by
  rw [openedState] at hnode
  dsimp only at hnode
  split at hnode
  next hopen =>
    obtain ⟨task, hat, rfl⟩ := Option.map_eq_some_iff.mp hnode
    exact .inr ⟨hopen, hat, rfl⟩
  next =>
    cases id with
    | nil => cases hnode
    | cons i parent =>
      dsimp only at hnode
      split at hnode
      · obtain ⟨task, -, rfl⟩ := Option.map_eq_some_iff.mp hnode
        exact .inl rfl
      · cases hnode

/-- A node of the opening is at the semaphore, or collects the results of its subtasks. -/
theorem openedState_waits (hroot : h.Inner description [])
    (hopening : Opening {id | id ≠ [] ∧ h.Inner description id} opened) {node : Node R}
    (hnode : (openedState h description opened).nodes id = some node) :
    node.phase = .acquiring ∨ h.split node.task ≠ [] ∧
      node.phase = .collecting (h.split node.task).length := by
  refine (openedState_phase hnode).imp_right ?_
  rintro ⟨hopen, hat, hcollecting⟩
  have hinner : h.Inner description id := by
    rcases hopen with rfl | hin
    · exact hroot
    · exact (hopening.subset id hin).2
  obtain ⟨task, hat', hsplit⟩ := hinner
  rw [hat] at hat'
  cases hat'
  exact ⟨hsplit, hcollecting⟩

/-- The next position to open is at the semaphore. -/
theorem openedState_child {i : Nat} (hparent : id = [] ∨ id ∈ opened) (hnew : i :: id ∉ opened)
    (hat : h.taskAt description (i :: id) = some task) :
    (openedState h description opened).nodes (i :: id) = some ⟨task, .acquiring⟩ := by
  rw [openedState]
  dsimp only
  rw [if_neg fun hor => hor.elim (List.cons_ne_nil i id) hnew, if_pos hparent, hat, Option.map_some]

/-- To open one more node is to let it acquire its permit and spawn its subtasks. -/
theorem spawn_openedState {i : Nat} (hnew : i :: id ∉ opened)
    (hparents : ∀ j p, j :: p ∈ opened → p = [] ∨ p ∈ opened)
    (hat : h.taskAt description (i :: id) = some task) (s : HierarchyState R)
    (hs : ∀ id', id' ≠ i :: id → s.nodes id' = (openedState h description opened).nodes id') :
    (s.spawn (i :: id) task (h.split task)).nodes =
      (openedState h description ((i :: id) :: opened)).nodes := by
  funext id'
  have hmem : id' ≠ i :: id → (id' ∈ (i :: id) :: opened ↔ id' ∈ opened) := fun hne => by
    rw [List.mem_cons, or_iff_right hne]
  -- a position is the node, one of its children, or untouched
  by_cases hself : id' = i :: id
  · rw [hself, nodes_spawn_self, openedState]
    dsimp only
    rw [if_pos (.inr List.mem_cons_self), hat, Option.map_some]
  by_cases hchild : ∃ j, id' = j :: i :: id
  · obtain ⟨j, rfl⟩ := hchild
    have hclosed : j :: i :: id ∉ opened := fun hin =>
      (hparents j (i :: id) hin).elim (List.cons_ne_nil i id) hnew
    rw [nodes_spawn_child, openedState]
    dsimp only
    rw [if_neg fun hor => hor.elim (List.cons_ne_nil _ _) fun hin => hclosed ((hmem hself).mp hin),
      if_pos (.inr List.mem_cons_self), WorkerHierarchy.taskAt_cons hat]
  · rw [nodes_spawn_of_ne hself fun j heq => hchild ⟨j, heq⟩, hs id' hself, openedState, openedState]
    cases id' with
    | nil => rfl
    | cons j parent =>
      have hparent : parent ∈ (i :: id) :: opened ↔ parent ∈ opened := by
        rw [List.mem_cons, or_iff_right]
        rintro rfl
        exact hchild ⟨j, rfl⟩
      simp only [hmem hself, hparent]

theorem spawn_root (hat : h.taskAt description [] = some task) (s : HierarchyState R)
    (hs : ∀ id, id ≠ [] → s.nodes id = none) :
    (s.spawn [] task (h.split task)).nodes = (openedState h description []).nodes := by
  funext id
  -- a position is the root, one of its children, or empty
  by_cases hself : id = []
  · rw [hself, nodes_spawn_self, openedState]
    dsimp only
    rw [if_pos (.inl rfl), hat, Option.map_some]
  by_cases hchild : ∃ j, id = [j]
  · obtain ⟨j, rfl⟩ := hchild
    rw [nodes_spawn_child, openedState]
    dsimp only
    rw [if_neg fun hor => hor.elim hself List.not_mem_nil, if_pos (.inl rfl),
      WorkerHierarchy.taskAt_cons hat]
  · rw [nodes_spawn_of_ne hself fun j heq => hchild ⟨j, heq⟩, hs id hself, openedState]
    dsimp only
    rw [if_neg fun hor => hor.elim hself List.not_mem_nil]
    cases id with
    | nil => rfl
    | cons j parent =>
      refine (if_neg fun hor => ?_).symm
      rcases hor with rfl | hin
      · exact hchild ⟨j, rfl⟩
      · cases hin

/-- The decomposer splits an inner task. -/
theorem decomposed_of_split (s : HierarchyState R) (hsplit : h.split task ≠ []) :
    h.decomposed s id task = s.spawn id task (h.split task) := by
  have hbegin := (WorkerHierarchy.begin_of_split hsplit).1
  rw [WorkerHierarchy.decomposed]
  rcases hdecompose : h.decompose task with e | descriptions
  · rw [WorkerHierarchy.split, hbegin] at hsplit
    dsimp only at hsplit
    rw [hdecompose] at hsplit
    exact absurd rfl hsplit
  · have heq := WorkerHierarchy.split_of_begin hbegin hdecompose
    dsimp only
    rw [if_neg, ← heq]
    rwa [← @WorkerHierarchy.subtasks_eq_nil_iff R h task, ← heq]

theorem ext_state {s s' : HierarchyState R} (hnodes : s.nodes = s'.nodes) (hfree : s.free = s'.free) :
    s = s' := by
  obtain ⟨nodes, free⟩ := s
  cases hnodes
  cases hfree
  rfl

variable [TaskResult R]

theorem reachable_root (hroot : h.Inner description []) :
    (h.system description).Reachable (openedState h description []) := by
  obtain ⟨task, hat, hsplit⟩ := hroot
  have hnode : (h.system description).init.nodes [] = some ⟨task, .decomposing⟩ := by
    rw [← (WorkerHierarchy.begin_of_split hsplit).1]
    cases hat
    rfl
  refine ⟨_, System.Run.start.next (e := .decomposed []) ?_⟩
  show h.step _ (.decomposed []) = _
  rw [WorkerHierarchy.step, hnode]
  dsimp only
  rw [decomposed_of_split _ hsplit]
  exact congrArg some (ext_state (spawn_root hat _ fun id hne => dif_neg hne) rfl)

/-- The nodes of an opening can all spawn their subtasks while there are permits. -/
theorem reachable_openedState (hroot : h.Inner description [])
    (hopening : Opening {id | id ≠ [] ∧ h.Inner description id} opened)
    (hlength : opened.length ≤ h.maxConcurrent) :
    (h.system description).Reachable (openedState h description opened) := by
  induction hopening with
  | nil => exact reachable_root hroot
  | @cons opened i id opening mem new parent ih =>
    obtain ⟨steps, run⟩ := ih (Nat.le_of_succ_le hlength)
    obtain ⟨-, task, hat, hsplit⟩ := mem
    have hbegin := (WorkerHierarchy.begin_of_split hsplit).1
    have hacquire : (h.system description).step (openedState h description opened)
        (.acquire (i :: id)) = some
          { (openedState h description opened).move (i :: id) task .decomposing with
            free := (openedState h description opened).free - 1 } := by
      show h.step _ (.acquire (i :: id)) = _
      rw [WorkerHierarchy.step, openedState_child parent new hat]
      dsimp only
      rw [hbegin]
      exact if_pos (Nat.sub_pos_of_lt hlength)
    -- the node gets its permit and is decomposed
    refine ⟨_, (run.next hacquire).next (e := .decomposed (i :: id)) ?_⟩
    show h.step _ (.decomposed (i :: id)) = _
    rw [WorkerHierarchy.step]
    dsimp only
    rw [nodes_move]
    dsimp only
    rw [decomposed_of_split _ hsplit]
    refine congrArg some (ext_state ?_ ?_)
    · exact spawn_openedState new (fun j p => opening.parent_mem) hat _ fun id' hne =>
        nodes_move_of_ne hne ..
    · exact Nat.sub_sub ..

/-- When the opened nodes have all permits, no step is enabled. -/
theorem openedState_stuck (hroot : h.Inner description [])
    (hopening : Opening {id | id ≠ [] ∧ h.Inner description id} opened)
    (hlength : opened.length = h.maxConcurrent) :
    ¬ (openedState h description opened).Finished ∧
      ¬ Enabled h (openedState h description opened) := by
  -- A node that does anything else than wait is not there.
  have hnone : ∀ {id task phase}, (openedState h description opened).nodes id = some ⟨task, phase⟩ →
      phase ≠ .acquiring → (∀ count, phase ≠ .collecting count) → False := by
    intro id task phase hnode hacquiring hcollecting
    rcases openedState_waits hroot hopening hnode with heq | ⟨-, heq⟩
    · exact hacquiring heq
    · exact hcollecting _ heq
  constructor
  · rintro ⟨task, result, hnode⟩
    exact hnone hnode nofun nofun
  · rintro ⟨e, s', hstep⟩
    obtain ⟨id, task, hnode, hfree, -⟩ | ⟨id, task, hnode, -⟩ | ⟨id, task, hnode, -⟩ |
      ⟨id, task, count, results, hnode, hresults, -⟩ | ⟨id, task, results, hnode, -⟩ :=
        step_cases hstep
    · exact absurd hfree (Nat.not_lt_of_le (Nat.sub_eq_zero_of_le hlength.ge).le)
    · exact hnone hnode nofun nofun
    · exact hnone hnode nofun nofun
    · rcases openedState_waits hroot hopening hnode with heq | ⟨hsplit, heq⟩
      · cases heq
      -- The first subtask has not ended.
      obtain rfl : count = (h.split task).length := Phase.collecting.inj heq
      obtain ⟨result, hfirst⟩ := exists_mapM_iff.mp ⟨results, hresults⟩ 0
        (List.mem_range.mpr (List.length_pos_iff.mpr hsplit))
      obtain ⟨⟨child, phase⟩, hchild, hdone⟩ := Option.bind_eq_some_iff.mp hfirst
      refine hnone hchild ?_ ?_
      · rintro rfl
        cases hdone
      · rintro count rfl
        cases hdone
    · exact hnone hnode nofun nofun

end Opened

/-! ## Freedom from deadlock -/

section Deadlock

variable [TaskResult R]

/-- **Freedom from deadlock.** In every reachable state in which the root task has not ended a step
is enabled, if and only if fewer tasks below the root task have subtasks than there are
permits. -/
theorem deadlockFree_iff (h : WorkerHierarchy R) (description : String) :
    (∀ s, (h.system description).Reachable s → ¬ s.Finished →
      ∃ e s', (h.system description).step s e = some s') ↔
    {id | id ≠ [] ∧ h.Inner description id}.encard < h.maxConcurrent := by
  constructor
  · intro hfree
    by_contra hmany
    -- As many of these tasks as there are permits can be opened.
    obtain ⟨opened, hopening, hlength⟩ := exists_opening (fun hroot => hroot.1 rfl)
      (fun i id hinner => by
        by_cases hid : id = []
        · exact .inl hid
        · exact .inr ⟨hid, hinner.2.parent⟩) (not_lt.mp hmany)
    have hroot : h.Inner description [] := by
      have hpos := h.one_le_maxConcurrent
      obtain ⟨id, hin⟩ := List.exists_mem_of_length_pos (hlength ▸ hpos)
      exact (hopening.subset id hin).2.root
    obtain ⟨hunfinished, hstuck⟩ := openedState_stuck hroot hopening hlength
    exact hstuck (hfree _ (reachable_openedState hroot hopening hlength.le) hunfinished)
  · intro hfew s hs hunfinished
    by_contra hstuck
    exact hfew.not_ge ((hierarchyInv_reachable hs).inner_of_stuck hunfinished hstuck)

/-- A hierarchy with one permit, two levels of subtasks, and one subtask at each. -/
def chain : WorkerHierarchy Unit where
  decomposer := some fun _ => .ok ["subtask"]
  executor := none
  aggregator := none
  maxDepth := 2
  maxChildren := 1
  maxConcurrent := 1
  one_le_maxDepth := Nat.zero_lt_two
  one_le_maxChildren := Nat.zero_lt_one
  one_le_maxConcurrent := Nat.zero_lt_one

instance : TaskResult Unit := ⟨fun _ => (), fun _ => ()⟩

/-- The subtask has the permit and waits for its own subtask, which waits for the permit. -/
theorem chain_deadlock : ∃ s, (chain.system "task").Reachable s ∧ ¬ s.Finished ∧
    ¬ ∃ e s', (chain.system "task").step s e = some s' := by
  have hroot : chain.Inner "task" [] := ⟨_, rfl, by decide⟩
  have hopening : Opening {id | id ≠ [] ∧ chain.Inner "task" id} [[0]] :=
    Opening.nil.cons ⟨by decide, _, rfl, by decide⟩ (by decide) (.inl rfl)
  exact ⟨_, reachable_openedState hroot hopening le_rfl, openedState_stuck hroot hopening rfl⟩

end Deadlock

end Noema.Workers
