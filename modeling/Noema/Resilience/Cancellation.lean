import Noema.Lib.System
import Noema.Lib.PyRuntime

/-!
# The cancellation manager (`resilience/cancellation.py`)

`execute_with_cancellation` registers the task of a coroutine under an id that the client chooses,
waits for it, and takes it out of the registry when it goes on. In between, other calls execute and
cancel what they like, coroutines end in any way, and the caller of a call may be cancelled itself.

- `Execution`, `TaskStatus`: a task is in flight, with a flag that says whether it was told to
  cancel, or done. An execution has a result when its call has gone on.
- `RegistryInv`: the invariant, that the registry has the executions that have no result yet, and
  that these include all that are in flight. It has a rule for each part of a step
  (`RegistryInv.execute`, `RegistryInv.resume`, `RegistryInv.requests`).
- `RegistryInv.cancel_eq`, `RegistryInv.cancelAll_eq`: whom `cancel` and `cancel_all` reach.
- **`exact_of_reachable`**: in every reachable registry, at most one coroutine for an id is in
  flight, `get_active` lists the executions without a result, a duplicate changes nothing in the
  registry, and `cancel` tells the execution with the id to cancel, and no other.
- `duplicate_exact`: a duplicate is rejected, and the execution it was a duplicate of is told to
  cancel and ends.

What a coroutine does when it is told to cancel is its own business: it may end in any way, and at
any time.
-/

namespace Noema.Resilience

open Noema.Lib

variable {R : Type}

/-- How a coroutine ends. -/
inductive CoroutineEnd (R : Type) where
  | returned (value : R)
  | raised (e : PyExc)
  | cancelled

/-- The task of a coroutine: it is in flight, and may have been told to cancel, or it is done. -/
inductive TaskStatus (R : Type) where
  | pending (requested : Bool)
  | done (ended : CoroutineEnd R)

/-- A call of `execute_with_cancellation` that has started its coroutine. Its caller may have been
cancelled after the task was done. -/
structure Execution (R : Type) where
  taskId : String
  task : TaskStatus R
  interrupted : Bool := false
  result : Option (Except PyExc R) := none

namespace Execution

variable (e : Execution R)

/-- `not task.done()`. -/
def isPending : Bool :=
  match e.task with
  | .pending _ => true
  | .done _ => false

/-- `task.cancel()`, which does nothing when the task is done. -/
def request : Execution R :=
  match e.task with
  | .pending _ => { e with task := .pending true }
  | .done _ => e

/-- The caller is cancelled while it waits. It cancels the task, if that is still in flight. -/
def interrupt : Execution R :=
  match e.task with
  | .pending _ => e.request
  | .done _ => { e with interrupted := true }

/-- What the call returns or raises when its task is done. -/
def resultOf (ended : CoroutineEnd R) : Except PyExc R :=
  let cancelled : PyExc := .custom "CancelledTaskError" ("Task " ++ e.taskId ++ " was cancelled")
  if e.interrupted then .error cancelled
  else
    match ended with
    | .returned value => .ok value
    | .raised e => .error e
    | .cancelled => .error cancelled

end Execution

/-- `_tasks`, where a task is the number of its execution, and the executions. -/
structure Registry (R : Type) where
  tasks : List (String × Nat)
  executions : Nat → Option (Execution R)

namespace Registry

variable (s : Registry R)

/-- An execution goes on. -/
def put (n : Nat) (e : Execution R) : Registry R :=
  { s with executions := Function.update s.executions n (some e) }

/-- `get_active`. -/
def getActive : List String := s.tasks.map Prod.fst

/-- `execute_with_cancellation` (cancellation.py:32), until it waits. -/
def execute (n : Nat) (taskId : String) : Except PyExc Unit × Registry R :=
  if taskId ∈ s.getActive then
    (.error (.custom "RuntimeError" ("Task " ++ taskId ++ " already in progress")), s)
  else
    (.ok (), { s.put n { taskId, task := .pending false } with tasks := s.tasks ++ [(taskId, n)] })

/-- `cancel`. -/
def cancel (taskId : String) : Bool × Registry R :=
  match (s.tasks.lookup taskId).bind fun n => (s.executions n).map (n, ·) with
  | some (n, e) => if e.isPending then (true, s.put n e.request) else (false, s)
  | none => (false, s)

/-- `cancel_all`. -/
def cancelAll : Nat × Registry R :=
  s.getActive.foldl (fun (count, s) taskId =>
    let (cancelled, s) := s.cancel taskId
    (if cancelled then count + 1 else count, s)) (0, s)

end Registry

/-- What happens: a call of `execute_with_cancellation`, the end of its coroutine (at any time, also
when it has not been told to cancel, and in any way), the rest of the call, the cancellation of its
caller, and the calls of `cancel` and `cancel_all`. -/
inductive CancelEvent (R : Type) where
  | execute (n : Nat) (taskId : String)
  | ends (n : Nat) (ended : CoroutineEnd R)
  | resume (n : Nat)
  | interrupt (n : Nat)
  | cancel (taskId : String)
  | cancelAll

/-- A cancellation manager. -/
def cancelSystem : System (Registry R) (CancelEvent R) where
  init := ⟨[], fun _ => none⟩
  step s e :=
    match e with
    | .execute n taskId => if s.executions n = none then some (s.execute n taskId).2 else none
    | .ends n ended =>
      (s.executions n).bind fun e =>
        if e.isPending then some (s.put n { e with task := .done ended }) else none
    | .resume n =>
      (s.executions n).bind fun e =>
        match e.task, e.result with
        -- the `finally`: the id is free again when the call goes on, and not before
        | .done ended, none =>
          let s' := s.put n { e with result := some (e.resultOf ended) }
          some { s' with tasks := s.tasks.filter fun t => t.1 ≠ e.taskId }
        | _, _ => none
    -- the caller is cancelled while it waits
    | .interrupt n =>
      (s.executions n).bind fun e =>
        if e.result.isNone then some (s.put n e.interrupt) else none
    | .cancel taskId => some (s.cancel taskId).2
    | .cancelAll => some s.cancelAll.2

/-- The registry is exact. -/
structure Exact (s : Registry R) : Prop where
  /-- at most one coroutine for an id is in flight -/
  unique : ∀ n n', ∀ e ∈ s.executions n, ∀ e' ∈ s.executions n', e.isPending → e'.isPending →
    e.taskId = e'.taskId → n = n'
  /-- the ids that are listed are those of the executions that have not ended, each once -/
  active : s.getActive.Nodup ∧
    ∀ taskId, taskId ∈ s.getActive ↔ ∃ n, ∃ e ∈ s.executions n, e.taskId = taskId ∧ e.result = none
  /-- a duplicate is rejected, and changes nothing -/
  rejects : ∀ n, ∀ taskId ∈ s.getActive,
    s.execute n taskId =
      (.error (.custom "RuntimeError" ("Task " ++ taskId ++ " already in progress")), s)
  /-- `cancel` answers whether there is a coroutine in flight with the id -/
  answers : ∀ taskId, (s.cancel taskId).1 ↔ ∃ n, ∃ e ∈ s.executions n, e.taskId = taskId ∧ e.isPending
  /-- it tells the task with the id to cancel, whatever it was told before, and changes no other
  execution and no entry of the registry -/
  reaches : ∀ taskId, (s.cancel taskId).2 =
    { s with executions := fun n => (s.executions n).map fun e =>
        if e.taskId = taskId ∧ e.isPending then { e with task := .pending true } else e }
  /-- `cancel_all` tells every task in flight, and changes nothing else -/
  reachesAll : s.cancelAll.2 =
    { s with executions := fun n => (s.executions n).map fun e =>
        if e.isPending then { e with task := .pending true } else e }

/-! ## The invariant -/

/-- The registry has the executions without a result, and these include those in flight. -/
structure RegistryInv (s : Registry R) : Prop where
  nodup : s.getActive.Nodup
  registered : ∀ taskId n, (taskId, n) ∈ s.tasks ↔
    ∃ e ∈ s.executions n, e.taskId = taskId ∧ e.result = none
  pending : ∀ n, ∀ e ∈ s.executions n, e.isPending → e.result = none

section Steps

variable {s s' : Registry R} {n : Nat} {e : Execution R} {taskId : String}

theorem request_taskId (e : Execution R) : e.request.taskId = e.taskId := by
  unfold Execution.request
  split <;> rfl

theorem request_result (e : Execution R) : e.request.result = e.result := by
  unfold Execution.request
  split <;> rfl

theorem request_isPending (e : Execution R) : e.request.isPending = e.isPending := by
  obtain ⟨taskId, task, interrupted, result⟩ := e
  cases task <;> rfl

theorem request_of_done (h : e.isPending = false) : e.request = e := by
  obtain ⟨taskId, task, interrupted, result⟩ := e
  cases task with
  | pending requested => cases h
  | done ended => rfl

/-- `task.cancel()` on a task in flight. -/
theorem request_of_pending (h : e.isPending = true) :
    e.request = { e with task := .pending true } := by
  obtain ⟨taskId, task, interrupted, result⟩ := e
  cases task with
  | pending requested => rfl
  | done ended => cases h

theorem request_request (e : Execution R) : e.request.request = e.request := by
  obtain ⟨taskId, task, interrupted, result⟩ := e
  cases task <;> rfl

/-- A registry with distinct keys finds what it has. -/
theorem lookup_iff_mem {α : Type} {tasks : List (String × α)} (h : (tasks.map Prod.fst).Nodup)
    {key : String} {value : α} : tasks.lookup key = some value ↔ (key, value) ∈ tasks := by
  induction tasks with
  | nil => exact iff_of_false nofun List.not_mem_nil
  | cons t tasks ih =>
    obtain ⟨hnew, h⟩ := List.nodup_cons.mp h
    rw [List.lookup_cons, List.mem_cons]
    by_cases hkey : key = t.1
    · subst hkey
      rw [beq_self_eq_true]
      constructor
      · intro heq
        exact .inl (Prod.ext rfl (Option.some.inj heq).symm)
      · rintro (heq | hmem)
        · exact congrArg (some ·.2) heq.symm
        · exact absurd (List.mem_map_of_mem hmem) hnew
    · rw [beq_false_of_ne hkey]
      exact (ih h).trans (or_iff_right fun heq => hkey (congrArg Prod.fst heq)).symm

/-- An execution goes on under its id, and has no more or no less a result than before. -/
theorem RegistryInv.put (h : RegistryInv s) (he : s.executions n = some e) {new : Execution R}
    (htaskId : new.taskId = e.taskId) (hresult : new.result = e.result)
    (hpending : new.isPending → e.isPending) : RegistryInv (s.put n new) where
  nodup := h.nodup
  registered taskId n' := by
    refine (h.registered taskId n').trans ?_
    by_cases hn : n' = n
    · subst hn
      have hnew : (s.put n' new).executions n' = some new := Function.update_self ..
      simp [he, hnew, htaskId, hresult]
    · have hold : (s.put n new).executions n' = s.executions n' := Function.update_of_ne hn ..
      rw [hold]
  pending n' e' he' hpend := by
    rcases mem_update he' with ⟨-, hnew⟩ | ⟨-, hold⟩
    · cases hnew
      exact hresult.trans (h.pending n e he (hpending hpend))
    · exact h.pending n' e' hold hpend

/-- The registry finds an execution in flight. -/
theorem RegistryInv.lookup (h : RegistryInv s) (he : e ∈ s.executions n) (hpending : e.isPending) :
    s.tasks.lookup e.taskId = some n :=
  (lookup_iff_mem h.nodup).mpr ((h.registered _ _).mpr ⟨e, he, rfl, h.pending n e he hpending⟩)

/-- What `cancel` does. -/
theorem RegistryInv.cancel_eq (h : RegistryInv s) (taskId : String) :
    ((s.cancel taskId).1 ↔ ∃ n, ∃ e ∈ s.executions n, e.taskId = taskId ∧ e.isPending) ∧
      (s.cancel taskId).2 = { s with executions := fun n => (s.executions n).map fun e =>
        if e.taskId = taskId ∧ e.isPending then e.request else e } := by
  -- Without an execution in flight nothing happens.
  have hnothing (hnone : ¬ ∃ n, ∃ e ∈ s.executions n, e.taskId = taskId ∧ e.isPending)
      (hcancel : s.cancel taskId = (false, s)) :
      ((s.cancel taskId).1 ↔ ∃ n, ∃ e ∈ s.executions n, e.taskId = taskId ∧ e.isPending) ∧
        (s.cancel taskId).2 = { s with executions := fun n => (s.executions n).map fun e =>
          if e.taskId = taskId ∧ e.isPending then e.request else e } := by
    rw [hcancel]
    refine ⟨iff_of_false nofun hnone, congrArg (Registry.mk s.tasks) (funext fun n => ?_)⟩
    cases he : s.executions n with
    | none => rfl
    | some e => exact congrArg some (if_neg fun hpend => hnone ⟨n, e, he, hpend⟩).symm
  cases hlookup : s.tasks.lookup taskId with
  | none =>
    refine hnothing ?_ (by rw [Registry.cancel, hlookup]; rfl)
    rintro ⟨n, e, he, rfl, hpending⟩
    rw [h.lookup he hpending] at hlookup
    cases hlookup
  | some n =>
    obtain ⟨e, he, htaskId, -⟩ := (h.registered taskId n).mp ((lookup_iff_mem h.nodup).mp hlookup)
    have hunique {n' : Nat} {e' : Execution R} (he' : e' ∈ s.executions n')
        (hpend : e'.taskId = taskId ∧ e'.isPending) : n' = n := by
      have hfound := h.lookup he' hpend.2
      rw [hpend.1, hlookup] at hfound
      exact (Option.some.inj hfound).symm
    have hcancel : s.cancel taskId =
        if e.isPending then (true, s.put n e.request) else (false, s) := by
      rw [Registry.cancel, hlookup]
      show (match (s.executions n).map (n, ·) with | some (n, e) => _ | none => _) = _
      rw [he]
      rfl
    by_cases hpending : e.isPending = true
    · rw [hcancel, if_pos hpending]
      refine ⟨iff_of_true rfl ⟨n, e, he, htaskId, hpending⟩,
        congrArg (Registry.mk s.tasks) (funext fun n' => ?_)⟩
      by_cases hn : n' = n
      · subst hn
        rw [Function.update_self, he]
        exact congrArg some (if_pos ⟨htaskId, hpending⟩).symm
      · rw [Function.update_of_ne hn]
        cases he' : s.executions n' with
        | none => rfl
        | some e' => exact congrArg some (if_neg fun hpend => hn (hunique he' hpend)).symm
    · refine hnothing ?_ (by rw [hcancel, if_neg hpending])
      rintro ⟨n', e', he', hpend⟩
      obtain rfl := hunique he' hpend
      cases Option.mem_unique he he'
      exact hpending hpend.2

/-- Executions in flight may be told to cancel. -/
theorem RegistryInv.requests (h : RegistryInv s) (p : Execution R → Prop) [DecidablePred p] :
    RegistryInv { s with
      executions := fun n => (s.executions n).map fun e => if p e then e.request else e } where
  nodup := h.nodup
  registered taskId n := by
    refine (h.registered taskId n).trans ?_
    cases he : s.executions n with
    | none => simp [he]
    | some e =>
      by_cases hp : p e
      · simp [he, hp, request_taskId, request_result]
      · simp [he, hp]
  pending n e he hpending := by
    obtain ⟨e₀, he₀, rfl⟩ := Option.mem_map.mp he
    by_cases hp : p e₀
    · rw [if_pos hp, request_isPending] at hpending
      rw [if_pos hp, request_result]
      exact h.pending n e₀ he₀ hpending
    · rw [if_neg hp] at hpending ⊢
      exact h.pending n e₀ he₀ hpending

/-- The loop of `cancel_all`. -/
theorem RegistryInv.foldl_cancel (h : RegistryInv s) (ids : List String) (count : Nat) :
    (ids.foldl (fun (count, s) taskId =>
      let (cancelled, s) := Registry.cancel s taskId
      (if cancelled then count + 1 else count, s)) (count, s)).2 =
      { s with executions := fun n => (s.executions n).map fun e =>
        if e.taskId ∈ ids ∧ e.isPending then e.request else e } := by
  induction ids generalizing s count with
  | nil =>
    refine congrArg (Registry.mk s.tasks) (funext fun n => ?_)
    cases s.executions n with
    | none => rfl
    | some e => exact congrArg some (if_neg fun hmem => List.not_mem_nil hmem.1).symm
  | cons taskId ids ih =>
    have hcancel := (h.cancel_eq taskId).2
    have hinv := h.requests fun e => e.taskId = taskId ∧ e.isPending = true
    rw [List.foldl_cons]
    show (ids.foldl _ (_, (s.cancel taskId).2)).2 = _
    -- the first id is cancelled, and the registry is the same for the others
    rw [hcancel, ih hinv]
    refine congrArg (Registry.mk s.tasks) (funext fun n => ?_)
    rw [Option.map_map]
    congr 1
    funext e
    by_cases hid : e.taskId = taskId ∧ e.isPending = true
    · simp [hid, request_taskId, request_isPending, request_request]
    · by_cases hpending : e.isPending = true
      · have hne : e.taskId ≠ taskId := fun heq => hid ⟨heq, hpending⟩
        simp [hne, hpending]
      · simp [hpending]

/-- `cancel_all` tells every execution in flight to cancel. -/
theorem RegistryInv.cancelAll_eq (h : RegistryInv s) :
    s.cancelAll.2 = { s with executions := fun n => (s.executions n).map Execution.request } := by
  refine (h.foldl_cancel s.getActive 0).trans (congrArg (Registry.mk s.tasks) (funext fun n => ?_))
  cases he : s.executions n with
  | none => rfl
  | some e =>
    refine congrArg some ?_
    by_cases hpending : e.isPending = true
    · refine if_pos ⟨?_, hpending⟩
      exact List.mem_map_of_mem ((h.registered e.taskId n).mpr ⟨e, he, rfl, h.pending n e he hpending⟩)
    · exact (if_neg fun hmem => hpending hmem.2).trans
        (request_of_done (Bool.eq_false_iff.mpr hpending)).symm

/-- A new execution is registered. -/
theorem RegistryInv.execute (h : RegistryInv s) (hnew : s.executions n = none) (taskId : String) :
    RegistryInv (s.execute n taskId).2 := by
  unfold Registry.execute
  split
  · exact h
  next hfree =>
    refine ⟨?_, fun taskId' n' => ?_, fun n' e' he' _ => ?_⟩
    · show ((s.tasks ++ [(taskId, n)]).map Prod.fst).Nodup
      rw [List.map_append, List.map_singleton]
      refine List.nodup_append.mpr ⟨h.nodup, List.nodup_singleton _, fun id hid id' hid' => ?_⟩
      rintro rfl
      obtain rfl : id = taskId := List.mem_singleton.mp hid'
      exact hfree hid
    · show (taskId', n') ∈ s.tasks ++ [(taskId, n)] ↔
        ∃ e ∈ Function.update s.executions n (some _) n', _
      rw [List.mem_append, List.mem_singleton, h.registered, Prod.mk.injEq]
      by_cases hn : n' = n
      · subst hn
        simp [hnew, eq_comm]
      · simp [hn]
    · rcases mem_update he' with ⟨-, hmem⟩ | ⟨-, hold⟩
      · cases hmem
        rfl
      · exact h.pending n' e' hold ‹_›

/-- A call goes on, and its id is free again. -/
theorem RegistryInv.resume (h : RegistryInv s) (he : s.executions n = some e) (hresult : e.result = none)
    (hdone : e.isPending = false) (result : Except PyExc R) :
    RegistryInv { s.put n { e with result := some result } with
      tasks := s.tasks.filter fun t => t.1 ≠ e.taskId } where
  nodup := h.nodup.sublist (List.filter_sublist.map _)
  registered taskId n' := by
    show (taskId, n') ∈ s.tasks.filter _ ↔ ∃ e' ∈ Function.update s.executions n (some _) n', _
    rw [List.mem_filter, h.registered, decide_eq_true_iff]
    by_cases hn : n' = n
    · subst hn
      rw [Function.update_self]
      refine iff_of_false ?_ ?_
      · rintro ⟨⟨e', he', rfl, -⟩, hne⟩
        exact hne (congrArg Execution.taskId (Option.mem_unique he' he))
      · rintro ⟨e', he', -, hnone⟩
        cases he'
        cases hnone
    · rw [Function.update_of_ne hn]
      refine and_iff_left_of_imp ?_
      rintro ⟨e', he', rfl, hnone⟩ heq
      -- Two executions without a result have different ids.
      have hmem : (e.taskId, n) ∈ s.tasks := (h.registered _ _).mpr ⟨e, he, rfl, hresult⟩
      have hmem' : (e.taskId, n') ∈ s.tasks := (h.registered _ _).mpr ⟨e', he', heq, hnone⟩
      rw [← lookup_iff_mem h.nodup] at hmem hmem'
      rw [hmem] at hmem'
      exact hn (Option.some.inj hmem').symm
  pending n' e' he' hpending := by
    rcases mem_update he' with ⟨-, hmem⟩ | ⟨-, hold⟩
    · cases hmem
      exact absurd hpending (Bool.eq_false_iff.mp hdone)
    · exact h.pending n' e' hold hpending

theorem interrupt_spec (e : Execution R) : e.interrupt.taskId = e.taskId ∧
    e.interrupt.result = e.result ∧ e.interrupt.isPending = e.isPending := by
  obtain ⟨taskId, task, interrupted, result⟩ := e
  cases task <;> exact ⟨rfl, rfl, rfl⟩

/-- A step keeps the invariant. -/
theorem registryInv_step {event : CancelEvent R} (h : RegistryInv s)
    (hstep : (cancelSystem (R := R)).step s event = some s') : RegistryInv s' := by
  cases event with
  | execute n taskId =>
    obtain ⟨hnew, heq⟩ := Option.ite_none_right_eq_some.mp hstep
    cases heq
    exact h.execute hnew taskId
  | ends n ended =>
    obtain ⟨e, he, hstep⟩ := Option.bind_eq_some_iff.mp hstep
    -- a coroutine that ends has no result yet, so it stays registered until its call goes on
    obtain ⟨hpending, heq⟩ := Option.ite_none_right_eq_some.mp hstep
    cases heq
    exact h.put he rfl rfl fun _ => hpending
  | resume n =>
    obtain ⟨e, he, hstep⟩ := Option.bind_eq_some_iff.mp hstep
    split at hstep
    next ended hdone hnone =>
      cases hstep
      have hdone : e.isPending = false := by rw [Execution.isPending, hdone]
      exact h.resume he hnone hdone _
    · cases hstep
  | interrupt n =>
    obtain ⟨e, he, hstep⟩ := Option.bind_eq_some_iff.mp hstep
    obtain ⟨-, heq⟩ := Option.ite_none_right_eq_some.mp hstep
    cases heq
    obtain ⟨htaskId, hresult, hpending⟩ := interrupt_spec e
    exact h.put he htaskId hresult fun hp => hpending ▸ hp
  | cancel taskId =>
    cases hstep
    rw [(h.cancel_eq taskId).2]
    exact h.requests _
  | cancelAll =>
    cases hstep
    rw [h.cancelAll_eq]
    simpa using h.requests fun _ => True

end Steps

/-- In every reachable registry, at most one coroutine for an id is in flight, `get_active` lists
the executions that have not ended, a duplicate changes nothing, and `cancel` reaches the execution
with the id alone. -/
theorem exact_of_reachable {s : Registry R} (h : cancelSystem.Reachable s) : Exact s := by
  have hinit : RegistryInv (cancelSystem (R := R)).init :=
    ⟨List.nodup_nil, fun _ _ => iff_of_false List.not_mem_nil nofun, nofun⟩
  have hinv : RegistryInv s := h.invariant hinit fun _ _ _ => registryInv_step
  refine ⟨fun n n' e he e' he' hpending hpending' htaskId => ?_, ⟨hinv.nodup, fun taskId => ?_⟩,
    fun n taskId hmem => by rw [Registry.execute, if_pos hmem],
    fun taskId => (hinv.cancel_eq taskId).1, fun taskId => ?_, ?_⟩
  -- the registry finds one execution for an id
  · have hn := hinv.lookup he hpending
    rw [htaskId, hinv.lookup he' hpending'] at hn
    exact (Option.some.inj hn).symm
  · constructor
    · intro hmem
      obtain ⟨t, htask, rfl⟩ := List.mem_map.mp hmem
      exact ⟨t.2, (hinv.registered t.1 t.2).mp htask⟩
    · rintro ⟨n, e, he, rfl, hnone⟩
      exact List.mem_map_of_mem ((hinv.registered e.taskId n).mpr ⟨e, he, rfl, hnone⟩)
  · refine (hinv.cancel_eq taskId).2.trans (congrArg (Registry.mk s.tasks) (funext fun n => ?_))
    refine congrArg (Option.map · (s.executions n)) (funext fun e => ?_)
    split
    · next hpending => exact request_of_pending hpending.2
    · rfl
  · refine hinv.cancelAll_eq.trans (congrArg (Registry.mk s.tasks) (funext fun n => ?_))
    refine congrArg (Option.map · (s.executions n)) (funext fun e => ?_)
    split
    · next hpending => exact request_of_pending hpending
    · next hdone => exact request_of_done (Bool.eq_false_iff.mpr hdone)

/-- A duplicate is rejected, and the execution it was a duplicate of is told to cancel and ends. -/
theorem duplicate_exact : ∃ s : Registry Nat, cancelSystem.Reachable s ∧
    s.getActive = ["a"] ∧ (s.execute 2 "a").1.toBool = false ∧ (s.cancel "a").1 = false ∧
    Exact s := by
  have h : (cancelSystem (R := Nat)).Reachable _ :=
    System.reachable_of_exec
      [.execute 0 "a", .execute 1 "a", .cancel "a", .ends 0 .cancelled] rfl
  exact ⟨_, h, by decide, by decide, by decide, exact_of_reachable h⟩

end Noema.Resilience
