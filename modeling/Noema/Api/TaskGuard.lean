import Noema.Api.Server
import Noema.Lib.System

/-!
# The guard of a task under concurrency (`api/server.py`, `resilience/cancellation.py`)

`guardSystem` is the server with the requests that are inside their guards. From the quota check to
the start of `think` a request is not interrupted, as there is no `await` in between; it waits for
`think`, resumes, and leaves the guard after its cost is recorded. Other requests, of this tenant
and of others, take their steps in between.

A request that is inside has one of three phases (`Phase`): `think` is in flight; `think` has ended,
but the request has not resumed; the registry of `execute_with_cancellation` has forgotten the task,
but the guard still tracks it. Task ids are chosen by the clients, and the registry is shared by all
tenants: a task that is in progress already makes the request raise, and the `finally` of the guard
untracks the id, which is the id of the other request.

- `GuardInv`: the tracked tasks of a tenant are the tasks of its requests, each once, and no more
  than the limit.
- `enterGuard_spec`: what entering does to the tasks of a tenant.
- `FreshTask`: the condition on a step. A request of the tenant that passes the check has another
  task id than the requests of this tenant that are inside.
- **`inFlight_le`**: the number of executions in flight for a tenant never exceeds its limit, in
  every run whose steps meet the condition. Requests of other tenants are not restricted, although
  they share the registry.
- `repeated_task_exceeds_limit`: what happens otherwise.
-/

namespace Noema.Api

open Noema.Lib Noema.Billing

/-- Where a request inside its guard is: `think` is in flight, or has ended, or the registry has
forgotten the task. -/
inductive Phase where
  | thinking
  | ended
  | leaving
  deriving DecidableEq, Repr

/-- A request inside its guard. -/
structure GuardedRequest where
  tenantId : String
  taskId : String
  phase : Phase
  deriving DecidableEq, Repr

/-- The quotas, the keys of `_tasks`, and the requests inside their guards. -/
structure GuardState (T : Type) where
  quotas : QuotaManager T
  tasks : Finset String
  requests : List GuardedRequest

/-- A request enters its guard, or the request at an index takes its next step. -/
inductive GuardEvent (T : Type) where
  | enter (tenantId taskId : String) (estimatedInputTokens : Int) (now : T)
  | thinkEnds (i : Nat)
  | resumes (i : Nat)
  | leaves (i : Nat)

section Guard

variable {T : Type}

/-- The executions of `think` in flight for a tenant. -/
def GuardState.inFlight (s : GuardState T) (tenantId : String) : Nat :=
  (s.requests.filter fun r => r.tenantId = tenantId ∧ r.phase = .thinking).length

/-- The tasks of the requests of a tenant. -/
def taskIds (requests : List GuardedRequest) (tenantId : String) : List String :=
  (requests.filter fun r => r.tenantId = tenantId).map GuardedRequest.taskId

/-- `execute_with_cancellation` (cancellation.py:32), until it waits. A task that is in progress
already raises, and the guard untracks the task. -/
def executeWithCancellation (s : GuardState T) (tenantId taskId : String) : GuardState T :=
  if taskId ∈ s.tasks then
    { s with quotas := s.quotas.untrackActiveTask false tenantId taskId .ok }
  else
    { s with
      tasks := insert taskId s.tasks
      requests := s.requests ++ [⟨tenantId, taskId, .thinking⟩] }

/-- The request at an index, if it is in a phase. -/
def GuardState.at (s : GuardState T) (i : Nat) (phase : Phase) : Option GuardedRequest :=
  s.requests[i]?.filter fun r => r.phase = phase

variable [Ring T] [LinearOrder T] (cfg : ServerConfig)

/-- `check_quota` at the entry of a guard. -/
def GuardState.check (s : GuardState T) (tenantId : String) (estimatedInputTokens : Int) (now : T) :
    Except PyExc Unit :=
  s.quotas.checkQuota false (cfg.getQuota tenantId) tenantId now estimatedInputTokens .ok

/-- The state after `check_quota` has passed. -/
def GuardState.enterGuard (s : GuardState T) (tenantId taskId : String) (now : T) : GuardState T :=
  executeWithCancellation
    { s with quotas := s.quotas.trackActiveTask false tenantId taskId now .ok .ok } tenantId taskId

/-- A step of the server. -/
def guardStep (s : GuardState T) : GuardEvent T → Option (GuardState T)
  | .enter tenantId taskId estimatedInputTokens now =>
    match s.check cfg tenantId estimatedInputTokens now with
    -- status 429
    | .error _ => some s
    | .ok () => some (s.enterGuard tenantId taskId now)
  | .thinkEnds i =>
    (s.at i .thinking).map fun r =>
      { s with requests := s.requests.set i { r with phase := .ended } }
  | .resumes i =>
    (s.at i .ended).map fun r =>
      { s with
        tasks := s.tasks.erase r.taskId
        requests := s.requests.set i { r with phase := .leaving } }
  | .leaves i =>
    (s.at i .leaving).map fun r =>
      { s with
        quotas := s.quotas.untrackActiveTask false r.tenantId r.taskId .ok
        requests := s.requests.eraseIdx i }

/-- The server, without requests at first. -/
def guardSystem : System (GuardState T) (GuardEvent T) where
  init := ⟨.new, ∅, []⟩
  step := guardStep cfg

/-- The condition on a state and an event: a request of the tenant that passes the quota check has
another task than the requests of the tenant that are inside their guards. -/
def FreshTask (tenantId : String) (s : GuardState T) : GuardEvent T → Prop
  | .enter tenantId' taskId estimatedInputTokens now =>
    tenantId' = tenantId → s.check cfg tenantId' estimatedInputTokens now = .ok () →
      taskId ∉ taskIds s.requests tenantId
  | .thinkEnds _ => True
  | .resumes _ => True
  | .leaves _ => True

instance decidableFreshTask (tenantId : String) (s : GuardState T) (e : GuardEvent T) :
    Decidable (FreshTask cfg tenantId s e) :=
  match e with
  | .enter tenantId' taskId estimatedInputTokens now =>
    inferInstanceAs (Decidable (tenantId' = tenantId →
      s.check cfg tenantId' estimatedInputTokens now = .ok () → taskId ∉ taskIds s.requests tenantId))
  | .thinkEnds _ => instDecidableTrue
  | .resumes _ => instDecidableTrue
  | .leaves _ => instDecidableTrue

/-- The tracked tasks of a tenant are the tasks of its requests, which are all different and within
its limit. -/
structure GuardInv (tenantId : String) (s : GuardState T) : Prop where
  tracked : s.quotas.tasksIn tenantId .memory = (taskIds s.requests tenantId).toFinset
  nodup : (taskIds s.requests tenantId).Nodup
  bounded : ((taskIds s.requests tenantId).length : Int) ≤ (cfg.getQuota tenantId).maxConcurrentTasks

end Guard

/-! ## The tasks of a tenant -/

section TaskIds

variable {requests : List GuardedRequest} {tenantId : String} {i : Nat} {r : GuardedRequest}

theorem taskIds_eq (requests : List GuardedRequest) (tenantId : String) :
    taskIds requests tenantId =
      ((requests.map fun r => (r.tenantId, r.taskId)).filter fun p => p.1 = tenantId).map
        Prod.snd := by
  rw [List.filter_map, List.map_map]
  rfl

/-- A request that changes its phase keeps its task. -/
theorem taskIds_set (hr : requests[i]? = some r) (phase : Phase) :
    taskIds (requests.set i { r with phase }) tenantId = taskIds requests tenantId := by
  obtain ⟨hlt, hr⟩ := List.getElem?_eq_some_iff.mp hr
  have hkey : (r.tenantId, r.taskId) =
      (requests.map fun r => (r.tenantId, r.taskId)).get ⟨i, by rwa [List.length_map]⟩ := by
    rw [List.get_eq_getElem, List.getElem_map, hr]
  rw [taskIds_eq, taskIds_eq, List.map_set, hkey, List.get_eq_getElem, List.set_getElem_self]

/-- A request that is gone takes its task away. -/
theorem taskIds_eraseIdx (tenantId : String) (hr : requests[i]? = some r) :
    (taskIds requests tenantId).Perm (taskIds (r :: requests.eraseIdx i) tenantId) := by
  obtain ⟨hlt, rfl⟩ := List.getElem?_eq_some_iff.mp hr
  exact (((List.getElem_cons_eraseIdx_perm hlt).symm).filter _).map _

theorem taskIds_cons (r : GuardedRequest) (requests : List GuardedRequest) (tenantId : String) :
    taskIds (r :: requests) tenantId =
      if r.tenantId = tenantId then r.taskId :: taskIds requests tenantId
      else taskIds requests tenantId := by
  by_cases heq : r.tenantId = tenantId
  · simp [taskIds, heq]
  · simp [taskIds, heq]

theorem taskIds_append (requests requests' : List GuardedRequest) (tenantId : String) :
    taskIds (requests ++ requests') tenantId =
      taskIds requests tenantId ++ taskIds requests' tenantId := by
  rw [taskIds, List.filter_append, List.map_append, taskIds, taskIds]

/-- No more executions are in flight for a tenant than it has requests. -/
theorem inFlight_le_taskIds {T : Type} (s : GuardState T) (tenantId : String) :
    s.inFlight tenantId ≤ (taskIds s.requests tenantId).length := by
  rw [GuardState.inFlight, taskIds, List.length_map, ← List.countP_eq_length_filter,
    ← List.countP_eq_length_filter]
  exact List.countP_mono_left fun r _ hr => by simpa using (of_decide_eq_true hr).1

end TaskIds

/-! ## The steps of the guard -/

section Steps

variable {T : Type} {tenantId tenantId' taskId taskId' : String} {cfg : ServerConfig}
  {m : QuotaManager T} {s s' : GuardState T}

theorem tasksIn_untrack (m : QuotaManager T) (tenantId tenantId' taskId' : String) :
    (m.untrackActiveTask false tenantId' taskId' .ok).tasksIn tenantId .memory =
    if tenantId' = tenantId then (m.tasksIn tenantId .memory).erase taskId'
    else m.tasksIn tenantId .memory := by
  have hclears : Clears false .ok .memory := fun h => absurd h Bool.false_ne_true
  ext taskId
  rw [QuotaManager.mem_untrackActiveTask, and_iff_left hclears]
  by_cases heq : tenantId' = tenantId
  · rw [if_pos heq, Finset.mem_erase, and_iff_right heq, and_comm]
    exact and_congr_left' (not_congr eq_comm)
  · rw [if_neg heq]
    exact and_iff_left fun h => heq h.1

variable [Ring T] [LinearOrder T]

theorem tasksIn_track (now : T) :
    (m.trackActiveTask false tenantId' taskId' now .ok .ok).tasksIn tenantId .memory =
      if tenantId' = tenantId then insert taskId' (m.tasksIn tenantId .memory)
      else m.tasksIn tenantId .memory := by
  have hwrites : Writes false .ok .ok .memory := fun h => absurd h Bool.false_ne_true
  ext taskId
  rw [QuotaManager.mem_trackActiveTask, and_iff_left hwrites]
  by_cases heq : tenantId' = tenantId
  · rw [if_pos heq, Finset.mem_insert, and_iff_right heq, eq_comm]
  · rw [if_neg heq]
    exact or_iff_right fun h => heq h.1

/-- A tenant that passes the check has room for one more task. -/
theorem card_lt_of_check {estimatedInputTokens : Int} {now : T}
    (h : s.check cfg tenantId estimatedInputTokens now = .ok ()) :
    ((s.quotas.tasksIn tenantId .memory).card : Int) <
      (cfg.getQuota tenantId).maxConcurrentTasks := by
  rw [GuardState.check, QuotaManager.checkQuota] at h
  split at h
  · cases h
  · dsimp only at h
    split at h
    · cases h
    · split at h
      · cases h
      next hroom => exact not_le.mp hroom

/-- What entering the guard does to the tasks of a tenant: those of another tenant stay, and a task
of its own is added, or, when the registry has it already, taken out by the `finally` of the guard.
-/
theorem enterGuard_spec (tenantId : String) (s : GuardState T) (tenantId' taskId : String) (now : T) :
    (taskId ∈ s.tasks ∧ (s.enterGuard tenantId' taskId now).requests = s.requests ∧
        (s.enterGuard tenantId' taskId now).quotas.tasksIn tenantId .memory =
          if tenantId' = tenantId then (s.quotas.tasksIn tenantId .memory).erase taskId
          else s.quotas.tasksIn tenantId .memory) ∨
      ((s.enterGuard tenantId' taskId now).requests = s.requests ++ [⟨tenantId', taskId, .thinking⟩] ∧
        (s.enterGuard tenantId' taskId now).quotas.tasksIn tenantId .memory =
          if tenantId' = tenantId then insert taskId (s.quotas.tasksIn tenantId .memory)
          else s.quotas.tasksIn tenantId .memory) := by
  rw [GuardState.enterGuard, executeWithCancellation]
  dsimp only
  split
  next hmem =>
    refine .inl ⟨hmem, rfl, ?_⟩
    show (QuotaManager.untrackActiveTask false _ tenantId' taskId .ok).tasksIn _ _ = _
    rw [tasksIn_untrack, tasksIn_track]
    by_cases heq : tenantId' = tenantId
    · rw [if_pos heq, if_pos heq, if_pos heq, Finset.erase_insert_eq_erase]
    · rw [if_neg heq, if_neg heq, if_neg heq]
  next => exact .inr ⟨rfl, tasksIn_track now⟩

omit [Ring T] [LinearOrder T] in
theorem at_eq_some {i : Nat} {phase : Phase} {r : GuardedRequest} (h : s.at i phase = some r) :
    s.requests[i]? = some r ∧ r.phase = phase := by
  obtain ⟨hr, hphase⟩ := Option.filter_eq_some_iff.mp h
  exact ⟨hr, of_decide_eq_true hphase⟩

omit [Ring T] [LinearOrder T] in
/-- The invariant is about the tasks of the tenant only. -/
theorem GuardInv.of_same (hinv : GuardInv cfg tenantId s)
    (hids : taskIds s'.requests tenantId = taskIds s.requests tenantId)
    (htasks : s'.quotas.tasksIn tenantId .memory = s.quotas.tasksIn tenantId .memory) :
    GuardInv cfg tenantId s' where
  tracked := by rw [htasks, hids, hinv.tracked]
  nodup := by rw [hids]; exact hinv.nodup
  bounded := by rw [hids]; exact hinv.bounded

/-- A request that passes the check and has a new task keeps the invariant. -/
theorem GuardInv.enterGuard {estimatedInputTokens : Int} {now : T} (hinv : GuardInv cfg tenantId s)
    (hcheck : s.check cfg tenantId' estimatedInputTokens now = .ok ())
    (hfresh : tenantId' = tenantId → taskId ∉ taskIds s.requests tenantId) :
    GuardInv cfg tenantId (s.enterGuard tenantId' taskId now) := by
  by_cases heq : tenantId' = tenantId
  · subst heq
    have hnew : taskId ∉ s.quotas.tasksIn tenantId' .memory := by
      rw [hinv.tracked, List.mem_toFinset]
      exact hfresh rfl
    rcases enterGuard_spec tenantId' s tenantId' taskId now with
      ⟨-, hrequests, htasks⟩ | ⟨hrequests, htasks⟩
    -- the task of another tenant is in progress: nothing is left of this request
    · rw [if_pos rfl, Finset.erase_eq_of_notMem hnew] at htasks
      exact hinv.of_same (by rw [hrequests]) htasks
    · have hids : taskIds (s.enterGuard tenantId' taskId now).requests tenantId' =
          taskIds s.requests tenantId' ++ [taskId] := by
        rw [hrequests, taskIds_append, taskIds_cons, if_pos rfl]
        rfl
      rw [if_pos rfl] at htasks
      have hroom := card_lt_of_check hcheck
      rw [hinv.tracked, List.toFinset_card_of_nodup hinv.nodup] at hroom
      constructor
      case tracked =>
        rw [htasks, hids, hinv.tracked, List.toFinset_append, Finset.union_comm]
        rfl
      case nodup =>
        rw [hids]
        exact hinv.nodup.append (List.nodup_singleton _)
          (List.disjoint_singleton.mpr (hfresh rfl))
      case bounded =>
        rw [hids, List.length_append, List.length_singleton]
        exact_mod_cast hroom
  · rcases enterGuard_spec tenantId s tenantId' taskId now with
      ⟨-, hrequests, htasks⟩ | ⟨hrequests, htasks⟩
    · rw [if_neg heq] at htasks
      exact hinv.of_same (by rw [hrequests]) htasks
    · rw [if_neg heq] at htasks
      refine hinv.of_same ?_ htasks
      rw [hrequests, taskIds_append, taskIds_cons, if_neg heq]
      exact List.append_nil _

omit [Ring T] [LinearOrder T] in
/-- A request that leaves its guard takes its task out of both. -/
theorem GuardInv.leave {i : Nat} {r : GuardedRequest} (hinv : GuardInv cfg tenantId s)
    (hr : s.requests[i]? = some r) :
    GuardInv cfg tenantId
      { s with
        quotas := s.quotas.untrackActiveTask false r.tenantId r.taskId .ok
        requests := s.requests.eraseIdx i } := by
  have hperm := taskIds_eraseIdx tenantId hr
  have htasks := tasksIn_untrack s.quotas tenantId r.tenantId r.taskId
  rw [taskIds_cons] at hperm
  -- The task of the request is taken out of both sides, if the request is of this tenant. It was
  -- there once only, so that the set of the others does not have it.
  by_cases heq : r.tenantId = tenantId
  · rw [if_pos heq] at hperm htasks
    have hnodup := hperm.nodup_iff.mp hinv.nodup
    obtain ⟨hnotMem, hrest⟩ := List.nodup_cons.mp hnodup
    constructor
    case tracked =>
      show QuotaManager.tasksIn _ _ _ = (taskIds (s.requests.eraseIdx i) tenantId).toFinset
      rw [htasks, hinv.tracked, List.toFinset_eq_of_perm _ _ hperm, List.toFinset_cons,
        Finset.erase_insert (by rwa [List.mem_toFinset])]
    case nodup => exact hrest
    case bounded =>
      have hlength := hperm.length_eq
      rw [List.length_cons] at hlength
      have hle := hinv.bounded
      show ((taskIds (s.requests.eraseIdx i) tenantId).length : Int) ≤ _
      omega
  · rw [if_neg heq] at hperm htasks
    constructor
    case tracked =>
      show QuotaManager.tasksIn _ _ _ = (taskIds (s.requests.eraseIdx i) tenantId).toFinset
      rw [htasks, hinv.tracked, List.toFinset_eq_of_perm _ _ hperm]
    case nodup => exact hperm.nodup_iff.mp hinv.nodup
    case bounded =>
      show ((taskIds (s.requests.eraseIdx i) tenantId).length : Int) ≤ _
      rw [← hperm.length_eq]
      exact hinv.bounded

/-- The steps that meet the condition keep the invariant. -/
theorem guardInv_step {e : GuardEvent T} (hinv : GuardInv cfg tenantId s)
    (hfresh : FreshTask cfg tenantId s e) (hstep : (guardSystem cfg).step s e = some s') :
    GuardInv cfg tenantId s' := by
  cases e with
  | enter tenantId' taskId estimatedInputTokens now =>
    change guardStep cfg s (.enter tenantId' taskId estimatedInputTokens now) = some s' at hstep
    rw [guardStep] at hstep
    split at hstep
    · cases hstep
      exact hinv
    next hcheck =>
      cases hstep
      -- The condition is needed here only: the other steps bring no new task.
      exact hinv.enterGuard hcheck fun heq => hfresh heq hcheck
  | thinkEnds i =>
    obtain ⟨r, hr, rfl⟩ := Option.map_eq_some_iff.mp hstep
    exact hinv.of_same (taskIds_set (at_eq_some hr).1 .ended) rfl
  | resumes i =>
    obtain ⟨r, hr, rfl⟩ := Option.map_eq_some_iff.mp hstep
    exact hinv.of_same (taskIds_set (at_eq_some hr).1 .leaving) rfl
  | leaves i =>
    obtain ⟨r, hr, rfl⟩ := Option.map_eq_some_iff.mp hstep
    exact hinv.leave (at_eq_some hr).1

/-- **The concurrency quota.** A tenant has no more executions of `think` in flight than its limit
allows, all along a run in which its requests that pass the check have new task ids. Nothing is
asked of the requests of other tenants, nor of requests that are refused. -/
theorem inFlight_le (cfg : ServerConfig) {tenantId : String}
    (hlimit : 0 ≤ (cfg.getQuota tenantId).maxConcurrentTasks)
    {steps : List (GuardState T × GuardEvent T)} {s : GuardState T}
    (run : (guardSystem cfg).Run steps s) (hfresh : System.Meets (FreshTask cfg tenantId) steps) :
    System.Always
      (fun s => (s.inFlight tenantId : Int) ≤ (cfg.getQuota tenantId).maxConcurrentTasks)
      steps s := by
  have hinit : GuardInv cfg tenantId (guardSystem (T := T) cfg).init :=
    ⟨rfl, List.nodup_nil, hlimit⟩
  refine (run.always_of_meets hinit ?_ hfresh).imp ?_
  · intro s e s' hinv hmeet hstep
    exact guardInv_step hinv hmeet hstep
  · intro s hinv
    exact (Int.ofNat_le.mpr (inFlight_le_taskIds s tenantId)).trans hinv.bounded

/-- A server on which every tenant may have two tasks. -/
def twoTasks : ServerConfig :=
  { twoTenants with quotas := fun _ => some { maxConcurrentTasks := 2 } }

/-- Two tasks of a tenant, and a third one that is refused until the first is over. A task of
another tenant is in between. -/
def threeTasks : List (GuardEvent Int) :=
  [.enter "a" "x" 0 0, .enter "b" "w" 0 0, .enter "a" "y" 0 0, .enter "a" "z" 0 1, .thinkEnds 0,
    .resumes 0, .leaves 0, .enter "a" "z" 0 2]

theorem inFlight_le_threeTasks : ∃ steps s, (guardSystem (T := Int) twoTasks).Run steps s ∧
    s.requests.map GuardedRequest.taskId = ["w", "y", "z"] ∧
      System.Always (fun s => (s.inFlight "a" : Int) ≤ (twoTasks.getQuota "a").maxConcurrentTasks)
        steps s := by
  let S := (guardSystem (T := Int) twoTasks).guard (FreshTask twoTasks "a")
  have hend : (S.exec S.init threeTasks).map (fun s => s.requests.map GuardedRequest.taskId) =
      some ["w", "y", "z"] := by
    decide +kernel
  obtain ⟨s, hs, hrequests⟩ := Option.map_eq_some_iff.mp hend
  obtain ⟨steps, run⟩ := System.reachable_of_exec _ hs
  obtain ⟨run, hfresh⟩ := run.of_guard
  exact ⟨steps, s, run, hrequests, inFlight_le twoTasks (by decide) run hfresh⟩

/-- A repeated task is refused, but its guard untracks the task that is in progress. -/
theorem repeated_task_exceeds_limit :
    ((guardSystem twoTasks).exec ⟨.new, ∅, []⟩
      [.enter "a" "x" 0 (0 : Int), .enter "a" "x" 0 0, .enter "a" "y" 0 0, .enter "a" "z" 0 0]).map
        (fun s => ((s.inFlight "a" : Int), (twoTasks.getQuota "a").maxConcurrentTasks)) =
          some (3, 2) := by
  decide +kernel

end Steps

end Noema.Api
