import Noema.Lib.LastWrite
import Noema.Lib.PyRuntime

/-!
# Tracking of active tasks (`billing/quotas.py`)

A `QuotaManager` keeps the active tasks of a tenant in a set in Redis. A call whose Redis commands
raise goes to a set in memory instead, as does every call of a manager without Redis. Counting reads
one of the two sets: Redis, or the memory when Redis raises.

So a task may be tracked in one store and untracked in the other. A command may also have been
applied although the client saw an exception (`Reply`), and a key may expire in Redis at any time.
All of this is an event of a sequence (`QuotaEvent`), with any replies.

- `mem_tasksIn_iff`: what a set holds after a sequence of calls: the tasks of which the last write
  to this store was an addition.
- `tasksIn_eq_empty_iff`: so a set is empty if and only if everything was taken out again.
- **`activeTaskCount_eq_zero_iff`**: all counts of a tenant are zero, whichever store answers, if
  and only if what a call wrote to a store was taken out of that store later (`Undone`).
- `outage_activeTaskCount`: a task tracked before an outage and untracked during it.

`checkQuota` is here with the limits it compares; the order of its checks is the source's.
-/

namespace Noema.Billing

open Noema.Lib

/-- How a Redis command ends: with its reply, or with an exception that came before or after the
server applied it. -/
inductive Reply where
  | ok
  | raised (applied : Bool)
  deriving DecidableEq, Repr

/-- The server applied the command. -/
def Reply.applied : Reply → Bool
  | .ok => true
  | .raised applied => applied

/-- The client saw an exception. -/
def Reply.raises : Reply → Bool
  | .ok => false
  | .raised _ => true

/-- A `QuotaManager` with the sets of its Redis. -/
structure QuotaManager (T : Type) where
  redis : String → Finset String
  activeTasks : String → Option (Finset String)
  taskStarts : String → Option (List T)

/-- The key of the set of a tenant. -/
def activeTasksKey (tenantId : String) : String := "tenant:" ++ tenantId ++ ":active_tasks"

theorem activeTasksKey_inj {tenantId tenantId' : String} :
    activeTasksKey tenantId = activeTasksKey tenantId' ↔ tenantId = tenantId' := by
  rw [activeTasksKey, activeTasksKey, String.append_left_inj, String.append_right_inj]

/-- `TenantQuota`: the limits of a tenant. -/
structure TenantQuota where
  maxConcurrentTasks : Int := 5
  maxTasksPerHour : Int := 100
  maxInputTokensPerTask : Int := 100000

/-- `QuotaExceededError`. -/
def quotaExceeded (msg : String) : PyExc := .custom "QuotaExceededError" msg

/-- What happens to the sets: a call with the replies to its commands, or the end of a key. -/
inductive QuotaEvent (T : Type) where
  | track (tenantId taskId : String) (now : T) (sadd expire : Reply)
  | untrack (tenantId taskId : String) (srem : Reply)
  | expired (key : String)
  deriving DecidableEq

namespace QuotaManager

variable {T : Type}

/-- A new manager on an empty Redis. -/
def new : QuotaManager T := ⟨fun _ => ∅, fun _ => none, fun _ => none⟩

/-- `_active_tasks.setdefault(tenant_id, set()).add(task_id)`. -/
def add (m : QuotaManager T) (tenantId taskId : String) : QuotaManager T :=
  { m with
    activeTasks := Function.update m.activeTasks tenantId
      (some (insert taskId ((m.activeTasks tenantId).getD ∅))) }

/-- `_active_tasks.get(tenant_id, set()).discard(task_id)`. -/
def discard (m : QuotaManager T) (tenantId taskId : String) : QuotaManager T :=
  { m with
    activeTasks := Function.update m.activeTasks tenantId
      ((m.activeTasks tenantId).map fun tasks => tasks.erase taskId) }

/-- The set of a key in Redis after a command, if the server applied it. -/
def command (m : QuotaManager T) (key : String) (reply : Reply)
    (f : Finset String → Finset String) : QuotaManager T :=
  if reply.applied then { m with redis := Function.update m.redis key (f (m.redis key)) } else m

/-- `_get_active_task_count` (quotas.py:213). -/
def getActiveTaskCount (hasRedis : Bool) (m : QuotaManager T) (tenantId : String) (scard : Reply) :
    Nat :=
  if hasRedis ∧ ¬ scard.raises then (m.redis (activeTasksKey tenantId)).card
  else ((m.activeTasks tenantId).getD ∅).card

/-- `untrack_active_task` (quotas.py:161). -/
def untrackActiveTask (hasRedis : Bool) (m : QuotaManager T) (tenantId taskId : String)
    (srem : Reply) : QuotaManager T :=
  if hasRedis then
    let m := m.command (activeTasksKey tenantId) srem fun tasks => tasks.erase taskId
    if srem.raises then m.discard tenantId taskId else m
  else m.discard tenantId taskId

variable [Ring T] [LinearOrder T]

/-- The times in `_task_starts`, of the last two hours. -/
def start (m : QuotaManager T) (tenantId : String) (now : T) : QuotaManager T :=
  { m with
    taskStarts := Function.update m.taskStarts tenantId
      (some (((m.taskStarts tenantId).getD [] ++ [now]).filter fun t => now - 7200 ≤ t)) }

/-- `track_active_task` (quotas.py:145). `EXPIRE` is sent when `SADD` did not raise. -/
def trackActiveTask (hasRedis : Bool) (m : QuotaManager T) (tenantId taskId : String) (now : T)
    (sadd expire : Reply) : QuotaManager T :=
  let m := m.start tenantId now
  if hasRedis then
    let m := m.command (activeTasksKey tenantId) sadd fun tasks => insert taskId tasks
    if sadd.raises ∨ expire.raises then m.add tenantId taskId else m
  else m.add tenantId taskId

/-- `_get_hourly_task_count` (quotas.py:195), without a database. -/
def getHourlyTaskCount (m : QuotaManager T) (tenantId : String) (now : T) : Nat :=
  (((m.taskStarts tenantId).getD []).filter fun t => now - 3600 ≤ t).length

/-- `check_quota` (quotas.py:112), for a task without an estimated cost. -/
def checkQuota (hasRedis : Bool) (m : QuotaManager T) (quota : TenantQuota) (tenantId : String)
    (now : T) (estimatedInputTokens : Int) (scard : Reply) : Except PyExc Unit :=
  if 0 < estimatedInputTokens ∧ 0 < quota.maxInputTokensPerTask ∧
      quota.maxInputTokensPerTask < estimatedInputTokens then
    .error (quotaExceeded ("Estimated input tokens " ++ toString estimatedInputTokens ++
      " exceed the per-task cap of " ++ toString quota.maxInputTokensPerTask))
  else
    let hourly := m.getHourlyTaskCount tenantId now
    if quota.maxTasksPerHour ≤ hourly then
      .error (quotaExceeded ("Hourly limit " ++ toString hourly ++ " >= " ++
        toString quota.maxTasksPerHour))
    else
      -- the active tasks are those of Redis, if that answers
      let active := m.getActiveTaskCount hasRedis tenantId scard
      if quota.maxConcurrentTasks ≤ active then
        .error (quotaExceeded ("Concurrent tasks " ++ toString active ++ " >= " ++
          toString quota.maxConcurrentTasks))
      else .ok ()

/-- The manager after an event. -/
def apply (hasRedis : Bool) (m : QuotaManager T) : QuotaEvent T → QuotaManager T
  | .track tenantId taskId now sadd expire =>
    m.trackActiveTask hasRedis tenantId taskId now sadd expire
  | .untrack tenantId taskId srem => m.untrackActiveTask hasRedis tenantId taskId srem
  | .expired key => { m with redis := Function.update m.redis key ∅ }

/-- A manager after a sequence of events. -/
def run (hasRedis : Bool) (events : List (QuotaEvent T)) : QuotaManager T :=
  events.foldl (apply hasRedis) new

end QuotaManager

/-! ## The two sets of a tenant -/

/-- The two places of a task. -/
inductive Store where
  | redis
  | memory
  deriving DecidableEq

section Stores

variable {T : Type}

/-- The tasks of a tenant in a store. -/
def QuotaManager.tasksIn (m : QuotaManager T) (tenantId : String) : Store → Finset String
  | .redis => m.redis (activeTasksKey tenantId)
  | .memory => (m.activeTasks tenantId).getD ∅

/-- A `track` call writes to Redis when its `SADD` is applied, and to memory when a command
raises or there is no Redis. -/
def Writes (hasRedis : Bool) (sadd expire : Reply) : Store → Prop
  | .redis => hasRedis = true ∧ sadd.applied = true
  | .memory => hasRedis = true → sadd.raises = true ∨ expire.raises = true

/-- An `untrack` call clears Redis when its `SREM` is applied, and memory when that raises or
there is no Redis. -/
def Clears (hasRedis : Bool) (srem : Reply) : Store → Prop
  | .redis => hasRedis = true ∧ srem.applied = true
  | .memory => hasRedis = true → srem.raises = true

/-- The event puts the task of the tenant into the store. -/
def QuotaEvent.Puts (hasRedis : Bool) (tenantId taskId : String) (store : Store) :
    QuotaEvent T → Prop
  | .track tenantId' taskId' _ sadd expire =>
    (tenantId' = tenantId ∧ taskId' = taskId) ∧ Writes hasRedis sadd expire store
  | .untrack .. => False
  | .expired _ => False

/-- The event takes the task of the tenant out of the store; the end of its key clears Redis. -/
def QuotaEvent.Takes (hasRedis : Bool) (tenantId taskId : String) (store : Store) :
    QuotaEvent T → Prop
  | .track .. => False
  | .untrack tenantId' taskId' srem =>
    (tenantId' = tenantId ∧ taskId' = taskId) ∧ Clears hasRedis srem store
  | .expired key => store = .redis ∧ key = activeTasksKey tenantId

/-- Whatever a `track` call wrote to a store is taken out of it later. -/
def Undone (hasRedis : Bool) (tenantId : String) (events : List (QuotaEvent T)) : Prop :=
  ∀ store taskId before e after, events = before ++ e :: after →
    e.Puts hasRedis tenantId taskId store → ∃ e' ∈ after, e'.Takes hasRedis tenantId taskId store

/-- Every tracked task is later untracked. -/
def Balanced (events : List (QuotaEvent T)) : Prop :=
  ∀ before tenantId taskId now sadd expire after,
    events = before ++ .track tenantId taskId now sadd expire :: after →
    ∃ srem, .untrack tenantId taskId srem ∈ after

namespace QuotaManager

variable {m : QuotaManager T} {tenantId tenantId' taskId taskId' : String}

theorem mem_add : taskId ∈ (m.add tenantId' taskId').tasksIn tenantId .memory ↔
    (tenantId' = tenantId ∧ taskId' = taskId) ∨ taskId ∈ m.tasksIn tenantId .memory := by
  show taskId ∈ (Function.update m.activeTasks tenantId' _ tenantId).getD ∅ ↔ _
  by_cases heq : tenantId' = tenantId
  · rw [heq, Function.update_self, Option.getD_some, Finset.mem_insert, and_iff_right rfl, eq_comm,
      tasksIn]
  · rw [Function.update_of_ne (Ne.symm heq), or_iff_right fun h => heq h.1, tasksIn]

theorem mem_discard : taskId ∈ (m.discard tenantId' taskId').tasksIn tenantId .memory ↔
    taskId ∈ m.tasksIn tenantId .memory ∧ ¬ (tenantId' = tenantId ∧ taskId' = taskId) := by
  show taskId ∈ (Function.update m.activeTasks tenantId' _ tenantId).getD ∅ ↔ _
  by_cases heq : tenantId' = tenantId
  · rw [heq, Function.update_self, and_iff_right rfl, tasksIn]
    rcases m.activeTasks tenantId with _ | tasks
    · exact iff_of_false (Finset.notMem_empty _) fun h => Finset.notMem_empty _ h.1
    · rw [Option.map_some, Option.getD_some, Option.getD_some, Finset.mem_erase, and_comm, ne_comm]
  · rw [Function.update_of_ne (Ne.symm heq), and_iff_left fun h => heq h.1, tasksIn]

theorem tasksIn_command (reply : Reply) (f : Finset String → Finset String) :
    (m.command (activeTasksKey tenantId') reply f).tasksIn tenantId .redis =
      if reply.applied = true ∧ tenantId' = tenantId then f (m.tasksIn tenantId .redis)
      else m.tasksIn tenantId .redis := by
  rw [command]
  by_cases happlied : reply.applied = true
  · rw [if_pos happlied]
    show Function.update m.redis _ _ _ = _
    by_cases heq : tenantId' = tenantId
    · rw [if_pos ⟨happlied, heq⟩, heq, Function.update_self, tasksIn]
    · rw [if_neg fun h => heq h.2, Function.update_of_ne, tasksIn]
      exact fun h => heq (activeTasksKey_inj.mp h).symm
  · rw [if_neg happlied, if_neg fun h => happlied h.1]

theorem tasksIn_command_memory (key : String) (reply : Reply)
    (f : Finset String → Finset String) :
    (m.command key reply f).tasksIn tenantId .memory = m.tasksIn tenantId .memory := by
  rw [command]
  split
  · rfl
  · rfl

theorem mem_untrackActiveTask {hasRedis : Bool} {srem : Reply} {store : Store} :
    taskId ∈ (m.untrackActiveTask hasRedis tenantId' taskId' srem).tasksIn tenantId store ↔
      taskId ∈ m.tasksIn tenantId store ∧
        ¬ ((tenantId' = tenantId ∧ taskId' = taskId) ∧ Clears hasRedis srem store) := by
  rw [untrackActiveTask]
  cases hasRedis with
  -- without Redis the set of the process is all there is
  | false =>
    rw [if_neg Bool.false_ne_true]
    cases store with
    | redis => exact (and_iff_left fun h => Bool.false_ne_true h.2.1).symm
    | memory =>
      rw [mem_discard, and_iff_left (a := tenantId' = tenantId ∧ _)]
      exact fun h => absurd h Bool.false_ne_true
  | true =>
    rw [if_pos rfl]
    dsimp only
    cases store with
    | redis =>
      have hset : taskId ∈ ((m.command (activeTasksKey tenantId') srem fun tasks =>
          tasks.erase taskId').tasksIn tenantId .redis) ↔ taskId ∈ m.tasksIn tenantId .redis ∧
            ¬ ((tenantId' = tenantId ∧ taskId' = taskId) ∧ Clears true srem .redis) := by
        rw [tasksIn_command]
        split
        next h =>
          have hclears : Clears true srem .redis := ⟨rfl, h.1⟩
          rw [Finset.mem_erase, and_comm, ne_comm, and_iff_right h.2, and_iff_left hclears]
        next h => exact (and_iff_left fun hall => h ⟨hall.2.2, hall.1.1⟩).symm
      split
      · exact hset
      · exact hset
    | memory =>
      split
      -- the fallback of a command that raised
      next hraises =>
        rw [mem_discard, tasksIn_command_memory, Clears, and_iff_left fun _ => hraises]
      next hreply =>
        rw [tasksIn_command_memory]
        exact (and_iff_left fun h => hreply (h.2 rfl)).symm

variable [Ring T] [LinearOrder T]

theorem mem_trackActiveTask {hasRedis : Bool} {now : T} {sadd expire : Reply} {store : Store} :
    taskId ∈ (m.trackActiveTask hasRedis tenantId' taskId' now sadd expire).tasksIn tenantId store ↔
      ((tenantId' = tenantId ∧ taskId' = taskId) ∧ Writes hasRedis sadd expire store) ∨
        taskId ∈ m.tasksIn tenantId store := by
  have hstart : ∀ store, (m.start tenantId' now).tasksIn tenantId store = m.tasksIn tenantId store
    | .redis => rfl
    | .memory => rfl
  rw [trackActiveTask]
  cases hasRedis with
  -- without Redis the set of the process is all there is
  | false =>
    dsimp only
    rw [if_neg Bool.false_ne_true]
    cases store with
    | redis => exact (or_iff_right fun h => Bool.false_ne_true h.2.1).symm
    | memory =>
      rw [mem_add, hstart, and_iff_left (a := tenantId' = tenantId ∧ _)]
      exact fun h => absurd h Bool.false_ne_true
  | true =>
    dsimp only
    rw [if_pos rfl]
    cases store with
    | redis =>
      have hset : taskId ∈ (((m.start tenantId' now).command (activeTasksKey tenantId') sadd
          fun tasks => insert taskId' tasks).tasksIn tenantId .redis) ↔
            ((tenantId' = tenantId ∧ taskId' = taskId) ∧ Writes true sadd expire .redis) ∨
              taskId ∈ m.tasksIn tenantId .redis := by
        rw [tasksIn_command, hstart]
        split
        next h =>
          have hwrites : Writes true sadd expire .redis := ⟨rfl, h.1⟩
          rw [Finset.mem_insert, eq_comm, and_iff_right h.2, and_iff_left hwrites]
        next h => exact (or_iff_right fun hall => h ⟨hall.2.2, hall.1.1⟩).symm
      split
      · exact hset
      · exact hset
    | memory =>
      split
      -- `EXPIRE` may raise after `SADD` was carried out: then both sets have the task
      next hraises =>
        rw [mem_add, tasksIn_command_memory, hstart, Writes, and_iff_left fun _ => hraises]
      next hreply =>
        rw [tasksIn_command_memory, hstart]
        exact (or_iff_right fun h => hreply (h.2 rfl)).symm

/-- What an event does to a store. -/
theorem mem_apply (hasRedis : Bool) (m : QuotaManager T) (e : QuotaEvent T) (store : Store) :
    taskId ∈ (m.apply hasRedis e).tasksIn tenantId store ↔
      e.Puts hasRedis tenantId taskId store ∨
        taskId ∈ m.tasksIn tenantId store ∧ ¬ e.Takes hasRedis tenantId taskId store := by
  cases e with
  | track tenantId' taskId' now sadd expire =>
    rw [apply, mem_trackActiveTask]
    exact or_congr_right (and_iff_left id).symm
  | untrack tenantId' taskId' srem =>
    rw [apply, mem_untrackActiveTask]
    exact (or_iff_right id).symm
  | expired key =>
    refine Iff.trans ?_ (or_iff_right id).symm
    cases store with
    | memory => exact (and_iff_left fun h => by cases h.1).symm
    | redis =>
      show taskId ∈ Function.update m.redis key ∅ (activeTasksKey tenantId) ↔ _
      rw [Function.update_apply]
      split
      next heq => exact iff_of_false (Finset.notMem_empty _) fun h => h.2 ⟨rfl, heq.symm⟩
      next hne => exact (and_iff_left fun h => hne h.2.symm).symm

/-- A store holds the tasks that a call put there and that no later event took out. -/
theorem mem_tasksIn_iff (hasRedis : Bool) (events : List (QuotaEvent T)) (store : Store) :
    taskId ∈ (run hasRedis events).tasksIn tenantId store ↔
      Survives (QuotaEvent.Puts hasRedis tenantId taskId store)
        (QuotaEvent.Takes hasRedis tenantId taskId store) events := by
  refine foldl_iff_survives (fun m => taskId ∈ m.tasksIn tenantId store)
    (fun m e => mem_apply hasRedis m e store) ?_ events
  cases store with
  | redis => exact Finset.notMem_empty _
  | memory => exact Finset.notMem_empty _

/-- Both stores of a tenant are empty if and only if all is undone. -/
theorem tasksIn_eq_empty_iff (hasRedis : Bool) (events : List (QuotaEvent T)) (tenantId : String) :
    (∀ store, (run hasRedis events).tasksIn tenantId store = ∅) ↔ Undone hasRedis tenantId events := by
  refine forall_congr' ?_
  intro store
  rw [Finset.eq_empty_iff_forall_notMem]
  exact forall_congr' fun taskId => (not_congr (mem_tasksIn_iff hasRedis events store)).trans
    not_survives_iff

end QuotaManager

/-- Two managers agree on all that belongs to a tenant. -/
structure QuotaManager.SameFor (tenantId : String) (m m' : QuotaManager T) : Prop where
  redis : m'.redis (activeTasksKey tenantId) = m.redis (activeTasksKey tenantId)
  activeTasks : m'.activeTasks tenantId = m.activeTasks tenantId
  taskStarts : m'.taskStarts tenantId = m.taskStarts tenantId

theorem QuotaManager.SameFor.refl (tenantId : String) (m : QuotaManager T) :
    QuotaManager.SameFor tenantId m m := ⟨rfl, rfl, rfl⟩

namespace QuotaManager

variable {m : QuotaManager T} {tenantId tenantId' : String}

/-- Without Redis, tracking a task changes nothing of another tenant. -/
theorem sameFor_trackActiveTask [Ring T] [LinearOrder T] (taskId : String) (now : T)
    (sadd expire : Reply) (hne : tenantId ≠ tenantId') :
    SameFor tenantId m (m.trackActiveTask false tenantId' taskId now sadd expire) where
  redis := rfl
  activeTasks := Function.update_of_ne hne _ _
  taskStarts := Function.update_of_ne hne _ _

theorem sameFor_untrackActiveTask (taskId : String) (srem : Reply) (hne : tenantId ≠ tenantId') :
    SameFor tenantId m (m.untrackActiveTask false tenantId' taskId srem) where
  redis := rfl
  activeTasks := Function.update_of_ne hne _ _
  taskStarts := rfl

end QuotaManager

/-! ## The count -/

theorem getActiveTaskCount_eq (hasRedis : Bool) (m : QuotaManager T) (tenantId : String)
    (scard : Reply) : m.getActiveTaskCount hasRedis tenantId scard =
      (m.tasksIn tenantId (if hasRedis ∧ ¬ scard.raises then .redis else .memory)).card := by
  rw [QuotaManager.getActiveTaskCount]
  split
  · rfl
  · rfl

variable [Ring T] [LinearOrder T]

/-- **Balanced accounting.** After a sequence of calls, the active tasks of a tenant are counted as
zero by Redis and by the memory if and only if what a call wrote to a store was taken out of that
store later. The calls may be of any tasks and tenants, in any order, and each command may end in
any way. -/
theorem activeTaskCount_eq_zero_iff (hasRedis : Bool) (events : List (QuotaEvent T))
    (tenantId : String) :
    (∀ scard, (QuotaManager.run hasRedis events).getActiveTaskCount hasRedis tenantId scard = 0) ↔
      Undone hasRedis tenantId events := by
  rw [← QuotaManager.tasksIn_eq_empty_iff]
  simp only [getActiveTaskCount_eq, Finset.card_eq_zero]
  constructor
  · intro h store
    cases hasRedis with
    | true =>
      cases store with
      | redis => exact h .ok
      | memory => exact h (.raised false)
    | false =>
      cases store with
      | memory => exact h .ok
      | redis =>
        -- Without Redis nothing is written there.
        rw [Finset.eq_empty_iff_forall_notMem]
        intro taskId hmem
        obtain ⟨before, e, after, -, hputs, -⟩ := (QuotaManager.mem_tasksIn_iff _ _ _).mp hmem
        cases e with
        | track => exact Bool.false_ne_true hputs.2.1
        | untrack => exact hputs
        | expired => exact hputs
  · intro h scard
    exact h _

/-- `SADD` fails and Redis is back when the task is untracked. -/
def outage : List (QuotaEvent Int) :=
  [.track "t" "a" 0 (.raised false) .ok, .untrack "t" "a" .ok]

/-- The finished task stays in memory, where it is counted when Redis does not answer. -/
theorem outage_activeTaskCount : Balanced outage ∧
    (QuotaManager.run true outage).getActiveTaskCount true "t" (.raised false) = 1 := by
  constructor
  · rintro (_ | ⟨e, _ | ⟨e', before⟩⟩) tenantId taskId now sadd expire after heq
    · cases heq
      exact ⟨.ok, List.mem_singleton_self _⟩
    · cases heq
    · injection heq with _ heq
      injection heq with _ heq
      exact absurd heq.symm (List.append_ne_nil_of_right_ne_nil _ (List.cons_ne_nil _ _))
  · decide +kernel

end Stores

end Noema.Billing
