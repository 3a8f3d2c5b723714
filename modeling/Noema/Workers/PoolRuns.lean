import Noema.Workers.Pool

/-!
# Runs of the worker pool

A task is at one place at a time: with a call that waits for the queue, in the queue, with one
worker, or at its end (`Flow`). What a task says of its function is in the record (`CallInv`).
Together they are the invariant of an orderly run (`PoolInv`), with a rule for every step of a call
(`PoolInv.enqueue`, `PoolInv.finish`) and of a worker (`PoolInv.run`, `PoolInv.funcEnds`).

- `Genuine`: what a call returns or raises is from its function, no function is started twice, and
  after a `shutdown` no call is left at the queue or at an event that is not set.
- `Orderly`: the condition on a step: functions raise nothing but `Exception`s, unless their call
  was cancelled, and a `shutdown` finds no call whose function has not ended.
- **`genuine_of_orderly`**: while every step is orderly, the results are genuine.
- `hasty_not_genuine`: a `shutdown` in between makes a call return what no function returned.
-/

namespace Noema.Workers

open Noema.Lib System

variable {V : Type}

/-- The function whose start is recorded. -/
def PoolRecord.start? : PoolRecord V → Option Nat
  | .started call => some call
  | .ended _ _ => none

/-- The functions that were started. -/
def starts (record : List (PoolRecord V)) : List Nat := record.filterMap PoolRecord.start?

/-- The call has not ended. -/
def SubmitPhase.Pending : SubmitPhase V → Prop
  | .putting => True
  | .waiting => True
  | _ => False

/-- The function has returned or raised. -/
def TaskState.Settled (state : TaskState) : Prop := state = .completed ∨ state = .failed

/-! ## Genuine results -/

/-- The results of a pool are genuine. -/
structure Genuine (s : WorkerPool V) : Prop where
  /-- What a call returns, its function returned. -/
  returns : ∀ call sub result, s.submissions call = some sub → sub.phase = .returned result →
    ∃ value, result = some value ∧ .ended call (.returned value) ∈ s.record
  /-- What a function raised, its call raises when it goes on. -/
  raises : ∀ call sub e, s.submissions call = some sub → .ended call (.raised e) ∈ s.record →
    sub.phase = .raised (some e) ∨ sub.phase = .waiting ∨ sub.phase = .cancelled
  /-- A call returns nothing for a function that raised something else. -/
  aborts : ∀ call sub, s.submissions call = some sub → .ended call .aborted ∈ s.record →
    sub.phase = .cancelled
  /-- No function is started twice. -/
  once : (starts s.record).Nodup
  /-- After a `shutdown` no call is left at the queue, or at an event that is not set. -/
  released : s.stopped = true → ∀ call sub, s.submissions call = some sub →
    sub.phase ≠ .putting ∧ (sub.phase = .waiting → sub.task.done = true)

/-- A function raises nothing but `Exception`s, unless its call was cancelled, and a `shutdown`
finds no call whose function has not returned or raised. -/
def Orderly (s : WorkerPool V) : PoolEvent V → Prop
  | .funcEnds worker .aborted => ∀ call sub, s.workers worker = .running call →
      s.submissions call = some sub → ¬ sub.phase.Pending
  | .shutdown => ∀ call sub, s.submissions call = some sub → sub.phase.Pending →
      sub.task.state.Settled
  | _ => True

/-! ## The places of a task -/

/-- Every task is at one place. -/
structure Flow (s : WorkerPool V) : Prop where
  fresh : ∀ call, s.next ≤ call → s.submissions call = none
  nodup : (s.queue ++ starts s.record).Nodup
  placed : ∀ call ∈ s.queue ++ starts s.record, ∃ sub, s.submissions call = some sub ∧
    sub.phase ≠ .putting
  running : ∀ worker call, s.workers worker = .running call →
    call ∈ starts s.record ∧ ∀ ending, .ended call ending ∉ s.record
  distinct : ∀ worker worker' call, s.workers worker = .running call →
    s.workers worker' = .running call → worker = worker'
  ended : ∀ call ending, .ended call ending ∈ s.record → call ∈ starts s.record
  unique : ∀ call ending ending', .ended call ending ∈ s.record →
    .ended call ending' ∈ s.record → ending = ending'

/-- What a call and its task say is in the record. -/
structure CallInv (record : List (PoolRecord V)) (call : Nat) (sub : Submission V) : Prop where
  completed : sub.task.state = .completed →
    ∃ value, sub.task.result = some value ∧ .ended call (.returned value) ∈ record
  failed : sub.task.state = .failed →
    ∃ e, sub.task.error = some e ∧ .ended call (.raised e) ∈ record
  done : sub.phase.Pending → (sub.task.done = true ↔ sub.task.state.Settled)
  returned : ∀ result, sub.phase = .returned result →
    ∃ value, result = some value ∧ .ended call (.returned value) ∈ record
  raised : ∀ error, sub.phase = .raised error →
    ∃ e, error = some e ∧ .ended call (.raised e) ∈ record
  aborted : .ended call .aborted ∈ record → ¬ sub.phase.Pending

/-- The invariant of an orderly run. -/
structure PoolInv (s : WorkerPool V) : Prop where
  flow : Flow s
  calls : ∀ call sub, s.submissions call = some sub → CallInv s.record call sub
  /-- A call that outlives a `shutdown` only has to wake up. -/
  shut : s.running = false → ∀ call sub, s.submissions call = some sub → sub.phase.Pending →
    sub.task.state.Settled
  stopped : s.stopped = true → s.running = false

section Inv

variable {s s' : WorkerPool V} {call : Nat} {sub sub' : Submission V}

/-- A settled task has run, so its call is not at the queue any more. -/
theorem PoolInv.not_putting (hs : PoolInv s) (hcall : s.submissions call = some sub)
    (hsettled : sub.task.state.Settled) : sub.phase ≠ .putting := by
  obtain ⟨ending, hended⟩ : ∃ ending, .ended call ending ∈ s.record := by
    rcases hsettled with hstate | hstate
    · obtain ⟨value, -, hended⟩ := (hs.calls call sub hcall).completed hstate
      exact ⟨_, hended⟩
    · obtain ⟨e, -, hended⟩ := (hs.calls call sub hcall).failed hstate
      exact ⟨_, hended⟩
  obtain ⟨sub', hcall', hphase⟩ :=
    hs.flow.placed call (List.mem_append_right _ (hs.flow.ended call ending hended))
  rw [hcall] at hcall'
  cases hcall'
  exact hphase

theorem PoolInv.genuine (hs : PoolInv s) : Genuine s := by
  refine { returns := fun call sub result hcall => (hs.calls call sub hcall).returned result,
           raises := fun call sub e hcall hended => ?_, aborts := fun call sub hcall hended => ?_,
           once := (List.nodup_append.mp hs.flow.nodup).2.1, released := fun hstopped => ?_ }
  · have hinv := hs.calls call sub hcall
    obtain ⟨sub', hcall', hput⟩ :=
      hs.flow.placed call (List.mem_append_right _ (hs.flow.ended call _ hended))
    rw [hcall] at hcall'
    cases hcall'
    -- the end of the function is unique, so the phase of the call has to agree with it
    rcases hphase : sub.phase with _ | _ | result | error | _
    · exact absurd hphase hput
    · exact .inr (.inl rfl)
    · obtain ⟨value, -, hreturned⟩ := hinv.returned result hphase
      cases hs.flow.unique call _ _ hended hreturned
    · obtain ⟨e', rfl, hraised⟩ := hinv.raised error hphase
      cases hs.flow.unique call _ _ hended hraised
      exact .inl rfl
    · exact .inr (.inr rfl)
  · have hinv := hs.calls call sub hcall
    have hpending := hinv.aborted hended
    rcases hphase : sub.phase with _ | _ | result | error | _
    · exact absurd (hphase ▸ trivial) hpending
    · exact absurd (hphase ▸ trivial) hpending
    · obtain ⟨value, -, hreturned⟩ := hinv.returned result hphase
      cases hs.flow.unique call _ _ hended hreturned
    · obtain ⟨e', -, hraised⟩ := hinv.raised error hphase
      cases hs.flow.unique call _ _ hended hraised
    · rfl
  · intro call sub hcall
    have hsettled := hs.shut (hs.stopped hstopped) call sub hcall
    constructor
    · intro hphase
      exact hs.not_putting hcall (hsettled (hphase ▸ trivial)) hphase
    · intro hphase
      have hpending : sub.phase.Pending := hphase ▸ trivial
      exact ((hs.calls call sub hcall).done hpending).mpr (hsettled hpending)

theorem CallInv.mono {record record' : List (PoolRecord V)} (h : CallInv record call sub)
    (hiff : ∀ ending, .ended call ending ∈ record' ↔ .ended call ending ∈ record) :
    CallInv record' call sub := by
  refine { completed := fun hstate => ?_, failed := fun hstate => ?_, done := h.done,
           returned := fun result hphase => ?_, raised := fun error hphase => ?_,
           aborted := fun hended => h.aborted ((hiff _).mp hended) }
  · obtain ⟨value, hresult, hended⟩ := h.completed hstate
    exact ⟨value, hresult, (hiff _).mpr hended⟩
  · obtain ⟨e, herror, hended⟩ := h.failed hstate
    exact ⟨e, herror, (hiff _).mpr hended⟩
  · obtain ⟨value, hresult, hended⟩ := h.returned result hphase
    exact ⟨value, hresult, (hiff _).mpr hended⟩
  · obtain ⟨e, herror, hended⟩ := h.raised error hphase
    exact ⟨e, herror, (hiff _).mpr hended⟩

/-! ## Steps of the calls -/

theorem submissions_set_of_ne {call' : Nat} (hne : call' ≠ call) :
    (s.set call sub').submissions call' = s.submissions call' :=
  Function.update_of_ne hne ..

theorem submissions_set (s : WorkerPool V) (call : Nat) (sub : Submission V) :
    (s.set call sub).submissions call = some sub :=
  Function.update_self ..

/-- A call that is there goes to another state, and is not back at the queue. -/
theorem Flow.set (hs : Flow s) (hcall : s.submissions call = some sub) (sub' : Submission V)
    (hput : sub'.phase = .putting → sub.phase = .putting) : Flow (s.set call sub') := by
  refine { fresh := fun call' hle => ?_, nodup := hs.nodup, placed := fun call' hmem => ?_,
           running := hs.running, distinct := hs.distinct, ended := hs.ended, unique := hs.unique }
  · have hnone := hs.fresh call' hle
    have hne : call' ≠ call := by
      rintro rfl
      rw [hcall] at hnone
      cases hnone
    rwa [submissions_set_of_ne hne]
  · obtain ⟨old, hold, hphase⟩ := hs.placed call' hmem
    by_cases heq : call' = call
    · subst heq
      rw [hcall] at hold
      cases hold
      exact ⟨sub', submissions_set .., fun h => hphase (hput h)⟩
    · exact ⟨old, (submissions_set_of_ne heq).trans hold, hphase⟩

/-- A call goes to another state, and the record says the same of the functions of the others. -/
theorem PoolInv.of_set (hs : PoolInv s) (hflow : Flow s') (hcall : s.submissions call = some sub)
    (hset : s'.submissions = (s.set call sub').submissions) (hrunning : s'.running = s.running)
    (hstopped : s'.stopped = s.stopped) (hinv : CallInv s'.record call sub')
    (hrecord : ∀ call', call' ≠ call → ∀ ending,
      .ended call' ending ∈ s'.record ↔ .ended call' ending ∈ s.record)
    (hsettled : (sub.phase.Pending → sub.task.state.Settled) →
      sub'.phase.Pending → sub'.task.state.Settled) : PoolInv s' := by
  refine { flow := hflow, calls := fun call' sub₁ hcall' => ?_,
           shut := fun hshut call' sub₁ hcall' => ?_, stopped := ?_ }
  · rw [hset] at hcall'
    -- the call itself, and the others, about which the record says what it said
    by_cases heq : call' = call
    · subst heq
      rw [submissions_set] at hcall'
      cases hcall'
      exact hinv
    · rw [submissions_set_of_ne heq] at hcall'
      exact (hs.calls call' sub₁ hcall').mono (hrecord call' heq)
  · rw [hset] at hcall'
    rw [hrunning] at hshut
    by_cases heq : call' = call
    · subst heq
      rw [submissions_set] at hcall'
      cases hcall'
      exact hsettled (hs.shut hshut call' sub hcall)
    · rw [submissions_set_of_ne heq] at hcall'
      exact hs.shut hshut call' sub₁ hcall'
  · rw [hstopped, hrunning]
    exact hs.stopped

/-- A call goes to another state. -/
theorem PoolInv.set (hs : PoolInv s) (hcall : s.submissions call = some sub)
    (hinv : CallInv s.record call sub') (hput : sub'.phase = .putting → sub.phase = .putting)
    (hpending : sub'.phase.Pending → sub.phase.Pending)
    (hsettled : sub.task.state.Settled → sub'.task.state.Settled) :
    PoolInv (s.set call sub') := by
  refine hs.of_set (hs.flow.set hcall sub' hput) hcall rfl rfl rfl hinv (fun _ _ _ => Iff.rfl) ?_
  exact fun hshut h => hsettled (hshut (hpending h))

/-- The dict of the tasks is read by `shutdown` only. -/
theorem PoolInv.withTasks (hs : PoolInv s) (tasks : String → Option Nat) {stopped : Bool}
    (hstopped : stopped = true → s.running = false) : PoolInv { s with tasks, stopped } :=
  { flow :=
      { fresh := hs.flow.fresh, nodup := hs.flow.nodup, placed := hs.flow.placed,
        running := hs.flow.running, distinct := hs.flow.distinct, ended := hs.flow.ended,
        unique := hs.flow.unique }
    calls := hs.calls, shut := hs.shut, stopped := hstopped }

/-- A call ends when its event is set: then its function has ended. -/
theorem PoolInv.finish (hs : PoolInv s) (hcall : s.submissions call = some sub)
    (hpending : sub.phase.Pending) (hdone : sub.task.done = true) :
    PoolInv (s.finish call sub) := by
  have hinv := hs.calls call sub hcall
  have hsettled := (hinv.done hpending).mp hdone
  have hset : PoolInv (s.set call { sub with
      phase := if sub.task.state = .failed then .raised sub.task.error
        else .returned sub.task.result }) := by
    -- `submit` raises the error of a failed task, and returns the result of any other
    by_cases hstate : sub.task.state = .failed
    · rw [if_pos hstate]
      refine hs.set hcall ?_ (fun h => by cases h) False.elim id
      refine { completed := hinv.completed, failed := hinv.failed, done := False.elim,
               returned := fun result h => (by cases h), raised := fun error h => ?_,
               aborted := fun _ => id }
      cases h
      exact hinv.failed hstate
    · rw [if_neg hstate]
      refine hs.set hcall ?_ (fun h => by cases h) False.elim id
      refine { completed := hinv.completed, failed := hinv.failed, done := False.elim,
               returned := fun result h => ?_, raised := fun error h => (by cases h),
               aborted := fun _ => id }
      cases h
      exact hinv.completed (hsettled.resolve_right hstate)
  exact hset.withTasks _ hs.stopped

theorem PoolInv.cancel (hs : PoolInv s) (hcall : s.submissions call = some sub)
    (hstep : s.cancel call sub = some s') : PoolInv s' := by
  have hinv := hs.calls call sub hcall
  have hset : PoolInv (s.set call { sub with phase := .cancelled }) := by
    refine hs.set hcall ?_ (fun h => by cases h) False.elim id
    exact { completed := hinv.completed, failed := hinv.failed, done := False.elim,
            returned := fun result h => (by cases h), raised := fun error h => (by cases h),
            aborted := fun _ => id }
  rw [WorkerPool.cancel] at hstep
  split at hstep
  · cases hstep
    exact hset
  · cases hstep
    exact hset.withTasks _ hs.stopped
  · cases hstep

/-- The task of a call that waits for the queue goes into it. -/
theorem Flow.enqueue (hs : Flow s) (hcall : s.submissions call = some sub)
    (hput : sub.phase = .putting) (sub' : Submission V) (hput' : sub'.phase ≠ .putting) :
    Flow { s.set call sub' with queue := s.queue ++ [call] } := by
  have hset := hs.set hcall sub' fun h => absurd h hput'
  have hnew : call ∉ s.queue ++ starts s.record := by
    intro hmem
    obtain ⟨old, hold, hphase⟩ := hs.placed call hmem
    rw [hcall] at hold
    cases hold
    exact hphase hput
  have hperm : (s.queue ++ [call] ++ starts s.record).Perm
      (call :: (s.queue ++ starts s.record)) := by
    rw [List.append_assoc]
    exact List.perm_middle
  refine { fresh := hset.fresh, nodup := hperm.nodup_iff.mpr (List.nodup_cons.mpr ⟨hnew, hs.nodup⟩),
           placed := fun call' hmem => ?_, running := hs.running, distinct := hs.distinct,
           ended := hs.ended, unique := hs.unique }
  rcases List.mem_cons.mp (hperm.mem_iff.mp hmem) with rfl | hmem
  · exact ⟨sub', submissions_set .., hput'⟩
  · exact hset.placed call' hmem

theorem PoolInv.enqueue (hs : PoolInv s) (hcall : s.submissions call = some sub)
    (hput : sub.phase = .putting) : PoolInv (s.enqueue call sub) := by
  have hinv := hs.calls call sub hcall
  have hpending : sub.phase.Pending := hput ▸ trivial
  have hdone : ¬ sub.task.done = true := fun h =>
    hs.not_putting hcall ((hinv.done hpending).mp h) hput
  have hwaiting : PoolInv (s.set call { sub with phase := .waiting }) := by
    refine hs.set hcall ?_ (fun h => by cases h) (fun _ => hpending) id
    exact { completed := hinv.completed, failed := hinv.failed, done := fun _ => hinv.done hpending,
            returned := fun result h => (by cases h), raised := fun error h => (by cases h),
            aborted := fun hended => absurd hpending (hinv.aborted hended) }
  rw [WorkerPool.enqueue, if_neg hdone]
  exact { flow := hs.flow.enqueue hcall hput { sub with phase := .waiting } fun h => (by cases h),
          calls := hwaiting.calls, shut := hwaiting.shut, stopped := hwaiting.stopped }

theorem PoolInv.submit (hs : PoolInv s) (cfg : PoolConfig) (id : String) :
    PoolInv (s.submit cfg id) := by
  rw [WorkerPool.submit]
  split
  next hrunning =>
    have hnext : s.submissions s.next = none := hs.flow.fresh s.next le_rfl
    have hplaced : s.next ∉ s.queue ++ starts s.record := by
      intro hmem
      obtain ⟨sub, hsub, -⟩ := hs.flow.placed s.next hmem
      rw [hnext] at hsub
      cases hsub
    have hother : ∀ {call sub}, s.submissions call = some sub →
        (s.set s.next ⟨{ id }, .putting⟩).submissions call = some sub := by
      intro call sub hcall
      rw [submissions_set_of_ne, hcall]
      rintro rfl
      rw [hnext] at hcall
      cases hcall
    -- The new call is at the queue, and nothing is recorded of it.
    have hnew : PoolInv { s.set s.next ⟨{ id }, .putting⟩ with
        tasks := Function.update s.tasks id (some s.next), next := s.next + 1 } := by
      refine { flow := ?_, calls := fun call sub hcall => ?_,
               shut := fun h => (by cases hrunning.symm.trans h),
               stopped := hs.stopped }
      · refine { fresh := fun call hle => ?_, nodup := hs.flow.nodup,
                 placed := fun call hmem => ?_, running := hs.flow.running,
                 distinct := hs.flow.distinct, ended := hs.flow.ended, unique := hs.flow.unique }
        · show (s.set s.next _).submissions call = none
          rw [submissions_set_of_ne (Nat.ne_of_gt hle)]
          exact hs.flow.fresh call (Nat.le_of_succ_le hle)
        · obtain ⟨sub, hsub, hphase⟩ := hs.flow.placed call hmem
          exact ⟨sub, hother hsub, hphase⟩
      · by_cases heq : call = s.next
        · subst heq
          rw [show _ = some _ from submissions_set s s.next ⟨{ id }, .putting⟩] at hcall
          cases hcall
          have hnone : ∀ ending, .ended s.next ending ∉ s.record := fun ending hended =>
            hplaced (List.mem_append_right _ (hs.flow.ended s.next ending hended))
          exact { completed := fun h => (by cases h), failed := fun h => (by cases h),
                  done := fun _ => iff_of_false Bool.false_ne_true (fun h => h.elim
                    (fun h => by cases h) fun h => by cases h),
                  returned := fun result h => (by cases h), raised := fun error h => (by cases h),
                  aborted := fun hended => absurd hended (hnone _) }
        · exact hs.calls call sub ((submissions_set_of_ne heq).symm.trans hcall)
    dsimp only
    split
    · exact hnew
    · exact hnew.enqueue (submissions_set ..) rfl
  next => exact hs

/-! ## Steps of the workers -/

theorem started_mem_iff {record : List (PoolRecord V)} {call' : Nat} {ending : FuncEnd V} :
    PoolRecord.ended call ending ∈ .started call' :: record ↔ .ended call ending ∈ record := by
  rw [List.mem_cons]
  exact or_iff_right fun h => by cases h

theorem Flow.not_started (hs : Flow s) {rest : List Nat} (hqueue : s.queue = call :: rest) :
    call ∉ starts s.record := by
  have hnodup := hs.nodup
  rw [hqueue, List.cons_append, List.nodup_cons, List.mem_append] at hnodup
  exact fun hmem => hnodup.1 (.inr hmem)

/-- The task of a worker that takes the first one from the queue is with no other worker. -/
theorem Flow.run (hs : Flow s) (hcall : s.submissions call = some sub) (worker : Nat)
    {rest : List Nat} (hqueue : s.queue = call :: rest) : Flow (s.run worker call sub rest) := by
  -- the task moves from the queue to the functions that were started
  have hperm : (rest ++ starts (.started call :: s.record)).Perm (s.queue ++ starts s.record) := by
    rw [hqueue]
    exact List.perm_middle
  have hset := hs.set hcall { sub with task := { sub.task with state := .running } } id
  have hnew : call ∉ starts s.record := hs.not_started hqueue
  have hstarts : ∀ {call'}, call' ∈ starts s.record → call' ∈ starts (.started call :: s.record) :=
    fun hmem => List.mem_cons_of_mem call hmem
  have hworkers : ∀ {worker' call'}, (s.run worker call sub rest).workers worker' = .running call' →
      worker' = worker ∧ call' = call ∨ s.workers worker' = .running call' := by
    intro worker' call' h
    by_cases heq : worker' = worker
    · subst heq
      rw [show (s.run worker' call sub rest).workers worker' = _ from Function.update_self ..] at h
      cases h
      exact .inl ⟨rfl, rfl⟩
    · exact .inr ((Function.update_of_ne heq ..).symm.trans h)
  refine { fresh := hset.fresh, nodup := hperm.nodup_iff.mpr hs.nodup,
           placed := fun call' hmem => hset.placed call' (hperm.mem_iff.mp hmem),
           running := fun worker' call' hworker => ?_,
           distinct := fun worker₁ worker₂ call' h₁ h₂ => ?_,
           ended := fun call' ending hended => ?_,
           unique := fun call' ending ending' h h' => ?_ }
  · rcases hworkers hworker with ⟨-, rfl⟩ | hold
    · refine ⟨List.mem_cons_self, fun ending hended => hnew ?_⟩
      exact hs.ended call' ending (started_mem_iff.mp hended)
    · obtain ⟨hstarted, hopen⟩ := hs.running worker' call' hold
      exact ⟨hstarts hstarted, fun ending hended => hopen ending (started_mem_iff.mp hended)⟩
  · -- A task that runs was started, so it is not the one from the queue.
    rcases hworkers h₁ with ⟨rfl, rfl⟩ | hold₁
    · rcases hworkers h₂ with ⟨rfl, -⟩ | hold₂
      · rfl
      · exact absurd (hs.running worker₂ call' hold₂).1 hnew
    · rcases hworkers h₂ with ⟨rfl, rfl⟩ | hold₂
      · exact absurd (hs.running worker₁ call' hold₁).1 hnew
      · exact hs.distinct worker₁ worker₂ call' hold₁ hold₂
  · exact hstarts (hs.ended call' ending (started_mem_iff.mp hended))
  · exact hs.unique call' _ _ (started_mem_iff.mp h) (started_mem_iff.mp h')

/-- A worker takes the first task from the queue. -/
theorem PoolInv.run (hs : PoolInv s) (hcall : s.submissions call = some sub) {worker : Nat}
    {rest : List Nat} (hqueue : s.queue = call :: rest) : PoolInv (s.run worker call sub rest) := by
  have hinv := hs.calls call sub hcall
  have hnone : ∀ ending, .ended call ending ∉ s.record := fun ending hended =>
    hs.flow.not_started hqueue (hs.flow.ended call ending hended)
  have hunsettled : ¬ sub.task.state.Settled := by
    rintro (hstate | hstate)
    · obtain ⟨value, -, hended⟩ := hinv.completed hstate
      exact hnone _ hended
    · obtain ⟨e, -, hended⟩ := hinv.failed hstate
      exact hnone _ hended
  have hrunning : CallInv s.record call
      { sub with task := { sub.task with state := .running } } := by
    refine { completed := fun h => (by cases h), failed := fun h => (by cases h),
             done := fun hpending => iff_of_false (fun h => ?_) ?_,
             returned := hinv.returned, raised := hinv.raised, aborted := hinv.aborted }
    · exact hunsettled ((hinv.done hpending).mp h)
    · rintro (h | h)
      · cases h
      · cases h
  refine hs.of_set (hs.flow.run hcall worker hqueue) hcall rfl rfl rfl
    (hrunning.mono fun ending => started_mem_iff) (fun call' hne ending => started_mem_iff) ?_
  exact fun hshut hpending => absurd (hshut hpending) hunsettled

theorem ended_mem_iff {record : List (PoolRecord V)} {call' : Nat} {ending ending' : FuncEnd V} :
    PoolRecord.ended call ending ∈ .ended call' ending' :: record ↔
      (call = call' ∧ ending = ending') ∨ .ended call ending ∈ record := by
  rw [List.mem_cons, PoolRecord.ended.injEq]

theorem Orderly.of_aborted {worker : Nat} {ending : FuncEnd V}
    (h : Orderly s (.funcEnds worker ending)) (heq : ending = .aborted)
    (hworker : s.workers worker = .running call) (hcall : s.submissions call = some sub) :
    ¬ sub.phase.Pending := by
  subst heq
  exact h call sub hworker hcall

/-- The record gets the end of the function, and the task says the same. -/
theorem CallInv.close {record : List (PoolRecord V)} (h : CallInv record call sub)
    (hnone : ∀ ending, .ended call ending ∉ record) (ending : FuncEnd V)
    (haborted : ending = .aborted → ¬ sub.phase.Pending) :
    CallInv (.ended call ending :: record) call { sub with task := sub.task.close ending } := by
  have hreturned : ∀ result, sub.phase = .returned result → ∃ value, result = some value ∧
      .ended call (.returned value) ∈ .ended call ending :: record := by
    intro result hphase
    obtain ⟨value, heq, hended⟩ := h.returned result hphase
    exact ⟨value, heq, List.mem_cons_of_mem _ hended⟩
  have hraised : ∀ error, sub.phase = .raised error → ∃ e, error = some e ∧
      .ended call (.raised e) ∈ .ended call ending :: record := by
    intro error hphase
    obtain ⟨e, heq, hended⟩ := h.raised error hphase
    exact ⟨e, heq, List.mem_cons_of_mem _ hended⟩
  have hnotAborted : .ended call .aborted ∈ .ended call ending :: record →
      ¬ sub.phase.Pending := by
    intro hended
    rcases ended_mem_iff.mp hended with ⟨-, heq⟩ | hended
    · exact haborted heq.symm
    · exact absurd hended (hnone _)
  -- `_worker_loop` writes what the function returned or raised to the task
  cases ending with
  | returned value =>
    exact { completed := fun _ => ⟨value, rfl, List.mem_cons_self⟩, failed := fun h => (by cases h),
            done := fun _ => iff_of_true rfl (.inl rfl), returned := hreturned, raised := hraised,
            aborted := hnotAborted }
  | raised e =>
    exact { completed := fun h => (by cases h), failed := fun _ => ⟨e, rfl, List.mem_cons_self⟩,
            done := fun _ => iff_of_true rfl (.inr rfl), returned := hreturned, raised := hraised,
            aborted := hnotAborted }
  | aborted =>
    refine { completed := fun hstate => ?_, failed := fun hstate => ?_,
             done := fun hpending => absurd hpending (haborted rfl), returned := hreturned,
             raised := hraised, aborted := hnotAborted }
    · obtain ⟨value, -, hended⟩ := h.completed hstate
      exact absurd hended (hnone _)
    · obtain ⟨e, -, hended⟩ := h.failed hstate
      exact absurd hended (hnone _)

/-- The task of a function that ends is with no worker any more. -/
theorem Flow.funcEnds (hs : Flow s) (hcall : s.submissions call = some sub) {worker : Nat}
    (hworker : s.workers worker = .running call) (ending : FuncEnd V) :
    Flow (s.funcEnds worker call sub ending) := by
  obtain ⟨hstarted, hnone⟩ := hs.running worker call hworker
  have hset := hs.set hcall { sub with task := sub.task.close ending } id
  -- the worker has no task any more, and the other ones have what they had
  have hworkers : ∀ {worker' call'}, (s.funcEnds worker call sub ending).workers worker' =
      .running call' → worker' ≠ worker ∧ s.workers worker' = .running call' := by
    intro worker' call' h
    by_cases heq : worker' = worker
    · subst heq
      rw [show (s.funcEnds worker' call sub ending).workers worker' = _ from
        Function.update_self ..] at h
      split at h
      · cases h
      · split at h
        · cases h
        · cases h
    · exact ⟨heq, (Function.update_of_ne heq ..).symm.trans h⟩
  refine { fresh := hset.fresh, nodup := hs.nodup, placed := hset.placed,
           running := fun worker' call' h => ?_,
           distinct := fun worker₁ worker₂ call' h₁ h₂ => ?_,
           ended := fun call' ending' hended => ?_,
           unique := fun call' ending₁ ending₂ h₁ h₂ => ?_ }
  · obtain ⟨hne, hold⟩ := hworkers h
    obtain ⟨hstarted', hopen⟩ := hs.running worker' call' hold
    refine ⟨hstarted', fun ending' hended => ?_⟩
    rcases ended_mem_iff.mp hended with ⟨rfl, -⟩ | hended
    · exact hne (hs.distinct worker' worker call' hold hworker)
    · exact hopen ending' hended
  · exact hs.distinct worker₁ worker₂ call' (hworkers h₁).2 (hworkers h₂).2
  · rcases ended_mem_iff.mp hended with ⟨rfl, -⟩ | hended
    · exact hstarted
    · exact hs.ended call' ending' hended
  · -- The function had no end before this one.
    rcases ended_mem_iff.mp h₁ with ⟨rfl, rfl⟩ | hold₁
    · rcases ended_mem_iff.mp h₂ with ⟨-, rfl⟩ | hold₂
      · rfl
      · exact absurd hold₂ (hnone ending₂)
    · rcases ended_mem_iff.mp h₂ with ⟨rfl, rfl⟩ | hold₂
      · exact absurd hold₁ (hnone ending₁)
      · exact hs.unique call' ending₁ ending₂ hold₁ hold₂

/-- The function of a task ends. -/
theorem PoolInv.funcEnds (hs : PoolInv s) (hcall : s.submissions call = some sub) {worker : Nat}
    (hworker : s.workers worker = .running call) (ending : FuncEnd V)
    (horderly : Orderly s (.funcEnds worker ending)) :
    PoolInv (s.funcEnds worker call sub ending) := by
  have hclose := (hs.calls call sub hcall).close (hs.flow.running worker call hworker).2 ending
    fun heq => horderly.of_aborted heq hworker hcall
  refine hs.of_set (hs.flow.funcEnds hcall hworker ending) hcall rfl rfl rfl hclose
    (fun call' hne ending' => ended_mem_iff.trans (or_iff_right fun h => hne h.1)) ?_
  intro hshut hpending
  cases ending with
  | returned value => exact .inl rfl
  | raised e => exact .inr rfl
  | aborted =>
    have hended : ¬ sub.phase.Pending := horderly.of_aborted rfl hworker hcall
    exact absurd hpending hended

/-- The cancellation reaches a worker at the queue. -/
theorem PoolInv.workerStops (hs : PoolInv s) (worker : Nat) :
    PoolInv { s with workers := Function.update s.workers worker .ended } := by
  have hworkers : ∀ {worker' call'}, Function.update s.workers worker .ended worker' =
      .running call' → s.workers worker' = .running call' := by
    intro worker' call' h
    by_cases heq : worker' = worker
    · subst heq
      rw [Function.update_self] at h
      cases h
    · exact (Function.update_of_ne heq ..).symm.trans h
  exact { flow :=
            { fresh := hs.flow.fresh, nodup := hs.flow.nodup, placed := hs.flow.placed,
              running := fun worker' call' h => hs.flow.running worker' call' (hworkers h),
              distinct := fun worker₁ worker₂ call' h₁ h₂ =>
                hs.flow.distinct worker₁ worker₂ call' (hworkers h₁) (hworkers h₂),
              ended := hs.flow.ended, unique := hs.flow.unique },
          calls := hs.calls, shut := hs.shut, stopped := hs.stopped }

/-- A `shutdown` that finds only calls whose functions have ended sets no event that is not set. -/
theorem PoolInv.shutdown (hs : PoolInv s) (horderly : Orderly s .shutdown) :
    PoolInv s.shutdown := by
  -- What the calls are afterwards.
  have hmap : ∀ {call sub'}, s.shutdown.submissions call = some sub' →
      ∃ sub, s.submissions call = some sub ∧ sub'.phase = sub.phase ∧
        sub'.task.state = sub.task.state ∧ CallInv s.record call sub' := by
    intro call sub' hcall
    obtain ⟨sub, hsub, rfl⟩ := Option.map_eq_some_iff.mp hcall
    have hinv := hs.calls call sub hsub
    refine ⟨sub, hsub, ?_⟩
    split
    · refine ⟨rfl, rfl, ?_⟩
      exact { completed := hinv.completed, failed := hinv.failed,
              done := fun hpending => iff_of_true rfl (horderly call sub hsub hpending),
              returned := hinv.returned, raised := hinv.raised, aborted := hinv.aborted }
    · exact ⟨rfl, rfl, hinv⟩
  refine { flow := ?_, calls := fun call sub' hcall => ?_, shut := fun _ call sub' hcall => ?_,
           stopped := fun _ => rfl }
  · refine { fresh := fun call hle => ?_, nodup := hs.flow.nodup, placed := fun call hmem => ?_,
             running := hs.flow.running, distinct := hs.flow.distinct, ended := hs.flow.ended,
             unique := hs.flow.unique }
    · exact Option.map_eq_none_iff.mpr (hs.flow.fresh call hle)
    · obtain ⟨sub, hsub, hphase⟩ := hs.flow.placed call hmem
      obtain ⟨sub', hsub'⟩ : ∃ sub', s.shutdown.submissions call = some sub' := by
        refine ⟨_, Option.map_eq_some_iff.mpr ⟨sub, hsub, rfl⟩⟩
      obtain ⟨old, hold, heq, -⟩ := hmap hsub'
      rw [hsub] at hold
      cases hold
      exact ⟨sub', hsub', heq ▸ hphase⟩
  · obtain ⟨sub, -, -, -, hinv⟩ := hmap hcall
    exact hinv
  · obtain ⟨sub, hsub, hphase, hstate, -⟩ := hmap hcall
    rw [hphase, hstate]
    exact horderly call sub hsub

/-! ## Runs -/

theorem poolInv_init (cfg : PoolConfig) : PoolInv (poolSystem V cfg).init := by
  refine { flow := ?_, calls := fun call sub h => (by cases h), shut := fun h => (by cases h),
           stopped := fun h => (by cases h) }
  have hworkers : ∀ worker call, (poolSystem V cfg).init.workers worker ≠ .running call := by
    intro worker call h
    change (if worker < cfg.maxWorkers then _ else _) = _ at h
    split at h
    · cases h
    · cases h
  exact { fresh := fun _ _ => rfl, nodup := List.nodup_nil, placed := fun call hmem => (by cases hmem),
          running := fun worker call h => absurd h (hworkers worker call),
          distinct := fun worker worker' call h => absurd h (hworkers worker call),
          ended := fun call ending h => (by cases h), unique := fun call _ _ h => (by cases h) }

theorem poolInv_step (cfg : PoolConfig) (s : WorkerPool V) (e : PoolEvent V) (s' : WorkerPool V)
    (hs : PoolInv s) (horderly : Orderly s e) (hstep : s.step cfg e = some s') : PoolInv s' := by
  cases e with
  | submit id =>
    cases hstep
    exact hs.submit cfg id
  | put call =>
    rw [WorkerPool.step] at hstep
    split at hstep
    next task hcall =>
      obtain ⟨-, hstep⟩ := Option.ite_none_left_eq_some.mp hstep
      cases hstep
      exact hs.enqueue hcall rfl
    next => cases hstep
  | resume call =>
    rw [WorkerPool.step] at hstep
    split at hstep
    next task hcall =>
      obtain ⟨hdone, hstep⟩ := Option.ite_none_right_eq_some.mp hstep
      cases hstep
      exact hs.finish hcall trivial hdone
    next => cases hstep
  | cancel call =>
    obtain ⟨sub, hcall, hcancel⟩ := Option.bind_eq_some_iff.mp hstep
    exact hs.cancel hcall hcancel
  | get worker =>
    rw [WorkerPool.step] at hstep
    split at hstep
    next call rest hworker hqueue =>
      obtain ⟨-, hstep⟩ := Option.ite_none_right_eq_some.mp hstep
      obtain ⟨sub, hcall, rfl⟩ := Option.map_eq_some_iff.mp hstep
      exact hs.run hcall hqueue
    next => cases hstep
  | funcEnds worker ending =>
    rw [WorkerPool.step] at hstep
    split at hstep
    next call hworker =>
      obtain ⟨sub, hcall, rfl⟩ := Option.map_eq_some_iff.mp hstep
      exact hs.funcEnds hcall hworker ending horderly
    next => cases hstep
  | workerStops worker =>
    obtain ⟨-, hstep⟩ := Option.ite_none_right_eq_some.mp hstep
    cases hstep
    exact hs.workerStops worker
  | shutdown =>
    cases hstep
    exact hs.shutdown horderly
  | shutdownReturns =>
    -- `shutdown` was called before it returns
    obtain ⟨⟨hrunning, -⟩, hstep⟩ := Option.ite_none_right_eq_some.mp hstep
    cases hstep
    exact hs.withTasks _ fun _ => Bool.eq_false_iff.mpr hrunning

/-- **Genuine results.** All along an orderly run the results of the pool are genuine: a call
returns what its function returned, or raises what it raised, no function is started twice, and a
`shutdown` leaves no call behind. The condition is about each step and the state before it. -/
theorem genuine_of_orderly (cfg : PoolConfig) (steps : List (WorkerPool V × PoolEvent V))
    (s : WorkerPool V) (run : (poolSystem V cfg).Run steps s) (horderly : Meets Orderly steps) :
    Always Genuine steps s := by
  refine Always.imp (P := PoolInv) (fun s hs => hs.genuine) ?_
  exact run.always_of_meets (poolInv_init cfg) (poolInv_step cfg) horderly

end Inv

/-- A pool with one worker and room for one task. -/
def onePool : PoolConfig := ⟨1, 1⟩

/-- A call gets the value of its function, and the pool is shut down. -/
theorem orderly_genuine : ∃ steps s, (poolSystem Int onePool).Run steps s ∧ s.running = false ∧
    Always Genuine steps s := by
  have run : (poolSystem Int onePool).Run [(_, .shutdown), (_, .resume 0),
      (_, .funcEnds 0 (.returned 7)), (_, .get 0), (_, .submit "a")] _ :=
    .next (.next (.next (.next (.next .start rfl) rfl) rfl) rfl) rfl
  refine ⟨_, _, run, rfl, genuine_of_orderly onePool _ _ run ?_⟩
  refine List.forall_mem_cons.mpr ⟨fun call sub hcall hpending => ?_, ?_⟩
  · cases call with
    | zero =>
      cases hcall
      exact absurd hpending id
    | succ call => cases hcall
  · refine List.forall_mem_cons.mpr ⟨trivial, List.forall_mem_cons.mpr ⟨trivial, ?_⟩⟩
    exact List.forall_mem_cons.mpr ⟨trivial, List.forall_mem_singleton.mpr trivial⟩

/-- After a `shutdown` a call returns although no function was started, and one is left at the
queue. -/
theorem hasty_not_genuine :
    (∃ s, (poolSystem Int onePool).Reachable s ∧ s.record = [] ∧ ¬ Genuine s) ∧
    ∃ s, (poolSystem Int onePool).Reachable s ∧ s.stopped = true ∧ ¬ Genuine s := by
  constructor
  · refine ⟨_, reachable_of_exec [.submit "a", .shutdown, .resume 0] rfl, rfl, fun h => ?_⟩
    obtain ⟨value, hvalue, -⟩ := h.returns 0 _ none rfl rfl
    cases hvalue
  · refine ⟨_, reachable_of_exec [.submit "a", .submit "b", .shutdown, .workerStops 0,
      .shutdownReturns] rfl, rfl, fun h => ?_⟩
    exact (h.released rfl 1 _ rfl).1 rfl

end Noema.Workers
