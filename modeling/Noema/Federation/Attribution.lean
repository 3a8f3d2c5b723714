import Noema.Billing.LedgerViews
import Noema.Federation.RouterRuns

/-!
# Attribution of federated work

The router enters the work on a sub-task under the id of the sub-task, which is the id of the task
with a suffix, and the views of the ledger ask for the id of the task. Nothing that `execute` has
entered is found under the id of its task.

- `EntersSubtasks`: the invariant of a run: the entries are about sub-tasks, whichever of the exits
  of a delegation has written them, and every sub-task has its delegation.
- `entriesFor_execute`: so a fresh ledger has no entry for the task itself. A task without an id is
  the exception, which `htask` excludes.
- **`not_attributed`**: whatever a task consists of and wherever its sub-tasks run, the views do not
  show the work on it, for any router, any responses and any interleaving. A run returns at least
  one result, so there is always something to show.
- `namedTask_lost`: two sub-tasks, one on a peer and one at home, with their entries.
-/

namespace Noema.Federation

open Noema.Lib PyJson Noema.Billing System
open Noema.Observability (GridFloat)

variable {F : Type}

/-- The ids of the sub-tasks are not the id of the task. -/
theorem subtaskId_ne {job : Job} (htask : job.taskId ≠ "") (index : Nat) :
    job.subtaskId index ≠ job.taskId := by
  intro h
  have hlength := congrArg String.length h
  rw [Job.subtaskId, if_neg htask, String.length_append, String.length_append] at hlength
  have hcolon : ":".length = 1 := rfl
  omega

section Entries

variable [PyNumber F]

/-- The entries are about sub-tasks, and every sub-task has its delegation. -/
structure EntersSubtasks (job : Job) (s : FederationState F) : Prop where
  length : s.delegations.length = job.descriptions.length
  entries : ∀ ledger, s.ledger = some ledger → ∀ e ∈ ledger.entries,
    ∃ index, e.taskId = job.subtaskId index

theorem entryOf_taskId {nodeId : String} {result : DelegationResult F} {entry : LedgerEntry F}
    (h : entryOf nodeId result = .ok entry) : entry.taskId = result.subtaskId := by
  obtain ⟨inputTokens, -, h⟩ := bind_eq_ok h
  obtain ⟨outputTokens, -, h⟩ := bind_eq_ok h
  obtain ⟨costUsd, -, h⟩ := bind_eq_ok h
  cases h
  rfl

omit [PyNumber F] in
/-- Recording an entry brings no other into the ledger. -/
theorem mem_record {ledger : ContributionLedger F} {entry e : LedgerEntry F}
    (h : e ∈ (ledger.record entry).entries) : e ∈ ledger.entries ∨ e = entry := by
  have hall : e ∈ ledger.entries ++ [entry] := by
    rw [ContributionLedger.record] at h
    dsimp only at h
    split at h
    · exact List.mem_of_mem_drop h
    · exact h
  rcases List.mem_append.mp hall with hmem | hmem
  · exact .inl hmem
  · exact .inr (List.mem_singleton.mp hmem)

variable {router : FederationRouter} {job : Job} {s s' : FederationState F} {index : Nat}

omit [PyNumber F] in
theorem EntersSubtasks.set (hs : EntersSubtasks job s) (robin : Nat) {d : Delegation F} :
    EntersSubtasks job { s with robin, delegations := s.delegations.set index d } :=
  ⟨List.length_set.trans hs.length, hs.entries⟩

theorem EntersSubtasks.finish (hs : EntersSubtasks job s) {result : DelegationResult F}
    (hresult : result.subtaskId = job.subtaskId index) :
    EntersSubtasks job (s.finish router index result) := by
  rw [FederationState.finish]
  split
  · exact hs.set s.robin
  · next ledger hledger =>
    split
    · exact hs.set s.robin
    · next entry hentry =>
      refine ⟨List.length_set.trans hs.length, ?_⟩
      rintro _ ⟨⟩ e he
      rcases mem_record he with hmem | rfl
      · exact hs.entries ledger hledger e hmem
      · exact ⟨index, (entryOf_taskId hentry).trans hresult⟩

theorem EntersSubtasks.runLocal (hs : EntersSubtasks job s) (reason : String) :
    EntersSubtasks job (s.runLocal router job index reason) := by
  rw [FederationState.runLocal]
  split
  · exact hs.set s.robin
  · exact hs.finish rfl

theorem entersSubtasks_step {e : FederationEvent F} (hs : EntersSubtasks job s)
    (h : federationStep router job s e = some s') : EntersSubtasks job s' := by
  rcases step_cases h with ⟨index, isOpen, rfl, -, rfl⟩ | ⟨index, address, ending, rfl, -, rfl⟩ |
    ⟨index, reason, ending, rfl, -, rfl⟩
  · rw [FederationState.start]
    split
    · exact hs.runLocal _
    · exact hs.set _
  · cases ending with
    | returned response attempts => exact hs.finish rfl
    | circuitOpen msg => exact hs.runLocal _
    | timedOut => exact hs.runLocal _
    | raised e => exact hs.runLocal _
  · cases ending with
    | ok response => exact hs.finish rfl
    | error e => exact hs.finish rfl

theorem entersSubtasks_of_reachable {robin : Nat} {maxEntries : Int}
    (h : (federationSystem router job robin (some (.new maxEntries))).Reachable s) :
    EntersSubtasks job s := by
  refine h.invariant (P := EntersSubtasks job) ⟨List.length_map _, ?_⟩ fun s e s' hs hstep => ?_
  · rintro _ ⟨⟩ e he
    cases he
  · exact @entersSubtasks_step _ _ router _ _ _ _ hs hstep

/-- What `execute` has entered is not found under the id of its task. -/
theorem entriesFor_execute {robin : Nat} {maxEntries : Int} (htask : job.taskId ≠ "")
    (h : (federationSystem router job robin (some (.new maxEntries))).Reachable s)
    {ledger : ContributionLedger F} (hledger : s.ledger = some ledger) :
    ledger.entriesFor job.taskId = [] := by
  refine List.filter_eq_nil_iff.mpr fun e he => ?_
  obtain ⟨index, hindex⟩ := (entersSubtasks_of_reachable h).entries ledger hledger e he
  rw [hindex, decide_eq_true_eq]
  exact subtaskId_ne htask index

omit [PyNumber F] in
/-- `execute` returns one result at least. -/
theorem EntersSubtasks.subtasks_ne_nil (hs : EntersSubtasks job s) {summary : Summary F}
    (h : s.outcome job = some (.ok summary)) : summary.subtasks ≠ [] := by
  rw [FederationState.outcome] at h
  split at h
  · cases h
  · obtain ⟨results, hresults, heq⟩ := Option.map_eq_some_iff.mp h
    cases heq
    intro hnil
    have hnone : results = [] := hnil
    have hlength := hs.length
    rw [mapM_result_iff.mp hresults, hnone, Job.descriptions] at hlength
    split at hlength
    · cases hlength
    · next hsubtasks => exact hsubtasks (List.length_eq_zero_iff.mp hlength.symm)

end Entries

section Attributed

variable [GridFloat F]

/-- The tokens that a response reports, as the router reads them. -/
def reportedTokens (response : Response F) : Int :=
  let tokens (key : String) : Int := max ((tokenField response key).pyInt.toOption.getD 0) 0
  tokens "tokens_input" + tokens "tokens_output"

/-- The views of the ledger show the work on the task: one entry for each sub-task, and the tokens
that the responses report. -/
def Attributed (job : Job) (summary : Summary F) (ledger : ContributionLedger F) : Prop :=
  (ledger.entriesFor job.taskId).length = summary.subtasks.length ∧
    (ledger.perNode job.taskId).totalTokens =
      (summary.subtasks.map fun r => reportedTokens r.response).sum

/-- **Attribution of federated work.** Whatever a task with an id consists of and wherever its
sub-tasks run, the views of a fresh ledger do not show the work on it: there is no entry for the
task, and no token. -/
theorem not_attributed {router : FederationRouter} {job : Job} {robin : Nat} {maxEntries : Int}
    (htask : job.taskId ≠ "") {s : FederationState F}
    (h : (federationSystem router job robin (some (.new maxEntries))).Reachable s)
    {summary : Summary F} (hsummary : s.outcome job = some (.ok summary))
    {ledger : ContributionLedger F} (hledger : s.ledger = some ledger) :
    ¬ Attributed job summary ledger ∧ ledger.entriesFor job.taskId = [] ∧
      (ledger.perNode job.taskId).totalTokens = 0 := by
  have hnone := entriesFor_execute htask h hledger
  refine ⟨?_, hnone, ?_⟩
  · rintro ⟨hlength, -⟩
    rw [hnone] at hlength
    exact (entersSubtasks_of_reachable h).subtasks_ne_nil hsummary
      (List.length_eq_zero_iff.mp hlength.symm)
  · rw [perNode_totalTokens ledger htask, hnone]
    rfl

/-- A job with an id. -/
def namedTask : Job := ⟨"title", ["a", "b"], "T"⟩

/-- A response with tokens. -/
def tokenResponse : Response FloatText := [("tokens_input", .int 3), ("tokens_output", .int 4)]

/-- One sub-task runs on the peer, the other locally. -/
def namedEvents : List (FederationEvent FloatText) :=
  [.start 0 fun _ => false, .start 1 fun _ => false, .executorEnds 1 .timedOut,
    .executorEnds 0 (.returned tokenResponse 1), .localEnds 1 (.ok tokenResponse)]

/-- A router with a peer and a local executor. -/
def paired : FederationRouter := ⟨[⟨"p", 1⟩], true, "local"⟩

theorem not_attributed_named : ∃ s : FederationState FloatText, ∃ summary ledger,
    (federationSystem paired namedTask 0 (some (.new 5))).exec
        (federationSystem paired namedTask 0 (some (.new 5))).init namedEvents = some s ∧
      s.outcome namedTask = some (.ok summary) ∧ s.ledger = some ledger ∧
      ledger.entries.map (fun e => (e.taskId, e.totalTokens)) = [("T:0", 7), ("T:1", 7)] ∧
      (summary.subtasks.map fun r => reportedTokens r.response).sum = 14 ∧
      (ledger.perNode "T").totalTokens = 0 := by
  obtain ⟨s, summary, ledger, hexec, hsummary, hledger, hentries, htokens⟩ :
      ∃ s : FederationState FloatText, ∃ summary ledger,
        (federationSystem paired namedTask 0 (some (.new 5))).exec
          (federationSystem paired namedTask 0 (some (.new 5))).init namedEvents = some s ∧
        s.outcome namedTask = some (.ok summary) ∧ s.ledger = some ledger ∧
        ledger.entries.map (fun e => (e.taskId, e.totalTokens)) = [("T:0", 7), ("T:1", 7)] ∧
        (summary.subtasks.map fun r => reportedTokens r.response).sum = 14 :=
    ⟨_, _, _, rfl, rfl, rfl, by decide +kernel, by decide +kernel⟩
  have htask : namedTask.taskId ≠ "" := by decide
  have hnone := (not_attributed htask (reachable_of_exec namedEvents hexec) hsummary hledger).2.2
  exact ⟨s, summary, ledger, hexec, hsummary, hledger, hentries, htokens, hnone⟩

/-- Both sub-tasks have entries, and none of them is for the task. -/
theorem namedTask_lost : ∃ s : FederationState FloatText, ∃ summary ledger,
    (federationSystem paired namedTask 0 (some (.new 5))).Reachable s ∧
      s.outcome namedTask = some (.ok summary) ∧ s.ledger = some ledger ∧
      ¬ Attributed namedTask summary ledger := by
  obtain ⟨s, summary, ledger, hexec, hsummary, hledger, hnot⟩ :
      ∃ s : FederationState FloatText, ∃ summary ledger,
        (federationSystem paired namedTask 0 (some (.new 5))).exec
          (federationSystem paired namedTask 0 (some (.new 5))).init namedEvents = some s ∧
        s.outcome namedTask = some (.ok summary) ∧ s.ledger = some ledger ∧
        (ledger.entriesFor "T").length ≠ summary.subtasks.length :=
    ⟨_, _, _, rfl, rfl, rfl, by decide +kernel⟩
  exact ⟨s, summary, ledger, reachable_of_exec namedEvents hexec, hsummary, hledger,
    fun hattributed => hnot hattributed.1⟩

end Attributed

end Noema.Federation
