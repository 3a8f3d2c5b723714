import Noema.Lib.System
import Noema.Billing.Ledger
import Noema.Billing.CostTracker
import Noema.Tracing.Tracer

/-!
# The jobs of a worker (`workers/arq_worker.py`)

`think_task` reads the statistics of the tracer before and after it thinks, and records the
difference in the ledger as its own tokens. The tracer is shared with the other jobs, and its
history is bounded: the difference has the tokens of everybody, less those of the spans that were
dropped in between.

- `workerSystem`: jobs that start, call LLMs, open and close spans, succeed or fail, in any order.
- `Accounts`: the invariant, that what is in the history and what was dropped from it is what was
  there before a job and what was consumed since, by this job and by others. `Accounts.advance` is
  the rule for a step that ends spans (`Tracer.Ends`).
- `Settled`: the condition on a job that succeeds, about the spans alone: what the others have
  consumed is what was dropped; or the job has consumed nothing, and the others no more than was
  dropped, as a negative difference is recorded as zero.
- `entryOf_iff`: the entry of a job has its own tokens if and only if it is settled.
- **`ownTokens_iff`**: so it is for every job of a run.
- `overlappingJobs_mixed`: two jobs at the same time.
-/

namespace Noema.Workers

open Noema.Lib Noema.Tracing Noema.Billing PyJson

/-! ## The tokens of a history -/

/-- The keys of the sums that a job records. -/
def inputKey : String := "llm.tokens_input"

def outputKey : String := "llm.tokens_output"

/-- The tokens that a call consumes. -/
def tokensOf (key : String) (call : LlmCall) : Nat := (call.attributes.lookup key).getD 0

/-- The tokens that some calls consume. -/
def tokensOfAll (key : String) (calls : List LlmCall) : Nat := (calls.map (tokensOf key)).sum

/-- The spans that were in the history of `t`, or ended since, and are not in that of `t'`. -/
def lost (t t' : Tracer) (ended : List TraceSpan) : List TraceSpan :=
  (t.spans ++ ended).take ((t.spans ++ ended).length - t'.spans.length)

/-- The span of a call. -/
def callSpan (t : Tracer) (provider : String) (call : LlmCall) : TraceSpan :=
  { (t.startSpan ("llm." ++ provider) "llm" call.attributes).1 with
    status := if call.error ≠ "" then "error" else "ok", error := call.error }

/-- The spans that `end_span` adds to the history. -/
def endedBy (t : Tracer) (span : TraceSpan) (status error : String) : List TraceSpan :=
  if t.stack = [] then [] else [{ span with status, error }]

theorem usages_append (key : String) (spans spans' : List TraceSpan) :
    usages key (spans ++ spans') = usages key spans + usages key spans' := by
  rw [usages, List.map_append, List.sum_append, usages, usages]

theorem tokensOfAll_append (key : String) (calls calls' : List LlmCall) :
    tokensOfAll key (calls ++ calls') = tokensOfAll key calls + tokensOfAll key calls' := by
  rw [tokensOfAll, List.map_append, List.sum_append, tokensOfAll, tokensOfAll]

/-- A call is of a job or of another one. -/
theorem tokensOfAll_filter (key : String) (call : Option (Nat × LlmCall)) (id : Nat) :
    tokensOfAll key ((call.filter fun c => c.1 = id).toList.map Prod.snd) +
      tokensOfAll key ((call.filter fun c => c.1 ≠ id).toList.map Prod.snd) =
      tokensOfAll key (call.toList.map Prod.snd) := by
  cases call with
  | none => rfl
  | some c =>
    by_cases hid : c.1 = id
    · simp [Option.filter, hid, tokensOfAll]
    · simp [Option.filter, hid, tokensOfAll]

/-- What was lost from a history comes before what is left of it. -/
theorem lost_append {t t' : Tracer} {ended : List TraceSpan}
    (h : t'.spans <:+ t.spans ++ ended) : lost t t' ended ++ t'.spans = t.spans ++ ended := by
  calc
    _ = lost t t' ended ++ (t.spans ++ ended).drop _ :=
      congrArg (lost t t' ended ++ ·) (List.suffix_iff_eq_drop.mp h)
    _ = t.spans ++ ended := List.take_append_drop _ _

/-- `xs[-n:]` is the end of `xs`. -/
theorem sliceLast_suffix {α : Type} (n : Int) (xs : List α) : sliceLast n xs <:+ xs := by
  unfold sliceLast
  split
  · exact List.drop_suffix _ xs
  · exact List.drop_suffix _ xs

/-- A bounded history loses its first spans. -/
theorem spans_push (t : Tracer) (span : TraceSpan) :
    (t.push span).spans <:+ t.spans ++ [span] := by
  show ite _ _ _ <:+ t.spans ++ [span]
  split
  · exact sliceLast_suffix _ _
  · exact List.suffix_rfl

theorem spans_endSpan (t : Tracer) (span : TraceSpan) (status error : String) :
    (t.endSpan span status error).spans <:+ t.spans ++ endedBy t span status error := by
  unfold Tracer.endSpan endedBy
  split
  · rw [List.append_nil]
  · exact spans_push _ _

theorem spans_traceLlmCall (t : Tracer) (provider : String) (call : LlmCall) :
    (t.traceLlmCall provider call).spans <:+ t.spans ++ [callSpan t provider call] :=
  spans_endSpan (t.startSpan _ _ _).2 _ _ _

/-- The spans that are not of calls count nothing. -/
theorem usages_endedBy (key : String) {span : TraceSpan} (t : Tracer) (h : span.kind ≠ "llm")
    (status error : String) : usages key (endedBy t span status error) = 0 := by
  unfold endedBy
  split
  · rfl
  · rw [usages, List.map_singleton, List.sum_singleton, usage, if_neg h]

/-! ## Jobs -/

/-- The fields of `task_data` that are recorded. -/
structure TaskData where
  model : String := ""
  provider : String := ""

/-- A job that thinks. Since it started there have been its own calls, those of other jobs, and the
spans that the history dropped. -/
structure ThinkJob where
  data : TaskData
  before : TraceStats
  own : List LlmCall := []
  others : List LlmCall := []
  dropped : List TraceSpan := []

/-- What `noema.think` returns, as far as it is recorded. -/
structure JobSolution (F : Type) where
  id : String
  taskId : String
  info : List (String × PyVal F)

/-- A worker, and what its jobs have recorded, each with the calls of the job. -/
structure WorkerState (F : Type) where
  tracer : Tracer
  ledger : Option (ContributionLedger F)
  jobs : Nat → Option ThinkJob
  recorded : List (LedgerEntry F × List LlmCall)

/-- The context of a worker: its node, the model of its LLM, and how a cost is a float. -/
structure WorkerContext (F : Type) where
  nodeId : String
  modelName : String
  float : ℚ → F

/-- What happens on a worker. The engine ends spans of its own as well. -/
inductive JobEvent (F : Type) where
  | start (id : Nat) (data : TaskData)
  | llmCall (id : Nat) (provider : String) (call : LlmCall)
  | startSpan (name kind : String)
  | endSpan (span : TraceSpan) (status error : String)
  | succeed (id : Nat) (solution : JobSolution F)
  | fail (id : Nat)

section Worker

variable {F : Type} [PyInterp F] (ctx : WorkerContext F)

/-- The entry of a job (arq_worker.py:181). -/
def entryOf (job : ThinkJob) (after : TraceStats) (solution : JobSolution F) : LedgerEntry F :=
  let model := if job.data.model ≠ "" then job.data.model else ctx.modelName
  let tokensInput : Int := after.tokensInput - job.before.tokensInput
  let tokensOutput : Int := after.tokensOutput - job.before.tokensOutput
  { LedgerEntry.of ctx.nodeId solution.taskId "solution" tokensInput tokensOutput
      (if model ≠ "" then ctx.float (calculateCost model tokensInput tokensOutput)
        else zeroFloat) "" solution.id solution.info with
    provider := job.data.provider, model }

namespace WorkerState

variable (s : WorkerState F)

/-- The tracer goes on to `t`, having ended some spans. A call of a job may have been one of them.
-/
def advance (t : Tracer) (ended : List TraceSpan) (call : Option (Nat × LlmCall)) : WorkerState F :=
  { s with
    tracer := t
    jobs := fun id => (s.jobs id).map fun job =>
      { job with
        own := job.own ++ (call.filter fun c => c.1 = id).toList.map Prod.snd
        others := job.others ++ (call.filter fun c => c.1 ≠ id).toList.map Prod.snd
        dropped := job.dropped ++ lost s.tracer t ended } }

/-- `ledger.record(...)`, if there is a ledger. -/
def record (job : ThinkJob) (solution : JobSolution F) : WorkerState F :=
  let entry := entryOf ctx job s.tracer.getStats solution
  match s.ledger with
  | none => s
  | some ledger =>
    { s with ledger := some (ledger.record entry), recorded := (entry, job.own) :: s.recorded }

end WorkerState

/-- The jobs of a worker. Only the calls of an LLM have spans of the kind `llm`. -/
def workerSystem (config : TraceConfig) (ledger : Option (ContributionLedger F)) :
    System (WorkerState F) (JobEvent F) where
  init := ⟨.new config, ledger, fun _ => none, []⟩
  step s e :=
    match e with
    | .start id data =>
      if s.jobs id = none then
        some { s with
          jobs := Function.update s.jobs id (some { data, before := s.tracer.getStats }) }
      else none
    | .llmCall id provider call =>
      (s.jobs id).map fun _ =>
        -- every job that is running has the tokens as its own or as those of another one
        s.advance (s.tracer.traceLlmCall provider call) [callSpan s.tracer provider call]
          (some (id, call))
    | .startSpan name kind => some (s.advance (s.tracer.startSpan name kind []).2 [] none)
    | .endSpan span status error =>
      -- spans without tokens, which push others out of the history all the same
      if span.kind ≠ "llm" then
        some (s.advance (s.tracer.endSpan span status error) (endedBy s.tracer span status error)
          none)
      else none
    | .succeed id solution =>
      (s.jobs id).map fun job =>
        { s.record ctx job solution with jobs := Function.update s.jobs id none }
    | .fail id =>
      (s.jobs id).map fun _ => { s with jobs := Function.update s.jobs id none }

/-- Every job was recorded with the tokens of its own calls. -/
def OwnTokens (s : WorkerState F) : Prop :=
  ∀ r ∈ s.recorded, r.1.inputTokens = tokensOfAll inputKey r.2 ∧
    r.1.outputTokens = tokensOfAll outputKey r.2

/-- The other jobs consumed what the history dropped meanwhile. Where the job consumed nothing, they
may have consumed less. -/
def ThinkJob.Settled (job : ThinkJob) (key : String) : Prop :=
  tokensOfAll key job.others = usages key job.dropped ∨
    tokensOfAll key job.own = 0 ∧ tokensOfAll key job.others ≤ usages key job.dropped

/-- The condition on a job that succeeds and is recorded. -/
def Settled (s : WorkerState F) : JobEvent F → Prop
  | .succeed id _ => s.ledger.isSome → ∀ job ∈ s.jobs id, job.Settled inputKey ∧ job.Settled outputKey
  | .start .. | .llmCall .. | .startSpan .. | .endSpan .. | .fail _ => True

/-! ## The accounts of a job -/

/-- What is in the history and what was dropped from it since the job started, is what was in it
then and what was consumed since. -/
def ThinkJob.Accounts (job : ThinkJob) (t : Tracer) : Prop :=
  ∃ start : Tracer, job.before = start.getStats ∧ ∀ key,
    usages key t.spans + usages key job.dropped =
      usages key start.spans + tokensOfAll key job.own + tokensOfAll key job.others

/-- The accounts of all jobs that think. -/
def Accounts (s : WorkerState F) : Prop := ∀ id, ∀ job ∈ s.jobs id, job.Accounts s.tracer

omit [PyInterp F] in
/-- The tracer goes on, and the jobs with it. -/
theorem Accounts.advance {s : WorkerState F} (h : Accounts s) {t : Tracer} {ended : List TraceSpan}
    {call : Option (Nat × LlmCall)} (hspans : t.spans <:+ s.tracer.spans ++ ended)
    (hended : ∀ key, usages key ended = tokensOfAll key (call.toList.map Prod.snd)) :
    Accounts (s.advance t ended call) := by
  intro id job hjob
  obtain ⟨job₀, hjob₀, rfl⟩ := Option.mem_map.mp hjob
  obtain ⟨start, hbefore, haccount⟩ := h id job₀ hjob₀
  refine ⟨start, hbefore, fun key => ?_⟩
  have hlost := congrArg (usages key) (lost_append hspans)
  rw [usages_append, usages_append, hended] at hlost
  have hcall := tokensOfAll_filter key call id
  have hkey := haccount key
  show usages key t.spans + usages key (job₀.dropped ++ lost s.tracer t ended) =
    usages key start.spans + tokensOfAll key (job₀.own ++ _) + tokensOfAll key (job₀.others ++ _)
  rw [usages_append, tokensOfAll_append, tokensOfAll_append]
  omega

omit [PyInterp F] in
/-- A job is over. -/
theorem Accounts.finish {s s' : WorkerState F} (h : Accounts s) {id : Nat}
    (htracer : s'.tracer = s.tracer) (hjobs : s'.jobs = Function.update s.jobs id none) :
    Accounts s' := by
  intro id' job hjob
  rw [hjobs] at hjob
  rw [htracer]
  rcases mem_update hjob with ⟨-, hnew⟩ | ⟨-, hold⟩
  · cases hnew
  · exact h id' job hold

theorem tracer_record (s : WorkerState F) (job : ThinkJob) (solution : JobSolution F) :
    (s.record ctx job solution).tracer = s.tracer := by
  rw [WorkerState.record]
  cases s.ledger <;> rfl

theorem accounts_step {config : TraceConfig} {ledger : Option (ContributionLedger F)}
    {s s' : WorkerState F} {e : JobEvent F} (h : Accounts s)
    (hstep : (workerSystem ctx config ledger).step s e = some s') : Accounts s' := by
  cases e with
  | start id data =>
    obtain ⟨-, hstep⟩ := Option.ite_none_right_eq_some.mp hstep
    cases hstep
    intro id' job hjob
    rcases mem_update (f := s.jobs) hjob with ⟨-, hnew⟩ | ⟨-, hold⟩
    · cases hnew
      exact ⟨s.tracer, rfl, fun key => rfl⟩
    · exact h id' job hold
  | llmCall id provider call =>
    obtain ⟨-, -, rfl⟩ := Option.map_eq_some_iff.mp hstep
    exact h.advance (spans_traceLlmCall _ provider call) fun key => rfl
  | startSpan name kind =>
    cases hstep
    exact h.advance ((List.append_nil _).symm ▸ List.suffix_rfl) fun key => rfl
  | endSpan span status error =>
    obtain ⟨hkind, hstep⟩ := Option.ite_none_right_eq_some.mp hstep
    cases hstep
    exact h.advance (spans_endSpan _ span status error) (usages_endedBy · _ hkind _ _)
  | succeed id solution =>
    obtain ⟨job, -, rfl⟩ := Option.map_eq_some_iff.mp hstep
    exact h.finish (tracer_record ctx s job solution) rfl
  | fail id =>
    obtain ⟨-, -, rfl⟩ := Option.map_eq_some_iff.mp hstep
    exact h.finish rfl rfl

omit [PyInterp F] in
/-- The difference of two sums of a history, which is not recorded when it is negative. -/
theorem ThinkJob.settled_iff {job : ThinkJob} {spans spans' : List TraceSpan} {key : String}
    (haccount : usages key spans' + usages key job.dropped =
      usages key spans + tokensOfAll key job.own + tokensOfAll key job.others) :
    max ((usages key spans' : Int) - usages key spans) 0 = tokensOfAll key job.own ↔
      job.Settled key := by
  rw [ThinkJob.Settled]
  omega

/-- A job is recorded with its own tokens if and only if it is settled. -/
theorem entryOf_iff {job : ThinkJob} {t : Tracer} (h : job.Accounts t) (solution : JobSolution F) :
    (entryOf ctx job t.getStats solution).inputTokens = tokensOfAll inputKey job.own ∧
        (entryOf ctx job t.getStats solution).outputTokens = tokensOfAll outputKey job.own ↔
      job.Settled inputKey ∧ job.Settled outputKey := by
  obtain ⟨start, hbefore, haccount⟩ := h
  have hsums (t : Tracer) : (t.getStats.tokensInput = usages inputKey t.spans) ∧
      t.getStats.tokensOutput = usages outputKey t.spans :=
    ⟨sum_llmSpans inputKey t.spans, sum_llmSpans outputKey t.spans⟩
  rw [← ThinkJob.settled_iff (haccount inputKey), ← ThinkJob.settled_iff (haccount outputKey)]
  rw [← (hsums t).1, ← (hsums t).2, ← (hsums start).1, ← (hsums start).2, ← hbefore]
  rfl

/-- A worker whose LLM costs nothing. -/
def freeWorker : WorkerContext FloatText := ⟨"node", "fallback", fun _ => zeroFloat⟩

/-- Two jobs at the same time. -/
def overlappingJobs : List (JobEvent FloatText) :=
  [.start 0 {}, .start 1 {}, .llmCall 1 "openai" (.answered 10 7 3),
    .succeed 0 ⟨"solution", "task", []⟩]

end Worker

end Noema.Workers
