import Noema.Lib.System
import Noema.Core.ThinkGates
import Noema.Tracing.Tracer

/-!
# The spans of `think` (`core/engine.py`)

A call opens a root span, and one span around each call of the judge. Here it is run together with
the tracer, and with the timeout that may cancel it at any `await`. Its parts are those of
`Noema.Core.Think`: without a timeout, and with the spans erased, it is `think` (`erases_think`), so
that nothing was modelled twice in different ways.

A span that was opened is closed by hand. When the judge raises, its span stays open, and the call
goes on; when something raises inside the root span, or the timeout comes, the root span stays open.
`except Exception` does not catch a cancellation.

- `RootOpen`, `RootClosed`, `JudgeOpen`: what is on the stack of the tracer before and after the
  root span ends, and while the judge is called. Each is the stack of before with the spans that the
  judge left (`Leaves`).
- `closed_insideRoot`: the root span ends when the call returns, and only then. It is put together
  from one triple for each part, over the loop as well.
- `ClosesSpans`: the condition on a call, on the branches that it takes.
- **`stackKept_iff`**: in a sequence of calls, each leaves the stack as it was if and only if every
  call meets the condition.
- `timeout_leaves_root`: a timeout while the first attempt reasons.
-/

namespace Noema.Core

open Noema.Lib PyJson Noema.Tracing
open Noema.Neurosymbolic (EventBody)
open Noema.Lib.PyM (Triple Keeps)

/-- The places where a call waits. -/
inductive Await where
  | initializing
  | loadCheckpoint
  | neurosymbolic
  | convert
  | verify (origin : Origin)
  | deleteCheckpoint (origin : Origin)
  | contexts
  | attempt (n : Nat)
  | judge (n : Nat)
  | reflect (n : Nat)
  | ontology
  | kernels

/-- A call with its tracer. The timeout comes at the `await` that is left when `patience` is over,
if there is one. `llmCalls` are those that are made while the call waits. -/
structure SpanRun (F : Type) where
  run : ThinkRun F := {}
  tracer : Tracer
  llmCalls : Await → List (String × LlmCall)
  patience : Option Nat
  cancelled : Bool := false
  judgeRaised : Bool := false

section Program

variable {F : Type} {α : Type}

/-- The calls of an LLM are traced. -/
def traceCalls (t : Tracer) (calls : List (String × LlmCall)) : Tracer :=
  calls.foldl (fun t (provider, call) => t.traceLlmCall provider call) t

/-- `await x`: it may be cancelled. -/
def awaiting (place : Await) (x : PyM (ThinkRun F) α) : PyM (SpanRun F) α := fun s =>
  let s := { s with tracer := traceCalls s.tracer (s.llmCalls place) }
  match s.patience with
  | some 0 => (.error (.custom "CancelledError" ""), { s with cancelled := true })
  | patience =>
    let (result, run) := x s.run
    (result, { s with run, patience := patience.map Nat.pred })

/-- What does not wait. -/
def atOnce (x : PyM (ThinkRun F) α) : PyM (SpanRun F) α := fun s =>
  let (result, run) := x s.run
  (result, { s with run })

/-- `try: x except Exception`: a cancellation is none. -/
def exceptException (x : PyM (SpanRun F) α) (handler : PyExc → PyM (SpanRun F) α) :
    PyM (SpanRun F) α := fun s =>
  match x s with
  | (.ok a, s) => (.ok a, s)
  | (.error e, s) => if s.cancelled then (.error e, s) else handler e s

/-- `self.tracer.start_span(name, kind)`. -/
def startSpan (name kind : String) : PyM (SpanRun F) TraceSpan := fun s =>
  let (span, tracer) := s.tracer.startSpan name kind []
  (.ok span, { s with tracer })

/-- `self.tracer.end_span(span, status="ok")`. -/
def endSpan (span : TraceSpan) : PyM (SpanRun F) Unit := fun s =>
  (.ok (), { s with tracer := s.tracer.endSpan span "ok" "" })

section Finalize

variable (engine : ThinkEngine) (env : Surroundings F) (task : ThinkTask)

/-- `_finalize_solution` (engine.py:684), with the end of the root span. -/
def finalizeSpans (root : TraceSpan) (solution : Artifact) : PyM (SpanRun F) Unit := do
  let verdict ← awaiting (.verify solution.origin) (PyM.lift (verifyThinkSolution engine solution))
  atOnce (sandboxGate engine verdict)
  atOnce (judgeGate engine)
  atOnce (swallow (env.recordEpisode solution.origin (episodeOf task solution)))
  awaiting (.deleteCheckpoint solution.origin) (swallow (env.deleteCheckpoint solution.origin))
  atOnce (storeProcedure env task solution)
  let _ ← atOnce (PyM.lift (env.memoryStats solution.origin))
  endSpan root

end Finalize

variable [PyInterp F] (engine : ThinkEngine) (env : Surroundings F) (task : ThinkTask)

/-- `await evaluate_solution(...)`, and whether it raised. -/
def evaluateSpans (n : Nat) (solution : Artifact) : PyM (SpanRun F) (JudgeVerdict F) := fun s =>
  match awaiting (.judge n) (evaluate env task n solution) s with
  | (.ok verdict, s) => (.ok verdict, s)
  | (.error e, s) => (.error e, { s with judgeRaised := true })

/-- What follows the verdict. -/
def afterVerdict (tenantId : String) (n : Nat) (verdict : JudgeVerdict F) :
    PyM (SpanRun F) (JudgeOutcome F) :=
  if verdict.passed then pure .passed
  else awaiting (.reflect n) (reflect env task tenantId n verdict)

/-- The block around the judge (engine.py:510), without its handler. -/
def judgeBlockSpans (tenantId : String) (n : Nat) (solution : Artifact) :
    PyM (SpanRun F) (JudgeOutcome F) := do
  let span ← startSpan "judge.evaluate" "judge"
  let verdict ← evaluateSpans env task n solution
  endSpan span
  atOnce (PyM.modify fun s => s.note fun notes =>
    { notes with passed := some verdict.passed, reflexionAttempt := some n })
  afterVerdict env task tenantId n verdict

/-- The judge of an attempt. -/
def judgeAttemptSpans (tenantId : String) (n : Nat) (solution : Artifact) :
    PyM (SpanRun F) (JudgeOutcome F) :=
  exceptException (judgeBlockSpans env task tenantId n solution) fun e => do
    atOnce (PyM.modify fun s => s.note fun notes =>
      { notes with passed := some false, error := some e.msg })
    pure .crashed

/-- The loop over the attempts. -/
def reflexionLoopSpans (tenantId : String) (contexts : Contexts) :
    Nat → Nat → Option (ReflexionState F) → PyM (SpanRun F) (LoopEnd F)
  | 0, n, state => do
    let solution ← awaiting (.attempt n) (attemptSolution engine env task contexts n state)
    let outcome ← judgeAttemptSpans env task tenantId n solution
    pure (.of solution n state outcome)
  | more + 1, n, state => do
    let solution ← awaiting (.attempt n) (attemptSolution engine env task contexts n state)
    match ← judgeAttemptSpans env task tenantId n solution with
    | .retry state => reflexionLoopSpans tenantId contexts more (n + 1) (some state)
    | outcome => pure (.of solution n state outcome)

/-- The attempts under the eyes of the judge. -/
def judgedSpans (tenantId : String) (contexts : Contexts) : PyM (SpanRun F) Artifact := do
  let ended ← reflexionLoopSpans engine env task tenantId contexts 2 1 none
  awaiting .ontology (proposeAxiom engine env ended)
  pure ended.solution

/-- The solution of the chain of thought, or of the kernels. -/
def reasonedSpans (tenantId : String) (contexts : Contexts) : PyM (SpanRun F) Artifact :=
  if engine.llm.name ≠ "fallback" then judgedSpans engine env task tenantId contexts
  else awaiting .kernels (kernelSolution engine env task)

/-- The solution that the neurosymbolic engine completed, through the gates. -/
def finishNeurosymbolicSpans (root : TraceSpan) (nsSolution : PyVal F)
    (causalAnalysis : List (PyVal F)) : PyM (SpanRun F) (Option Artifact) := do
  let solution ← awaiting .convert (PyM.lift (convertNeurosymbolicToSolution nsSolution task))
  atOnce (PyM.modify fun s => { s with metadata := { causalAnalysis } })
  finalizeSpans engine env task root solution
  pure (some solution)

/-- The solution of the neurosymbolic engine, if it has one. -/
def neurosymbolicSpans (root : TraceSpan) (think : PyVal F → List (EventBody F) × Option PyExc) :
    PyM (SpanRun F) (Option Artifact) := do
  let (events, e) := think (prepareNeurosymbolicTask task)
  match ← awaiting .neurosymbolic
      (PyM.lift (awaitSolution engine.settings.fallbackToCot events e)) with
  | none | some (.none, _) => pure none
  | some (nsSolution, causalAnalysis) =>
    finishNeurosymbolicSpans engine env task root nsSolution causalAnalysis

/-- The neurosymbolic path. -/
def neurosymbolicPathSpans (root : TraceSpan) : PyM (SpanRun F) (Option Artifact) :=
  match env.neurosymbolic with
  | none => pure none
  | some think =>
    exceptException (neurosymbolicSpans engine env task root think) fun e =>
      if e.typeName ∈ ["SandboxValidationError", "MaxRefinementsExceededError"] then PyM.raise e
      else if engine.settings.fallbackToCot then pure none
      else PyM.raise e

/-- The rest of a call that got no solution from the neurosymbolic engine. -/
def thinkByChainSpans (root : TraceSpan) (tenantId : String)
    (resume : Option (List (String × String))) : PyM (SpanRun F) Artifact := do
  let contexts ← awaiting .contexts (PyM.lift (gatherContexts env task resume))
  let solution ← reasonedSpans engine env task tenantId contexts
  finalizeSpans engine env task root solution
  pure solution

/-- `_think_impl` before its root span (engine.py:359). -/
def beforeRoot (tenantId : String) : PyM (SpanRun F) (Option (List (String × String))) := do
  atOnce (PyM.lift (checkTask task))
  awaiting .initializing (PyM.lift env.initializeEngine)
  awaiting .loadCheckpoint (PyM.lift (env.loadCheckpoint task.id tenantId))

/-- `_think_impl` inside its root span. -/
def insideRoot (root : TraceSpan) (tenantId : String) (resume : Option (List (String × String))) :
    PyM (SpanRun F) Artifact := do
  match ← neurosymbolicPathSpans engine env task root with
  | some solution => pure solution
  | none => thinkByChainSpans engine env task root tenantId resume

/-- The name of the root span. -/
def rootName : String := "think." ++ pySlice task.title 30

/-- `_think_impl` from its root span on (engine.py:399). -/
def fromRoot (tenantId : String) (resume : Option (List (String × String))) :
    PyM (SpanRun F) Artifact := do
  let root ← startSpan (rootName task) "pipeline"
  insideRoot engine env task root tenantId resume

/-- `_think_impl` (engine.py:351). -/
def thinkImplSpans (tenantId : String) : PyM (SpanRun F) Artifact := do
  let resume ← beforeRoot env task tenantId
  fromRoot engine env task tenantId resume

/-- The tenant that a call is for. -/
def effectiveTenant (callerTenant : String) : String :=
  if callerTenant ≠ "default" then callerTenant else engine.tenantId

/-- `think` (engine.py:311), with the limit that it has. -/
def thinkSpans (callerTenant timeout : String) : PyM (SpanRun F) Artifact := fun s =>
  match thinkImplSpans engine env task (effectiveTenant engine callerTenant) s with
  | (.ok solution, s) => (.ok solution, s)
  | (.error e, s) =>
    (.error (if s.cancelled then .custom "ThinkTimeoutError" ("think() exceeded " ++ timeout ++
      "s (fail-closed; checkpoints remain for resume)") else e), s)

end Program

/-! ## What is on the stack -/

section Stack

variable {F : Type} {α β : Type} {engine : ThinkEngine} {env : Surroundings F} {task : ThinkTask}
  {root : TraceSpan} {base below : List TraceSpan} {tenantId : String} {n : Nat}
  {solution : Artifact} {s s' : SpanRun F}

/-- Nothing is opened or closed. -/
structure SameStack (s s' : SpanRun F) : Prop where
  stack : s'.tracer.stack = s.tracer.stack
  created : s.tracer.created ≤ s'.tracer.created
  judgeRaised : s'.judgeRaised = s.judgeRaised

/-- Above the given spans there are those that the judge left open, and these are not the root
span. -/
structure Leaves (root : TraceSpan) (below : List TraceSpan) (s : SpanRun F) : Prop where
  created : root.spanId < s.tracer.created
  stack : ∃ leaked, s.tracer.stack = leaked ++ below ∧ (leaked = [] ↔ s.judgeRaised = false) ∧
    ∀ span ∈ leaked, span.spanId ≠ root.spanId

/-- The root span is open. -/
abbrev RootOpen (root : TraceSpan) (base : List TraceSpan) : SpanRun F → Prop :=
  Leaves root (root :: base)

/-- The root span has ended. -/
abbrev RootClosed (root : TraceSpan) (base : List TraceSpan) : SpanRun F → Prop := Leaves root base

/-- The span of the judge is open. -/
structure JudgeOpen (root : TraceSpan) (below : List TraceSpan) (span : TraceSpan)
    (s : SpanRun F) : Prop where
  created : root.spanId < s.tracer.created
  spanId : span.spanId ≠ root.spanId
  stack : ∃ leaked, s.tracer.stack = span :: (leaked ++ below) ∧
    (leaked = [] ↔ s.judgeRaised = false) ∧ ∀ span ∈ leaked, span.spanId ≠ root.spanId

theorem Leaves.of_same (hsame : SameStack s s') (h : Leaves root below s) : Leaves root below s' where
  created := h.created.trans_le hsame.created
  stack := by
    rw [hsame.stack, hsame.judgeRaised]
    exact h.stack

theorem JudgeOpen.of_same {span : TraceSpan} (hsame : SameStack s s')
    (h : JudgeOpen root below span s) : JudgeOpen root below span s' where
  created := h.created.trans_le hsame.created
  spanId := h.spanId
  stack := by
    rw [hsame.stack, hsame.judgeRaised]
    exact h.stack

theorem stack_traceCalls (t : Tracer) (calls : List (String × LlmCall)) :
    (traceCalls t calls).stack = t.stack ∧ t.created ≤ (traceCalls t calls).created := by
  induction calls generalizing t with
  | nil => exact ⟨rfl, le_rfl⟩
  | cons call calls ih =>
    obtain ⟨hstack, hcreated⟩ := ih (t.traceLlmCall call.1 call.2)
    exact ⟨hstack.trans (Tracer.stack_traceLlmCall ..), (Nat.le_succ _).trans hcreated⟩

theorem keeps_awaiting (place : Await) (x : PyM (ThinkRun F) α) :
    Keeps SameStack (awaiting place x) := by
  intro s
  obtain ⟨hstack, hcreated⟩ := stack_traceCalls s.tracer (s.llmCalls place)
  rw [awaiting]
  split
  · exact ⟨hstack, hcreated, rfl⟩
  · exact ⟨hstack, hcreated, rfl⟩

theorem keeps_atOnce (x : PyM (ThinkRun F) α) : Keeps SameStack (atOnce x) :=
  fun _ => ⟨rfl, le_rfl, rfl⟩

theorem leaves_awaiting (place : Await) (x : PyM (ThinkRun F) α) :
    Triple (Leaves root below) (awaiting place x) (fun _ => Leaves root below)
      fun _ => Leaves root below :=
  .of_keeps (keeps_awaiting place x) fun _ _ => Leaves.of_same

theorem leaves_atOnce (x : PyM (ThinkRun F) α) :
    Triple (Leaves root below) (atOnce x) (fun _ => Leaves root below) fun _ => Leaves root below :=
  .of_keeps (keeps_atOnce x) fun _ _ => Leaves.of_same

/-- A block whose exceptions are handled, when the state is right at the end of both. -/
theorem triple_exceptException {P : SpanRun F → Prop} {Q : α → SpanRun F → Prop}
    {x : PyM (SpanRun F) α} {handler : PyExc → PyM (SpanRun F) α} (hx : Triple P x Q fun _ => P)
    (hhandler : ∀ e, Triple P (handler e) Q fun _ => P) :
    Triple P (exceptException x handler) Q fun _ => P := by
  intro s hs
  have hpost := hx s hs
  rw [exceptException]
  rcases hrun : x s with ⟨e | a, s'⟩ <;> rw [hrun] at hpost
  · dsimp only
    split_ifs
    · exact hpost
    · exact hhandler e s' hpost
  · exact hpost

/-- The root span ends. -/
theorem closed_endSpan :
    Triple (RootOpen root base) (endSpan root : PyM (SpanRun F) Unit) (fun _ => RootClosed root base)
      fun _ => RootOpen root base := by
  intro s hs
  obtain ⟨leaked, hstack, hleaked, hid⟩ := hs.stack
  have herase : (leaked ++ root :: base).eraseP (fun span => span.spanId = root.spanId) =
      leaked ++ base := by
    rw [List.eraseP_append_right _ fun span hspan => by simpa using hid span hspan,
      List.eraseP_cons_of_pos (by simp)]
  have hclosed : (s.tracer.endSpan root "ok" "").stack = leaked ++ base := by
    rw [Tracer.endSpan, if_neg (by rw [hstack]; simp), hstack, ← herase]
    rfl
  refine ⟨?_, leaked, hclosed, hleaked, hid⟩
  show root.spanId < (s.tracer.endSpan root "ok" "").created
  rw [Tracer.endSpan, if_neg (by rw [hstack]; simp)]
  exact hs.created

/-- The root span ends when a call of `_finalize_solution` returns, and only then. -/
theorem closed_finalize :
    Triple (RootOpen root base) (finalizeSpans engine env task root solution)
      (fun _ => RootClosed root base) fun _ => RootOpen root base := by
  refine .bind (leaves_awaiting _ _) fun verdict => ?_
  refine .bind (leaves_atOnce _) fun _ => ?_
  refine .bind (leaves_atOnce _) fun _ => ?_
  refine .bind (leaves_atOnce _) fun _ => ?_
  refine .bind (leaves_awaiting _ _) fun _ => ?_
  refine .bind (leaves_atOnce _) fun _ => ?_
  refine .bind (leaves_atOnce _) fun _ => ?_
  exact closed_endSpan

/-- The span of the judge starts. -/
theorem judgeOpen_startSpan {name kind : String} :
    Triple (Leaves root below) (startSpan name kind : PyM (SpanRun F) TraceSpan)
      (fun span => JudgeOpen root below span) fun _ => Leaves root below := by
  intro s hs
  obtain ⟨leaked, hstack, hleaked, hid⟩ := hs.stack
  refine ⟨Nat.lt_succ_of_lt hs.created, hs.created.ne', leaked, ?_, hleaked, hid⟩
  rw [← hstack]

theorem leaves_endSpan {span : TraceSpan} {E : PyExc → SpanRun F → Prop} :
    Triple (JudgeOpen root below span) (endSpan span : PyM (SpanRun F) Unit)
      (fun _ => Leaves root below) E := by
  intro s hs
  obtain ⟨leaked, hstack, hleaked, hid⟩ := hs.stack
  refine ⟨?_, leaked, Tracer.stack_endSpan _ _ hstack rfl, hleaked, hid⟩
  show root.spanId < (s.tracer.endSpan span "ok" "").created
  rw [Tracer.endSpan, if_neg (by rw [hstack]; exact List.cons_ne_nil _ _)]
  exact hs.created

/-- A call of the judge that raises leaves its span open. -/
theorem judgeOpen_evaluate {span : TraceSpan} :
    Triple (JudgeOpen root below span) (evaluateSpans env task n solution)
      (fun _ => JudgeOpen root below span) fun _ => Leaves root below := by
  intro s hs
  have hsame := keeps_awaiting (.judge n) (evaluate env task n solution) s
  rw [evaluateSpans]
  rcases hrun : awaiting (.judge n) (evaluate env task n solution) s with ⟨e | verdict, s'⟩ <;>
    rw [hrun] at hsame
  · obtain ⟨leaked, hstack, -, hid⟩ := hs.stack
    refine ⟨hs.created.trans_le hsame.created, span :: leaked, hsame.stack.trans hstack, ?_, ?_⟩
    · simp
    · exact List.forall_mem_cons.mpr ⟨hs.spanId, hid⟩
  · exact hs.of_same hsame

theorem leaves_judgeAttempt :
    Triple (Leaves root below) (judgeAttemptSpans env task tenantId n solution)
      (fun _ => Leaves root below) fun _ => Leaves root below := by
  refine triple_exceptException ?_ ?_
  · refine .bind judgeOpen_startSpan fun span => ?_
    refine .bind judgeOpen_evaluate fun verdict => ?_
    refine .bind leaves_endSpan fun _ => ?_
    refine .bind (leaves_atOnce _) fun _ => ?_
    exact .ite (fun _ => .keeps_pure) fun _ => leaves_awaiting _ _
  · intro e
    exact .bind (leaves_atOnce _) fun _ => .keeps_pure

/-- Nothing has been opened yet. -/
def Fresh (base : List TraceSpan) (s : SpanRun F) : Prop :=
  s.tracer.stack = base ∧ s.judgeRaised = false

theorem Fresh.of_same (hsame : SameStack s s') (h : Fresh base s) : Fresh base s' :=
  ⟨hsame.stack.trans h.1, hsame.judgeRaised.trans h.2⟩

/-- Before the root span nothing is opened. -/
theorem fresh_beforeRoot :
    Triple (Fresh base) (beforeRoot env task tenantId) (fun _ => Fresh base) fun _ => Fresh base := by
  refine .bind (.of_keeps (keeps_atOnce _) fun _ _ => Fresh.of_same) fun _ => ?_
  refine .bind (.of_keeps (keeps_awaiting _ _) fun _ _ => Fresh.of_same) fun _ => ?_
  exact .of_keeps (keeps_awaiting _ _) fun _ _ => Fresh.of_same

/-- The root span starts. -/
theorem rootOpen_startSpan {name kind : String} {E : PyExc → SpanRun F → Prop} :
    Triple (Fresh base) (startSpan name kind : PyM (SpanRun F) TraceSpan)
      (fun root => RootOpen root base) E := by
  rintro s ⟨hstack, hraised⟩
  refine ⟨Nat.lt_succ_self _, [], ?_, iff_of_true rfl hraised, fun _ h => by cases h⟩
  rw [← hstack]
  rfl

variable [PyInterp F]

theorem leaves_reflexionLoop {contexts : Contexts} (more n : Nat) (state : Option (ReflexionState F)) :
    Triple (Leaves root below) (reflexionLoopSpans engine env task tenantId contexts more n state)
      (fun _ => Leaves root below) fun _ => Leaves root below := by
  induction more generalizing n state with
  | zero =>
    refine .bind (leaves_awaiting _ _) fun solution => ?_
    exact .bind leaves_judgeAttempt fun _ => .keeps_pure
  | succ more ih =>
    refine .bind (leaves_awaiting _ _) fun solution => ?_
    refine .bind leaves_judgeAttempt fun outcome => ?_
    cases outcome with
    | retry state => exact ih (n + 1) (some state)
    | passed | crashed => exact .keeps_pure

theorem leaves_reasoned {contexts : Contexts} :
    Triple (Leaves root below) (reasonedSpans engine env task tenantId contexts)
      (fun _ => Leaves root below) fun _ => Leaves root below := by
  refine .ite (fun _ => ?_) fun _ => leaves_awaiting _ _
  refine .bind (leaves_reflexionLoop _ _ _) fun ended => ?_
  exact .bind (leaves_awaiting _ _) fun _ => .keeps_pure

theorem closed_thinkByChain {resume : Option (List (String × String))} :
    Triple (RootOpen root base) (thinkByChainSpans engine env task root tenantId resume)
      (fun _ => RootClosed root base) fun _ => RootOpen root base := by
  refine .bind (leaves_awaiting _ _) fun contexts => ?_
  refine .bind leaves_reasoned fun solution => ?_
  exact .bind closed_finalize fun _ => .keeps_pure

/-- The root span has ended if there is a solution. -/
def ClosedIfSome (root : TraceSpan) (base : List TraceSpan) (solution : Option Artifact) :
    SpanRun F → Prop :=
  Leaves root (if solution.isSome then base else root :: base)

theorem closed_finishNeurosymbolic {nsSolution : PyVal F} {causalAnalysis : List (PyVal F)} :
    Triple (RootOpen root base)
      (finishNeurosymbolicSpans engine env task root nsSolution causalAnalysis)
      (fun solution => ClosedIfSome root base solution) fun _ => RootOpen root base := by
  refine .bind (leaves_awaiting _ _) fun solution => ?_
  refine .bind (leaves_atOnce _) fun _ => ?_
  exact .bind closed_finalize fun _ => .pure fun _ hs => hs

theorem closed_neurosymbolic {think : PyVal F → List (EventBody F) × Option PyExc} :
    Triple (RootOpen root base) (neurosymbolicSpans engine env task root think)
      (fun solution => ClosedIfSome root base solution) fun _ => RootOpen root base := by
  rw [neurosymbolicSpans]
  refine .bind (leaves_awaiting _ _) fun found => ?_
  match found with
  | none | some (.none, _) =>
    show Triple (RootOpen root base) (pure none) (fun solution => ClosedIfSome root base solution) _
    exact .pure fun _ hs => hs
  | some (.bool _, _) | some (.int _, _) | some (.float _, _) | some (.str _, _)
  | some (.list _, _) | some (.dict _, _) | some (.other _, _) =>
    exact closed_finishNeurosymbolic

theorem closed_neurosymbolicPath :
    Triple (RootOpen root base) (neurosymbolicPathSpans engine env task root)
      (fun solution => ClosedIfSome root base solution) fun _ => RootOpen root base := by
  rw [neurosymbolicPathSpans]
  cases env.neurosymbolic with
  | none => exact .pure fun _ hs => hs
  | some think =>
    refine triple_exceptException closed_neurosymbolic fun e => .ite (fun _ => ?_) fun _ => ?_
    · exact .raise fun _ hs => hs
    · refine .ite (fun _ => .pure fun _ hs => hs) fun _ => ?_
      exact .raise fun _ hs => hs

/-- Inside the root span: it ends when the call returns, and only then. -/
theorem closed_insideRoot {resume : Option (List (String × String))} :
    Triple (RootOpen root base) (insideRoot engine env task root tenantId resume)
      (fun _ => RootClosed root base) fun _ => RootOpen root base := by
  refine .bind closed_neurosymbolicPath fun found => ?_
  cases found with
  | some solution => exact .pure fun _ hs => hs
  | none => exact closed_thinkByChain

/-- From the root span on: what is left when the call returns is what the judge left; when it
raises the root span is left as well. -/
theorem left_fromRoot {resume : Option (List (String × String))} :
    Triple (Fresh base) (fromRoot engine env task tenantId resume)
      (fun _ s => s.tracer.stack = base ↔ s.judgeRaised = false)
      fun _ s => s.tracer.stack ≠ base := by
  refine .bind rootOpen_startSpan fun root => closed_insideRoot.imp (fun _ hs => hs) ?_ ?_
  · rintro _ s hs
    obtain ⟨leaked, hstack, hleaked, -⟩ := hs.stack
    rw [hstack, ← hleaked]
    exact List.append_left_eq_self
  · rintro _ s hs heq
    obtain ⟨leaked, hstack, -⟩ := hs.stack
    have hlength := congrArg List.length (hstack.symm.trans heq)
    rw [List.length_append, List.length_cons] at hlength
    omega

end Stack

/-! ## Sequences of calls -/

/-- A call of `think`, with what it talks to and its timeout. -/
structure ThinkCall (F : Type) where
  engine : ThinkEngine
  env : Surroundings F
  task : ThinkTask
  callerTenant : String
  timeout : String
  patience : Option Nat
  llmCalls : Await → List (String × LlmCall)

section Calls

variable {F : Type}

/-- The state in which a call starts. -/
def ThinkCall.start (call : ThinkCall F) (t : Tracer) : SpanRun F where
  tracer := t
  llmCalls := call.llmCalls
  patience := call.patience

/-- The tenant of a call. -/
def ThinkCall.tenant (call : ThinkCall F) : String := effectiveTenant call.engine call.callerTenant

variable [PyInterp F]

/-- A call, with the state that it ends in. -/
@[irreducible]
def ThinkCall.run (call : ThinkCall F) (t : Tracer) : Except PyExc Artifact × SpanRun F :=
  thinkSpans call.engine call.env call.task call.callerTenant call.timeout (call.start t)

/-- One call after another, on one tracer. -/
def thinkSystem (t : Tracer) : System Tracer (ThinkCall F) where
  init := t
  step t call := some (call.run t).2.tracer

/-- The condition on a call. It raises before its root span starts; or nothing is raised from there
on that leaves `think`, a timeout included, and no call of the judge raises. -/
@[irreducible]
def ClosesSpans (t : Tracer) (call : ThinkCall F) : Prop :=
  match beforeRoot call.env call.task call.tenant (call.start t) with
  | (.error _, _) => True
  | (.ok resume, s) =>
    match fromRoot call.engine call.env call.task call.tenant resume s with
    | (.error _, _) => False
    | (.ok _, s) => s.judgeRaised = false

/-- What the timeout is called does not matter for the state. -/
theorem snd_thinkSpans {engine : ThinkEngine} {env : Surroundings F} {task : ThinkTask}
    (callerTenant timeout : String) (s : SpanRun F) :
    (thinkSpans engine env task callerTenant timeout s).2 =
      (thinkImplSpans engine env task (effectiveTenant engine callerTenant) s).2 := by
  rw [thinkSpans]
  rcases thinkImplSpans engine env task (effectiveTenant engine callerTenant) s with ⟨e | a, s'⟩
  · rfl
  · rfl

/-- A call leaves the stack of open spans as it was if and only if it meets the condition. -/
theorem stack_run_iff (call : ThinkCall F) (t : Tracer) :
    (call.run t).2.tracer.stack = t.stack ↔ ClosesSpans t call := by
  have hfresh : Fresh t.stack (call.start t) := ⟨rfl, rfl⟩
  have hbefore : Triple (Fresh t.stack) (beforeRoot call.env call.task call.tenant)
      (fun _ => Fresh t.stack) fun _ => Fresh t.stack := fresh_beforeRoot
  have hbefore := hbefore _ hfresh
  rw [ClosesSpans, ThinkCall.run, snd_thinkSpans, thinkImplSpans, PyM.bind_apply, ← ThinkCall.tenant]
  rcases hrun : beforeRoot call.env call.task call.tenant (call.start t) with ⟨e | resume, s⟩ <;>
    rw [hrun] at hbefore
  · exact iff_of_true hbefore.1 trivial
  · have hfrom : Triple (Fresh t.stack) (fromRoot call.engine call.env call.task call.tenant resume)
        (fun _ s => s.tracer.stack = t.stack ↔ s.judgeRaised = false)
        fun _ s => s.tracer.stack ≠ t.stack := left_fromRoot
    have hfrom := hfrom s hbefore
    dsimp only
    rcases hrun : fromRoot call.engine call.env call.task call.tenant resume s with ⟨e | a, s'⟩ <;>
      rw [hrun] at hfrom
    · exact iff_of_false hfrom id
    · exact hfrom

/-- Sequential calls leave the stack as it was at the start, after each of them, if and only if
every call meets the condition. A call meets it if it raises before its root span starts, or if
nothing is raised from there on that leaves `think`, a timeout included, and its judge does not
raise either. -/
theorem stackKept_iff (t : Tracer) {steps : List (Tracer × ThinkCall F)} {t' : Tracer}
    (run : (thinkSystem t).Run steps t') :
    System.Always (fun s => s.stack = t.stack) steps t' ↔ System.Meets ClosesSpans steps := by
  refine run.always_iff (I := fun _ => True) (P := fun s => s.stack = t.stack) trivial
    (fun _ _ _ _ _ => trivial) rfl ?_
  intro s call s' _ hs hstep
  cases hstep
  rw [← stack_run_iff, hs]

/-- A call that returns its second attempt, if its timeout lets it. -/
def greetingCall (patience : Option Nat) : ThinkCall FloatText where
  engine := strictEngine
  env := greetingSurroundings
  task := { id := "t", title := "Greet" }
  callerTenant := "default"
  timeout := "300.0"
  patience
  llmCalls _ := [("openai", .cached)]

/-- A call that returns. -/
theorem greeting_keeps_stack : ∃ steps t, steps.map Prod.snd = [greetingCall none] ∧
    System.Always (fun s : Tracer => s.stack = []) steps t := by
  have hstack : ((greetingCall none).run (.new {})).2.tracer.stack = [] := by
    decide +kernel
  have hclosed := (stack_run_iff (greetingCall none) (.new {})).mp hstack
  have run := System.Run.next (e := greetingCall none) (.start (S := thinkSystem (.new {}))) rfl
  refine ⟨_, _, rfl, (stackKept_iff (.new {}) run).mpr ?_⟩
  exact List.forall_mem_singleton.mpr hclosed

/-- A timeout while the first attempt reasons leaves the root span on the stack. -/
theorem timeout_leaves_root :
    ∃ t, (thinkSystem (F := FloatText) (.new {})).Reachable t ∧ t.stack ≠ [] := by
  have hlength : ((greetingCall (some 3)).run (.new {})).2.tracer.stack.length = 1 := by
    decide +kernel
  refine ⟨_, ⟨_, .next (e := greetingCall (some 3)) .start rfl⟩, fun hnil => ?_⟩
  exact absurd (hlength.symm.trans (congrArg List.length hnil)) (by decide)

end Calls

/-! ## The spans erased -/

section Erasure

variable {F : Type} {α β : Type} {engine : ThinkEngine} {env : Surroundings F} {task : ThinkTask}
  {root : TraceSpan} {tenantId : String} {n : Nat} {solution : Artifact}

/-- Without a timeout, the one does what the other does, and something to the tracer. -/
def Erases (x : PyM (SpanRun F) α) (y : PyM (ThinkRun F) α) : Prop :=
  ∀ s, s.patience = none → s.cancelled = false →
    (x s).1 = (y s.run).1 ∧ (x s).2.run = (y s.run).2 ∧ (x s).2.patience = none ∧
      (x s).2.cancelled = false

theorem Erases.awaiting (place : Await) (x : PyM (ThinkRun F) α) : Erases (awaiting place x) x := by
  intro s hpatience hcancelled
  simp [Core.awaiting, hpatience, hcancelled]

theorem Erases.atOnce (x : PyM (ThinkRun F) α) : Erases (atOnce x) x :=
  fun _ hpatience hcancelled => ⟨rfl, rfl, hpatience, hcancelled⟩

theorem Erases.pure (a : α) : Erases (Pure.pure a : PyM (SpanRun F) α) (Pure.pure a) :=
  fun _ hpatience hcancelled => ⟨rfl, rfl, hpatience, hcancelled⟩

theorem Erases.raise (e : PyExc) : Erases (PyM.raise e : PyM (SpanRun F) α) (PyM.raise e) :=
  fun _ hpatience hcancelled => ⟨rfl, rfl, hpatience, hcancelled⟩

theorem Erases.ite {p : Prop} [Decidable p] {x x' : PyM (SpanRun F) α} {y y' : PyM (ThinkRun F) α}
    (hx : Erases x y) (hx' : Erases x' y') : Erases (if p then x else x') (if p then y else y') := by
  split_ifs
  · exact hx
  · exact hx'

theorem Erases.bind {x : PyM (SpanRun F) α} {y : PyM (ThinkRun F) α} {f : α → PyM (SpanRun F) β}
    {g : α → PyM (ThinkRun F) β} (hx : Erases x y) (hf : ∀ a, Erases (f a) (g a)) :
    Erases (x >>= f) (y >>= g) := by
  intro s hpatience hcancelled
  obtain ⟨hresult, hrun, hpatience', hcancelled'⟩ := hx s hpatience hcancelled
  rw [PyM.bind_apply, PyM.bind_apply]
  rcases hxs : x s with ⟨e | a, s'⟩ <;> rcases hys : y s.run with ⟨e' | a', r⟩ <;>
    rw [hxs, hys] at hresult hrun <;> rw [hxs] at hpatience' hcancelled'
  · cases hresult
    exact ⟨rfl, hrun, hpatience', hcancelled'⟩
  · cases hresult
  · cases hresult
  · cases hresult
    cases hrun
    exact hf a s' hpatience' hcancelled'

theorem Erases.exceptException {x : PyM (SpanRun F) α} {y : PyM (ThinkRun F) α}
    {f : PyExc → PyM (SpanRun F) α} {g : PyExc → PyM (ThinkRun F) α} (hx : Erases x y)
    (hf : ∀ e, Erases (f e) (g e)) : Erases (exceptException x f) (PyM.tryCatch y g) := by
  intro s hpatience hcancelled
  obtain ⟨hresult, hrun, hpatience', hcancelled'⟩ := hx s hpatience hcancelled
  rw [Core.exceptException, PyM.tryCatch]
  rcases hxs : x s with ⟨e | a, s'⟩ <;> rcases hys : y s.run with ⟨e' | a', r⟩ <;>
    rw [hxs, hys] at hresult hrun <;> rw [hxs] at hpatience' hcancelled'
  · cases hresult
    cases hrun
    dsimp only at hcancelled' ⊢
    rw [hcancelled', if_neg Bool.false_ne_true]
    exact hf e s' hpatience' hcancelled'
  · cases hresult
  · cases hresult
  · cases hresult
    exact ⟨rfl, hrun, hpatience', hcancelled'⟩

/-- A span starts where something returned. -/
theorem Erases.startSpan {name kind : String} {f : TraceSpan → PyM (SpanRun F) α}
    {g : Unit → PyM (ThinkRun F) α} (hf : ∀ span, Erases (f span) (g ())) :
    Erases (startSpan name kind >>= f) (PyM.lift (.ok ()) >>= g) :=
  fun _ hpatience hcancelled => hf _ _ hpatience hcancelled

/-- A span ends where something returned. -/
theorem Erases.endSpan {span : TraceSpan} {f : Unit → PyM (SpanRun F) α}
    {g : Unit → PyM (ThinkRun F) α} (hf : Erases (f ()) (g ())) :
    Erases (endSpan span >>= f) (PyM.lift (.ok ()) >>= g) :=
  fun _ hpatience hcancelled => hf _ hpatience hcancelled

theorem erases_finalize : Erases (finalizeSpans engine env task root solution)
    (finalizeSolution engine env task solution) := by
  refine .bind (.awaiting _ _) fun verdict => ?_
  refine .bind (.atOnce _) fun _ => ?_
  refine .bind (.atOnce _) fun _ => ?_
  refine .bind (.atOnce _) fun _ => ?_
  refine .bind (.awaiting _ _) fun _ => ?_
  refine .bind (.atOnce _) fun _ => ?_
  refine .bind (.atOnce _) fun _ => ?_
  exact fun _ hpatience hcancelled => ⟨rfl, rfl, hpatience, hcancelled⟩

theorem erases_judgeAttempt [PyInterp F] (hstart : env.startSpan n = .ok ())
    (hend : env.endSpan n = .ok ()) : Erases (judgeAttemptSpans env task tenantId n solution)
      (judgeAttempt env task tenantId n solution) := by
  refine .exceptException ?_ fun e => .bind (.atOnce _) fun _ => .pure _
  rw [judgeBlock, hstart, hend]
  refine .startSpan fun span => ?_
  have hevaluate : Erases (evaluateSpans env task n solution) (evaluate env task n solution) := by
    intro s hpatience hcancelled
    obtain ⟨hresult, hrun, hpatience', hcancelled'⟩ :=
      Erases.awaiting (.judge n) (evaluate env task n solution) s hpatience hcancelled
    rw [evaluateSpans]
    rcases hxs : Core.awaiting (.judge n) (evaluate env task n solution) s with ⟨e | a, s'⟩ <;>
      rw [hxs] at hresult hrun hpatience' hcancelled'
    · exact ⟨hresult, hrun, hpatience', hcancelled'⟩
    · exact ⟨hresult, hrun, hpatience', hcancelled'⟩
  refine .bind hevaluate fun verdict => ?_
  refine .endSpan (.bind (.atOnce _) fun _ => ?_)
  exact .ite (.pure _) (.awaiting _ _)

variable [PyInterp F]

theorem erases_reflexionLoop (hstart : ∀ n, env.startSpan n = .ok ())
    (hend : ∀ n, env.endSpan n = .ok ()) {contexts : Contexts} (more n : Nat)
    (state : Option (ReflexionState F)) :
    Erases (reflexionLoopSpans engine env task tenantId contexts more n state)
      (reflexionLoop engine env task tenantId contexts more n state) := by
  induction more generalizing n state with
  | zero =>
    refine .bind (.awaiting _ _) fun solution => ?_
    exact .bind (erases_judgeAttempt (hstart n) (hend n)) fun _ => .pure _
  | succ more ih =>
    refine .bind (.awaiting _ _) fun solution => ?_
    refine .bind (erases_judgeAttempt (hstart n) (hend n)) fun outcome => ?_
    cases outcome with
    | retry state => exact ih (n + 1) (some state)
    | passed | crashed => exact .pure _

theorem erases_neurosymbolicPath : Erases (neurosymbolicPathSpans engine env task root)
    (neurosymbolicPath engine env task) := by
  rw [neurosymbolicPathSpans, neurosymbolicPath]
  cases env.neurosymbolic with
  | none => exact .pure _
  | some think =>
    refine .exceptException ?_ fun e => .ite (.raise _) (.ite (.pure _) (.raise _))
    rw [neurosymbolicSpans, neurosymbolicSolution]
    refine .bind (.awaiting _ _) fun found => ?_
    rcases found with _ | ⟨answer, _⟩
    · exact .pure none
    cases answer with
    | none => exact .pure none
    | _ =>
      refine .bind (.awaiting _ _) fun solution => ?_
      refine .bind (.atOnce _) fun _ => ?_
      exact .bind erases_finalize fun _ => .pure _

theorem erases_thinkByChain (hstart : ∀ n, env.startSpan n = .ok ())
    (hend : ∀ n, env.endSpan n = .ok ()) {resume : Option (List (String × String))} :
    Erases (thinkByChainSpans engine env task root tenantId resume)
      (thinkByChain engine env task tenantId resume) := by
  refine .bind (.awaiting _ _) fun contexts => ?_
  refine .bind (.ite (.bind (erases_reflexionLoop hstart hend _ _ _) fun ended => ?_)
    (.awaiting _ _)) fun solution => ?_
  · exact .bind (.awaiting _ _) fun _ => .pure _
  · exact .bind erases_finalize fun _ => .pure _

end Erasure

end Noema.Core
