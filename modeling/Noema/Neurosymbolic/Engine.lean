import Noema.Tracing.ReasoningTrace

/-!
# The neurosymbolic engine (`neurosymbolic/engine.py`)

`think` is an async generator. It is modelled in `PyM (ThinkState F)`: the state has the metrics and
outcomes of the engine, the local variables that the exception handler reads, and a log with the
events it yields and the traces it commits, in their order. A consumer that stops iterating leaves
the generator suspended at a `yield`; what it has seen, and what has been done by then, is a prefix
of the log (`received`).

- `start`: the event of the start, the task graph and the first hypothesis.
- `verifyRound`, `refineRound`, `refineLoop`: the attempts, each of which verifies the hypothesis
  and, but for the last one, asks for a refinement.
- `complete`, `fail`: the two ends. The task is counted and its outcome recorded, the terminal event
  is yielded, and the trace is committed after it.
- `handleError`: the handler, which counts a failure and yields an error event, whatever was counted
  or yielded before.

The collaborators may return anything or raise (`Collaborators`): parsing, the LLM, the solver, the
causal analysis, the trace writer. Each of them is asked at most once for each attempt or outcome of
a run, so its answers are functions of these.
-/

namespace Noema.Neurosymbolic

open Noema.Lib PyJson Noema.Tracing

variable {F : Type}

/-- `NeuroSymbolicTaskInput` (engine.py:114): a validated task. -/
structure TaskInput (F : Type) where
  requirements : List (List (String × PyVal F))
  constraints : List (List (String × PyVal F))
  goals : List String

/-- `model_dump()`, as `parse_task` reads it. -/
def TaskInput.toTask (task : TaskInput F) : StructuredTask F where
  requirements := some (.items (task.requirements.map fun d => .val (.dict d)))
  constraints := some (.items (task.constraints.map fun d => .val (.dict d)))
  goals := some (.list (task.goals.map .str))

/-- `h.keys()`. -/
def pyKeys : PyVal F → Except PyExc (List String)
  | .dict d => .ok (d.map Prod.fst)
  | v => .error (.attributeError ("'" ++ v.typeName ++ "' object has no attribute 'keys'"))

/-- The configuration of an engine; `__init__` rejects a limit below 1. -/
structure Config where
  maxRefinementAttempts : Nat
  enableEvolution : Bool
  enableCausal : Bool
  traceDir : String
  attempts_pos : 1 ≤ maxRefinementAttempts

/-- The collaborators of one run. -/
structure Collaborators (F : Type) where
  /-- `self.symbolic.parse_task` -/
  parse : StructuredTask F → Except PyExc (TaskGraph F)
  /-- `self.neural.generate_hypothesis`: whatever JSON the LLM answers with. -/
  generate : StructuredTask F → Except PyExc (PyVal F)
  /-- `self.neural.refine_hypothesis`, after the given attempt. -/
  refine : Nat → PyVal F → List String → Except PyExc (PyVal F)
  /-- `analyze_solution_static` -/
  static : PyVal F → Except PyExc StaticAnalysisVerdict
  /-- `self.symbolic.verify_solution`, in the given attempt. -/
  verify : Nat → PyVal F → TaskGraph F → Except PyExc Verdict
  /-- `dict(hypothesis)` -/
  toDict : PyVal F → Except PyExc (Solution F)
  /-- `_compute_counterfactuals_blocking` -/
  counterfactuals : TaskInput F → Except PyExc (List (PyVal F))
  /-- `commit_reasoning_trace`, on the trace with the given outcome. -/
  commit : String → Except PyExc Unit
  /-- `uuid.uuid4().hex`: the correlation id, and the run id of the trace of an outcome. -/
  correlationId : String
  runId : String → String

/-- The stages and the data of an event. -/
inductive EventBody (F : Type) where
  | parsingStarted
  | parsingCompleted (requirementsCount constraintsCount : Nat)
  | hypothesisStarted
  | hypothesisCompleted (hypothesisKeys : List String)
  | verificationStarted (attempt : Nat) (static : StaticAnalysisVerdict)
  | verificationCompleted (attempt : Nat) (isValid : Bool) (violationsCount : Nat)
      (static : StaticAnalysisVerdict)
  | causalStarted
  | causalCompleted (counterfactualsCount : Nat)
  | completed (solution : PyVal F) (attempts : Nat) (static : StaticAnalysisVerdict)
      (causalAnalysis : List (PyVal F))
  | refinementStarted (attempt : Nat)
  | refinementCompleted (attempt : Nat)
  | failed (reason : String) (attempts : Nat) (static : StaticAnalysisVerdict)
  | error (error errorType : String)

/-- The event is the last of its stream. -/
def EventBody.isTerminal : EventBody F → Bool
  | .completed .. | .failed .. | .error .. => true
  | _ => false

/-- `ThinkEvent` (engine.py:78). -/
structure Event (F : Type) where
  correlationId : String
  body : EventBody F

/-- What a run does to its surroundings: yield an event, commit a trace. -/
inductive Action (F : Type) where
  | event (e : Event F)
  | commit (trace : ReasoningTrace F)

/-- `_metrics`. -/
structure Metrics where
  tasksProcessed : Nat := 0
  tasksSuccessful : Nat := 0
  tasksFailed : Nat := 0
  totalRefinements : Nat := 0
  totalLlmCalls : Nat := 0
  deriving DecidableEq, Repr

/-- An entry of `EvolutionEngine._outcomes`. -/
structure OutcomeRecord where
  isSuccessful : Bool
  violations : List String
  hypothesisKeys : List String
  deriving DecidableEq, Repr

/-- The engine, the log of the run and its local variables. -/
structure ThinkState (F : Type) where
  metrics : Metrics := {}
  outcomes : List OutcomeRecord := []
  log : List (Action F) := []
  violations : List String := []
  staticVerdict : StaticAnalysisVerdict := {}
  traceRounds : List (VerificationRound F) := []
  finalHypothesis : Option (Solution F) := none
  finalStaticVerdict : Option (PyVal F) := none
  finalSymbolicValid : Option Bool := none

section Think

variable (cfg : Config) (env : Collaborators F) (task : TaskInput F)

/-- `yield`. -/
def emit (body : EventBody F) : PyM (ThinkState F) Unit :=
  PyM.modify fun s => { s with log := s.log ++ [.event ⟨env.correlationId, body⟩] }

/-- `self._metrics[…] += …`. -/
def count (f : Metrics → Metrics) : PyM (ThinkState F) Unit :=
  PyM.modify fun s => { s with metrics := f s.metrics }

/-- A task that succeeded. -/
def Metrics.success (m : Metrics) : Metrics :=
  { m with tasksSuccessful := m.tasksSuccessful + 1, tasksProcessed := m.tasksProcessed + 1 }

/-- A task that failed. -/
def Metrics.failure (m : Metrics) : Metrics :=
  { m with tasksFailed := m.tasksFailed + 1, tasksProcessed := m.tasksProcessed + 1 }

/-- `self.evolution.record_outcome` (evolution.py:15). -/
def recordOutcome (hypothesis : PyVal F) (isSuccessful : Bool) (violations : List String) :
    PyM (ThinkState F) Unit :=
  if cfg.enableEvolution then do
    let keys ← PyM.lift (pyKeys hypothesis)
    PyM.modify fun s => { s with outcomes := s.outcomes ++ [⟨isSuccessful, violations, keys⟩] }
  else return ()

/-- `_run_causal_analysis` (engine.py:555). -/
def runCausalAnalysis : Except PyExc (List (PyVal F)) :=
  if task.requirements.isEmpty && task.constraints.isEmpty then .ok [] else env.counterfactuals task

/-- `_commit_trace` (engine.py:522). -/
def commitTrace (outcome : String) (attempts : Nat) (error : String) : PyM (ThinkState F) Unit :=
  if cfg.traceDir = "" then return ()
  else do
    PyM.lift (env.commit outcome)
    PyM.modify fun s => { s with log := s.log ++ [.commit {
      runId := env.runId outcome
      correlationId := env.correlationId
      task := task.toTask
      rounds := s.traceRounds
      outcome
      attempts
      finalHypothesis := s.finalHypothesis
      finalStaticVerdict := s.finalStaticVerdict
      finalSymbolicValid := s.finalSymbolicValid
      finalViolations := s.violations
      error }] }

/-- The first half of an attempt: the static verdict and the verification of the hypothesis.
Returns `is_valid`. -/
def verifyRound (graph : TaskGraph F) (attempt : Nat) (hypothesis : PyVal F) :
    PyM (ThinkState F) Bool := do
  let static ← PyM.lift (env.static hypothesis)
  PyM.modify fun s => { s with staticVerdict := static }
  emit env (.verificationStarted (attempt + 1) static)
  -- the symbolic check, after the static one was announced
  let (isValid, violations) ← PyM.lift (env.verify attempt hypothesis graph)
  PyM.modify fun s => { s with violations := violations }
  let d ← PyM.lift (env.toDict hypothesis)
  PyM.modify fun s => { s with
    traceRounds := s.traceRounds ++ [⟨attempt + 1, d, static.asDict, isValid, violations⟩]
    finalHypothesis := some d
    finalStaticVerdict := some static.asDict
    finalSymbolicValid := some isValid }
  emit env (.verificationCompleted (attempt + 1) isValid violations.length static)
  return isValid

/-- The causal analysis of an accepted hypothesis, with its events. -/
def causalStage : PyM (ThinkState F) (List (PyVal F)) :=
  if cfg.enableCausal then do
    emit env .causalStarted
    let analysis ← PyM.lift (runCausalAnalysis env task)
    emit env (.causalCompleted analysis.length)
    return analysis
  else return []

/-- The end of a run with an accepted hypothesis. -/
def complete (attempt : Nat) (hypothesis : PyVal F) : PyM (ThinkState F) Unit := do
  count Metrics.success
  recordOutcome cfg hypothesis true []
  let causalAnalysis ← causalStage cfg env task
  let s ← PyM.get
  emit env (.completed hypothesis (attempt + 1) s.staticVerdict causalAnalysis)
  commitTrace cfg env task "completed" (attempt + 1) ""

/-- The second half of an attempt: the refined hypothesis. -/
def refineRound (attempt : Nat) (hypothesis : PyVal F) : PyM (ThinkState F) (PyVal F) := do
  emit env (.refinementStarted (attempt + 1))
  let s ← PyM.get
  let hypothesis ← PyM.lift (env.refine attempt hypothesis s.violations)
  count fun m => { m with
    totalLlmCalls := m.totalLlmCalls + 1
    totalRefinements := m.totalRefinements + 1 }
  emit env (.refinementCompleted (attempt + 1))
  return hypothesis

/-- The loop over the attempts, `remaining` of which are left; `none` is the `return` of an
accepted hypothesis, otherwise the last hypothesis. -/
def refineLoop (graph : TaskGraph F) : Nat → Nat → PyVal F → PyM (ThinkState F) (Option (PyVal F))
  | 0, _, hypothesis => return some hypothesis
  | remaining + 1, attempt, hypothesis => do
    if ← verifyRound env graph attempt hypothesis then
      complete cfg env task attempt hypothesis
      return none
    else if attempt + 1 < cfg.maxRefinementAttempts then
      let hypothesis ← refineRound env attempt hypothesis
      refineLoop graph remaining (attempt + 1) hypothesis
    else refineLoop graph remaining (attempt + 1) hypothesis

/-- The end of a run without an accepted hypothesis. -/
def fail (hypothesis : PyVal F) : PyM (ThinkState F) Unit := do
  count Metrics.failure
  let s ← PyM.get
  recordOutcome cfg hypothesis false s.violations
  emit env (.failed "max_refinements_exceeded" cfg.maxRefinementAttempts s.staticVerdict)
  commitTrace cfg env task "failed" cfg.maxRefinementAttempts ""

/-- The steps before the loop: the graph and the first hypothesis. -/
def start : PyM (ThinkState F) (TaskGraph F × PyVal F) := do
  emit env .parsingStarted
  let graph ← PyM.lift (env.parse task.toTask)
  emit env (.parsingCompleted graph.requirements.length graph.constraints.length)
  emit env .hypothesisStarted
  let hypothesis ← PyM.lift (env.generate task.toTask)
  count fun m => { m with totalLlmCalls := m.totalLlmCalls + 1 }
  let keys ← PyM.lift (pyKeys hypothesis)
  emit env (.hypothesisCompleted keys)
  return (graph, hypothesis)

/-- The body of the `try`. -/
def thinkBody : PyM (ThinkState F) Unit := do
  let (graph, hypothesis) ← start env task
  match ← refineLoop cfg env task graph cfg.maxRefinementAttempts 0 hypothesis with
  | none => return ()
  | some hypothesis => fail cfg env task hypothesis

/-- The exception handler. -/
def handleError (exc : PyExc) : PyM (ThinkState F) Unit := do
  count Metrics.failure
  emit env (.error exc.msg exc.typeName)
  let s ← PyM.get
  commitTrace cfg env task "error" (max s.traceRounds.length 1) (exc.typeName ++ ": " ++ exc.msg)
  PyM.raise exc

/-- `think` (engine.py:276), on a started engine and a validated task. -/
def think : PyM (ThinkState F) Unit := PyM.tryCatch (thinkBody cfg env task) (handleError cfg env task)

end Think

/-- The loop of `NoemaEngine._think_impl` over the stream (core/engine.py:415): it stops at
the first event that is completed or failed, and nothing after the `yield` is run. -/
def received : List (Action F) → List (Action F)
  | [] => []
  | .event e :: rest =>
    match e.body with
    | .completed .. | .failed .. => [.event e]
    | _ => .event e :: received rest
  | .commit t :: rest => .commit t :: received rest

end Noema.Neurosymbolic
