import Noema.Budget.TokenBudget
import Noema.Core.Prompts
import Noema.Lib.Levels
import Noema.Lib.Regex

/-!
# The chain of thought (`core/chain_of_thought.py`)

`reason` plans the steps of a task, puts them into topological levels and runs the steps of a level
concurrently. A step suspends only while it awaits the LLM, so its run is two atomic parts,
`beginStep` and `finishStep`. Within a level the loop that creates the tasks and the parts of the
tasks interleave in any order (`LevelStep`); the level is over when every task is done, and
`LevelState.join` then reads their outcomes.

- `plan`, `dependsOn`, `topologicalLevels`: the plan. `flatten_topologicalLevels` says that every
  planned step is in exactly one level; the levels themselves are those of `Lib.Levels`.
- `beginStep`: the budget check, the prompt, the choice of a provider. It may raise, and then the
  step never calls the LLM.
- `finishStep`: the result, its confidence, and the update of the budget.
- `RunLevels`, `Reasons`: the loop over the levels, and the whole of `reason` with the state that it
  leaves.

The answers that the LLM may give to a list of messages are a relation (`Executor.llm`): any
content, or an exception. The `log` of a run says when a step was started, what was asked of the
LLM, and when a step had ended. It is what the properties of runs are stated about, and the code
does not have it.
-/

namespace Noema.Core

open Noema.Lib PyJson Noema.Budget

variable {F B : Type}

/-! ## The plan -/

/-- `ALL_STEPS`. -/
def allSteps : List StepName :=
  [.repair, .analysis, .architecture, .stack, .components, .dataModel, .apiDesign, .codegen,
    .testing, .security, .optimization, .deployment, .review]

/-- `MINIMAL_STEPS`. -/
def minimalSteps : List StepName := [.analysis, .architecture, .stack, .codegen, .review]

/-- `StepPlanner.plan` (chain_of_thought.py:121). -/
def plan (u : Unicode) (taskTags : List String) (complexity errorContext : String)
    (pastAttempts : List String) : List StepName :=
  let lower (t : String) : String := String.ofList (u.lower t.toList)
  let tagged (tags : List String) : Bool := tags.any fun t => t ∈ taskTags.map lower
  if lower complexity ∈ ["trivial", "simple"] then minimalSteps
  else
    let when (tags : List String) (name : StepName) : List StepName :=
      if tagged tags then [name] else []
    let steps : List StepName := [.analysis, .architecture, .stack, .components] ++
      when ["data", "database"] .dataModel ++ when ["api", "web", "rest"] .apiDesign ++
      [.codegen] ++ when ["test", "qa"] .testing ++ when ["security", "auth"] .security ++
      when ["performance", "high-load"] .optimization ++ [.deployment, .review]
    -- a failed attempt before this one adds `repair` after the analysis
    if errorContext ≠ "" ∧ pastAttempts ≠ [] then
      steps.insertIdx (if .analysis ∈ steps then 1 else 0) .repair
    else steps

/-- The steps that `reason` plans for a request. -/
def plannedSteps (u : Unicode) (req : Request F) : List StepName :=
  plan u req.taskTags req.complexity ("\n".intercalate (lastOf req.reflexionErrors 3))
    req.reflexionErrors

/-- The `depends_on` of the step definitions in `_build_dag` (chain_of_thought.py:376). -/
def dependsOn : StepName → List StepName
  | .analysis => []
  | .architecture => [.analysis]
  | .stack => [.architecture]
  | .components => [.architecture, .stack]
  | .dataModel => [.components, .stack]
  | .apiDesign => [.components, .stack]
  | .codegen => [.stack, .apiDesign, .dataModel, .components]
  | .testing => [.codegen, .stack, .apiDesign, .components]
  | .security => [.codegen, .stack, .apiDesign, .components]
  | .optimization => [.codegen, .stack, .components, .architecture]
  | .deployment => [.stack, .components]
  | .review => [.analysis, .architecture, .stack, .components, .dataModel, .apiDesign, .codegen,
      .testing, .security, .optimization, .deployment]
  | .repair => [.analysis]

/-- The roles of the step definitions. -/
def roleOf : StepName → String
  | .analysis => "analyst"
  | .architecture | .stack | .components => "architect"
  | .dataModel | .apiDesign | .codegen | .testing => "developer"
  | .security | .review => "reviewer"
  | .optimization => "optimizer"
  | .deployment => "devops"
  | .repair => "debugger"

/-- `self._steps`: the planned steps in the order of `ALL_STEPS`. -/
def stepsOf (planned : List StepName) : List StepName := allSteps.filter fun n => n ∈ planned

/-- `depends_on` without the steps that are not planned. -/
def filteredDeps (planned : List StepName) (name : StepName) : List StepName :=
  (dependsOn name).filter fun d => d ∈ planned

/-- `_topological_levels` (chain_of_thought.py:503) of the planned steps. -/
def topologicalLevels (planned : List StepName) : List (List StepName) :=
  Kahn.levels (filteredDeps planned) (stepsOf planned)

/-- The level of a step when every step is planned. -/
def rank : StepName → Nat
  | .analysis => 0
  | .repair | .architecture => 1
  | .stack => 2
  | .components => 3
  | .dataModel | .apiDesign | .deployment => 4
  | .codegen => 5
  | .testing | .security | .optimization => 6
  | .review => 7

theorem rank_dependsOn (n : StepName) : ∀ d ∈ dependsOn n, rank d < rank n := by
  cases n <;> decide

theorem nodup_allSteps : allSteps.Nodup := by decide

theorem mem_allSteps (n : StepName) : n ∈ allSteps := by
  cases n <;> decide

theorem mem_stepsOf {planned : List StepName} {n : StepName} :
    n ∈ stepsOf planned ↔ n ∈ planned := by
  simp [stepsOf, mem_allSteps]

theorem nodup_stepsOf (planned : List StepName) : (stepsOf planned).Nodup :=
  nodup_allSteps.filter _

theorem mem_filteredDeps {planned : List StepName} {n d : StepName} :
    d ∈ filteredDeps planned n ↔ d ∈ dependsOn n ∧ d ∈ planned := by
  simp [filteredDeps]

/-- Every planned step is in exactly one level. -/
theorem flatten_topologicalLevels (planned : List StepName) :
    (topologicalLevels planned).flatten.Perm (stepsOf planned) := by
  refine Kahn.flatten_levels_perm rank ?_
  intro n _ d hd
  obtain ⟨hdep, hplanned⟩ := mem_filteredDeps.mp hd
  exact ⟨mem_stepsOf.mpr hplanned, rank_dependsOn n d hdep⟩

/-! ## State -/

/-- `StepStatus`. -/
inductive StepStatus where
  | pending
  | running
  | completed
  | skipped
  | failed
  deriving DecidableEq, Repr

/-- The fields of a `CoTStep` that a run changes. -/
structure CoTStep where
  userPrompt : String := ""
  result : String := ""
  confidence : ℚ := 0
  status : StepStatus := .pending
  tokensUsed : Int := 0
  deriving DecidableEq

/-- `ThoughtNode`. -/
structure ThoughtNode where
  step : Nat
  role : String
  prompt : String
  response : String
  name : StepName
  confidence : ℚ

/-- `LLMMessage`. -/
structure LLMMessage where
  role : String
  content : String
  deriving DecidableEq, Repr

/-- The fields of an `LLMResponse` that a step reads. -/
structure LLMResponse where
  content : String
  tokensUsed : Int := 0
  finishReason : String := ""

/-- The provider that a step calls. -/
inductive Provider where
  | main
  | degraded
  deriving DecidableEq, Repr

/-- What happens in a run: a task is created for a step, its first part is run (with its
estimated cost and the budget at that moment), the LLM is called, the outcome is joined. -/
inductive Entry (B : Type) where
  | started (name : StepName)
  | began (name : StepName) (cost : Int) (budget : Option (TokenBudget B))
  | called (name : StepName) (messages : List LLMMessage) (provider : Provider)
  | ended (name : StepName) (status : StepStatus)

/-- The state of a `ChainOfThought`, and the log of its run. -/
structure State (F B : Type) where
  steps : StepName → CoTStep
  context : Context F
  chain : List ThoughtNode := []
  budget : Option (TokenBudget B)
  log : List (Entry B) := []

/-- The collaborators: what `self._model_router.select` gives, if there is a router, and the
answers that the LLM may give. -/
structure Executor where
  router : Option (Except PyExc Unit)
  llm : List LLMMessage → Except PyExc LLMResponse → Prop

/-- The update of one step. -/
def State.setStep (s : State F B) (name : StepName) (f : CoTStep → CoTStep) : State F B :=
  { s with steps := Function.update s.steps name (f (s.steps name)) }

/-- A new entry of the log. -/
def State.note (s : State F B) (e : Entry B) : State F B := { s with log := s.log ++ [e] }

/-- The result that a planned step is restored with, if it is in `resume_context`. -/
def restoredResult (u : Unicode) (req : Request F) (resume : List (String × String))
    (name : StepName) : Option String :=
  if name ∈ stepsOf (plannedSteps u req) then resume.lookup name.text else none

/-- The state before the first level: the steps in `resume_context` are restored. -/
def initialState (u : Unicode) (req : Request F) (resume : List (String × String))
    (budget : Option (TokenBudget B)) : State F B where
  steps name :=
    match restoredResult u req resume name with
    | some result => { status := .completed, result }
    | none => {}
  context := ⟨req, (stepsOf (plannedSteps u req)).filterMap fun name =>
    (restoredResult u req resume name).map fun result => (name, result)⟩
  budget := budget

/-! ## One step -/

/-- Where a task is. -/
inductive TaskState where
  | absent
  | created
  | awaiting (messages : List LLMMessage)
  | done (result : Except PyExc Unit)

section Step

variable [PyInterp F]

/-- The messages of a step in a context. -/
def messagesOf (ctx : Context F) (name : StepName) : List LLMMessage :=
  [⟨"system", systemPrompt name⟩, ⟨"user", resolvePrompt ctx name⟩]

/-- `estimated_tokens // 2`. -/
def estimatedCost (ctx : Context F) (name : StepName) : Int :=
  ((systemPrompt name).length + (resolvePrompt ctx name).length) / 2

variable [PyFraction B]

/-- The budget check and the choice of a provider; the result `none` is the action `SKIP`. -/
def consult (router : Option (Except PyExc Unit)) (cost : Int) (name : StepName) :
    Option (TokenBudget B) → Option (TokenBudget B) × Except PyExc (Option Provider)
  | none => (none, .ok (some .main))
  | some b =>
    match b.check cost name.text with
    | .error e => (some b, .error e)
    | .ok (.skip, b) => (some b, .ok none)
    | .ok (_, b) =>
      match router with
      | none => (some b, .ok (some .main))
      | some select =>
        match b.shouldDegrade with
        | .error e => (some b, .error e)
        | .ok (false, b) => (some b, .ok (some .main))
        | .ok (true, b) => (some b, select.map fun _ => some .degraded)

/-- `_execute_step` (chain_of_thought.py:527) up to the `await`. -/
def beginStep (x : Executor) (name : StepName) (s : State F B) : State F B × TaskState :=
  let prompt := resolvePrompt s.context name
  let cost := estimatedCost s.context name
  let s := (s.note (.began name cost s.budget)).setStep name fun c =>
    { c with userPrompt := prompt }
  -- no prompt is empty, as `resolvePrompt_ne_empty` shows
  if prompt = "" then
    (s.setStep name fun c => { c with status := .skipped }, .done (.ok ()))
  else
    match consult x.router cost name s.budget with
    | (budget, .error e) => ({ s with budget }, .done (.error e))
    -- the action `SKIP`: the step has a result, and its status says that it was skipped
    | (budget, .ok none) =>
      ({ s with budget }.setStep name fun c =>
        { c with
          status := .skipped
          result := "[Budget skipped] Token budget exhausted for: " ++ name.text },
        .done (.ok ()))
    | (budget, .ok (some provider)) =>
      ({ s with budget }.note (.called name (messagesOf s.context name) provider),
        .awaiting (messagesOf s.context name))

/-- The confidence in a response. -/
def confidenceOf (r : LLMResponse) : ℚ :=
  if r.content = "" then 0
  else if r.finishReason = "length" then 4 / 10
  else if r.finishReason = "stop" then 7 / 10
  else 5 / 10

/-- `_execute_step` after the `await`, with a response. -/
def finishStep (name : StepName) (r : LLMResponse) (s : State F B) : State F B :=
  let s := s.setStep name fun c =>
    { c with result := r.content, confidence := confidenceOf r, tokensUsed := r.tokensUsed }
  { s with
    budget := s.budget.map fun b => if r.tokensUsed = 0 then b else b.record r.tokensUsed
    chain := s.chain ++ [{
      step := s.chain.length + 1
      role := roleOf name
      prompt := pySlice (s.steps name).userPrompt 500
      response := r.content
      name
      confidence := confidenceOf r }] }

/-! ## One level -/

/-- A level that is being run: the steps for which no task was created yet, those for which one
was, in their order, and where the tasks are. -/
structure LevelState (F B : Type) where
  state : State F B
  toCreate : List StepName
  created : List StepName := []
  task : StepName → TaskState := fun _ => .absent

/-- The level at its beginning; completed and skipped steps get no task. -/
def openLevel (level : List StepName) (s : State F B) : LevelState F B where
  state := s
  toCreate := level.filter fun n => (s.steps n).status ∉ [.skipped, .completed]

/-- `asyncio.create_task` for the next step. -/
def LevelState.createTask (ls : LevelState F B) (name : StepName) (rest : List StepName) :
    LevelState F B where
  state := (ls.state.note (.started name)).setStep name fun c => { c with status := .running }
  toCreate := rest
  created := ls.created ++ [name]
  task := Function.update ls.task name .created

/-- The first part of a task. -/
def LevelState.beginTask (x : Executor) (ls : LevelState F B) (name : StepName) :
    LevelState F B :=
  let (state, task) := beginStep x name ls.state
  { ls with state, task := Function.update ls.task name task }

/-- The second part of a task, with the answer of the LLM. -/
def LevelState.finishTask (ls : LevelState F B) (name : StepName)
    (answer : Except PyExc LLMResponse) : LevelState F B :=
  match answer with
  | .error e => { ls with task := Function.update ls.task name (.done (.error e)) }
  | .ok r =>
    { ls with
      state := finishStep name r ls.state
      task := Function.update ls.task name (.done (.ok ())) }

/-- One atomic part of a level. -/
inductive LevelStep (x : Executor) : LevelState F B → LevelState F B → Prop
  | create {ls : LevelState F B} {name : StepName} {rest : List StepName}
      (h : ls.toCreate = name :: rest) : LevelStep x ls (ls.createTask name rest)
  | begin {ls : LevelState F B} {name : StepName} (h : ls.task name = .created) :
      LevelStep x ls (ls.beginTask x name)
  | finish {ls : LevelState F B} {name : StepName} {messages : List LLMMessage}
      {answer : Except PyExc LLMResponse} (h : ls.task name = .awaiting messages)
      (hanswer : x.llm messages answer) : LevelStep x ls (ls.finishTask name answer)

/-- Every task was created and is done. -/
def LevelState.IsOver (ls : LevelState F B) : Prop :=
  ls.toCreate = [] ∧ ∀ n ∈ ls.created, ∃ r, ls.task n = .done r

/-- The outcome of one task, after `asyncio.gather`. -/
def joinTask (task : StepName → TaskState) (s : State F B) (name : StepName) : State F B :=
  match task name with
  | .done (.error e) =>
    (s.setStep name fun c =>
      { c with status := .failed, result := "Error: " ++ e.msg }).note (.ended name .failed)
  | .done (.ok ()) =>
    if (s.steps name).status = .skipped then s.note (.ended name .skipped)
    else
      let s := s.setStep name fun c => { c with status := .completed }
      { s with context := s.context.set name (s.steps name).result }.note (.ended name .completed)
  | _ => s

/-- The outcomes of a level, in the order of its tasks. -/
def LevelState.join (ls : LevelState F B) : State F B :=
  ls.created.foldl (joinTask ls.task) ls.state

/-! ## The run -/

/-- The loop over the levels. -/
inductive RunLevels (x : Executor) : List (List StepName) → State F B → State F B → Prop
  | nil (s : State F B) : RunLevels x [] s s
  | cons {level : List StepName} {rest : List (List StepName)} {s s' : State F B}
      {ls : LevelState F B} (hlevel : Relation.ReflTransGen (LevelStep x) (openLevel level s) ls)
      (hover : ls.IsOver) (hrest : RunLevels x rest ls.join s') : RunLevels x (level :: rest) s s'

/-- `reason` (chain_of_thought.py:199) returns, with the state it leaves. -/
def Reasons (x : Executor) (u : Unicode) (req : Request F) (resume : List (String × String))
    (budget : Option (TokenBudget B)) (s : State F B) : Prop :=
  RunLevels x (topologicalLevels (plannedSteps u req)) (initialState u req resume budget) s

end Step

end Noema.Core
