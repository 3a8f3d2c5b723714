import Noema.Core.Interleave
import Noema.Core.Judge
import Noema.Neurosymbolic.Engine
import Noema.Sandbox.Engine

/-!
# One call of `think` (`core/engine.py`)

A call tries the neurosymbolic engine, if there is one, and otherwise reasons by the chain of
thought, up to three times under the eyes of the judge. Both ways end in `finalizeSolution`, where
the gates are. It is modelled in `PyM (ThinkRun F)`: the state has the metadata of the solution in
hand, the thought process, and the calls of the judge.

The parts are those of the source, one definition each: the checks of a task, the sandbox gate with
its own cuts, the conversion of a neurosymbolic solution, the loop over the attempts with what it
carries from one to the next, the block around the judge and its handler. Exceptions go where the
source lets them go, and `swallow` stands for the handlers that only log.

Everything else that a call talks to may return anything or raise (`Surroundings`): the LLM, the
neurosymbolic engine, the judge, the memory, the checkpoints, the tracer. Nothing is asked twice
with the same attempt or origin, so the answers are functions of these and of what they are asked.

An `Artifact` is a solution with its identity. The identity matters: the note of the judge is in the
metadata of a solution, and one that was made before is not the one in hand.
-/

namespace Noema.Core

open Noema.Lib PyJson Noema.Utils
open Noema.Neurosymbolic (EventBody)
open Noema.Sandbox (PythonCheck SandboxConfig SourceFile allowedImports validateCodeBlock)

/-! ## Tasks and solutions -/

/-- `Requirement`. -/
structure Requirement where
  category : String
  description : String
  priority : Int := 5
  constraints : List String := []

/-- The fields of a `Task` that `think` reads. -/
structure ThinkTask extends Task where
  description : String := ""
  requirements : List Requirement := []
  complexity : String := "moderate"
  tags : List String := []

/-- `SolutionQuality`. -/
inductive SolutionQuality where
  | draft
  | acceptable
  | good
  | excellent
  | masterpiece
  deriving DecidableEq, Repr

/-- The way on which a solution was made. No call makes two solutions on the same way, so it stands
for the `id` that the source draws at random. -/
inductive Origin where
  | neurosymbolic
  | attempt (n : Nat)
  | kernels
  deriving DecidableEq, Repr

/-- A `Solution` with its identity and its quality. What the gates and the judge write into its
metadata is in the state. -/
structure Artifact extends Solution where
  origin : Origin
  quality : SolutionQuality := .draft
  confidence : ℚ := 1 / 2
  deriving DecidableEq

/-- An entry of `verdict["files"]`. -/
structure GateFile where
  file : String
  astValid : Bool
  staticPassed : Bool
  astErrors : List String
  staticIssues : List String

/-- The verdict of the sandbox gate. -/
structure GateVerdict where
  enabled : Bool
  passed : Bool := true
  files : List GateFile := []
  summary : String := ""

/-- What a call writes into the metadata of the solution in hand. -/
structure Metadata (F : Type) where
  judge : JudgeNotes F := {}
  sandbox : Option GateVerdict := none
  causalAnalysis : List (PyVal F) := []

/-- `ReflexionState`. -/
structure ReflexionState (F : Type) where
  attempt : Nat
  errorSummary : String
  lastErrors : PyVal F

/-- The state of a call. Of the calls of the judge, the last one is first; one that raised has no
verdict. -/
structure ThinkRun (F : Type) where
  metadata : Metadata F := {}
  thought : List ThoughtStep := []
  judged : List (Artifact × Option (JudgeVerdict F)) := []
  firstFailedCode : String := ""

/-- The settings that a call reads. -/
structure ThinkSettings where
  verifyThink : Bool := true
  verifyThinkEnforce : Bool := false
  judgeEnforce : Bool := false
  fallbackToCot : Bool := true

/-- The engine: its LLM, its settings and its own tenant, and what its sandbox checks with. -/
structure ThinkEngine where
  llm : LLMInfo
  settings : ThinkSettings
  tenantId : String
  check : PythonCheck
  stdlib : List String
  unicode : Unicode

/-- What `reason` is called with. -/
structure ReasonArgs where
  taskDescription : String
  taskTags : List String
  requirements : List Requirement
  knowledgeContext : String
  graphContext : String
  ontologyContext : String
  complexity : String
  reflexionErrors : Option (List String)
  reflexionAttempt : Nat
  resumeContext : Option (List (String × String))

/-- What `record_episode` is called with. -/
structure EpisodeArgs where
  taskDescription : String
  solutionSummary : String
  techStack : String
  outcome : String
  tags : List String
  quality : SolutionQuality
  confidence : ℚ

/-- What a call talks to. Nothing is asked twice with the same attempt or origin, so the answers are
functions of these. -/
structure Surroundings (F : Type) where
  initializeEngine : Except PyExc Unit
  loadCheckpoint : String → String → Except PyExc (Option (List (String × String)))
  /-- `self.neurosymbolic.think`: the events, and the exception after them. -/
  neurosymbolic : Option (PyVal F → List (EventBody F) × Option PyExc)
  searchEpisodes : String → Except PyExc (List (String × String))
  knowledgeContext : Except PyExc String
  graphContext : Except PyExc String
  ontologyContext : Except PyExc String
  /-- `execute_with_healing(self.cot.reason, ...)`, and the chain that is read after it. -/
  reason : ReasonArgs → Except PyExc (PyVal F)
  chain : Nat → List ThoughtNode
  startSpan : Nat → Except PyExc Unit
  /-- `evaluate_solution`, in the given attempt. -/
  judge : Nat → Artifact → String → List String → PyM (JudgeNotes F) (JudgeVerdict F)
  endSpan : Nat → Except PyExc Unit
  /-- The chain that is read for a checkpoint, and `save`. -/
  chainAtSave : Nat → List ThoughtNode
  saveCheckpoint : DAGCheckpoint → Except PyExc Unit
  /-- `_propose_ontological_axiom`, on the failed code, the fixed code and the summary. -/
  proposeAxiom : String → String → String → Except PyExc Unit
  /-- `_kernel_based_reasoning`, with the steps that it adds. -/
  kernels : Except PyExc (List Summary × PyVal F)
  recordEpisode : Origin → EpisodeArgs → Except PyExc Unit
  deleteCheckpoint : Origin → Except PyExc Unit
  storeProcedure : Origin → String → List String → List String → Except PyExc Unit
  memoryStats : Origin → Except PyExc Nat

/-! ## The checks of a task -/

/-- `raise ValueError(...)`, if the condition holds. -/
def rejectIf (condition : Prop) [Decidable condition] (message : String) : Except PyExc Unit :=
  if condition then .error (.valueError message) else .ok ()

/-- The checks of a requirement. -/
def checkRequirement (requirement : Requirement) (i : Nat) : Except PyExc Unit := do
  let name := "Requirement " ++ toString i
  rejectIf (50 < requirement.category.length)
    (name ++ " category too large: " ++ toString requirement.category.length ++ " chars")
  rejectIf (2000 < requirement.description.length)
    (name ++ " description too large: " ++ toString requirement.description.length ++ " chars")
  rejectIf (20 < requirement.constraints.length)
    (name ++ " has too many constraints: " ++ toString requirement.constraints.length)
  requirement.constraints.zipIdx.forM fun (constraint, j) =>
    rejectIf (500 < constraint.length) (name ++ " constraint " ++ toString j ++ " too large: " ++
      toString constraint.length ++ " chars")

/-- The checks of a task (engine.py:359). -/
def checkTask (task : ThinkTask) : Except PyExc Unit := do
  rejectIf (100000 < task.description.length)
    ("Task description too large: " ++ toString task.description.length ++ " chars")
  rejectIf (100 < task.tags.length) ("Too many tags: " ++ toString task.tags.length)
  rejectIf (50 < task.requirements.length)
    ("Too many requirements: " ++ toString task.requirements.length)
  task.requirements.zipIdx.forM fun (requirement, i) => checkRequirement requirement i

/-! ## The sandbox gate -/

/-- `block.language.lower() in ("python", "py")`. -/
def isPython (u : Unicode) (block : CodeBlock) : Bool :=
  String.ofList (u.lower block.language.toList) ∈ ["python", "py"]

/-- `"\n\n".join(...)` of the Python blocks. -/
def pythonCode (u : Unicode) (blocks : List CodeBlock) : String :=
  "\n\n".intercalate ((blocks.filter (isPython u)).map CodeBlock.content)

/-- `_sandbox_config_from_settings` (engine.py:101), which sets no field that a check reads. -/
def sandboxConfig : SandboxConfig := {}

/-- The checks passed. -/
def GateFile.valid (record : GateFile) : Bool := record.astValid && record.staticPassed

variable {F : Type}

section Gates

variable (engine : ThinkEngine)

/-- The record of a Python block. -/
def checkBlock (block : CodeBlock) : Except PyExc GateFile :=
  if 200000 < block.content.length then
    .ok {
      file := block.filename, astValid := false, staticPassed := false
      astErrors := ["code block too large to verify (" ++ toString block.content.length ++
        " chars > 200000)"]
      staticIssues := [] }
  else do
    let vr ← validateCodeBlock engine.check sandboxConfig
      (allowedImports engine.stdlib sandboxConfig [])
      { pathKey := some block.filename, languageKey := some "python",
        contentKey := some block.content }
    return {
      file := block.filename, astValid := vr.astValid, staticPassed := vr.staticPassed
      astErrors := vr.astErrors, staticIssues := vr.staticIssues }

/-- `_verify_think_solution` (engine.py:615). -/
def verifyThinkSolution (solution : Artifact) : Except PyExc GateVerdict :=
  let pythonBlocks := solution.codeBlocks.filter (isPython engine.unicode)
  if !engine.settings.verifyThink then .ok { enabled := false }
  else if pythonBlocks = [] then
    .ok { enabled := true, summary := "no python code blocks to verify" }
  else if 50 < pythonBlocks.length then
    .ok {
      enabled := true, passed := false
      summary := toString pythonBlocks.length ++
        " python files exceed the 50-file static gate limit" }
  else do
    let files ← pythonBlocks.mapM (checkBlock engine)
    return {
      enabled := true, passed := files.all GateFile.valid, files
      summary := toString (files.countP GateFile.valid) ++ "/" ++ toString files.length ++
        " python files passed the static gate" }

/-! ## The end of a call -/

/-- `try: x except Exception: log`. -/
def swallow {α : Type} (x : Except PyExc α) : PyM (ThinkRun F) Unit :=
  PyM.tryCatch (do let _ ← PyM.lift x; pure ()) fun _ => pure ()

/-- What the sandbox gate does with its verdict. -/
def sandboxGate (verdict : GateVerdict) : PyM (ThinkRun F) Unit :=
  if verdict.enabled then do
    PyM.modify fun s => { s with metadata := { s.metadata with sandbox := some verdict } }
    if !verdict.passed && engine.settings.verifyThinkEnforce then
      PyM.raise (.custom "SandboxValidationError" verdict.summary)
    else pure ()
  else pure ()

/-- The judge gate. -/
def judgeGate : PyM (ThinkRun F) Unit := do
  let s ← PyM.get
  if s.metadata.judge.passed = some false ∧ engine.settings.judgeEnforce then
    PyM.raise (.custom "JudgeError" ("Solution failed the judge gate (enforce=true); " ++
      "refusing to return an unverified artifact"))
  else pure ()

/-- The episode of a solution. -/
def episodeOf (task : ThinkTask) (solution : Artifact) : EpisodeArgs where
  taskDescription := task.title ++ ": " ++ task.description
  solutionSummary := pySlice solution.summary 500
  techStack := ", ".intercalate (solution.stack.languages ++ solution.stack.frameworks)
  outcome := if solution.quality ∈ [.masterpiece, .excellent, .good] then "success" else "partial"
  tags := task.tags
  quality := solution.quality
  confidence := solution.confidence

variable (env : Surroundings F) (task : ThinkTask)

/-- `store_procedure`, for a solution of a high quality. -/
def storeProcedure (solution : Artifact) : PyM (ThinkRun F) Unit := do
  let s ← PyM.get
  if solution.quality ∈ [SolutionQuality.masterpiece, .excellent] then
    swallow (env.storeProcedure solution.origin
      ("solution_" ++ String.ofList ((task.title.toList.take 30).map fun c =>
        if c = ' ' then '_' else c))
      (s.thought.map fun step => step.summary.kernel) task.tags)
  else pure ()

/-- `_finalize_solution` (engine.py:684). -/
def finalizeSolution (solution : Artifact) : PyM (ThinkRun F) Unit := do
  let verdict ← PyM.lift (verifyThinkSolution engine solution)
  sandboxGate engine verdict
  judgeGate engine
  swallow (env.recordEpisode solution.origin (episodeOf task solution))
  swallow (env.deleteCheckpoint solution.origin)
  storeProcedure env task solution
  -- the log line has the number of episodes
  let _ ← PyM.lift (env.memoryStats solution.origin)
  pure ()

end Gates

/-! ## The neurosymbolic engine -/

/-- `_prepare_neurosymbolic_task` (engine.py:787). A `Requirement` has no bounds. -/
def prepareNeurosymbolicTask (task : ThinkTask) : PyVal F :=
  let requirement (r : Requirement) (i : Nat) : PyVal F := .dict [
    ("name", .str (if r.category = "" then "req_" ++ toString i else r.category)),
    ("type", .str "numeric"), ("min", .none), ("max", .none),
    ("constraints", .list (r.constraints.map .str)), ("description", .str r.description),
    ("priority", .int r.priority)]
  .dict [
    ("requirements", .list (task.requirements.zipIdx.map fun (r, i) => requirement r i)),
    ("constraints", .list []), ("goals", .list [.str task.title, .str task.description]),
    ("variables", .dict [])]

/-- The loop over the events of the engine: its solution, with the causal analysis, if there is
one. -/
def awaitSolution (fallbackToCot : Bool) :
    List (EventBody F) → Option PyExc → Except PyExc (Option (PyVal F × List (PyVal F)))
  | [], none => .ok none
  | [], some e => .error e
  | .completed solution _ _ causalAnalysis :: _, _ => .ok (some (solution, causalAnalysis))
  | .failed _ attempts _ :: _, _ =>
    if fallbackToCot then .ok none
    else .error (.custom "MaxRefinementsExceededError"
      ("NeuroSymbolic failed after " ++ toString attempts ++ " attempts"))
  | _ :: events, e => awaitSolution fallbackToCot events e

section Convert

variable [PyInterp F]

/-- The architecture of a neurosymbolic solution. -/
def convertArchitecture : PyVal F → Except PyExc (Option ArchitecturePattern)
  | .dict arch => do
    let name ← (getOr arch "name" (.str "NeuroSymbolic Design")).asStr
    let description ← (getOr arch "description" (.str "")).asStr
    let pros ← (getOr arch "pros" (.list [])).asStrList
    let cons ← (getOr arch "cons" (.list [])).asStrList
    return some { name, description, pros, cons }
  | _ => .ok none

/-- The stack of a neurosymbolic solution. -/
def convertStack : PyVal F → Except PyExc TechStack
  | .dict stack => do
    let languages ← (getOr stack "languages" (.list [])).asStrList
    let frameworks ← (getOr stack "frameworks" (.list [])).asStrList
    let databases ← (getOr stack "databases" (.list [])).asStrList
    let infrastructure ← (getOr stack "infrastructure" (.list [])).asStrList
    return { languages, frameworks, databases, infrastructure }
  | _ => .ok {}

/-- The code block of an entry, if it gets one. -/
def convertBlock : PyVal F → Except PyExc (Option CodeBlock)
  | .dict cb =>
    if !(dictGet cb "content").truthy then .ok none
    else do
      let path := ((dictGet cb "path").pyOr (dictGet cb "filename")).pyOr (.str "main.py")
      let ext ← extensionOf path
      let filename ← path.asStr
      let content ← (dictGet cb "content").asStr
      let description ← (getOr cb "description" (.str "")).asStr
      let language := (List.lookup ext
        [("py", "python"), ("ts", "typescript"), ("js", "javascript")]).getD ext
      return some { filename, language, content, description }
  | _ => .ok none

/-- The code blocks of a neurosymbolic solution. -/
def convertBlocks : PyVal F → Except PyExc (List CodeBlock)
  | .list xs => do return (← (xs.take 10).mapM convertBlock).filterMap id
  | _ => .ok []

/-- `_convert_neurosymbolic_to_solution` (engine.py:819). -/
def convertNeurosymbolicToSolution (nsSolution : PyVal F) (task : ThinkTask) :
    Except PyExc Artifact := do
  let description ← nsSolution.getKey "description" (.str "")
  let summary ← (← nsSolution.getKey "summary" description).asStr
  let architecture ← convertArchitecture (← nsSolution.getKey "architecture" .none)
  let stack ← convertStack (← nsSolution.getKey "stack" .none)
  let files ← nsSolution.getKey "files" (.list [])
  let codeBlocks ← convertBlocks (← nsSolution.getKey "code_blocks" files)
  return {
    taskId := task.id, title := "NeuroSymbolic Solution: " ++ task.title, summary, architecture
    stack, codeBlocks, origin := .neurosymbolic }

end Convert

/-! ## Reasoning -/

/-- `avg_confidence` (types.py:201). -/
def avgConfidence (thought : List ThoughtStep) : ℚ :=
  if thought = [] then 0 else (thought.map fun step => step.summary.confidence).sum / thought.length

/-- `_evaluate_quality` (engine.py:1219). -/
def evaluateQuality (solution : Artifact) (thought : List ThoughtStep) : Artifact :=
  let score := avgConfidence thought
  { solution with
    quality :=
      if 9 / 10 ≤ score then .masterpiece
      else if 3 / 4 ≤ score then .excellent
      else if 3 / 5 ≤ score then .good
      else if 2 / 5 ≤ score then .acceptable
      else .draft
    confidence := score }

/-- What the judge was not content with, for the next attempt. -/
def reflexionErrors (state : Option (ReflexionState F)) : Option (List String) :=
  state.map fun st => ["Judge: " ++ st.errorSummary]

/-- What the judge said in an attempt: yes, no (with the reflexion on it), or nothing because
something in the block raised. -/
inductive JudgeOutcome (F : Type) where
  | passed
  | retry (state : ReflexionState F)
  | crashed

/-- The local variables after the loop over the attempts. -/
structure LoopEnd (F : Type) where
  solution : Artifact
  attempt : Nat
  state : Option (ReflexionState F)
  judgePassed : Bool

/-- The loop ends after an attempt with the given outcome. -/
def LoopEnd.of (solution : Artifact) (n : Nat) (state : Option (ReflexionState F)) :
    JudgeOutcome F → LoopEnd F
  | .passed => ⟨solution, n, state, true⟩
  | .retry state => ⟨solution, n, some state, false⟩
  | .crashed => ⟨solution, n, state, false⟩

/-- A change of the judge's keys in the metadata. -/
def ThinkRun.note (s : ThinkRun F) (f : JudgeNotes F → JudgeNotes F) : ThinkRun F :=
  { s with metadata := { s.metadata with judge := f s.metadata.judge } }

/-- The context that the attempts of a call share. -/
structure Contexts where
  knowledge : String
  graph : String
  ontology : String
  resume : Option (List (String × String))

section Think

variable [PyInterp F] (engine : ThinkEngine) (env : Surroundings F) (task : ThinkTask)

/-- A new solution from the result of reasoning, in place of the one in hand. -/
def assembleArtifact (origin : Origin) (reasoning : PyVal F) : PyM (ThinkRun F) Artifact := do
  let solution ← PyM.lift (match reasoning with
    | .dict d => assembleSolutionFromReasoning engine.llm task.toTask d
    | v => .error (.attributeError ("'" ++ v.typeName ++ "' object has no attribute 'get'")))
  PyM.modify fun s => { s with metadata := {} }
  let s ← PyM.get
  pure (evaluateQuality { solution with origin } s.thought)

/-- The arguments of `reason` in an attempt. -/
def reasonArgs (contexts : Contexts) (n : Nat) (state : Option (ReflexionState F)) :
    ReasonArgs where
  taskDescription := task.title ++ ": " ++ task.description
  taskTags := task.tags
  requirements := task.requirements
  knowledgeContext := contexts.knowledge
  graphContext := contexts.graph
  ontologyContext := contexts.ontology
  complexity := task.complexity
  reflexionErrors := reflexionErrors state
  reflexionAttempt := n
  resumeContext := if n = 1 then contexts.resume else none

/-- The solution of an attempt. -/
def attemptSolution (contexts : Contexts) (n : Nat) (state : Option (ReflexionState F)) :
    PyM (ThinkRun F) Artifact := do
  let reasoning ← PyM.lift (env.reason (reasonArgs task contexts n state))
  PyM.modify fun s => { s with thought := readChain s.thought (env.chain n) }
  let solution ← assembleArtifact engine task (.attempt n) reasoning
  PyM.modify fun s =>
    if n = 1 then { s with firstFailedCode := pythonCode engine.unicode solution.codeBlocks } else s
  pure solution

/-- `await evaluate_solution(...)`. -/
def evaluate (n : Nat) (solution : Artifact) : PyM (ThinkRun F) (JudgeVerdict F) := fun s =>
  match env.judge n solution (task.title ++ ": " ++ task.description) task.tags
      s.metadata.judge with
  | (.ok verdict, notes) =>
    (.ok verdict, { s.note (fun _ => notes) with judged := (solution, some verdict) :: s.judged })
  | (.error e, notes) =>
    (.error e, { s.note (fun _ => notes) with judged := (solution, none) :: s.judged })

/-- The checkpoint before another attempt. -/
def checkpointBefore (tenantId : String) (n : Nat) (chain : List ThoughtNode) : DAGCheckpoint :=
  checkpointOf { taskId := task.id, tenantId, attempt := n } chain

/-- A checkpoint, if there is another attempt. -/
def saveCheckpoint (tenantId : String) (n : Nat) : PyM (ThinkRun F) Unit :=
  if n < 3 then
    swallow (env.saveCheckpoint (checkpointBefore task tenantId n (env.chainAtSave n)))
  else pure ()

/-- The reflexion on a verdict. -/
def reflect (tenantId : String) (n : Nat) (verdict : JudgeVerdict F) :
    PyM (ThinkRun F) (JudgeOutcome F) := do
  let errorSummary ← PyM.lift (do (← verdict.weaknesses.sliceTo 3).joinWith "; ")
  saveCheckpoint env task tenantId n
  pure (.retry { attempt := n + 1, errorSummary, lastErrors := verdict.weaknesses })

/-- The block around the judge (engine.py:510), without its handler. -/
def judgeBlock (tenantId : String) (n : Nat) (solution : Artifact) :
    PyM (ThinkRun F) (JudgeOutcome F) := do
  let _ ← PyM.lift (env.startSpan n)
  let verdict ← evaluate env task n solution
  let _ ← PyM.lift (env.endSpan n)
  PyM.modify fun s => s.note fun notes =>
    { notes with passed := some verdict.passed, reflexionAttempt := some n }
  if verdict.passed then pure .passed else reflect env task tenantId n verdict

/-- The judge of an attempt. What raises counts as a refusal. -/
def judgeAttempt (tenantId : String) (n : Nat) (solution : Artifact) :
    PyM (ThinkRun F) (JudgeOutcome F) :=
  PyM.tryCatch (judgeBlock env task tenantId n solution) fun e => do
    PyM.modify fun s => s.note fun notes =>
      { notes with passed := some false, error := some e.msg }
    pure .crashed

/-- The loop over the attempts from `n` on, with at most `more` attempts after the first. -/
def reflexionLoop (tenantId : String) (contexts : Contexts) :
    Nat → Nat → Option (ReflexionState F) → PyM (ThinkRun F) (LoopEnd F)
  | 0, n, state => do
    let solution ← attemptSolution engine env task contexts n state
    let outcome ← judgeAttempt env task tenantId n solution
    pure (.of solution n state outcome)
  | more + 1, n, state => do
    let solution ← attemptSolution engine env task contexts n state
    match ← judgeAttempt env task tenantId n solution with
    | .retry state => reflexionLoop tenantId contexts more (n + 1) (some state)
    | outcome => pure (.of solution n state outcome)

/-- A fix that took more than one attempt is proposed to the ontology (engine.py:585). -/
def proposeAxiom (ended : LoopEnd F) : PyM (ThinkRun F) Unit := do
  let s ← PyM.get
  if 1 < ended.attempt ∧ ended.judgePassed ∧ s.firstFailedCode ≠ "" then
    PyM.lift (env.proposeAxiom s.firstFailedCode
      (pythonCode engine.unicode ended.solution.codeBlocks)
      ((ended.state.map ReflexionState.errorSummary).getD ""))
  else pure ()

/-- The attempts under the eyes of the judge. -/
def judgedSolution (tenantId : String) (contexts : Contexts) : PyM (ThinkRun F) Artifact := do
  let ended ← reflexionLoop engine env task tenantId contexts 2 1 none
  proposeAxiom engine env ended
  pure ended.solution

/-- The solution of the fallback LLM. -/
def kernelSolution : PyM (ThinkRun F) Artifact := do
  let (steps, reasoning) ← PyM.lift env.kernels
  PyM.modify fun s => { s with thought := readChain (steps.foldl addStep s.thought) (env.chain 0) }
  assembleArtifact engine task .kernels reasoning

/-- The solution of the chain of thought, or of the kernels. -/
def reasonedSolution (tenantId : String) (contexts : Contexts) : PyM (ThinkRun F) Artifact :=
  if engine.llm.name ≠ "fallback" then judgedSolution engine env task tenantId contexts
  else kernelSolution engine env task

/-- What the attempts share. The episodes are peripheral. -/
def gatherContexts (resume : Option (List (String × String))) : Except PyExc Contexts := do
  let episodes :=
    match env.searchEpisodes (task.title ++ " " ++ task.description) with
    | .ok episodes => episodes
    | .error _ => []
  let knowledge ← env.knowledgeContext
  let graph ← env.graphContext
  let ontology ← env.ontologyContext
  let memory := "
".intercalate (episodes.map fun (description, outcome) =>
    "[Past] " ++ pySlice description 100 ++ " → " ++ outcome)
  return {
    knowledge := if episodes = [] then knowledge else knowledge ++ "

" ++ memory
    graph, ontology, resume }

/-- The solution that the neurosymbolic engine completed, through the gates. -/
def finishNeurosymbolic (nsSolution : PyVal F) (causalAnalysis : List (PyVal F)) :
    PyM (ThinkRun F) (Option Artifact) := do
  let solution ← PyM.lift (convertNeurosymbolicToSolution nsSolution task)
  PyM.modify fun s => { s with metadata := { causalAnalysis } }
  finalizeSolution engine env task solution
  pure (some solution)

/-- The solution of the neurosymbolic engine, if it has one. -/
def neurosymbolicSolution (think : PyVal F → List (EventBody F) × Option PyExc) :
    PyM (ThinkRun F) (Option Artifact) := do
  let (events, e) := think (prepareNeurosymbolicTask task)
  match ← PyM.lift (awaitSolution engine.settings.fallbackToCot events e) with
  | none | some (.none, _) => pure none
  | some (nsSolution, causalAnalysis) =>
    finishNeurosymbolic engine env task nsSolution causalAnalysis

/-- The neurosymbolic path. What raises leads to the chain of thought, except for a rejection and
an exhausted engine. -/
def neurosymbolicPath : PyM (ThinkRun F) (Option Artifact) :=
  match env.neurosymbolic with
  | none => pure none
  | some think =>
    PyM.tryCatch (neurosymbolicSolution engine env task think) fun e =>
      if e.typeName ∈ ["SandboxValidationError", "MaxRefinementsExceededError"] then PyM.raise e
      else if engine.settings.fallbackToCot then pure none
      else PyM.raise e

/-- The rest of a call that got no solution from the neurosymbolic engine. -/
def thinkByChain (tenantId : String) (resume : Option (List (String × String))) :
    PyM (ThinkRun F) Artifact := do
  let contexts ← PyM.lift (gatherContexts env task resume)
  let solution ← reasonedSolution engine env task tenantId contexts
  finalizeSolution engine env task solution
  pure solution

/-- `_think_impl` (engine.py:351). -/
def thinkImpl (tenantId : String) : PyM (ThinkRun F) Artifact := do
  PyM.lift (checkTask task)
  PyM.lift env.initializeEngine
  let resume ← PyM.lift (env.loadCheckpoint task.id tenantId)
  match ← neurosymbolicPath engine env task with
  | some solution => pure solution
  | none => thinkByChain engine env task tenantId resume

/-- `think` (engine.py:311), for a caller with a tenant; `timedOut` has the limit that it ran
into. -/
def think (callerTenant : String) (timedOut : Option String) : PyM (ThinkRun F) Artifact :=
  match timedOut with
  | some timeout => PyM.raise (.custom "ThinkTimeoutError" ("think() exceeded " ++ timeout ++
      "s (fail-closed; checkpoints remain for resume)"))
  | none =>
    thinkImpl engine env task (if callerTenant ≠ "default" then callerTenant else engine.tenantId)

end Think

end Noema.Core
