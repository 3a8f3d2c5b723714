import Noema.Experiments.FileCosts
import Noema.Lib.Json
import Noema.Lib.PyText

/-!
# The experiment matrix (`_run_matrix`, `experiments/runner.py`)

The matrix runs every task with every model of every provider entry, as many times as the experiment
says. Engines are kept by provider and model. An engine on which a cell has timed out is stale, as
the call that timed out may still be running in it. The models look at that when they choose their
engine, the cells of a model do not.

A cell is modelled with what it reports: the clock, the statistics of the tracer before and after,
the verdict and the validation, and the error text, of which the prefix `timeout` is what marks the
engine (`RunRecord.isTimeout`). The factory of engines and the append to the results may raise, and
the `finally` shuts down what is held.

- `Held`: the invariant of the engines, which no exception breaks: each engine that was created is
  held under one key, or was shut down once. `runMatrix_allShutDown` follows, on every exit.
- `Marked`: in a run without exceptions, the engines that have timed out are stale under their keys.
- `engineFor_faultless`: so the engine that a model gets has no cell that timed out.
- **`soundMatrix_iff`**: the matrix is complete and shuts down every engine, and its cells run on
  clean engines if and only if, of the cells of a provider entry and a model, only the last one
  times out.
- `stale_engine_reused`: two repetitions of a task.
-/

namespace Noema.Experiments.Matrix

open Noema.Lib PyJson

/-- An entry of `providers`. -/
structure ProviderEntry where
  provider : String
  costPerToken : ℚ
  models : List String
  isNamed : provider ≠ ""
  hasModels : models ≠ []
  namedModels : ∀ model ∈ models, model ≠ ""

/-- An experiment that `_validate_experiment` accepts, with knobs of their types. A task is its id.
-/
structure MatrixConfig where
  experimentId : String
  runId : String
  providers : List ProviderEntry
  tasks : List String
  repetitions : Nat
  timeoutSeconds : Option FloatText
  sandbox : Bool
  hasProviders : providers ≠ []
  hasTasks : tasks ≠ []
  repeats : 1 ≤ repetitions

/-! ## A cell -/

/-- `engine.tracer.get_stats()`. -/
structure TracerStats where
  totalTokens : Int := 0
  llmCalls : Int := 0
  tokensInput : Int := 0
  tokensOutput : Int := 0

/-- `_delta_stats`. -/
def deltaStats (after before : TracerStats) : TracerStats where
  totalTokens := after.totalTokens - before.totalTokens
  llmCalls := after.llmCalls - before.llmCalls
  tokensInput := after.tokensInput - before.tokensInput
  tokensOutput := after.tokensOutput - before.tokensOutput

/-- A solution, with the names and contents of its code blocks. -/
structure CellSolution where
  quality : String
  codeBlocks : List (String × String)

/-- What `engine.think` does. Without a timeout of the experiment it may still raise
`TimeoutError`. -/
inductive Thinking where
  | solved (solution : CellSolution)
  | timedOut
  | raised (e : PyExc)

/-- What the judge says. -/
structure CellVerdict where
  overall : ℚ
  passed : Bool
  summary : String

/-- What the sandbox says. -/
structure CellValidation where
  allValid : Bool
  summary : String

/-- What happens in a cell: its clock, its tracer, and what the engine, the judge and the sandbox do
if they are asked. -/
structure CellOutcome where
  startedAt : String := ""
  durationMs : ℚ := 0
  before : TracerStats := {}
  after : TracerStats := {}
  thinking : Thinking
  judge : Except PyExc CellVerdict := .ok ⟨0, false, ""⟩
  sandbox : Except PyExc CellValidation := .ok ⟨true, ""⟩

/-- The cell has timed out. -/
def CellOutcome.timedOut (o : CellOutcome) : Bool :=
  match o.thinking with
  | .timedOut => true
  | .solved _ | .raised _ => false

/-- `RunRecord`. -/
structure RunRecord where
  experimentId : String
  runId : String
  taskId : String
  provider : String
  model : String
  repeatIndex : Nat
  startedAt : String
  durationMs : ℚ
  tokensInput : Int
  tokensOutput : Int
  totalTokens : Int
  llmCalls : Int
  judgeScore : ℚ
  judgePassed : Bool
  judgeSummary : String
  solutionQuality : String
  codeBlocks : Nat
  sandboxAllValid : Option Bool
  sandboxSummary : String
  costEstimate : ℚ
  error : Option String
  fileCosts : List FileCostRow

section Cell

variable (cfg : MatrixConfig) (o : CellOutcome)

/-- The solution and the error of the reasoning step. -/
def reasoned : Option CellSolution × Option String :=
  match o.thinking with
  | .solved solution => (some solution, none)
  | .timedOut =>
    let seconds := (cfg.timeoutSeconds.map fun f => String.ofList f.text).getD "None"
    (none, some ("timeout after " ++ seconds ++ "s"))
  | .raised e => (none, some (e.typeName ++ ": " ++ e.msg))

/-- The verdict, and the error after the judge. -/
def judged (solution : Option CellSolution) (error : Option String) : CellVerdict × Option String :=
  match solution, error with
  | some _, none =>
    match o.judge with
    | .ok verdict => (verdict, none)
    | .error e => (⟨0, false, ""⟩, some ("judge:" ++ e.typeName ++ ": " ++ e.msg))
  | _, _ => (⟨0, false, ""⟩, error)

/-- The validation, and the error after the sandbox. -/
def sandboxed (solution : Option CellSolution) (error : Option String) :
    Option CellValidation × Option String :=
  match solution, error, cfg.sandbox with
  | some _, none, true =>
    match o.sandbox with
    | .ok validation => (some validation, none)
    | .error e => (none, some ("sandbox:" ++ e.typeName ++ ": " ++ e.msg))
  | _, _, _ => (none, error)

/-- `_run_once` (runner.py:273). -/
def runOnce (entry : ProviderEntry) (model taskId : String) (repeatIndex : Nat) : RunRecord :=
  let (solution, thinkError) := reasoned cfg o
  -- the statistics of the engine, before and after the cell
  let tokens := deltaStats o.after o.before
  let (verdict, judgeError) := judged o solution thinkError
  let (validation, error) := sandboxed cfg o solution judgeError
  { experimentId := cfg.experimentId
    runId := cfg.runId
    taskId, model, repeatIndex
    provider := entry.provider
    startedAt := o.startedAt
    durationMs := roundTo 2 o.durationMs
    tokensInput := tokens.tokensInput
    tokensOutput := tokens.tokensOutput
    totalTokens := tokens.totalTokens
    llmCalls := tokens.llmCalls
    judgeScore := verdict.overall
    judgePassed := verdict.passed
    judgeSummary := verdict.summary
    solutionQuality := (solution.map CellSolution.quality).getD ""
    codeBlocks := (solution.map fun s => s.codeBlocks.length).getD 0
    sandboxAllValid := validation.map CellValidation.allValid
    sandboxSummary := (validation.map CellValidation.summary).getD ""
    costEstimate := roundTo 8 (entry.costPerToken * tokens.totalTokens)
    error
    fileCosts := attributeFileCosts ((solution.map CellSolution.codeBlocks).getD [])
      tokens.tokensInput tokens.tokensOutput entry.costPerToken }

end Cell

/-- `record.error and record.error.startswith("timeout")`. -/
def RunRecord.isTimeout (record : RunRecord) : Bool :=
  match record.error with
  | some error => startsWith error "timeout"
  | none => false

/-! ## The matrix -/

/-- The key of an engine: its provider and its model. -/
abbrev EngineKey := String × String

/-- What a run does not decide: what happens in the cells, in the order in which they run, and which
calls of the factory and of `_append_incremental` raise. -/
structure MatrixEnv where
  outcome : Nat → CellOutcome
  factory : Nat → Except PyExc Unit := fun _ => .ok ()
  append : Nat → Except PyExc Unit := fun _ => .ok ()

/-- The engines, which are numbered as they are created, and what a run has done: the cells, each
with its engine and with whether it timed out, the records, and the engines that were shut down. -/
structure MatrixState where
  created : Nat := 0
  engines : List (EngineKey × Nat) := []
  stale : List EngineKey := []
  ran : List (Nat × Bool) := []
  records : List RunRecord := []
  shutDowns : List Nat := []

namespace MatrixState

variable (s : MatrixState)

/-- `engines[key] = engine_factory(...)`. -/
def create (key : EngineKey) : MatrixState :=
  { s with created := s.created + 1, engines := s.engines ++ [(key, s.created)] }

/-- `await _safe_shutdown(engines.pop(key, None))`, which no exception of the engine leaves. -/
def shutDown (key : EngineKey) : MatrixState :=
  { s with
    engines := s.engines.filter fun e => e.1 ≠ key
    shutDowns := s.shutDowns ++ (s.engines.lookup key).toList }

/-- `stale.discard(key)`. -/
def discard (key : EngineKey) : MatrixState :=
  { s with stale := s.stale.filter fun k => k ≠ key }

/-- A cell runs on an engine, and its record is kept. -/
def record (engine : Nat) (timedOut : Bool) (record : RunRecord) : MatrixState :=
  { s with ran := s.ran ++ [(engine, timedOut)], records := s.records ++ [record] }

/-- `stale.add(key)`. -/
def mark (key : EngineKey) : MatrixState := { s with stale := key :: s.stale }

/-- A stale engine is dropped, so that the next model starts from a clean one. -/
def refresh (key : EngineKey) : MatrixState :=
  if key ∈ s.stale then (s.shutDown key).discard key else s

/-- The `finally` of the matrix. -/
def shutDownAll : MatrixState := (s.engines.map Prod.fst).foldl shutDown s

end MatrixState

section Run

variable (cfg : MatrixConfig) (env : MatrixEnv)

/-- The engine for a key. -/
def engineFor (key : EngineKey) : PyM MatrixState Nat := do
  PyM.modify (·.refresh key)
  let s ← PyM.get
  match s.engines.lookup key with
  | some engine => pure engine
  | none => do
    PyM.lift (env.factory s.created)
    PyM.modify (·.create key)
    pure s.created

/-- The body of the loops over the tasks and the repetitions. -/
def runCell (entry : ProviderEntry) (model : String) (engine : Nat) (cell : String × Nat) :
    PyM MatrixState Unit := do
  let s ← PyM.get
  let outcome := env.outcome s.ran.length
  let record := runOnce cfg outcome entry model cell.1 cell.2
  PyM.modify (·.record engine outcome.timedOut record)
  PyM.lift (env.append s.ran.length)
  if record.isTimeout then PyM.modify (·.mark (entry.provider, model))

/-- The tasks and the repetitions, in the order of the two loops. -/
def MatrixConfig.cells : List (String × Nat) :=
  cfg.tasks.flatMap fun task => (List.range' 1 cfg.repetitions).map fun rep => (task, rep)

/-- The provider entries and their models, in the order of the two loops. -/
def MatrixConfig.blocks : List (ProviderEntry × String) :=
  cfg.providers.flatMap fun entry => entry.models.map fun model => (entry, model)

/-- The loops over the tasks and the repetitions. -/
def runCells (entry : ProviderEntry) (model : String) (engine : Nat) :
    List (String × Nat) → PyM MatrixState Unit
  | [] => pure ()
  | cell :: cells => do
    runCell cfg env entry model engine cell
    runCells entry model engine cells

/-- The loops over the provider entries and the models. -/
def runBlocks : List (ProviderEntry × String) → PyM MatrixState Unit
  | [] => pure ()
  | (entry, model) :: blocks => do
    let engine ← engineFor env (entry.provider, model)
    runCells cfg env entry model engine cfg.cells
    runBlocks blocks

/-- `_run_matrix` (runner.py:438), from no engines. -/
def runMatrix : Except PyExc (List RunRecord) × MatrixState :=
  let (result, s) := runBlocks cfg env cfg.blocks {}
  (result.map fun _ => s.records, s.shutDownAll)

end Run

/-! ## When the matrix is sound -/

/-- Where in the matrix a record belongs. -/
def RunRecord.cell (record : RunRecord) : String × String × String × Nat :=
  (record.provider, record.model, record.taskId, record.repeatIndex)

/-- The cells of the matrix in the order of the four loops. -/
def MatrixConfig.matrix (cfg : MatrixConfig) : List (String × String × String × Nat) :=
  cfg.providers.flatMap fun entry => entry.models.flatMap fun model =>
    cfg.tasks.flatMap fun task => (List.range' 1 cfg.repetitions).map fun rep =>
      (entry.provider, model, task, rep)

/-- No cell runs on an engine on which an earlier one has timed out. -/
def MatrixState.Clean (s : MatrixState) : Prop :=
  s.ran.Pairwise fun first second => first.1 = second.1 → first.2 = false

/-- Every engine that was created is shut down exactly once. -/
def MatrixState.AllShutDown (s : MatrixState) : Prop :=
  s.shutDowns.Perm (List.range s.created)

/-- No call of the factory or of `_append_incremental` raises. -/
def MatrixEnv.Faultless (env : MatrixEnv) : Prop :=
  (∀ n, env.factory n = .ok ()) ∧ ∀ k, env.append k = .ok ()

/-- The matrix is complete and its engines are clean, and on every exit they are shut down. -/
def SoundMatrix (cfg : MatrixConfig) (env : MatrixEnv) : Prop :=
  (env.Faultless →
    (∃ records, (runMatrix cfg env).1 = .ok records ∧ records.map RunRecord.cell = cfg.matrix) ∧
    (runMatrix cfg env).2.Clean) ∧
  (runMatrix cfg env).2.AllShutDown

/-- Of the cells of a provider entry and a model only the last one may time out. -/
def LastOnly (cfg : MatrixConfig) (env : MatrixEnv) : Prop :=
  ∀ block < cfg.blocks.length, ∀ i, i + 1 < cfg.cells.length →
    (env.outcome (block * cfg.cells.length + i)).timedOut = false

/-! ## The engines, on every exit -/

/-- The engine that is popped and those that stay are the engines that were held. -/
theorem popped_perm {engines : List (EngineKey × Nat)} (hkeys : (engines.map Prod.fst).Nodup)
    (key : EngineKey) :
    ((engines.lookup key).toList ++ (engines.filter fun e => e.1 ≠ key).map Prod.snd).Perm
      (engines.map Prod.snd) := by
  induction engines with
  | nil => exact .refl _
  | cons e engines ih =>
    obtain ⟨hnotin, hrest⟩ := List.nodup_cons.mp hkeys
    by_cases heq : e.1 = key
    · subst heq
      have hfilter : (engines.filter fun e' => e'.1 ≠ e.1) = engines := by
        refine List.filter_eq_self.mpr fun e' hmem => ?_
        simpa using fun h : e'.1 = e.1 => hnotin (h ▸ List.mem_map_of_mem hmem)
      rw [List.lookup_cons, beq_self_eq_true, List.filter_cons_of_neg (by simp), hfilter]
      exact .refl _
    · rw [List.lookup_cons, beq_false_of_ne fun h => heq h.symm,
        List.filter_cons_of_pos (by simpa using heq), List.map_cons, List.map_cons]
      exact List.perm_middle.trans ((ih hrest).cons _)

/-- The invariant of the engines: each that was created is held under one key, or was shut down
once. -/
structure Held (s : MatrixState) : Prop where
  keys : (s.engines.map Prod.fst).Nodup
  once : (s.shutDowns ++ s.engines.map Prod.snd).Perm (List.range s.created)

namespace Held

variable {s : MatrixState} {key key' : EngineKey} {n : Nat}

/-- No two keys hold one engine. -/
theorem key_unique (h : Held s) (hmem : (key, n) ∈ s.engines) (hmem' : (key', n) ∈ s.engines) :
    key = key' := by
  have hnodup : (s.engines.map Prod.snd).Nodup :=
    (h.once.nodup_iff.mpr List.nodup_range).of_append_right
  exact congrArg Prod.fst (List.inj_on_of_nodup_map hnodup hmem hmem' rfl)

theorem lt_created (h : Held s) (hmem : (key, n) ∈ s.engines) : n < s.created := by
  have hn : n ∈ s.shutDowns ++ s.engines.map Prod.snd :=
    List.mem_append_right _ (List.mem_map_of_mem (f := Prod.snd) hmem)
  exact List.mem_range.mp (h.once.mem_iff.mp hn)

theorem create (h : Held s) (hkey : s.engines.lookup key = none) : Held (s.create key) where
  keys := by
    have hnotin : key ∉ s.engines.map Prod.fst := by
      intro hmem
      obtain ⟨e, he, rfl⟩ := List.mem_map.mp hmem
      exact absurd (List.lookup_eq_none_iff.mp hkey e he) (by simp)
    rw [MatrixState.create, List.map_append]
    exact h.keys.append (List.nodup_singleton _) (by simpa using hnotin)
  once := by
    rw [MatrixState.create, List.range_succ, List.map_append, ← List.append_assoc]
    exact h.once.append_right _

theorem shutDown (h : Held s) (key : EngineKey) : Held (s.shutDown key) where
  keys := by
    rw [MatrixState.shutDown]
    exact h.keys.sublist (List.filter_sublist.map Prod.fst)
  once := by
    rw [MatrixState.shutDown, List.append_assoc]
    exact ((popped_perm h.keys key).append_left _).trans h.once

theorem refresh (h : Held s) : Held (s.refresh key) := by
  rw [MatrixState.refresh]
  split
  · exact ⟨(h.shutDown key).keys, (h.shutDown key).once⟩
  · exact h

end Held

/-- What the loop of the `finally` leaves. -/
theorem foldl_shutDown (keys : List EngineKey) {s : MatrixState} (h : Held s) :
    Held (keys.foldl MatrixState.shutDown s) ∧
    (keys.foldl MatrixState.shutDown s).engines = s.engines.filter fun e => e.1 ∉ keys := by
  induction keys generalizing s with
  | nil => exact ⟨h, by simp⟩
  | cons key keys ih =>
    obtain ⟨hheld, hengines⟩ := ih (h.shutDown key)
    refine ⟨hheld, hengines.trans ?_⟩
    rw [MatrixState.shutDown, List.filter_filter]
    refine List.filter_congr fun e _ => ?_
    simp [Bool.and_comm]

theorem foldl_shutDown_ran (keys : List EngineKey) (s : MatrixState) :
    (keys.foldl MatrixState.shutDown s).ran = s.ran := by
  induction keys generalizing s with
  | nil => rfl
  | cons key keys ih => exact ih (s.shutDown key)

/-- The `finally` shuts down every engine that is still held. -/
theorem Held.allShutDown {s : MatrixState} (h : Held s) : s.shutDownAll.AllShutDown := by
  obtain ⟨hheld, hengines⟩ := foldl_shutDown (s.engines.map Prod.fst) h
  have hempty : s.shutDownAll.engines = [] := by
    refine hengines.trans (List.filter_eq_nil_iff.mpr fun e hmem => ?_)
    simpa using ⟨e.2, hmem⟩
  have honce := hheld.once
  rw [show (s.engines.map Prod.fst).foldl MatrixState.shutDown s = s.shutDownAll from rfl,
    hempty, List.map_nil, List.append_nil] at honce
  exact honce

section Exits

variable (cfg : MatrixConfig) (env : MatrixEnv)

/-- The engines are as they were. -/
def SameEngines (s s' : MatrixState) : Prop :=
  s'.created = s.created ∧ s'.engines = s.engines ∧ s'.shutDowns = s.shutDowns

instance : Std.Refl SameEngines := ⟨fun _ => ⟨rfl, rfl, rfl⟩⟩

instance : IsTrans MatrixState SameEngines :=
  ⟨fun _ _ _ h h' => ⟨h'.1.trans h.1, h'.2.1.trans h.2.1, h'.2.2.trans h.2.2⟩⟩

theorem SameEngines.held {s s' : MatrixState} (h : SameEngines s s') (hheld : Held s) :
    Held s' where
  keys := by
    rw [h.2.1]
    exact hheld.keys
  once := by
    rw [h.1, h.2.1, h.2.2]
    exact hheld.once

theorem runCells_sameEngines (entry : ProviderEntry) (model : String) (engine : Nat)
    (cells : List (String × Nat)) :
    PyM.Keeps SameEngines (runCells cfg env entry model engine cells) := by
  induction cells with
  | nil => exact PyM.Keeps.pure ()
  | cons cell cells ih =>
    refine PyM.Keeps.bind ?_ fun _ => ih
    refine PyM.Keeps.bind PyM.Keeps.get fun s => ?_
    refine PyM.Keeps.bind (PyM.Keeps.modify fun _ => ⟨rfl, rfl, rfl⟩) fun _ => ?_
    refine PyM.Keeps.bind (PyM.Keeps.lift _) fun _ => ?_
    exact PyM.Keeps.ite (PyM.Keeps.modify fun _ => ⟨rfl, rfl, rfl⟩) (PyM.Keeps.pure ())

/-- The engine of a key is held, or the factory has raised. -/
theorem engineFor_cases (key : EngineKey) (s : MatrixState) :
    (∃ n, (s.refresh key).engines.lookup key = some n ∧
      engineFor env key s = (.ok n, s.refresh key)) ∨
    (s.refresh key).engines.lookup key = none ∧
      ((env.factory (s.refresh key).created = .ok () ∧ engineFor env key s =
        (.ok (s.refresh key).created, (s.refresh key).create key)) ∨
      ∃ e, env.factory (s.refresh key).created = .error e ∧
        engineFor env key s = (.error e, s.refresh key)) := by
  rw [engineFor, PyM.bind_ok (PyM.modify_apply _ _), PyM.bind_ok (PyM.get_apply _)]
  rcases hlookup : (s.refresh key).engines.lookup key with _ | n
  · refine .inr ⟨rfl, ?_⟩
    rcases hfactory : env.factory (s.refresh key).created with e | ⟨⟩
    · exact .inr ⟨e, rfl, PyM.bind_error (PyM.lift_apply _ _) _⟩
    · exact .inl ⟨rfl, PyM.bind_ok (PyM.lift_apply _ _) _⟩
  · exact .inl ⟨n, rfl, rfl⟩

theorem engineFor_held (key : EngineKey) {s : MatrixState} (h : Held s) :
    Held (engineFor env key s).2 := by
  obtain ⟨n, -, hrun⟩ | ⟨hkey, ⟨-, hrun⟩ | ⟨e, -, hrun⟩⟩ := engineFor_cases env key s
  · rw [hrun]
    exact h.refresh
  · rw [hrun]
    exact h.refresh.create hkey
  · rw [hrun]
    exact h.refresh

theorem runBlocks_held (blocks : List (ProviderEntry × String)) {s : MatrixState} (h : Held s) :
    Held (runBlocks cfg env blocks s).2 := by
  induction blocks generalizing s with
  | nil => exact h
  | cons block blocks ih =>
    have hengine := engineFor_held env (block.1.provider, block.2) h
    rw [runBlocks]
    rcases hrun : engineFor env (block.1.provider, block.2) s with ⟨e | engine, s₁⟩ <;>
      rw [hrun] at hengine
    · rw [PyM.bind_error hrun]
      exact hengine
    · have hcells := (runCells_sameEngines cfg env block.1 block.2 engine cfg.cells s₁).held hengine
      rw [PyM.bind_ok hrun]
      rcases hrun' : runCells cfg env block.1 block.2 engine cfg.cells s₁ with ⟨e | _, s₂⟩ <;>
        rw [hrun'] at hcells
      · rw [PyM.bind_error hrun']
        exact hcells
      · rw [PyM.bind_ok hrun']
        exact ih hcells

/-- Every engine that was created is shut down once, also when the matrix raises. -/
theorem runMatrix_allShutDown : (runMatrix cfg env).2.AllShutDown := by
  have hinit : Held {} := ⟨List.nodup_nil, .refl _⟩
  exact (runBlocks_held cfg env cfg.blocks hinit).allShutDown

end Exits

/-! ## Runs without exceptions -/

section Faultless

variable {cfg : MatrixConfig} {env : MatrixEnv} {entry : ProviderEntry} {model : String}
  {engine : Nat} {s : MatrixState}

/-- The record of a cell that has timed out says so. -/
theorem isTimeout_of_timedOut {o : CellOutcome} (h : o.timedOut = true) (entry : ProviderEntry)
    (model taskId : String) (rep : Nat) : (runOnce cfg o entry model taskId rep).isTimeout = true := by
  have hthink : o.thinking = .timedOut := by
    revert h
    rw [CellOutcome.timedOut]
    cases o.thinking <;> simp
  have herror : ∃ rest, (runOnce cfg o entry model taskId rep).error = some ("timeout" ++ rest) := by
    refine ⟨" after " ++ (cfg.timeoutSeconds.map fun f => String.ofList f.text).getD "None" ++ "s", ?_⟩
    simp only [runOnce, reasoned, hthink, judged, sandboxed, ← String.append_assoc]
    rfl
  obtain ⟨rest, herror⟩ := herror
  rw [RunRecord.isTimeout, herror]
  exact List.isPrefixOf_iff_prefix.mpr (by rw [String.toList_append]; exact List.prefix_append _ _)

variable (cfg env entry model engine) in
/-- What a cell does if nothing raises. -/
def afterCell (s : MatrixState) (cell : String × Nat) : MatrixState :=
  let outcome := env.outcome s.ran.length
  let record := runOnce cfg outcome entry model cell.1 cell.2
  let s' := s.record engine outcome.timedOut record
  if record.isTimeout then s'.mark (entry.provider, model) else s'

theorem runCell_faultless (h : env.Faultless) (cell : String × Nat) :
    runCell cfg env entry model engine cell s =
      (.ok (), afterCell cfg env entry model engine s cell) := by
  rw [runCell, PyM.bind_ok (PyM.get_apply _), PyM.bind_ok (PyM.modify_apply _ _),
    PyM.bind_ok (by rw [PyM.lift_apply, h.2]), afterCell]
  split <;> rfl

theorem runCells_faultless (h : env.Faultless) (cells : List (String × Nat)) :
    runCells cfg env entry model engine cells s =
      (.ok (), cells.foldl (afterCell cfg env entry model engine) s) := by
  induction cells generalizing s with
  | nil => rfl
  | cons cell cells ih => rw [runCells, PyM.bind_ok (runCell_faultless h cell), ih, List.foldl_cons]

@[simp] theorem afterCell_ran (cell : String × Nat) :
    (afterCell cfg env entry model engine s cell).ran =
      s.ran ++ [(engine, (env.outcome s.ran.length).timedOut)] := by
  rw [afterCell]
  split <;> rfl

@[simp] theorem afterCell_records (cell : String × Nat) :
    (afterCell cfg env entry model engine s cell).records.map RunRecord.cell =
      s.records.map RunRecord.cell ++ [(entry.provider, model, cell)] := by
  rw [afterCell]
  split <;> exact List.map_append

@[simp] theorem afterCell_engines (cell : String × Nat) :
    (afterCell cfg env entry model engine s cell).engines = s.engines := by
  rw [afterCell]
  split <;> rfl

@[simp] theorem afterCell_created (cell : String × Nat) :
    (afterCell cfg env entry model engine s cell).created = s.created := by
  rw [afterCell]
  split <;> rfl

theorem afterCells_ran (cells : List (String × Nat)) :
    (cells.foldl (afterCell cfg env entry model engine) s).ran =
      s.ran ++ (List.range' s.ran.length cells.length).map fun k =>
        (engine, (env.outcome k).timedOut) := by
  induction cells generalizing s with
  | nil => simp
  | cons cell cells ih =>
    rw [List.foldl_cons, ih, afterCell_ran, List.length_append, List.length_singleton,
      List.length_cons, List.range'_succ, List.map_cons, List.append_assoc]
    rfl

theorem afterCells_records (cells : List (String × Nat)) :
    (cells.foldl (afterCell cfg env entry model engine) s).records.map RunRecord.cell =
      s.records.map RunRecord.cell ++ cells.map fun cell => (entry.provider, model, cell) := by
  induction cells generalizing s with
  | nil => simp
  | cons cell cells ih =>
    rw [List.foldl_cons, ih, afterCell_records, List.append_assoc]
    rfl

/-- The invariant of a run without exceptions: an engine that has timed out is stale under its key,
and the cells have run on engines that were created. -/
structure Marked (s : MatrixState) : Prop where
  stale : ∀ key n, (key, n) ∈ s.engines → (n, true) ∈ s.ran → key ∈ s.stale
  known : ∀ e ∈ s.ran, e.1 < s.created

namespace Marked

theorem refresh (h : Marked s) (key : EngineKey) : Marked (s.refresh key) := by
  rw [MatrixState.refresh]
  split
  · refine ⟨fun key' n hmem hran => ?_, h.known⟩
    obtain ⟨hmem, hne⟩ := List.mem_filter.mp hmem
    exact List.mem_filter.mpr ⟨h.stale key' n hmem hran, hne⟩
  · exact h

theorem create (h : Marked s) (key : EngineKey) : Marked (s.create key) where
  stale key' n hmem hran := by
    rcases List.mem_append.mp hmem with hmem | hmem
    · exact h.stale key' n hmem hran
    · obtain ⟨-, rfl⟩ := Prod.mk.injEq .. ▸ List.mem_singleton.mp hmem
      exact absurd (h.known _ hran) (Nat.lt_irrefl _)
  known e hmem := Nat.lt_succ_of_lt (h.known e hmem)

theorem afterCell (h : Marked s) (hheld : Held s)
    (hengine : ((entry.provider, model), engine) ∈ s.engines) (cell : String × Nat) :
    Marked (afterCell cfg env entry model engine s cell) where
  stale key n hmem hran := by
    rw [afterCell_engines] at hmem
    rw [afterCell_ran] at hran
    rw [Matrix.afterCell]
    rcases List.mem_append.mp hran with hran | hran
    · have hstale := h.stale key n hmem hran
      split
      · exact List.mem_cons_of_mem _ hstale
      · exact hstale
    · obtain ⟨rfl, htimeout⟩ := Prod.mk.injEq .. ▸ List.mem_singleton.mp hran
      have hkey := hheld.key_unique hmem hengine
      rw [if_pos (isTimeout_of_timedOut htimeout.symm _ _ _ _), hkey]
      exact List.mem_cons_self
  known e hmem := by
    rw [afterCell_ran] at hmem
    rw [afterCell_created]
    rcases List.mem_append.mp hmem with hmem | hmem
    · exact h.known e hmem
    · rw [List.mem_singleton.mp hmem]
      exact hheld.lt_created hengine

theorem afterCells (h : Marked s) (hheld : Held s)
    (hengine : ((entry.provider, model), engine) ∈ s.engines) (cells : List (String × Nat)) :
    Marked (cells.foldl (Matrix.afterCell cfg env entry model engine) s) := by
  induction cells generalizing s with
  | nil => exact h
  | cons cell cells ih =>
    have hsame : SameEngines s (Matrix.afterCell cfg env entry model engine s cell) := by
      rw [Matrix.afterCell]
      split <;> exact ⟨rfl, rfl, rfl⟩
    exact ih (h.afterCell hheld hengine cell) (hsame.held hheld) (hsame.2.1 ▸ hengine)

end Marked

/-- What the engine of a model is: held under its key, with no cell of it timed out. -/
theorem engineFor_faultless (h : env.Faultless) (hheld : Held s) (hmarked : Marked s)
    (key : EngineKey) :
    ∃ n s', engineFor env key s = (.ok n, s') ∧ Held s' ∧ Marked s' ∧ (key, n) ∈ s'.engines ∧
      (n, true) ∉ s'.ran ∧ s'.ran = s.ran ∧ s'.records = s.records := by
  have hran : (s.refresh key).ran = s.ran ∧ (s.refresh key).records = s.records := by
    rw [MatrixState.refresh]
    split <;> exact ⟨rfl, rfl⟩
  obtain ⟨n, hlookup, hrun⟩ | ⟨hkey, ⟨-, hrun⟩ | ⟨e, herror, -⟩⟩ := engineFor_cases env key s
  · have hmem : (key, n) ∈ (s.refresh key).engines := by
      obtain ⟨before, after, heq, -⟩ := List.lookup_eq_some_iff.mp hlookup
      rw [heq]
      exact List.mem_append_right _ List.mem_cons_self
    refine ⟨n, _, hrun, hheld.refresh, hmarked.refresh key, hmem, fun htimeout => ?_, hran⟩
    have hstale := (hmarked.refresh key).stale key n hmem htimeout
    revert hstale
    rw [MatrixState.refresh]
    split
    · simp [MatrixState.discard]
    · exact fun hstale => absurd hstale ‹_›
  · refine ⟨_, _, hrun, hheld.refresh.create hkey, (hmarked.refresh key).create key,
      List.mem_append_right _ (List.mem_singleton_self _), fun htimeout => ?_, hran⟩
    exact absurd ((hmarked.refresh key).known _ htimeout) (Nat.lt_irrefl _)
  · rw [h.1] at herror
    cases herror

/-- A property of the earlier of two numbers of a stretch concerns all but the last. -/
theorem pairwise_range' (p : Nat → Prop) (a n : Nat) :
    ((List.range' a n).Pairwise fun k _ => p k) ↔ ∀ i, i + 1 < n → p (a + i) := by
  induction n generalizing a with
  | zero => simp
  | succ n ih =>
    rw [List.range'_succ, List.pairwise_cons, ih]
    constructor
    · rintro ⟨hfirst, hrest⟩ i hi
      cases i with
      | zero => exact hfirst (a + 1) (by rw [List.mem_range'_1]; omega)
      | succ i =>
        rw [show a + (i + 1) = a + 1 + i by omega]
        exact hrest i (by omega)
    · intro h
      refine ⟨fun k hk => h 0 (by rw [List.mem_range'_1] at hk; omega), fun i hi => ?_⟩
      rw [show a + 1 + i = a + (i + 1) by omega]
      exact h (i + 1) (by omega)

/-- The cells of a model on an engine that has not timed out before. -/
theorem afterCells_clean (cells : List (String × Nat)) (hfresh : (engine, true) ∉ s.ran) :
    (cells.foldl (afterCell cfg env entry model engine) s).Clean ↔
      s.Clean ∧ ∀ i, i + 1 < cells.length →
        (env.outcome (s.ran.length + i)).timedOut = false := by
  have hcross : ∀ first ∈ s.ran, ∀ second ∈ (List.range' s.ran.length cells.length).map fun k =>
      (engine, (env.outcome k).timedOut), first.1 = second.1 → first.2 = false := by
    intro first hfirst second hsecond heq
    obtain ⟨k, -, rfl⟩ := List.mem_map.mp hsecond
    rw [Bool.eq_false_iff]
    intro htimeout
    have hfirst' : first = (engine, true) := Prod.ext heq htimeout
    exact hfresh (hfirst' ▸ hfirst)
  rw [MatrixState.Clean, afterCells_ran, List.pairwise_append, List.pairwise_map]
  simp only [forall_true_left]
  rw [pairwise_range' fun k => (env.outcome k).timedOut = false]
  exact ⟨fun h => ⟨h.1, h.2.1⟩, fun h => ⟨h.1, h.2, hcross⟩⟩

variable (cfg) in
/-- The records that the models of the blocks make. -/
def blockCells (blocks : List (ProviderEntry × String)) : List (String × String × String × Nat) :=
  blocks.flatMap fun block => cfg.cells.map fun cell => (block.1.provider, block.2, cell)

theorem runBlocks_faultless (h : env.Faultless) (blocks : List (ProviderEntry × String))
    (hheld : Held s) (hmarked : Marked s) :
    ∃ s', runBlocks cfg env blocks s = (.ok (), s') ∧
      s'.records.map RunRecord.cell = s.records.map RunRecord.cell ++ blockCells cfg blocks ∧
      (s'.Clean ↔ s.Clean ∧ ∀ block < blocks.length, ∀ i, i + 1 < cfg.cells.length →
        (env.outcome (s.ran.length + (block * cfg.cells.length + i))).timedOut = false) := by
  -- By induction on the blocks: the engine that the next model gets is clean, and its cells are the
  -- next rows of the matrix.
  induction blocks generalizing s with
  | nil => exact ⟨s, rfl, by simp [blockCells], by simp⟩
  | cons block blocks ih =>
    obtain ⟨entry, model⟩ := block
    obtain ⟨engine, s₁, hengine, hheld₁, hmarked₁, hmem, hfresh, hran, hrecords⟩ :=
      engineFor_faultless h hheld hmarked (entry.provider, model)
    have hcells := @runCells_faultless cfg env entry model engine s₁ h cfg.cells
    have hheld₂ := (runCells_sameEngines cfg env entry model engine cfg.cells s₁).held hheld₁
    rw [hcells] at hheld₂
    obtain ⟨s', hrun, hrecords', hclean⟩ :=
      ih hheld₂ (hmarked₁.afterCells hheld₁ hmem cfg.cells)
    refine ⟨s', ?_, ?_, ?_⟩
    · rw [runBlocks, PyM.bind_ok hengine, PyM.bind_ok hcells, hrun]
    · rw [hrecords', afterCells_records, hrecords, List.append_assoc]
      rfl
    · rw [hclean, afterCells_clean cfg.cells hfresh, afterCells_ran, MatrixState.Clean,
        MatrixState.Clean, hran, and_assoc]
      refine and_congr_right fun _ => ?_
      rw [List.length_append, List.length_map, List.length_range']
      constructor
      · rintro ⟨hfirst, hrest⟩ b hb i hi
        cases b with
        | zero =>
          rw [Nat.zero_mul, Nat.zero_add]
          exact hfirst i hi
        | succ b =>
          have := hrest b (by simpa using hb) i hi
          rwa [Nat.succ_mul, Nat.add_right_comm _ _ i, ← Nat.add_assoc, Nat.add_right_comm]
      · intro hall
        refine ⟨fun i hi => ?_, fun b hb i hi => ?_⟩
        · have := hall 0 (by simp) i hi
          rwa [Nat.zero_mul, Nat.zero_add] at this
        · have := hall (b + 1) (by simpa using hb) i hi
          rwa [Nat.succ_mul, Nat.add_right_comm _ _ i, ← Nat.add_assoc, Nat.add_right_comm] at this

theorem blockCells_blocks (cfg : MatrixConfig) : blockCells cfg cfg.blocks = cfg.matrix := by
  simp [blockCells, MatrixConfig.blocks, MatrixConfig.matrix, MatrixConfig.cells,
    List.flatMap_assoc, List.flatMap_map, List.map_flatMap, Function.comp_def]

end Faultless

/-- The matrix is complete and shuts down every engine. Its cells run on clean engines exactly when,
of the cells of a provider entry and a model, only the last one times out. -/
theorem soundMatrix_iff (cfg : MatrixConfig) (env : MatrixEnv) :
    SoundMatrix cfg env ↔ (env.Faultless → LastOnly cfg env) := by
  have hshut := runMatrix_allShutDown cfg env
  have hrun : env.Faultless →
      (∃ records, (runMatrix cfg env).1 = .ok records ∧
        records.map RunRecord.cell = cfg.matrix) ∧
      ((runMatrix cfg env).2.Clean ↔ LastOnly cfg env) := by
    intro h
    obtain ⟨s', hrun, hrecords, hclean⟩ := @runBlocks_faultless cfg env {} h cfg.blocks
      ⟨List.nodup_nil, .refl _⟩ ⟨by simp, by simp⟩
    have hmatrix : runMatrix cfg env = (.ok s'.records, s'.shutDownAll) := by
      rw [runMatrix, hrun]
      rfl
    rw [hmatrix]
    refine ⟨⟨s'.records, rfl, hrecords.trans (blockCells_blocks cfg)⟩, ?_⟩
    rw [MatrixState.Clean, MatrixState.shutDownAll, foldl_shutDown_ran]
    refine hclean.trans ((and_iff_right List.Pairwise.nil).trans ?_)
    simp only [List.length_nil, Nat.zero_add, LastOnly]
  exact ⟨fun hsound h => (hrun h).2.mp (hsound.1 h).2,
    fun hlast => ⟨fun h => ⟨(hrun h).1, (hrun h).2.mpr (hlast h)⟩, hshut⟩⟩

/-- Two repetitions of a task. -/
def twice : MatrixConfig where
  experimentId := "bench"
  runId := "bench-1"
  providers := [⟨"fallback", 0, ["small"], by decide, by decide, by decide⟩]
  tasks := ["t1"]
  repetitions := 2
  timeoutSeconds := none
  sandbox := false
  hasProviders := by simp
  hasTasks := by simp
  repeats := by decide

/-- The first cell times out, and the others raise. -/
def firstTimesOut : MatrixEnv where
  outcome k := if k = 0 then { thinking := .timedOut } else { thinking := .raised (.valueError "no") }

/-- The second repetition runs on the engine on which the first has timed out. -/
theorem stale_engine_reused : ¬ ∀ cfg env, SoundMatrix cfg env := by
  intro h
  have hclean := ((h twice firstTimesOut).1 ⟨fun _ => rfl, fun _ => rfl⟩).2
  have hran : (runMatrix twice firstTimesOut).2.ran = [(0, true), (0, false)] := by
    decide +kernel
  rw [MatrixState.Clean, hran] at hclean
  exact absurd hclean (by decide)

end Noema.Experiments.Matrix
