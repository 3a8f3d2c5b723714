import Noema.Core.Assemble
import Noema.Sandbox.ShortCircuit

/-!
# The incident fixer (`autonomy/fixer.py`)

`handleIncident` takes an incident to a pull request: a solution is generated, validated in the
sandbox with its tests, and its files are proposed. The state is the log of what the fixer did, the
subprocesses of the validation and the calls to GitHub in their order; a run that raises keeps what
it has logged.

The engine, the parser of payloads, GitHub and the merge gate are what a `Fixer` finds: functions
from what they are given to what they answer or raise. The sandbox is the modelled one, with the
behaviour of its subprocesses (`Behaviour`), so that the log says which of them started, over which
files, and with which exit code.

- `handleIncident_log`: the log of an incident for which a solution was generated, as one
  expression.
- `submitted_iff`: a pull request is submitted if and only if the validation returns, and no file of
  the solution was rejected in it.
- `process_mem_iff`: the subprocesses of a fix are those of its validation.
- **`greenBeforePR_iff`**: a pull request waits for a green test run if and only if the tests are
  green anyway, or the solution is turned down for another reason. The outcome of the tests is no
  part of the gate: `all_valid` is about files, and the report of the test stage has counters that
  nobody reads.
- `redTests_submitted`: a failing test, and a pull request.
-/

namespace Noema.Autonomy

open Noema.Lib Noema.Core Noema.Sandbox

/-! ## Incidents -/

/-- The fields of an `Incident` that the fixer reads. -/
structure Incident where
  id : String
  title : String
  description : String
  stackTrace : String := ""
  tags : List String := []
  deriving DecidableEq, Repr

/-- What an incident gives a task. -/
structure FixTask where
  title : String
  description : String
  tags : List String
  deriving DecidableEq, Repr

/-- `incident_to_task` (incidents.py:155). -/
def incidentToTask (incident : Incident) : FixTask :=
  let description :=
    if incident.description = "" then "Reproduce and fix the incident: " ++ incident.title
    else incident.description
  let tags := ["bug", "incident"].foldl
    (fun tags tag => if tag ∈ tags then tags else tags ++ [tag]) incident.tags
  { title := "Fix: " ++ incident.title
    description :=
      if incident.stackTrace = "" then description
      else description ++ "\n\nStack trace:\n" ++ pySlice incident.stackTrace 3000
    tags := tags.take 20 }

/-- A character of a slug. -/
def isSlugChar (c : Char) : Bool := ('a' ≤ c && c ≤ 'z') || ('0' ≤ c && c ≤ '9')

/-- `re.sub(r"[^a-z0-9]+", "-", text)`; `inRun` says whether a run has been replaced already. -/
def dashRuns (inRun : Bool) : List Char → List Char
  | [] => []
  | c :: cs =>
    if isSlugChar c then c :: dashRuns false cs
    else if inRun then dashRuns true cs
    else '-' :: dashRuns true cs

/-- `text.strip("-")`. -/
def stripDashes (text : List Char) : List Char :=
  ((text.dropWhile (· = '-')).reverse.dropWhile (· = '-')).reverse

/-- `incident_branch_name` (incidents.py:172). -/
def incidentBranchName (u : Unicode) (incident : Incident) : String :=
  let slug := (stripDashes (dashRuns false (u.lower incident.title.toList))).take 40
  "noema-fix/" ++ pySlice incident.id 8 ++ "-" ++
    if slug = [] then "incident" else String.ofList slug

/-! ## Files of a fix -/

/-- `_block_path` (fixer.py:331). -/
def blockPath (u : Unicode) (block : CodeBlock) : String :=
  let filename := (strip block.filename.toList).dropWhile (· = '/')
  if filename ≠ [] then String.ofList filename
  else
    let language := u.lower (if block.language = "" then "py" else block.language).toList
    let ext := if language = "python".toList ∨ language = "py".toList then "py" else "txt"
    let description := if block.description = "" then "file" else block.description
    let name := "fix_".toList ++ description.toList ++ "_".toList
    String.ofList (name.map fun c => if c = ' ' then '_' else c) ++ "." ++ ext

/-- `_solution_files` (fixer.py:318): the first block of a path has the path. -/
def solutionFiles (u : Unicode) (solution : Solution) : List (String × String) :=
  solution.codeBlocks.foldl (fun files block =>
    let path := blockPath u block
    if path ∈ files.map Prod.fst then files else files ++ [(path, block.content)]) []

/-- The files that `validate_solution` hands to the sandbox. -/
def sourcesOf (solution : Solution) : List SourceFile :=
  solution.codeBlocks.map fun cb =>
    { pathKey := some cb.filename, languageKey := some cb.language, contentKey := some cb.content }

/-- `validate_solution` (core/engine.py:1380). -/
def validateSolution (engine : SandboxEngine) (b : Behaviour) (solution : Solution)
    (withTests : Bool) : PyM (List Process) SandboxResult :=
  let files := sourcesOf solution
  if files.isEmpty then pure { allValid := true, summary := "No code to validate" }
  else validateFiles engine b files withTests

/-! ## The loop of an incident -/

/-- What `submit_fix_pr` returns. -/
structure PullRequest where
  branch : String
  prNumber : Nat
  prUrl : String
  files : Nat
  deriving DecidableEq, Repr

/-- The report of the merge gate. -/
structure GateReport where
  passed : Bool
  blockedBy : List String
  deriving DecidableEq, Repr

/-- What the merge gate adds to a result. -/
structure GateResult where
  report : Option GateReport := none
  approved : Bool := false
  merged : Option (Bool × String) := none
  error : Option String := none
  deriving DecidableEq, Repr

/-- What `handle_incident` returns, by its status. -/
inductive FixResult where
  | fixGenerationFailed (incidentId error : String)
  | validationRaised (incidentId error : String)
  | validationFailed (incidentId summary : String)
  | noChanges (incidentId : String)
  | prFailed (incidentId error : String)
  | prCreated (incidentId : String) (pr : PullRequest) (judgePassed : Option String)
      (gate : GateResult)
  deriving DecidableEq, Repr

/-- What the fixer does to its surroundings. -/
inductive Call where
  | process (p : Process)
  | submitFixPr (files : List (String × String)) (title branch : String)
  | approvePr (number : Nat)
  | mergePr (number : Nat)
  deriving DecidableEq, Repr

/-- An `IncidentFixer` for payloads of type `P`, with the engine, GitHub and the gate as it finds
them. -/
structure Fixer (P : Type) where
  parseIncident : P → Except PyExc Incident
  engineFactory : Except PyExc Unit
  think : FixTask → Except PyExc Solution
  submitFixPr : List (String × String) → String → String → Except PyExc PullRequest
  gateRunner : List (String × String) → Except PyExc GateReport
  approvePr : Except PyExc Unit
  mergePr : Except PyExc (Bool × String)
  autoApprove : Bool
  autoMerge : Bool
  unicode : Unicode

/-- `try: r = x`, with what was raised instead of a result. -/
def attempt {σ α : Type} (x : PyM σ α) : PyM σ (Except PyExc α) := fun s =>
  let (r, s) := x s
  (.ok r, s)

/-- A validation, with its subprocesses in the log of the fixer. -/
def sandboxed {α : Type} (x : PyM (List Process) α) : PyM (List Call) α := fun log =>
  let (r, processes) := x []
  (r, log ++ processes.map .process)

section Handle

variable {P : Type} (fixer : Fixer P)

/-- `_run_merge_gate` (fixer.py:262). -/
def runMergeGate (files : List (String × String)) (pr : PullRequest) :
    PyM (List Call) GateResult := do
  match fixer.gateRunner files with
  -- the gate itself failed: nothing is approved
  | .error e => return { error := some e.msg }
  | .ok report =>
    if report.passed then
      PyM.modify fun log => log ++ [.approvePr pr.prNumber]
      match fixer.approvePr with
      | .error e => return { report := some report, error := some e.msg }
      | .ok _ =>
        if fixer.autoMerge then
          PyM.modify fun log => log ++ [.mergePr pr.prNumber]
          match fixer.mergePr with
          | .error e => return { report := some report, approved := true, error := some e.msg }
          | .ok merged => return { report := some report, approved := true, merged := some merged }
        else return { report := some report, approved := true }
    else return { report := some report }

/-- The last part of `handle_incident`: the pull request of a fix that passed its validation. -/
def proposeFix (incident : Incident) (solution : Solution) : PyM (List Call) FixResult := do
  let files := solutionFiles fixer.unicode solution
  let branch := incidentBranchName fixer.unicode incident
  let title := "fix: " ++ incident.title
  PyM.modify fun log => log ++ [.submitFixPr files title branch]
  match fixer.submitFixPr files title branch with
  | .error e => return .prFailed incident.id e.msg
  | .ok pr =>
    let judgePassed := solution.metadata.lookup "judge_passed"
    -- the pull request is there already, whatever the gate says
    if fixer.autoApprove then
      let gate ← runMergeGate fixer files pr
      return .prCreated incident.id pr judgePassed gate
    else return .prCreated incident.id pr judgePassed {}

/-- `handle_incident` (fixer.py:134). -/
def handleIncident (engine : SandboxEngine) (b : Behaviour) (payload : P) :
    PyM (List Call) FixResult := do
  let incident ← PyM.lift (fixer.parseIncident payload)
  PyM.lift fixer.engineFactory
  match fixer.think (incidentToTask incident) with
  | .error e => return .fixGenerationFailed incident.id e.msg
  | .ok solution =>
    -- the sandbox raising is not the same as the files being invalid
    match ← attempt (sandboxed (validateSolution engine b solution true)) with
    | .error e => return .validationRaised incident.id e.msg
    | .ok run =>
      if run.allValid then
        if solution.codeBlocks = [] then return .noChanges incident.id
        else proposeFix fixer incident solution
      else return .validationFailed incident.id run.summary

end Handle

/-! ## What reaches GitHub -/

/-- A pull request was submitted. -/
def Submitted (log : List Call) : Prop :=
  ∃ files title branch, .submitFixPr files title branch ∈ log

/-- Only calls to GitHub were added to the log. -/
def OnlyCalls (log log' : List Call) : Prop :=
  log <+: log' ∧ ∀ p, .process p ∈ log' → .process p ∈ log

instance : Std.Refl OnlyCalls := ⟨fun log => ⟨List.prefix_refl log, fun _ h => h⟩⟩

instance : IsTrans (List Call) OnlyCalls :=
  ⟨fun _ _ _ h h' => ⟨h.1.trans h'.1, fun p hp => h.2 p (h'.2 p hp)⟩⟩

theorem onlyCalls_append {log : List Call} {call : Call} (hcall : ∀ p, call ≠ .process p) :
    OnlyCalls log (log ++ [call]) := by
  refine ⟨List.prefix_append log _, fun p hp => ?_⟩
  rcases List.mem_append.mp hp with hp | hp
  · exact hp
  · exact absurd (List.mem_singleton.mp hp).symm (hcall p)

section Handle

variable {P : Type} {fixer : Fixer P}

theorem keeps_runMergeGate {R : List Call → List Call → Prop} [Std.Refl R] [IsTrans (List Call) R]
    (happrove : ∀ log n, R log (log ++ [.approvePr n])) (hmerge : ∀ log n, R log (log ++ [.mergePr n]))
    (files : List (String × String)) (pr : PullRequest) : (runMergeGate fixer files pr).Keeps R := by
  rw [runMergeGate]
  rcases fixer.gateRunner files with e | report
  · exact .pure _
  · refine .ite (.bind (.modify fun log => happrove log _) fun _ => ?_) (.pure _)
    rcases fixer.approvePr with e | _
    · exact .pure _
    · refine .ite (.bind (.modify fun log => hmerge log _) fun _ => ?_) (.pure _)
      rcases fixer.mergePr with e | merged
      · exact .pure _
      · exact .pure _

/-- A proposed fix is submitted; what follows are the calls of the merge gate. -/
theorem proposeFix_eq {R : List Call → List Call → Prop} [Std.Refl R] [IsTrans (List Call) R]
    (happrove : ∀ log n, R log (log ++ [.approvePr n])) (hmerge : ∀ log n, R log (log ++ [.mergePr n]))
    (fixer : Fixer P) (incident : Incident) (solution : Solution) :
    ∃ rest : PyM (List Call) FixResult, rest.Keeps R ∧ proposeFix fixer incident solution =
      PyM.modify (fun log => log ++ [.submitFixPr (solutionFiles fixer.unicode solution)
        ("fix: " ++ incident.title) (incidentBranchName fixer.unicode incident)]) >>=
        fun _ => rest := by
  refine ⟨_, ?_, rfl⟩
  split
  · exact .pure _
  · exact .ite (.bind (keeps_runMergeGate happrove hmerge _ _) fun _ => .pure _) (.pure _)

/-- A proposed fix is submitted, and what follows starts no subprocess. -/
theorem proposeFix_log (fixer : Fixer P) (incident : Incident) (solution : Solution) (log : List Call) :
    Submitted (proposeFix fixer incident solution log).2 ∧
      OnlyCalls log (proposeFix fixer incident solution log).2 := by
  let submit : Call := .submitFixPr (solutionFiles fixer.unicode solution)
    ("fix: " ++ incident.title) (incidentBranchName fixer.unicode incident)
  obtain ⟨rest, hrest, heq⟩ := proposeFix_eq (R := OnlyCalls)
    (fun _ _ => onlyCalls_append fun _ h => by cases h)
    (fun _ _ => onlyCalls_append fun _ h => by cases h) fixer incident solution
  have hlog : OnlyCalls (log ++ [submit]) (proposeFix fixer incident solution log).2 := by
    rw [heq]
    exact hrest (log ++ [submit])
  have hsubmit : OnlyCalls log (log ++ [submit]) := onlyCalls_append fun p => by simp [submit]
  exact ⟨⟨_, _, _, hlog.1.subset (List.mem_append_right _ List.mem_cons_self)⟩,
    IsTrans.trans _ _ _ hsubmit hlog⟩

/-- The run of an incident for which a solution was generated: the validation, and then a
proposal if it is valid. -/
theorem handleIncident_log {engine : SandboxEngine} {b : Behaviour} {payload : P}
    {incident : Incident} {solution : Solution} (hparse : fixer.parseIncident payload = .ok incident)
    (hengine : fixer.engineFactory = .ok ()) (hthink : fixer.think (incidentToTask incident) = .ok solution)
    (hfiles : sourcesOf solution ≠ []) :
    (handleIncident fixer engine b payload []).2 =
      (match validateFiles engine b (sourcesOf solution) true [] with
        | (.ok result, processes) =>
          if result.allValid = true then
            (proposeFix fixer incident solution (processes.map .process)).2
          else processes.map .process
        | (.error _, processes) => processes.map .process) := by
  have hblocks : solution.codeBlocks ≠ [] := fun h => hfiles (by rw [sourcesOf, h]; rfl)
  have hvalidate : validateSolution engine b solution true =
      validateFiles engine b (sourcesOf solution) true := by
    rw [validateSolution, if_neg (by simpa using hfiles)]
  rw [handleIncident, hparse, hengine, PyM.bind_apply, PyM.lift_apply]
  dsimp only
  rw [PyM.bind_apply, PyM.lift_apply]
  dsimp only
  rw [hthink]
  dsimp only
  rw [PyM.bind_apply, attempt, sandboxed, hvalidate]
  dsimp only
  -- What the validation raises ends the run with its subprocesses on the log.
  rcases validateFiles engine b (sourcesOf solution) true [] with ⟨e | result, processes⟩
  · rfl
  · by_cases hvalid : result.allValid = true
    · simp only [hvalid, if_true, hblocks, if_false, List.nil_append]
    · simp only [hvalid, List.nil_append]
      rfl

section Solution

variable {engine : SandboxEngine} {b : Behaviour} {payload : P} {incident : Incident}
  {solution : Solution}

/-- A pull request is submitted if and only if the validation returns and no file was rejected. -/
theorem submitted_iff (hparse : fixer.parseIncident payload = .ok incident)
    (hengine : fixer.engineFactory = .ok ())
    (hthink : fixer.think (incidentToTask incident) = .ok solution)
    (hfiles : sourcesOf solution ≠ []) :
    Submitted (handleIncident fixer engine b payload []).2 ↔
      (TestsReached engine b (sourcesOf solution) ∧
        (engine.config.testEnabled = true → ∃ base, b.tests.tmpDir = .ok base)) ∧
      ∀ i f, (sourcesOf solution)[i]? = some f → ¬ Rejected engine b (sourcesOf solution) i f := by
  have hreturns := validateFiles_returns engine b (sourcesOf solution) true []
  have hnone : ∀ processes : List Process, ¬ Submitted (processes.map .process) := by
    rintro processes ⟨files, title, branch, hmem⟩
    obtain ⟨p, -, hp⟩ := List.mem_map.mp hmem
    cases hp
  rw [Bool.true_and] at hreturns
  rw [← hreturns, handleIncident_log hparse hengine hthink hfiles]
  -- A validation that raises is logged and submits nothing; the verdict of one that returns is that
  -- no file was rejected.
  rcases hrun : validateFiles engine b (sourcesOf solution) true [] with ⟨e | result, processes⟩
  · exact iff_of_false (hnone processes) fun h => by obtain ⟨⟨r, hr⟩, -⟩ := h; cases hr
  · dsimp only
    rw [← allValid_iff hrun, and_iff_right ⟨result, rfl⟩]
    by_cases hvalid : result.allValid = true
    · rw [if_pos hvalid]
      exact iff_of_true (proposeFix_log _ _ _ _).1 hvalid
    · rw [if_neg hvalid]
      exact iff_of_false (hnone processes) hvalid

/-- The subprocesses of a fix are those of its validation. -/
theorem process_mem_iff (hparse : fixer.parseIncident payload = .ok incident)
    (hengine : fixer.engineFactory = .ok ())
    (hthink : fixer.think (incidentToTask incident) = .ok solution)
    (hfiles : sourcesOf solution ≠ []) {p : Process} :
    .process p ∈ (handleIncident fixer engine b payload []).2 ↔
      p ∈ (validateFiles engine b (sourcesOf solution) true []).2 := by
  have hmap : ∀ processes : List Process,
      Call.process p ∈ processes.map Call.process ↔ p ∈ processes := by
    intro processes
    rw [List.mem_map]
    exact ⟨fun ⟨q, hq, h⟩ => by cases h; exact hq, fun h => ⟨p, h, rfl⟩⟩
  rw [handleIncident_log hparse hengine hthink hfiles]
  rcases validateFiles engine b (sourcesOf solution) true [] with ⟨e | result, processes⟩
  · exact hmap processes
  · dsimp only
    split
    · obtain ⟨-, hpre, honly⟩ := proposeFix_log fixer incident solution
        (processes.map .process)
      rw [← hmap]
      exact ⟨honly p, fun h => hpre.subset h⟩
    · exact hmap processes

end Solution

end Handle

/-! ## The gate of the tests -/

/-- A pull request is submitted only after `pytest` ran and exited with code 0. -/
def GreenBeforePR (b : Behaviour) (log : List Call) : Prop :=
  Submitted log →
    (∃ disk, .process (.pytest disk) ∈ log) ∧ ∃ output, b.tests.outcome 0 = .exited 0 output

section Gate

variable (engine : SandboxEngine) (b : Behaviour) (files : List SourceFile)

/-- `pytest` is run over the files, and exits with code 0. -/
def TestsGreen : Prop :=
  engine.config.testEnabled = true ∧ (∃ paths, Wrote b.tests files paths) ∧
    ∃ output, b.tests.outcome 0 = .exited 0 output

/-- The files are turned down whatever the tests say: a static check raises, a stage gets no
directory, or a file is rejected by its static checks, its lint run or its run. -/
def TurnedDown : Prop :=
  ¬ TestsReached engine b files ∨
    (engine.config.testEnabled = true ∧ ∀ base, b.tests.tmpDir ≠ .ok base) ∨
    ∃ i f, files[i]? = some f ∧ Rejected engine b files i f

end Gate

/-- **The gate of the tests.** A pull request waits for a green test run if and only if the tests
are green anyway, or the solution is turned down for another reason. That is, nothing is gained by
the gate: the outcome of the tests decides nothing. -/
theorem greenBeforePR_iff {P : Type} (fixer : Fixer P) (engine : SandboxEngine) (b : Behaviour)
    (payload : P) (incident : Incident) (solution : Solution)
    (hparse : fixer.parseIncident payload = .ok incident)
    (hengine : fixer.engineFactory = .ok ())
    (hthink : fixer.think (incidentToTask incident) = .ok solution)
    (htest : ∃ f ∈ sourcesOf solution, f.isTest = true) :
    GreenBeforePR b (handleIncident fixer engine b payload []).2 ↔
      TestsGreen engine b (sourcesOf solution) ∨ TurnedDown engine b (sourcesOf solution) := by
  obtain ⟨f, hf, hisTest⟩ := htest
  have hfiles : sourcesOf solution ≠ [] := List.ne_nil_of_mem hf
  rw [GreenBeforePR, submitted_iff hparse hengine hthink hfiles]
  have hpytest : ∀ disk, .process (.pytest disk) ∈ (handleIncident fixer engine b payload []).2 ↔
      Starts engine b (sourcesOf solution) true (.pytest disk) := fun disk =>
    (process_mem_iff hparse hengine hthink hfiles).trans (mem_log_iff rfl)
  constructor
  · intro hgreen
    by_cases hdown : TurnedDown engine b (sourcesOf solution)
    · exact .inr hdown
    · obtain ⟨hreached, hdir, hpassed⟩ : TestsReached engine b (sourcesOf solution) ∧
          (engine.config.testEnabled = true → ∃ base, b.tests.tmpDir = .ok base) ∧
          ∀ i f, (sourcesOf solution)[i]? = some f →
            ¬ Rejected engine b (sourcesOf solution) i f := by
        rw [TurnedDown] at hdown
        push Not at hdown
        exact hdown
      -- nothing turned the fix down, so there is a pull request and a test run before it
      obtain ⟨⟨disk, hmem⟩, hexit⟩ := hgreen ⟨⟨hreached, hdir⟩, hpassed⟩
      have hstarts := (hpytest disk).mp hmem
      cases hstarts with
      | pytest _ henabled hwrote _ _ _ => exact .inl ⟨henabled.2, ⟨_, hwrote⟩, hexit⟩
  · rintro (⟨henabled, ⟨paths, hwrote⟩, output, hexit⟩ | hdown) ⟨⟨hreached, hdir⟩, hpassed⟩
    · have hstarts : Starts engine b (sourcesOf solution) true
          (.pytest (diskOf (sourcesOf solution) paths)) :=
        .pytest hreached ⟨rfl, henabled⟩ hwrote hf hisTest (by rw [hexit]; rfl)
      exact ⟨⟨_, (hpytest _).mpr hstarts⟩, output, hexit⟩
    -- each of these keeps the fix from the pull request
    · rcases hdown with hnot | ⟨henabled, hnone⟩ | ⟨i, f, hi, hrejected⟩
      · exact absurd hreached hnot
      · obtain ⟨base, hbase⟩ := hdir henabled
        exact absurd hbase (hnone base)
      · exact absurd hrejected (hpassed i f hi)

/-- A program with a test. -/
def testedSolution : Solution where
  taskId := "t"
  title := "fix"
  summary := "fix"
  codeBlocks := [⟨"main.py", "python", "print(1)", ""⟩, ⟨"test_main.py", "python", "assert 0", ""⟩]

/-- A fixer whose engine always answers with that program. -/
def promptFixer : Fixer Unit where
  parseIncident _ := .ok ⟨"i1", "Crash", "", "", []⟩
  engineFactory := .ok ()
  think _ := .ok testedSolution
  submitFixPr files _ branch := .ok ⟨branch, 1, "pull/1", files.length⟩
  gateRunner _ := .ok ⟨true, []⟩
  approvePr := .ok ()
  mergePr := .ok (true, "sha")
  autoApprove := false
  autoMerge := false
  unicode := .ascii

/-- Every subprocess exits with code 0 but `pytest`, which reports a failed test. -/
def redTests : Behaviour :=
  { smooth with tests := { smooth.tests with outcome := fun _ => .exited 1 "1 failed" } }

theorem promptFixer_greenBeforePR_iff :
    GreenBeforePR redTests (handleIncident promptFixer lenientEngine redTests () []).2 ↔
      TestsGreen lenientEngine redTests (sourcesOf testedSolution) ∨
        TurnedDown lenientEngine redTests (sourcesOf testedSolution) :=
  greenBeforePR_iff promptFixer lenientEngine redTests () _ testedSolution rfl rfl rfl
    ⟨_, List.mem_cons_of_mem _ List.mem_cons_self, by decide +kernel⟩

/-- The test fails, and the pull request is submitted. -/
theorem redTests_submitted :
    ¬ GreenBeforePR redTests (handleIncident promptFixer lenientEngine redTests () []).2 := by
  have hsubmitted : Call.submitFixPr [("main.py", "print(1)"), ("test_main.py", "assert 0")]
      "fix: Crash" "noema-fix/i1-crash" ∈
        (handleIncident promptFixer lenientEngine redTests () []).2 := by decide +kernel
  intro hgreen
  obtain ⟨-, output, houtput⟩ := hgreen ⟨_, _, _, hsubmitted⟩
  cases houtput

end Noema.Autonomy
