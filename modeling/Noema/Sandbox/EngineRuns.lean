import Noema.Sandbox.Engine

/-!
# Validations (`SandboxEngine.validate_files`)

A stage changes the verdict of each file on its own, so the verdict that a file gets is that of its
static checks with the outcome of its lint run and of its run put into it (`lint_files`,
`runCode_files`); the tests do not touch the verdicts of the files (`runTests_files`).

- `Flags`: the flags of the files up to a stage, in terms of what was run for each. Every stage has
  a rule that extends them, and `validateFiles_flags` chains the rules.
- `LintRun`, `PythonRun`: the runs that a file got, with what the file that they were given holds
  and how they ended.
- **`allValid_iff`**: a result is valid as a whole if and only if no file was rejected: it parses,
  the static pass is silent, and neither its lint run nor its run has ended badly.
- `Conclusive`: no outcome is missing for a file: it is analyzed, and a lint run and a run that are
  given its content end with a code.
- **`failClosed_iff`**: with lint and execution enabled, what a valid result says was shown of every
  Python file, if and only if some file was rejected or no outcome is missing.
- `fullDisk_not_failClosed`: no file can be written, so nothing is run, and the result is valid.
-/

namespace Noema.Sandbox

open Noema.Lib Noema.Neurosymbolic

/-! ## Stages -/

/-- The files were written to these paths. -/
def Wrote (sb : StageBehaviour) (files : List SourceFile) (paths : List RelPath) : Prop :=
  ∃ base, sb.tmpDir = .ok base ∧ writeFiles base sb.writeError files = .ok paths

theorem withFiles_cases {sb : StageBehaviour} {files : List SourceFile}
    {result result' : SandboxResult} {stage : List RelPath → PyM (List Process) SandboxResult}
    {log log' : List Process}
    (h : withFiles sb files result stage log = (.ok result', log')) :
    (∃ paths, Wrote sb files paths ∧ stage paths log = (.ok result', log')) ∨
      ((∀ paths, ¬ Wrote sb files paths) ∧ result' = result ∧ log' = log) := by
  rw [withFiles, PyM.bind_apply, PyM.lift_apply] at h
  rcases hbase : sb.tmpDir with e | base
  · rw [hbase] at h
    cases h
  · rw [hbase] at h
    rcases hpaths : writeFiles base sb.writeError files with e | paths
    · simp only [hpaths] at h
      cases h
      refine .inr ⟨?_, rfl, rfl⟩
      rintro paths ⟨base', hbase', hwrote⟩
      rw [hbase] at hbase'
      cases hbase'
      rw [hpaths] at hwrote
      cases hwrote
    · simp only [hpaths] at h
      exact .inl ⟨paths, ⟨base, hbase, hpaths⟩, h⟩

theorem stageIf_true (stage : PyM (List Process) SandboxResult) (result : SandboxResult) :
    stageIf true stage result = stage := rfl

theorem stageIf_cases {enabled : Bool} {stage : PyM (List Process) SandboxResult}
    {result result' : SandboxResult} {log log' : List Process}
    (h : stageIf enabled stage result log = (.ok result', log')) :
    (enabled = true ∧ stage log = (.ok result', log')) ∨
      (enabled = false ∧ result' = result ∧ log' = log) := by
  cases enabled with
  | true => exact .inl ⟨rfl, h⟩
  | false =>
    cases h
    exact .inr ⟨rfl, rfl, rfl⟩

theorem Wrote.unique {sb : StageBehaviour} {files : List SourceFile} {paths paths' : List RelPath}
    (h : Wrote sb files paths) (h' : Wrote sb files paths') : paths = paths' := by
  obtain ⟨base, hbase, hpaths⟩ := h
  obtain ⟨base', hbase', hpaths'⟩ := h'
  rw [hbase] at hbase'
  cases hbase'
  rw [hpaths] at hpaths'
  cases hpaths'
  rfl

theorem mem_indicesWhere {files : List SourceFile} {paths : List RelPath}
    {p : Nat → SourceFile → RelPath → Bool} {i : Nat} {path : RelPath} :
    (i, path) ∈ indicesWhere files paths p ↔
      ∃ f, files[i]? = some f ∧ paths[i]? = some path ∧ p i f path = true := by
  simp only [indicesWhere, List.mem_filterMap, Prod.exists, List.mem_zipIdx_iff_getElem?,
    List.getElem?_zip_eq_some]
  constructor
  · rintro ⟨f, path', j, ⟨hf, hpath⟩, h⟩
    split at h
    next hp =>
      cases h
      exact ⟨f, hf, hpath, hp⟩
    next => cases h
  · rintro ⟨f, hf, hpath, hp⟩
    exact ⟨f, path, i, ⟨hf, hpath⟩, by rw [if_pos hp]⟩

theorem mem_indices {files : List SourceFile} {paths : List RelPath}
    {p : Nat → SourceFile → RelPath → Bool} {i : Nat} {f : SourceFile} (hf : files[i]? = some f) :
    i ∈ (indicesWhere files paths p).map Prod.fst ↔
      ∃ path, paths[i]? = some path ∧ p i f path = true := by
  rw [List.mem_map]
  constructor
  · rintro ⟨⟨j, path⟩, hmem, rfl⟩
    obtain ⟨f', hf', hpath, hp⟩ := mem_indicesWhere.mp hmem
    rw [hf] at hf'
    cases hf'
    exact ⟨path, hpath, hp⟩
  · rintro ⟨path, hpath, hp⟩
    exact ⟨(i, path), mem_indicesWhere.mpr ⟨f, hf, hpath, hp⟩, rfl⟩

/-! ## Runs of subprocesses -/

section Runs

variable (engine : SandboxEngine) (b : Behaviour) (files : List SourceFile)

/-- The static pass reports an issue in the file. -/
def Flagged (f : SourceFile) : Prop :=
  f.language = "python" ∧ engine.check.parse f.content = .ok none ∧
    engine.config.staticCheckEnabled = true ∧ ∃ issue issues,
      engine.check.analyzeCode f.content (allowedImports engine.stdlib engine.config files) =
        .ok (issue :: issues)

/-- The file does not parse. -/
def Unparsed (f : SourceFile) : Prop :=
  f.language = "python" ∧ ∃ error, engine.check.parse f.content = .ok (some error)

/-- The lint run of a file: `subject` is what the file that it is given holds, `o` is how it ends.
-/
def LintRun (i : Nat) (f : SourceFile) (subject : Option String) (o : Outcome) : Prop :=
  ∃ paths path, Wrote b.lint files paths ∧ files[i]? = some f ∧ paths[i]? = some path ∧
    isLinted f path = true ∧ lintReached (pickEnv b) b.lint files paths i = true ∧
    subject = (diskOf files paths).lookup ((pickEnv b).target path) ∧ o = b.lint.outcome i

/-- The run of a file: `subject` is what the file that it is given holds, `o` is how it ends. -/
def PythonRun (i : Nat) (f : SourceFile) (subject : Option String) (o : Outcome) : Prop :=
  ∃ paths path, Wrote b.run files paths ∧ files[i]? = some f ∧ paths[i]? = some path ∧
    f.language = "python" ∧ ¬ Flagged engine files f ∧
    subject = (diskOf files paths).lookup ((pickEnv b).target path) ∧ o = b.run.outcome i

/-- The outcome of a lint run that clears the flag of its file. -/
def clearsLint : Environment → Outcome → Bool
  | _, .exited code _ => code != 0
  | .docker, .timedOut => true
  | .local, .timedOut => false
  | _, .raised _ _ => false

/-- The outcome of a run that clears the flag of its file. -/
def clearsRun : Outcome → Bool
  | .exited code _ => code != 0
  | _ => true

/-- A file is rejected: it does not parse, the static pass reports an issue in it, or its lint
run or its run has an outcome that clears its flag. -/
def Rejected (i : Nat) (f : SourceFile) : Prop :=
  Unparsed engine f ∨ Flagged engine files f ∨
    (engine.config.lintEnabled = true ∧
      ∃ subject o, LintRun b files i f subject o ∧ clearsLint (pickEnv b) o = true) ∨
    (engine.config.runEnabled = true ∧
      ∃ subject o, PythonRun engine b files i f subject o ∧ clearsRun o = true)

end Runs

/-! ## The verdict of one file -/

/-- The lint stage changes the verdict of a file by the outcome of its lint run. -/
theorem lint_files {b : Behaviour} {files : List SourceFile} {result result' : SandboxResult}
    {log log' : List Process} (h : lint (pickEnv b) b.lint files result log = (.ok result', log'))
    {i : Nat} {f : SourceFile} {vr : CodeValidationResult} (hf : files[i]? = some f)
    (hvr : result.files[i]? = some vr) :
    (∃ subject o, LintRun b files i f subject o ∧ result'.files[i]? = some (vr.lint (pickEnv b) o)) ∨
      (∀ subject o, ¬ LintRun b files i f subject o) ∧ result'.files[i]? = some vr := by
  rcases withFiles_cases h with ⟨paths, hwrote, h⟩ | ⟨hnone, rfl, -⟩
  · cases h
    simp only [List.getElem?_mapIdx, hvr, Option.map_some]
    split
    next hmem =>
      obtain ⟨path, hpath, hp⟩ := (mem_indices hf).mp hmem
      rw [Bool.and_eq_true] at hp
      exact .inl ⟨_, _, ⟨paths, path, hwrote, hf, hpath, hp.1, hp.2, rfl, rfl⟩, rfl⟩
    next hmem =>
      refine .inr ⟨?_, rfl⟩
      rintro subject o ⟨paths', path, hwrote', -, hpath, hlinted, hreached, -, -⟩
      obtain rfl := hwrote.unique hwrote'
      refine hmem ((mem_indices hf).mpr ⟨path, hpath, ?_⟩)
      rw [hlinted, hreached]
      rfl
  · refine .inr ⟨?_, hvr⟩
    rintro subject o ⟨paths, path, hwrote, -⟩
    exact hnone paths hwrote

/-- The run stage changes the verdict of a file by the outcome of its run. -/
theorem runCode_files {engine : SandboxEngine} {b : Behaviour} {files : List SourceFile}
    {result result' : SandboxResult} {log log' : List Process}
    (h : runCode (pickEnv b) engine.config b.run files result log = (.ok result', log'))
    {i : Nat} {f : SourceFile} {vr : CodeValidationResult} (hf : files[i]? = some f)
    (hvr : result.files[i]? = some vr)
    (hstatic : vr.staticPassed = true ↔ ¬ Flagged engine files f) :
    (∃ subject o, PythonRun engine b files i f subject o ∧
        result'.files[i]? = some (vr.run engine.config o)) ∨
      (∀ subject o, ¬ PythonRun engine b files i f subject o) ∧ result'.files[i]? = some vr := by
  have hat : staticPassedAt result i = vr.staticPassed := by
    rw [staticPassedAt, hvr]
    rfl
  rcases withFiles_cases h with ⟨paths, hwrote, h⟩ | ⟨hnone, rfl, -⟩
  · cases h
    simp only [List.getElem?_mapIdx, hvr, Option.map_some]
    split
    next hmem =>
      obtain ⟨path, hpath, hp⟩ := (mem_indices hf).mp hmem
      rw [Bool.and_eq_true, hat, hstatic, beq_iff_eq] at hp
      exact .inl ⟨_, _, ⟨paths, path, hwrote, hf, hpath, hp.1, hp.2, rfl, rfl⟩, rfl⟩
    next hmem =>
      -- the file is not Python, or the static pass found something in it
      refine .inr ⟨?_, rfl⟩
      rintro subject o ⟨paths', path, hwrote', -, hpath, hpython, hflagged, -, -⟩
      obtain rfl := hwrote.unique hwrote'
      refine hmem ((mem_indices hf).mpr ⟨path, hpath, ?_⟩)
      rw [Bool.and_eq_true, hat, hstatic, beq_iff_eq]
      exact ⟨hpython, hflagged⟩
  · refine .inr ⟨?_, hvr⟩
    rintro subject o ⟨paths, path, hwrote, -⟩
    exact hnone paths hwrote

/-- The tests do not touch the verdicts of the files. -/
theorem runTests_files {u : Unicode} {digit : Char → Nat} {sb : StageBehaviour}
    {files : List SourceFile} {result result' : SandboxResult} {log log' : List Process}
    (h : runTests u digit sb files result log = (.ok result', log')) :
    result'.files = result.files := by
  rw [runTests] at h
  split at h
  · rw [PyM.bind_apply, PyM.lift_apply] at h
    rcases hbase : sb.tmpDir with e | base
    · rw [hbase] at h
      cases h
    · rw [hbase] at h
      cases h
      rfl
  · rcases withFiles_cases h with ⟨paths, -, h⟩ | ⟨-, rfl, -⟩
    · rcases ho : sb.outcome 0 with ⟨code, output⟩ | _ | ⟨started, e⟩
      · simp only [ho, Outcome.isStarted] at h
        cases h
        rfl
      · simp only [ho, Outcome.isStarted] at h
        cases h
        rfl
      · rcases started with _ | _
        all_goals
          simp only [ho, Outcome.isStarted] at h
          cases h
          rfl
    · rfl

/-- What the static checks say about a file. -/
theorem validateCodeBlock_spec {engine : SandboxEngine} {files : List SourceFile}
    {f : SourceFile} {vr : CodeValidationResult}
    (h : validateCodeBlock engine.check engine.config
      (allowedImports engine.stdlib engine.config files) f = .ok vr) :
    (vr.astValid = true ↔ ¬ Unparsed engine f) ∧ (vr.staticPassed = true ↔ ¬ Flagged engine files f) ∧
      vr.lintPassed = true ∧ vr.runPassed = true := by
  rw [validateCodeBlock] at h
  by_cases hlang : f.language = "python"
  · simp only [hlang, if_true] at h
    obtain ⟨parsed, hparse, h⟩ := bind_eq_ok h
    -- a syntax error ends the checks of the file
    rcases parsed with _ | error
    · by_cases hcheck : engine.config.staticCheckEnabled = true
      · simp only [hcheck, if_true] at h
        obtain ⟨issues, hissues, h⟩ := bind_eq_ok h
        cases h
        rcases issues with _ | ⟨issue, issues⟩
        · simp [Unparsed, Flagged, hparse, hissues]
        · simp [Unparsed, Flagged, hparse, hissues, hlang, hcheck]
      · simp only [hcheck] at h
        cases h
        simp [Unparsed, Flagged, hparse, hcheck]
    · cases h
      simp [Unparsed, Flagged, hparse, hlang]
  · simp only [hlang, if_false] at h
    cases h
    simp [Unparsed, Flagged, hlang]

/-! ## The verdict of a validation -/

theorem LintRun.outcome_eq {b : Behaviour} {files : List SourceFile} {i : Nat} {f : SourceFile}
    {subject : Option String} {o : Outcome} (h : LintRun b files i f subject o) :
    o = b.lint.outcome i := by
  obtain ⟨_, _, _, _, _, _, _, _, ho⟩ := h
  exact ho

theorem PythonRun.outcome_eq {engine : SandboxEngine} {b : Behaviour} {files : List SourceFile}
    {i : Nat} {f : SourceFile} {subject : Option String} {o : Outcome}
    (h : PythonRun engine b files i f subject o) : o = b.run.outcome i := by
  obtain ⟨_, _, _, _, _, _, _, _, ho⟩ := h
  exact ho

theorem lintPassed_lint (vr : CodeValidationResult) (env : Environment) (o : Outcome) :
    (vr.lint env o).lintPassed = (vr.lintPassed && !clearsLint env o) := by
  rcases o with ⟨code, output⟩ | _ | ⟨started, e⟩
  · by_cases hcode : code = 0 <;> simp [CodeValidationResult.lint, clearsLint, hcode]
  · cases env <;> simp [CodeValidationResult.lint, clearsLint]
  · simp [CodeValidationResult.lint, clearsLint]

/-- A lint run changes no other flag. -/
theorem flags_lint (vr : CodeValidationResult) (env : Environment) (o : Outcome) :
    (vr.lint env o).astValid = vr.astValid ∧ (vr.lint env o).staticPassed = vr.staticPassed ∧
      (vr.lint env o).runPassed = vr.runPassed := by
  rcases o with ⟨code, output⟩ | _ | ⟨started, e⟩
  · by_cases hcode : code = 0 <;> simp [CodeValidationResult.lint, hcode]
  · cases env <;> simp [CodeValidationResult.lint]
  · simp [CodeValidationResult.lint]

theorem runPassed_run (vr : CodeValidationResult) (cfg : SandboxConfig) (o : Outcome) :
    (vr.run cfg o).runPassed = !clearsRun o := by
  rcases o with ⟨code, output⟩ | _ | ⟨started, e⟩
  · by_cases hcode : code = 0 <;> simp [CodeValidationResult.run, clearsRun, hcode]
  · rfl
  · rfl

/-- A run changes no other flag. -/
theorem flags_run (vr : CodeValidationResult) (cfg : SandboxConfig) (o : Outcome) :
    (vr.run cfg o).astValid = vr.astValid ∧ (vr.run cfg o).staticPassed = vr.staticPassed ∧
      (vr.run cfg o).lintPassed = vr.lintPassed := by
  rcases o with ⟨code, output⟩ | _ | ⟨started, e⟩
  · by_cases hcode : code = 0 <;> simp [CodeValidationResult.run, hcode]
  · exact ⟨rfl, rfl, rfl⟩
  · exact ⟨rfl, rfl, rfl⟩

/-- The flags of the files up to a stage. -/
structure Flags (engine : SandboxEngine) (files : List SourceFile) (lintOk runOk : Nat → Prop)
    (result : SandboxResult) : Prop where
  length : result.files.length = files.length
  flags : ∀ i f, files[i]? = some f → ∃ vr, result.files[i]? = some vr ∧
    (vr.astValid = true ↔ ¬ Unparsed engine f) ∧
    (vr.staticPassed = true ↔ ¬ Flagged engine files f) ∧
    (vr.lintPassed = true ↔ lintOk i) ∧ (vr.runPassed = true ↔ runOk i)

section Validate

variable {engine : SandboxEngine} {b : Behaviour} {files : List SourceFile}
  {result result' : SandboxResult} {log log' : List Process}

theorem flags_checked {checked : List CodeValidationResult}
    (h : files.mapM (validateCodeBlock engine.check engine.config
      (allowedImports engine.stdlib engine.config files)) = .ok checked) :
    Flags engine files (fun _ => True) (fun _ => True) { files := checked } := by
  have hall := mapM_eq_ok h
  refine ⟨hall.length_eq.symm, fun i f hf => ?_⟩
  obtain ⟨hi, rfl⟩ := List.getElem?_eq_some_iff.mp hf
  have hi' : i < checked.length := hall.length_eq ▸ hi
  obtain ⟨hast, hstatic, hlint, hrun⟩ := validateCodeBlock_spec (hall.get hi hi')
  exact ⟨_, List.getElem?_eq_getElem hi', hast, hstatic, by simpa using hlint, by simpa using hrun⟩

theorem length_files_lint {env : Environment} {sb : StageBehaviour}
    (h : lint env sb files result log = (.ok result', log')) :
    result'.files.length = result.files.length := by
  rcases withFiles_cases h with ⟨paths, -, h⟩ | ⟨-, rfl, -⟩
  · cases h
    exact List.length_mapIdx
  · rfl

theorem length_files_runCode {env : Environment} {cfg : SandboxConfig} {sb : StageBehaviour}
    (h : runCode env cfg sb files result log = (.ok result', log')) :
    result'.files.length = result.files.length := by
  rcases withFiles_cases h with ⟨paths, -, h⟩ | ⟨-, rfl, -⟩
  · cases h
    exact List.length_mapIdx
  · rfl

/-- The lint run of the file with the index clears no flag. -/
def LintOk (engine : SandboxEngine) (b : Behaviour) (files : List SourceFile) (i : Nat) : Prop :=
  ¬ (engine.config.lintEnabled = true ∧ ∃ f subject o, LintRun b files i f subject o ∧
    clearsLint (pickEnv b) o = true)

/-- The run of the file with the index clears no flag. -/
def RunOk (engine : SandboxEngine) (b : Behaviour) (files : List SourceFile) (i : Nat) : Prop :=
  ¬ (engine.config.runEnabled = true ∧ ∃ f subject o, PythonRun engine b files i f subject o ∧
    clearsRun o = true)

theorem Flags.lint (hflags : Flags engine files (fun _ => True) (fun _ => True) result)
    (h : stageIf engine.config.lintEnabled (lint (pickEnv b) b.lint files result) result log =
      (.ok result', log')) :
    Flags engine files (LintOk engine b files) (fun _ => True) result' := by
  rcases stageIf_cases h with ⟨henabled, h⟩ | ⟨henabled, rfl, rfl⟩
  · refine ⟨(length_files_lint h).trans hflags.length, fun i f hf => ?_⟩
    obtain ⟨vr, hvr, hast, hstatic, hlint, hrun⟩ := hflags.flags i f hf
    have hpassed : vr.lintPassed = true := hlint.mpr trivial
    -- the file was linted in this stage, or the stage did not reach it
    rcases lint_files h hf hvr with ⟨subject, o, hrunOf, hvr'⟩ | ⟨hnone, hvr'⟩
    · obtain ⟨hast', hstatic', hrun'⟩ := flags_lint vr (pickEnv b) o
      refine ⟨_, hvr', hast' ▸ hast, hstatic' ▸ hstatic, ?_, hrun' ▸ hrun⟩
      rw [lintPassed_lint, hpassed, Bool.true_and, Bool.not_eq_true', ← Bool.not_eq_true, LintOk,
        not_iff_not]
      constructor
      · intro hclears
        exact ⟨henabled, f, subject, o, hrunOf, hclears⟩
      · rintro ⟨-, f', subject', o', hrunOf', hclears⟩
        rw [hrunOf.outcome_eq, ← hrunOf'.outcome_eq]
        exact hclears
    · refine ⟨vr, hvr', hast, hstatic, ?_, hrun⟩
      refine iff_of_true hpassed ?_
      rintro ⟨-, f', subject, o, hrunOf, -⟩
      obtain ⟨paths, path, hwrote, hf', hrest⟩ := hrunOf
      exact hnone subject o ⟨paths, path, hwrote, hf, by rw [hf] at hf'; cases hf'; exact hrest⟩
  · refine ⟨hflags.length, fun i f hf => ?_⟩
    obtain ⟨vr, hvr, hast, hstatic, hlint, hrun⟩ := hflags.flags i f hf
    refine ⟨vr, hvr, hast, hstatic, hlint.trans ?_, hrun⟩
    exact iff_of_true trivial fun hbad => Bool.false_ne_true (henabled.symm.trans hbad.1)

theorem Flags.run (hflags : Flags engine files (LintOk engine b files) (fun _ => True) result)
    (h : stageIf engine.config.runEnabled
      (runCode (pickEnv b) engine.config b.run files result) result log = (.ok result', log')) :
    Flags engine files (LintOk engine b files) (RunOk engine b files) result' := by
  rcases stageIf_cases h with ⟨henabled, h⟩ | ⟨henabled, rfl, rfl⟩
  · refine ⟨(length_files_runCode h).trans hflags.length, fun i f hf => ?_⟩
    obtain ⟨vr, hvr, hast, hstatic, hlint, hrun⟩ := hflags.flags i f hf
    rcases runCode_files h hf hvr hstatic with ⟨subject, o, hrunOf, hvr'⟩ | ⟨hnone, hvr'⟩
    · obtain ⟨hast', hstatic', hlint'⟩ := flags_run vr engine.config o
      refine ⟨_, hvr', hast' ▸ hast, hstatic' ▸ hstatic, hlint' ▸ hlint, ?_⟩
      rw [runPassed_run, Bool.not_eq_true', ← Bool.not_eq_true, RunOk, not_iff_not]
      constructor
      · intro hclears
        exact ⟨henabled, f, subject, o, hrunOf, hclears⟩
      · rintro ⟨-, f', subject', o', hrunOf', hclears⟩
        rw [hrunOf.outcome_eq, ← hrunOf'.outcome_eq]
        exact hclears
    · refine ⟨vr, hvr', hast, hstatic, hlint, ?_⟩
      refine iff_of_true (hrun.mpr trivial) ?_
      rintro ⟨-, f', subject, o, hrunOf, -⟩
      obtain ⟨paths, path, hwrote, hf', hrest⟩ := hrunOf
      exact hnone subject o ⟨paths, path, hwrote, hf, by rw [hf] at hf'; cases hf'; exact hrest⟩
  · refine ⟨hflags.length, fun i f hf => ?_⟩
    obtain ⟨vr, hvr, hast, hstatic, hlint, hrun⟩ := hflags.flags i f hf
    refine ⟨vr, hvr, hast, hstatic, hlint, hrun.trans ?_⟩
    exact iff_of_true trivial fun hbad => Bool.false_ne_true (henabled.symm.trans hbad.1)

theorem Flags.tests {withTests : Bool} {lintOk runOk : Nat → Prop}
    (hflags : Flags engine files lintOk runOk result)
    (h : stageIf (withTests && engine.config.testEnabled)
      (runTests engine.unicode engine.digit b.tests files result) result log =
        (.ok result', log')) : Flags engine files lintOk runOk result' := by
  have hfiles : result'.files = result.files := by
    rcases stageIf_cases h with ⟨-, h⟩ | ⟨-, rfl, -⟩
    · exact runTests_files h
    · rfl
  exact ⟨hfiles ▸ hflags.length, hfiles ▸ hflags.flags⟩

theorem not_rejected_iff {i : Nat} {f : SourceFile} (hf : files[i]? = some f) :
    ¬ Rejected engine b files i f ↔ ¬ Unparsed engine f ∧ ¬ Flagged engine files f ∧
      LintOk engine b files i ∧ RunOk engine b files i := by
  have hlint : LintOk engine b files i ↔ ¬ (engine.config.lintEnabled = true ∧
      ∃ subject o, LintRun b files i f subject o ∧ clearsLint (pickEnv b) o = true) := by
    rw [LintOk, not_iff_not]
    refine and_congr_right fun _ => ⟨?_, fun ⟨subject, o, h⟩ => ⟨f, subject, o, h⟩⟩
    rintro ⟨f', subject, o, hrun, hclears⟩
    obtain ⟨paths, path, hwrote, hf', hrest⟩ := hrun
    rw [hf] at hf'
    cases hf'
    exact ⟨subject, o, ⟨paths, path, hwrote, hf, hrest⟩, hclears⟩
  have hrun : RunOk engine b files i ↔ ¬ (engine.config.runEnabled = true ∧
      ∃ subject o, PythonRun engine b files i f subject o ∧ clearsRun o = true) := by
    rw [RunOk, not_iff_not]
    refine and_congr_right fun _ => ⟨?_, fun ⟨subject, o, h⟩ => ⟨f, subject, o, h⟩⟩
    rintro ⟨f', subject, o, hrun, hclears⟩
    obtain ⟨paths, path, hwrote, hf', hrest⟩ := hrun
    rw [hf] at hf'
    cases hf'
    exact ⟨subject, o, ⟨paths, path, hwrote, hf, hrest⟩, hclears⟩
  rw [Rejected, not_or, not_or, not_or, hlint, hrun]

/-- The flags of the files of a validation, and what it says of them all. -/
theorem validateFiles_flags {withTests : Bool}
    (h : validateFiles engine b files withTests log = (.ok result, log')) :
    Flags engine files (LintOk engine b files) (RunOk engine b files) result ∧
      result.allValid = result.files.all CodeValidationResult.valid := by
  rw [validateFiles] at h
  obtain ⟨checked, log₁, hchecked, h⟩ := PyM.bind_inv h
  obtain ⟨linted, log₂, hlinted, h⟩ := PyM.bind_inv h
  obtain ⟨ran, log₃, hran, h⟩ := PyM.bind_inv h
  obtain ⟨tested, log₄, htested, h⟩ := PyM.bind_inv h
  rw [PyM.lift_apply, Prod.mk.injEq] at hchecked
  -- the flags of the static checks, then those of the lint runs, the runs and the tests
  have hflags := (((flags_checked hchecked.1).lint hlinted).run hran).tests htested
  cases h
  exact ⟨⟨hflags.length, hflags.flags⟩, rfl⟩

/-- A validation is valid if and only if no file was rejected. -/
theorem allValid_iff {withTests : Bool}
    (h : validateFiles engine b files withTests log = (.ok result, log')) :
    result.allValid = true ↔ ∀ i f, files[i]? = some f → ¬ Rejected engine b files i f := by
  obtain ⟨hflags, hvalid⟩ := validateFiles_flags h
  rw [hvalid, List.all_eq_true]
  constructor
  · intro hall i f hf
    obtain ⟨vr, hvr, hast, hstatic, hlint, hrun⟩ := hflags.flags i f hf
    have hvalid := hall vr (List.mem_of_getElem? hvr)
    simp only [CodeValidationResult.valid, Bool.and_eq_true] at hvalid
    rw [not_rejected_iff hf, ← hast, ← hstatic, ← hlint, ← hrun]
    exact ⟨hvalid.1.1.1, hvalid.1.1.2, hvalid.1.2, hvalid.2⟩
  · intro hall vr hmem
    obtain ⟨i, hi, rfl⟩ := List.getElem_of_mem hmem
    have hi' : i < files.length := hflags.length ▸ hi
    obtain ⟨vr, hvr, hast, hstatic, hlint, hrun⟩ :=
      hflags.flags i _ (List.getElem?_eq_getElem hi')
    have hok := hall i _ (List.getElem?_eq_getElem hi')
    rw [not_rejected_iff (List.getElem?_eq_getElem hi'), ← hast, ← hstatic, ← hlint, ← hrun] at hok
    rw [List.getElem?_eq_getElem hi] at hvr
    cases hvr
    simp only [CodeValidationResult.valid, Bool.and_eq_true]
    exact ⟨⟨⟨hok.1, hok.2.1⟩, hok.2.2.1⟩, hok.2.2.2⟩

/-- A Python file that was checked was parsed, and analyzed if it was to be. -/
theorem validateCodeBlock_python {f : SourceFile} {vr : CodeValidationResult}
    (h : validateCodeBlock engine.check engine.config
      (allowedImports engine.stdlib engine.config files) f = .ok vr)
    (hpython : f.language = "python") :
    ∃ parsed, engine.check.parse f.content = .ok parsed ∧
      (parsed = none → engine.config.staticCheckEnabled = true → ∃ issues,
        engine.check.analyzeCode f.content
          (allowedImports engine.stdlib engine.config files) = .ok issues) := by
  simp only [validateCodeBlock, hpython, if_true] at h
  obtain ⟨parsed, hparse, h⟩ := bind_eq_ok h
  refine ⟨parsed, hparse, ?_⟩
  rintro rfl henabled
  simp only [henabled, if_true] at h
  obtain ⟨issues, hissues, -⟩ := bind_eq_ok h
  exact ⟨issues, hissues⟩

/-- Every file of a validation that returned was checked. -/
theorem checked_of_mem {withTests : Bool}
    (h : validateFiles engine b files withTests log = (.ok result, log')) {i : Nat}
    {f : SourceFile} (hf : files[i]? = some f) :
    ∃ vr, validateCodeBlock engine.check engine.config
      (allowedImports engine.stdlib engine.config files) f = .ok vr := by
  rw [validateFiles] at h
  obtain ⟨checked, log₁, hchecked, -⟩ := PyM.bind_inv h
  rw [PyM.lift_apply, Prod.mk.injEq] at hchecked
  have hall := mapM_eq_ok hchecked.1
  obtain ⟨hi, rfl⟩ := List.getElem?_eq_some_iff.mp hf
  exact ⟨_, hall.get hi (hall.length_eq ▸ hi)⟩

end Validate

/-! ## Fail-closed validation -/

/-- A Python file: its language is Python and its path ends in `.py`. -/
def IsPython (f : SourceFile) : Prop :=
  f.language = "python" ∧ ".py".toList <:+ f.path.toList

section FailClosed

variable (engine : SandboxEngine) (b : Behaviour) (files : List SourceFile)

/-- What a valid result is to have shown of a Python file: it parses, the static pass reports no
issue, and a lint run and a run that were given its content ended with exit code 0. -/
structure Shown (i : Nat) (f : SourceFile) : Prop where
  parses : engine.check.parse f.content = .ok none
  noIssue : engine.check.analyzeCode f.content
    (allowedImports engine.stdlib engine.config files) = .ok []
  linted : ∃ output, LintRun b files i f (some f.content) (.exited 0 output)
  ran : ∃ output, PythonRun engine b files i f (some f.content) (.exited 0 output)

/-- The validation is fail-closed: a valid result has shown it of every Python file. -/
def FailClosed (result : SandboxResult) : Prop :=
  result.allValid = true → ∀ i f, files[i]? = some f → IsPython f → Shown engine b files i f

/-- No outcome is missing for a file: it is analyzed, and a lint run and a run that are given its
content end with an exit code. -/
structure Conclusive (i : Nat) (f : SourceFile) : Prop where
  analyzed : engine.config.staticCheckEnabled = true ∨ engine.check.analyzeCode f.content
    (allowedImports engine.stdlib engine.config files) = .ok []
  linted : ∃ code output, LintRun b files i f (some f.content) (.exited code output)
  ran : ∃ code output, PythonRun engine b files i f (some f.content) (.exited code output)

end FailClosed

/-- **Fail-closed validation.** With lint and execution enabled, the verdict of a validation is
fail-closed if and only if some file is rejected, or no outcome is missing for a Python file. -/
theorem failClosed_iff (engine : SandboxEngine) (b : Behaviour) (files : List SourceFile)
    (withTests : Bool) (log log' : List Process) (result : SandboxResult)
    (h : validateFiles engine b files withTests log = (.ok result, log'))
    (hlint : engine.config.lintEnabled = true) (hrun : engine.config.runEnabled = true) :
    FailClosed engine b files result ↔
      (∃ i f, files[i]? = some f ∧ Rejected engine b files i f) ∨
        ∀ i f, files[i]? = some f → IsPython f → Conclusive engine b files i f := by
  constructor
  · intro hclosed
    by_cases hrejected : ∃ i f, files[i]? = some f ∧ Rejected engine b files i f
    · exact .inl hrejected
    · right
      intro i f hf hpython
      have hvalid : result.allValid = true :=
        (allValid_iff h).mpr fun i f hf hr => hrejected ⟨i, f, hf, hr⟩
      obtain ⟨-, hissues, ⟨out, hlinted⟩, ⟨out', hran⟩⟩ := hclosed hvalid i f hf hpython
      -- what was shown is one way in which no outcome is missing
      exact ⟨.inr hissues, ⟨0, out, hlinted⟩, ⟨0, out', hran⟩⟩
  · rintro (⟨i, f, hf, hrejected⟩ | hconclusive) hvalid
    · exact absurd hrejected ((allValid_iff h).mp hvalid i f hf)
    · intro i f hf hpython
      have hok := (allValid_iff h).mp hvalid i f hf
      obtain ⟨hanalyzed, ⟨code, out, hlinted⟩, ⟨code', out', hran⟩⟩ := hconclusive i f hf hpython
      obtain ⟨vr, hvr⟩ := checked_of_mem h hf
      obtain ⟨parsed, hparsed, hanalysis⟩ := validateCodeBlock_python hvr hpython.1
      -- a file that does not parse is rejected, so this one does
      have hparse : engine.check.parse f.content = .ok none := by
        rcases parsed with _ | error
        · exact hparsed
        · exact absurd (.inl ⟨hpython.1, error, hparsed⟩) hok
      have hissues : engine.check.analyzeCode f.content
          (allowedImports engine.stdlib engine.config files) = .ok [] := by
        -- without the AST check nothing has looked for issues
        rcases hanalyzed with henabled | hissues
        · rw [hparse, Except.ok.injEq] at hparsed
          obtain ⟨issues, hissues⟩ := hanalysis hparsed.symm henabled
          rcases issues with _ | ⟨issue, issues⟩
          · exact hissues
          · exact absurd (.inr (.inl ⟨hpython.1, hparse, henabled, issue, issues, hissues⟩)) hok
        · exact hissues
      refine ⟨hparse, hissues, ⟨out, ?_⟩, ⟨out', ?_⟩⟩
      -- an exit code other than 0 would have rejected the file
      · by_cases hcode : code = 0
        · exact hcode ▸ hlinted
        · exact absurd (.inr (.inr (.inl ⟨hlint, _, _, hlinted, by simpa [clearsLint]⟩))) hok
      · by_cases hcode : code' = 0
        · exact hcode ▸ hran
        · exact absurd (.inr (.inr (.inr ⟨hrun, _, _, hran, by simpa [clearsRun]⟩))) hok

/-- An engine for which every text is a program without issues. -/
def lenientEngine : SandboxEngine where
  check := ⟨fun _ => .ok none, fun _ _ => .ok []⟩
  stdlib := ["sys"]
  config := {}
  unicode := .ascii
  digit c := c.toNat - '0'.toNat

/-- A program that fails. -/
def failingProgram : SourceFile where
  pathKey := some "main.py"
  contentKey := some "raise SystemExit(1)"

/-- No file can be written, and Docker is not there. -/
def fullDisk : Behaviour :=
  let stage : StageBehaviour :=
    ⟨.ok ["tmp", "sandbox"], fun _ => some (.osError "No space left on device"),
      fun _ => .exited 1 "", fun _ => false⟩
  ⟨false, false, stage, stage, stage⟩

/-- The result on the full disk. -/
def fullDiskResult : SandboxResult where
  allValid := true
  files := [⟨"main.py", "python", true, [], true, [], true, [], true, "", ""⟩]
  summary := "1/1 files valid"

theorem validateFiles_fullDisk :
    validateFiles lenientEngine fullDisk [failingProgram] false [] = (.ok fullDiskResult, []) := by
  decide +kernel

theorem fullDisk_failClosed_iff :
    FailClosed lenientEngine fullDisk [failingProgram] fullDiskResult ↔
      (∃ i f, [failingProgram][i]? = some f ∧
          Rejected lenientEngine fullDisk [failingProgram] i f) ∨
        ∀ i f, [failingProgram][i]? = some f → IsPython f →
          Conclusive lenientEngine fullDisk [failingProgram] i f :=
  failClosed_iff _ _ _ _ _ _ _ validateFiles_fullDisk rfl rfl

/-- On the full disk the program is valid, although it was not run. -/
theorem fullDisk_not_failClosed :
    ∃ result log, validateFiles lenientEngine fullDisk [failingProgram] false [] =
      (.ok result, log) ∧ ¬ FailClosed lenientEngine fullDisk [failingProgram] result := by
  refine ⟨fullDiskResult, [], validateFiles_fullDisk, fun hclosed => ?_⟩
  obtain ⟨output, paths, path, ⟨base, hbase, hwrote⟩, -⟩ :=
    (hclosed rfl 0 failingProgram rfl ⟨rfl, by decide⟩).ran
  cases hbase
  have hraises : writeFiles ["tmp", "sandbox"] fullDisk.run.writeError [failingProgram] =
      .error (.osError "No space left on device") := by decide +kernel
  rw [hraises] at hwrote
  cases hwrote

end Noema.Sandbox
