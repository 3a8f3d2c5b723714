import Noema.Sandbox.EngineRuns

/-!
# What a validation executes

`Starts` says which subprocesses a validation starts that execute Python code, from what goes into
it alone: how far it gets (`RunReached`, `TestsReached`), which files the static pass has cleared,
and which directories and starts fail.

- `log_stage`: when a stage is over, its subprocesses are in the log. A stage raises exactly when it
  gets no directory (`withFiles_tmpDir`).
- `validateFiles_stages`: how far a validation gets, with what it returns or raises there and its
  log; one case for each place where it can end.
- `log_lint`, `log_ran`: the lint stage adds nothing that executes Python code, and the run stage
  just the subprocesses of the run.
- **`mem_log_iff`**: the subprocesses in the log of a validation that execute Python code are the
  ones that it starts, whether it returns or raises.
- **`shortCircuits_iff`**: the content of a file in which the static pass has found an issue is
  never executed, if and only if no subprocess that is started loads a file with that content.
- `flaggedTest_executed`: a test file is not run itself, but `pytest` collects it.

Which files a subprocess loads is up to the interpreter, and a parameter.
-/

namespace Noema.Sandbox

open Noema.Lib Noema.Neurosymbolic

/-! ## Subprocesses that are started -/

/-- The subprocess executes Python code. -/
def Process.executes : Process → Bool
  | .ruff _ _ _ => false
  | _ => true

/-- The subprocess is the one of the tests. -/
def Process.isPytest : Process → Bool
  | .pytest _ => true
  | _ => false

/-- The directory of a subprocess. -/
def Process.disk : Process → Disk
  | .ruff _ _ disk | .python _ _ disk | .pytest disk => disk

section Starts

variable (engine : SandboxEngine) (b : Behaviour) (files : List SourceFile) (withTests : Bool)

/-- The run stage is reached: the static checks did not raise, and the lint stage got its
directory. -/
def RunReached : Prop :=
  (∃ checked, files.mapM (validateCodeBlock engine.check engine.config
    (allowedImports engine.stdlib engine.config files)) = .ok checked) ∧
  (engine.config.lintEnabled = true → ∃ base, b.lint.tmpDir = .ok base)

/-- The test stage is reached. -/
def TestsReached : Prop :=
  RunReached engine b files ∧ (engine.config.runEnabled = true → ∃ base, b.run.tmpDir = .ok base)

/-- The subprocesses that a validation starts to execute Python code. -/
inductive Starts : Process → Prop
  | python {i : Nat} {f : SourceFile} {path : RelPath} {paths : List RelPath}
      (hreached : RunReached engine b files) (henabled : engine.config.runEnabled = true)
      (hwrote : Wrote b.run files paths) (hf : files[i]? = some f) (hpath : paths[i]? = some path)
      (hpython : f.language = "python") (hpassed : ¬ Flagged engine files f)
      (hstarted : (b.run.outcome i).isStarted = true) :
      Starts (.python i ((pickEnv b).target path) (diskOf files paths))
  | pytest {f : SourceFile} {paths : List RelPath} (hreached : TestsReached engine b files)
      (henabled : withTests = true ∧ engine.config.testEnabled = true)
      (hwrote : Wrote b.tests files paths) (hf : f ∈ files) (htest : f.isTest = true)
      (hstarted : (b.tests.outcome 0).isStarted = true) : Starts (.pytest (diskOf files paths))

end Starts

/-! ## The log of a stage -/

theorem log_withFiles (sb : StageBehaviour) (files : List SourceFile) (result : SandboxResult)
    {stage : List RelPath → PyM (List Process) SandboxResult} (log : List Process)
    {P : List RelPath → Process → Prop}
    (hstage : ∀ paths, Wrote sb files paths →
      ∀ p, p ∈ (stage paths log).2 ↔ p ∈ log ∨ P paths p) (p : Process) :
    p ∈ (withFiles sb files result stage log).2 ↔
      p ∈ log ∨ ∃ paths, Wrote sb files paths ∧ P paths p := by
  have hnone : (∀ paths, ¬ Wrote sb files paths) →
      (p ∈ log ↔ p ∈ log ∨ ∃ paths, Wrote sb files paths ∧ P paths p) := by
    intro hnot
    simp [hnot]
  rw [withFiles, PyM.bind_apply, PyM.lift_apply]
  rcases hbase : sb.tmpDir with e | base
  · refine hnone fun paths hwrote => ?_
    obtain ⟨base, hbase', -⟩ := hwrote
    rw [hbase] at hbase'
    cases hbase'
  · rcases hpaths : writeFiles base sb.writeError files with e | paths
    · simp only [hpaths]
      refine hnone fun paths hwrote => ?_
      obtain ⟨base', hbase', hwrote⟩ := hwrote
      rw [hbase] at hbase'
      cases hbase'
      rw [hpaths] at hwrote
      cases hwrote
    · have hwrote : Wrote sb files paths := ⟨base, hbase, hpaths⟩
      simp only [hpaths]
      rw [hstage paths hwrote]
      refine or_congr_right ⟨fun h => ⟨paths, hwrote, h⟩, ?_⟩
      rintro ⟨paths', hwrote', h⟩
      rw [hwrote.unique hwrote']
      exact h

/-- A stage is over, and its subprocesses are in the log. -/
theorem log_stage (started : List (Nat × RelPath)) (g : Nat × RelPath → Process)
    (result : SandboxResult) (log : List Process) (p : Process) :
    p ∈ ((do PyM.modify fun log => log ++ started.map g; pure result :
        PyM (List Process) SandboxResult) log).2 ↔ p ∈ log ∨ ∃ x ∈ started, g x = p := by
  show p ∈ log ++ started.map g ↔ _
  rw [List.mem_append, List.mem_map]

/-- A stage raises exactly when it gets no directory. -/
theorem withFiles_tmpDir {sb : StageBehaviour} {files : List SourceFile} {result : SandboxResult}
    {stage : List RelPath → PyM (List Process) SandboxResult} {log log' : List Process}
    {x : Except PyExc SandboxResult}
    (hstage : ∀ paths log, ∃ r log', stage paths log = (.ok r, log'))
    (h : withFiles sb files result stage log = (x, log')) :
    (∃ r, x = .ok r) ↔ ∃ base, sb.tmpDir = .ok base := by
  rw [withFiles, PyM.bind_apply, PyM.lift_apply] at h
  rcases hbase : sb.tmpDir with e | base
  · rw [hbase] at h
    cases h
    refine iff_of_false ?_ ?_
    · rintro ⟨r, hr⟩
      cases hr
    · rintro ⟨base, hb⟩
      cases hb
  · rw [hbase] at h
    refine iff_of_true ?_ ⟨base, rfl⟩
    rcases hpaths : writeFiles base sb.writeError files with e | paths
    · simp only [hpaths] at h
      cases h
      exact ⟨result, rfl⟩
    · simp only [hpaths] at h
      obtain ⟨r, log'', hr⟩ := hstage paths log
      rw [hr] at h
      cases h
      exact ⟨r, rfl⟩

theorem stageIf_ok {enabled : Bool} {sb : StageBehaviour} {files : List SourceFile}
    {result : SandboxResult} {stage : List RelPath → PyM (List Process) SandboxResult}
    {log log' : List Process} {x : Except PyExc SandboxResult}
    (hstage : ∀ paths log, ∃ r log', stage paths log = (.ok r, log'))
    (h : stageIf enabled (withFiles sb files result stage) result log = (x, log')) :
    (∃ r, x = .ok r) ↔ (enabled = true → ∃ base, sb.tmpDir = .ok base) := by
  cases enabled with
  | true => simpa using withFiles_tmpDir hstage h
  | false =>
    cases h
    simp

theorem runTests_ok {u : Unicode} {digit : Char → Nat} {sb : StageBehaviour}
    {files : List SourceFile} {result : SandboxResult} {log log' : List Process}
    {x : Except PyExc SandboxResult} (h : runTests u digit sb files result log = (x, log')) :
    (∃ r, x = .ok r) ↔ ∃ base, sb.tmpDir = .ok base := by
  rw [runTests] at h
  split at h
  · rw [PyM.bind_apply, PyM.lift_apply] at h
    rcases hbase : sb.tmpDir with e | base
    · rw [hbase] at h
      cases h
      refine iff_of_false ?_ ?_
      · rintro ⟨r, hr⟩
        cases hr
      · rintro ⟨base, hb⟩
        cases hb
    · rw [hbase] at h
      cases h
      exact iff_of_true ⟨_, rfl⟩ ⟨base, rfl⟩
  · refine withFiles_tmpDir (fun paths log => ?_) h
    rcases ho : sb.outcome 0 with ⟨code, output⟩ | _ | ⟨started, e⟩
    · dsimp only
      obtain ⟨passed, failed⟩ := parsePytestCounts u digit output code
      exact ⟨_, _, rfl⟩
    · exact ⟨_, _, rfl⟩
    · cases started with
      | true => exact ⟨_, _, rfl⟩
      | false => exact ⟨_, _, rfl⟩

/-- How far a validation gets, with what it returns or raises there and its log. -/
inductive Stages (engine : SandboxEngine) (b : Behaviour) (files : List SourceFile)
    (withTests : Bool) (log : List Process) :
    Except PyExc SandboxResult → List Process → Prop
  | static {e : PyExc} (hnot : ¬ RunReached engine b files) :
      Stages engine b files withTests log (.error e) log
  | lint {result : SandboxResult} {e : PyExc} {log₁ : List Process}
      (hnot : ¬ RunReached engine b files)
      (hlinted : stageIf engine.config.lintEnabled (lint (pickEnv b) b.lint files result) result
        log = (.error e, log₁)) :
      Stages engine b files withTests log (.error e) log₁
  | run {checked : List CodeValidationResult} {linted : SandboxResult} {e : PyExc}
      {log₁ log₂ : List Process} (hnot : ¬ TestsReached engine b files)
      (hreached : RunReached engine b files)
      (hchecked : files.mapM (validateCodeBlock engine.check engine.config
        (allowedImports engine.stdlib engine.config files)) = .ok checked)
      (hlinted : stageIf engine.config.lintEnabled (lint (pickEnv b) b.lint files
        { files := checked }) { files := checked } log = (.ok linted, log₁))
      (hran : stageIf engine.config.runEnabled (runCode (pickEnv b) engine.config b.run files
        linted) linted log₁ = (.error e, log₂)) :
      Stages engine b files withTests log (.error e) log₂
  | tests {checked : List CodeValidationResult} {linted ran : SandboxResult}
      {tested x : Except PyExc SandboxResult} {log₁ log₂ log₃ : List Process}
      (hreached : TestsReached engine b files)
      (hchecked : files.mapM (validateCodeBlock engine.check engine.config
        (allowedImports engine.stdlib engine.config files)) = .ok checked)
      (hlinted : stageIf engine.config.lintEnabled (lint (pickEnv b) b.lint files
        { files := checked }) { files := checked } log = (.ok linted, log₁))
      (hran : stageIf engine.config.runEnabled (runCode (pickEnv b) engine.config b.run files
        linted) linted log₁ = (.ok ran, log₂))
      (htested : stageIf (withTests && engine.config.testEnabled) (runTests engine.unicode
        engine.digit b.tests files ran) ran log₂ = (tested, log₃))
      (hreturns : (∃ r, x = .ok r) ↔ ∃ r, tested = .ok r) :
      Stages engine b files withTests log x log₃

theorem validateFiles_stages (engine : SandboxEngine) (b : Behaviour) (files : List SourceFile)
    (withTests : Bool) (log : List Process) :
    Stages engine b files withTests log (validateFiles engine b files withTests log).1
      (validateFiles engine b files withTests log).2 := by
  rw [validateFiles, PyM.bind_apply, PyM.lift_apply]
  rcases hchecked : files.mapM (validateCodeBlock engine.check engine.config
      (allowedImports engine.stdlib engine.config files)) with e | checked
  · refine .static ?_
    rintro ⟨⟨checked, hok⟩, -⟩
    rw [hchecked] at hok
    cases hok
  -- the lint stage
  dsimp only
  rw [PyM.bind_apply]
  rcases hlinted : stageIf engine.config.lintEnabled (lint (pickEnv b) b.lint files
      { files := checked }) { files := checked } log with ⟨linted, log₁⟩
  have hlintOk := stageIf_ok (fun paths log => ⟨_, _, rfl⟩) hlinted
  rcases linted with e | linted
  · refine .lint (fun hreached => ?_) hlinted
    obtain ⟨r, hr⟩ := hlintOk.mpr hreached.2
    cases hr
  have hreached : RunReached engine b files := ⟨⟨checked, hchecked⟩, hlintOk.mp ⟨_, rfl⟩⟩
  -- the run stage
  dsimp only
  rw [PyM.bind_apply]
  rcases hran : stageIf engine.config.runEnabled (runCode (pickEnv b) engine.config b.run
      files linted) linted log₁ with ⟨ran, log₂⟩
  have hrunOk := stageIf_ok (fun paths log => ⟨_, _, rfl⟩) hran
  rcases ran with e | ran
  · refine .run (fun htests => ?_) hreached hchecked hlinted hran
    obtain ⟨r, hr⟩ := hrunOk.mpr htests.2
    cases hr
  -- the test stage
  dsimp only
  rw [PyM.bind_apply]
  rcases htested : stageIf (withTests && engine.config.testEnabled) (runTests engine.unicode
      engine.digit b.tests files ran) ran log₂ with ⟨e | tested, log₃⟩
  · exact .tests ⟨hreached, hrunOk.mp ⟨_, rfl⟩⟩ hchecked hlinted hran htested Iff.rfl
  · refine .tests ⟨hreached, hrunOk.mp ⟨_, rfl⟩⟩ hchecked hlinted hran htested ?_
    exact iff_of_true ⟨_, rfl⟩ ⟨_, rfl⟩

/-- A validation returns if and only if the static checks do not raise and every enabled stage
gets its directory. -/
theorem validateFiles_returns (engine : SandboxEngine) (b : Behaviour) (files : List SourceFile)
    (withTests : Bool) (log : List Process) :
    (∃ result, (validateFiles engine b files withTests log).1 = .ok result) ↔
      TestsReached engine b files ∧
        ((withTests && engine.config.testEnabled) = true → ∃ base, b.tests.tmpDir = .ok base) := by
  have hstages := validateFiles_stages engine b files withTests log
  revert hstages
  generalize (validateFiles engine b files withTests log).1 = x
  generalize (validateFiles engine b files withTests log).2 = log'
  intro hstages
  cases hstages with
  | static hnot => exact iff_of_false (fun ⟨r, hr⟩ => by cases hr) fun h => hnot h.1.1
  | lint hnot => exact iff_of_false (fun ⟨r, hr⟩ => by cases hr) fun h => hnot h.1.1
  | run hnot => exact iff_of_false (fun ⟨r, hr⟩ => by cases hr) fun h => hnot h.1
  | tests hreached hchecked hlinted hran htested hreturns =>
    rw [hreturns, and_iff_right hreached]
    generalize (withTests && engine.config.testEnabled) = enabled at htested
    cases enabled with
    | true =>
      rw [stageIf_true] at htested
      rw [imp_iff_right rfl]
      exact runTests_ok htested
    | false =>
      cases htested
      exact iff_of_true ⟨_, rfl⟩ fun h => by cases h

section Log

variable {engine : SandboxEngine} {b : Behaviour} {files : List SourceFile} {withTests : Bool}
  {result : SandboxResult} {log : List Process} {p : Process}

/-- The lint stage executes no Python code. -/
theorem log_lint {env : Environment} {sb : StageBehaviour} (hp : p.executes = true) :
    p ∈ (lint env sb files result log).2 ↔ p ∈ log := by
  have hstage := log_withFiles sb files result log
    fun paths _ p => log_stage
      ((indicesWhere files paths fun i f path =>
        isLinted f path && lintReached env sb files paths i).filter fun x =>
          (sb.outcome x.1).isStarted)
      (fun x => .ruff x.1 (env.target x.2) (diskOf files paths))
      { result with
        files := result.files.mapIdx fun i vr =>
          if i ∈ (indicesWhere files paths fun i f path =>
            isLinted f path && lintReached env sb files paths i).map Prod.fst
          then vr.lint env (sb.outcome i) else vr } log p
  refine (hstage p).trans (or_iff_left ?_)
  rintro ⟨paths, -, ⟨i, path⟩, -, rfl⟩
  cases hp

theorem log_runCode (hflags : Flags engine files (LintOk engine b files) (fun _ => True) result)
    (hreached : RunReached engine b files) (henabled : engine.config.runEnabled = true)
    (hlog : p ∉ log) :
    p ∈ (runCode (pickEnv b) engine.config b.run files result log).2 ↔
      Starts engine b files withTests p ∧ p.isPytest = false := by
  have hstage := log_withFiles b.run files result log
    fun paths _ p => log_stage
      ((indicesWhere files paths fun i f _ =>
        f.language == "python" && staticPassedAt result i).filter fun x =>
          (b.run.outcome x.1).isStarted)
      (fun x => .python x.1 ((pickEnv b).target x.2) (diskOf files paths))
      { result with
        files := result.files.mapIdx fun i vr =>
          if i ∈ (indicesWhere files paths fun i f _ =>
            f.language == "python" && staticPassedAt result i).map Prod.fst
          then vr.run engine.config (b.run.outcome i) else vr } log p
  -- the run stage takes the files that the static pass has let through
  have hstatic : ∀ i f, files[i]? = some f →
      (staticPassedAt result i = true ↔ ¬ Flagged engine files f) := by
    intro i f hf
    obtain ⟨vr, hvr, -, hstatic, -⟩ := hflags.flags i f hf
    rw [staticPassedAt, hvr, ← hstatic]
    rfl
  refine (hstage p).trans ⟨?_, ?_⟩
  · rintro (hmem | ⟨paths, hwrote, ⟨i, path⟩, hmem, rfl⟩)
    · exact absurd hmem hlog
    · obtain ⟨hmem, hstarted⟩ := List.mem_filter.mp hmem
      obtain ⟨f, hf, hpath, hp⟩ := mem_indicesWhere.mp hmem
      rw [Bool.and_eq_true, beq_iff_eq, hstatic i f hf] at hp
      exact ⟨.python hreached henabled hwrote hf hpath hp.1 hp.2 hstarted, rfl⟩
  · rintro ⟨h, hpytest⟩
    cases h with
    | python _ _ hwrote hf hpath hpython hpassed hstarted =>
      refine .inr ⟨_, hwrote, (_, _), List.mem_filter.mpr ⟨mem_indicesWhere.mpr
        ⟨_, hf, hpath, ?_⟩, hstarted⟩, rfl⟩
      rw [Bool.and_eq_true, beq_iff_eq, hstatic _ _ hf]
      exact ⟨hpython, hpassed⟩
    | pytest => cases hpytest

theorem log_runTests (hreached : TestsReached engine b files)
    (henabled : withTests = true ∧ engine.config.testEnabled = true) :
    p ∈ (runTests engine.unicode engine.digit b.tests files result log).2 ↔
      p ∈ log ∨ (Starts engine b files withTests p ∧ p.isPytest = true) := by
  have htest : (Starts engine b files withTests p ∧ p.isPytest = true) ↔
      ∃ paths, Wrote b.tests files paths ∧ (∃ f ∈ files, f.isTest = true) ∧
        (b.tests.outcome 0).isStarted = true ∧ .pytest (diskOf files paths) = p := by
    constructor
    · rintro ⟨h, hpytest⟩
      cases h with
      | python => cases hpytest
      | pytest _ _ hwrote hf htest hstarted =>
        exact ⟨_, hwrote, ⟨_, hf, htest⟩, hstarted, rfl⟩
    · rintro ⟨paths, hwrote, ⟨f, hf, htest⟩, hstarted, rfl⟩
      exact ⟨.pytest hreached henabled hwrote hf htest hstarted, rfl⟩
  rw [htest, runTests]
  -- without a test file pytest is not started
  by_cases hnone : (files.all fun f => !f.isTest) = true
  · rw [if_pos hnone, PyM.bind_apply, PyM.lift_apply]
    have hlog : p ∈ log ↔ p ∈ log ∨ ∃ paths, Wrote b.tests files paths ∧
        (∃ f ∈ files, f.isTest = true) ∧ (b.tests.outcome 0).isStarted = true ∧
          .pytest (diskOf files paths) = p := by
      refine (or_iff_left ?_).symm
      rintro ⟨-, -, ⟨f, hf, htest⟩, -⟩
      have := List.all_eq_true.mp hnone f hf
      rw [htest] at this
      cases this
    rcases b.tests.tmpDir with e | base
    · exact hlog
    · exact hlog
  · rw [if_neg hnone]
    have hsome : ∃ f ∈ files, f.isTest = true := by
      rw [List.all_eq_true] at hnone
      push Not at hnone
      obtain ⟨f, hf, hnot⟩ := hnone
      exact ⟨f, hf, by simpa using hnot⟩
    refine (log_withFiles (P := fun paths p => (∃ f ∈ files, f.isTest = true) ∧
      (b.tests.outcome 0).isStarted = true ∧ .pytest (diskOf files paths) = p) _ _ _ _ ?_ p)
    intro paths _ p
    have hstarted : p ∈ log ++ [.pytest (diskOf files paths)] ↔ p ∈ log ∨
        (∃ f ∈ files, f.isTest = true) ∧ true = true ∧ .pytest (diskOf files paths) = p := by
      rw [List.mem_append, List.mem_singleton]
      exact or_congr_right ⟨fun h => ⟨hsome, rfl, h.symm⟩, fun h => h.2.2.symm⟩
    -- the process was started, unless starting it raised
    rcases ho : b.tests.outcome 0 with ⟨code, output⟩ | _ | ⟨started, e⟩
    · dsimp only
      obtain ⟨passed, failed⟩ := parsePytestCounts engine.unicode engine.digit output code
      show p ∈ log ++ [.pytest (diskOf files paths)] ↔ _
      exact hstarted
    · show p ∈ log ++ [.pytest (diskOf files paths)] ↔ _
      exact hstarted
    · cases started with
      | true =>
        show p ∈ log ++ [.pytest (diskOf files paths)] ↔ _
        exact hstarted
      | false =>
        show p ∈ log ↔ p ∈ log ∨ _ ∧ false = true ∧ _
        simp

/-- The lint stage adds nothing that executes Python code. -/
theorem log_linted (hp : p.executes = true) {enabled : Bool} {env : Environment}
    {sb : StageBehaviour} {x : Except PyExc SandboxResult} {log' : List Process}
    (h : stageIf enabled (lint env sb files result) result log = (x, log')) : p ∈ log' ↔ p ∈ log := by
  cases enabled with
  | true =>
    rw [stageIf_true] at h
    have hlog : p ∈ (lint env sb files result log).2 ↔ p ∈ log := log_lint hp
    rwa [h] at hlog
  | false =>
    cases h
    exact Iff.rfl

/-- The run stage adds the subprocesses of the run. -/
theorem log_ran (hflags : Flags engine files (LintOk engine b files) (fun _ => True) result)
    (hreached : RunReached engine b files) (hlog : p ∉ log) {x : Except PyExc SandboxResult}
    {log' : List Process} (h : stageIf engine.config.runEnabled (runCode (pickEnv b) engine.config
      b.run files result) result log = (x, log')) :
    p ∈ log' ↔ Starts engine b files withTests p ∧ p.isPytest = false := by
  rcases hrun : engine.config.runEnabled with _ | _
  · rw [hrun] at h
    cases h
    refine iff_of_false hlog ?_
    rintro ⟨h, hpytest⟩
    cases h with
    | python _ henabled =>
      rw [hrun] at henabled
      cases henabled
    | pytest => cases hpytest
  · rw [hrun, stageIf_true] at h
    have hran : p ∈ (runCode (pickEnv b) engine.config b.run files result log).2 ↔
        Starts engine b files withTests p ∧ p.isPytest = false :=
      log_runCode hflags hreached hrun hlog
    rwa [h] at hran

/-- The subprocesses of a validation that execute Python code are the ones that it starts. -/
theorem mem_log_iff (hp : p.executes = true) :
    p ∈ (validateFiles engine b files withTests []).2 ↔ Starts engine b files withTests p := by
  have hnever : ¬ RunReached engine b files → ¬ Starts engine b files withTests p := by
    rintro hnot h
    cases h with
    | python hreached => exact hnot hreached
    | pytest hreached => exact hnot hreached.1
  have hstages := validateFiles_stages engine b files withTests []
  revert hstages
  generalize (validateFiles engine b files withTests []).1 = x
  generalize (validateFiles engine b files withTests []).2 = log'
  intro hstages
  cases hstages with
  -- where it ends before the run stage, nothing has been executed
  | static hnot => exact iff_of_false List.not_mem_nil (hnever hnot)
  | lint hnot hlinted =>
    rw [log_linted hp hlinted]
    exact iff_of_false List.not_mem_nil (hnever hnot)
  | run hnot hreached hchecked hlinted hran =>
    have hlog := (log_linted hp hlinted).not.mpr List.not_mem_nil
    have hrunLog : p ∈ log' ↔ Starts engine b files withTests p ∧ p.isPytest = false :=
      log_ran ((flags_checked hchecked).lint hlinted) hreached hlog hran
    refine hrunLog.trans ⟨fun h => h.1, fun h => ⟨h, ?_⟩⟩
    cases h with
    | python => rfl
    | pytest htests => exact absurd htests hnot
  | @tests checked linted ran tested x log₁ log₂ log₃ hreached hchecked hlinted hran htested =>
    have hlog := (log_linted hp hlinted).not.mpr List.not_mem_nil
    have hrunLog : p ∈ log₂ ↔ Starts engine b files withTests p ∧ p.isPytest = false :=
      log_ran ((flags_checked hchecked).lint hlinted) hreached.1 hlog hran
    -- the tests are switched off, or are the last subprocess
    rcases henabled : withTests && engine.config.testEnabled with _ | _
    · rw [henabled] at htested
      cases htested
      refine hrunLog.trans ⟨fun h => h.1, fun h => ⟨h, ?_⟩⟩
      cases h with
      | python => rfl
      | pytest _ henabled' =>
        rw [henabled'.1, henabled'.2] at henabled
        cases henabled
    · have htestLog : p ∈ (runTests engine.unicode engine.digit b.tests files ran log₂).2 ↔
          p ∈ log₂ ∨ (Starts engine b files withTests p ∧ p.isPytest = true) :=
        log_runTests hreached (by simpa using henabled)
      rw [henabled, stageIf_true] at htested
      rw [htested, hrunLog, ← and_or_left] at htestLog
      exact htestLog.trans (and_iff_left (by cases p.isPytest <;> simp))

end Log

/-! ## The static verdict -/

/-- A subprocess executes a text: it is the text of a file in its directory that it loads. -/
def Executes (loads : Process → List RelPath) (p : Process) (text : String) : Prop :=
  p.executes = true ∧ ∃ path ∈ loads p, p.disk.lookup path = some text

/-- No subprocess executes the text of a file in which the static pass has found an issue. -/
def ShortCircuits (engine : SandboxEngine) (files : List SourceFile)
    (loads : Process → List RelPath) (log : List Process) : Prop :=
  ∀ p ∈ log, ∀ f ∈ files, Flagged engine files f → ¬ Executes loads p f.content

/-- **The static verdict.** It short-circuits execution if and only if no subprocess that is
started loads a file with the text of a flagged one: the verdict itself only keeps a flagged
file from being run directly. -/
theorem shortCircuits_iff (engine : SandboxEngine) (b : Behaviour) (files : List SourceFile)
    (withTests : Bool) (loads : Process → List RelPath) :
    ShortCircuits engine files loads (validateFiles engine b files withTests []).2 ↔
      ∀ p, Starts engine b files withTests p → ∀ f ∈ files, Flagged engine files f →
        ∀ path ∈ loads p, p.disk.lookup path ≠ some f.content := by
  have hexecutes : ∀ p, Starts engine b files withTests p → p.executes = true := by
    intro p hp
    cases hp with
    | python => rfl
    | pytest => rfl
  constructor
  · intro h p hp f hf hflagged path hpath hlookup
    have hlog := (mem_log_iff (hexecutes p hp)).mpr hp
    exact h p hlog f hf hflagged ⟨hexecutes p hp, path, hpath, hlookup⟩
  · rintro h p hp f hf hflagged ⟨hp', path, hpath, hlookup⟩
    exact h p ((mem_log_iff hp').mp hp) f hf hflagged path hpath hlookup

/-- An engine that reports an issue in one program. -/
def importChecker : SandboxEngine where
  check := ⟨fun _ => .ok none, fun text _ => .ok (if text = "import requests" then
    [⟨1, "import-not-allowed", "import 'requests' is not available in the sandbox"⟩] else [])⟩
  stdlib := ["sys"]
  config := {}
  unicode := .ascii
  digit c := c.toNat - '0'.toNat

/-- A test file with that program. -/
def flaggedTest : SourceFile where
  pathKey := some "test_main.py"
  contentKey := some "import requests"

/-- Every subprocess starts and exits with code 0. -/
def smooth : Behaviour :=
  let stage : StageBehaviour :=
    ⟨.ok ["tmp", "sandbox"], fun _ => none, fun _ => .exited 0 "", fun _ => false⟩
  ⟨false, false, stage, stage, stage⟩

/-- A run loads its file, and `pytest` the files that it collects by their names. -/
def collected : Process → List RelPath
  | .ruff _ _ _ => []
  | .python _ target _ => [target]
  | .pytest disk => (disk.map Prod.fst).filter fun path =>
      "test_".toList.isPrefixOf (path.getLast?.getD "").toList && suffix path == ".py"

/-- The test file is not run directly, but `pytest` executes it. -/
theorem flaggedTest_executed : ¬ ShortCircuits importChecker [flaggedTest] collected
    (validateFiles importChecker smooth [flaggedTest] true []).2 := by
  have hlog : .pytest [(["test_main.py"], "import requests")] ∈
      (validateFiles importChecker smooth [flaggedTest] true []).2 := by decide +kernel
  have hflagged : Flagged importChecker [flaggedTest] flaggedTest :=
    ⟨rfl, rfl, rfl, _, [], rfl⟩
  intro h
  refine h _ hlog flaggedTest List.mem_cons_self hflagged ⟨rfl, ["test_main.py"], ?_, rfl⟩
  decide +kernel

end Noema.Sandbox
