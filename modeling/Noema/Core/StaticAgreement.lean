import Noema.Autonomy.Fixer
import Noema.Core.Think
import Noema.Sandbox.EngineRuns
import Noema.Sandbox.ImportIssues

/-!
# The gate of `think` and the sandbox

Both check a Python block with the same passes. The gate takes every spelling of the language for
Python, and allows no imports of the other blocks; `validate_files` allows these, and checks only
blocks whose language is spelled `python`.

- `IsSandbox`: the sandbox of an engine, whose checks and settings are those of the gate.
- `flagged_iff`: when the static pass of the sandbox reports an issue in a file. A block that does
  not parse is flagged on both sides.
- `checkBlock_staticPassed`: when the gate marks a block.
- `Differs`: the blocks on which the two can differ: a block spelled `python` whose only issues are
  imports of the other blocks, and a faulty block with another spelling.
- **`agree_iff`**: both mark the same blocks if and only if no block is such, for every solution
  with at most 50 Python blocks of at most 200000 characters, which is as far as the gate looks, and
  every run of the sandbox.
- `siblingImport_disagrees`: a file that imports the other one.

The records of the gate are those of the Python blocks, in their order, while the sandbox has one
for every file; `Agree` matches them by position.
-/

namespace Noema.Core

open Noema.Lib
open Noema.Autonomy (sourcesOf)
open Noema.Sandbox (Ast Behaviour Faulty Flagged Imports Process SandboxEngine SandboxResult
  SourceFile SyntaxProblem allowedImports analyzeCode analyzeCode_eq_nil_iff nodeRoots pythonCheck
  validateCodeBlock validateCodeBlock_spec validateFiles validateFiles_flags)

/-! ## The two sides -/

/-- The sandbox of an engine: its checks and the settings that they read are those of the gate. -/
structure IsSandbox (engine : ThinkEngine) (sandbox : SandboxEngine) : Prop where
  check : sandbox.check = engine.check
  stdlib : sandbox.stdlib = engine.stdlib
  staticCheck : sandbox.config.staticCheckEnabled = sandboxConfig.staticCheckEnabled
  allowImports : sandbox.config.staticAllowImports = sandboxConfig.staticAllowImports

/-- The roots that the gate allows. -/
def gateRoots (engine : ThinkEngine) : List String := allowedImports engine.stdlib sandboxConfig []

/-- The roots that the sandbox allows in the files of a solution. -/
def sandboxRoots (sandbox : SandboxEngine) (solution : Solution) : List String :=
  allowedImports sandbox.stdlib sandbox.config (sourcesOf solution)

/-- The gate and the sandbox mark the same Python blocks `static_passed`. The records of the gate
are those of the Python blocks, in their order. -/
def Agree (u : Unicode) (solution : Solution) (verdict : GateVerdict) (result : SandboxResult) : Prop :=
  ∀ i block, solution.codeBlocks[i]? = some block → isPython u block = true →
    ∃ record vr, verdict.files[(solution.codeBlocks.take i).countP (isPython u)]? = some record ∧
      result.files[i]? = some vr ∧ (record.staticPassed = true ↔ vr.staticPassed = true)

/-- The marks of a block differ, which parses as the tree. -/
def Differs (engine : ThinkEngine) (sandbox : SandboxEngine) (builtins : List String)
    (solution : Solution) (block : CodeBlock) (tree : Ast) : Prop :=
  if block.language = "python" then
    -- its only issues are imports of the other blocks
    ¬ Faulty builtins tree ∧ (∀ root, Imports tree root → root ∈ sandboxRoots sandbox solution) ∧
      ∃ root, Imports tree root ∧ root ∉ gateRoots engine
  -- the sandbox does not check it
  else Faulty builtins tree ∨ ∃ root, Imports tree root ∧ root ∉ gateRoots engine

/-! ## The marks -/

section Marks

variable {parse : String → Except SyntaxProblem Ast} {builtins : List String}

/-- When the static pass of the sandbox reports an issue in a file. -/
theorem flagged_iff {sandbox : SandboxEngine} (hcheck : sandbox.check = pythonCheck parse builtins)
    (files : List SourceFile) (f : SourceFile) :
    Flagged sandbox files f ↔ f.language = "python" ∧ sandbox.config.staticCheckEnabled = true ∧
      ∃ tree, parse f.content = .ok tree ∧ ¬ (¬ Faulty builtins tree ∧ ∀ root, Imports tree root →
        root ∈ allowedImports sandbox.stdlib sandbox.config files) := by
  rw [Flagged, hcheck]
  refine and_congr_right fun _ => ?_
  cases hparse : parse f.content with
  | error e => simp [pythonCheck, hparse]
  | ok tree =>
    have hissues : analyzeCode parse builtins f.content
        (allowedImports sandbox.stdlib sandbox.config files) = [] ↔ _ :=
      analyzeCode_eq_nil_iff hparse _
    simp only [pythonCheck, hparse, true_and, Except.ok.injEq, exists_eq_left', ← hissues]
    refine and_congr_right fun _ => ⟨?_, fun hne => ?_⟩
    · rintro ⟨issue, issues, h⟩ hnil
      rw [h] at hnil
      cases hnil
    · obtain ⟨issue, issues, h⟩ := List.exists_cons_of_ne_nil hne
      exact ⟨issue, issues, h⟩

/-- The checks of the gate, as an engine without files. -/
def gateEngine (engine : ThinkEngine) : SandboxEngine :=
  ⟨engine.check, engine.stdlib, sandboxConfig, engine.unicode, fun _ => 0⟩

/-- When the gate marks a block. -/
theorem checkBlock_staticPassed {engine : ThinkEngine}
    (hcheck : engine.check = pythonCheck parse builtins) {block : CodeBlock} {record : GateFile}
    (hchars : block.content.length ≤ 200000) (h : checkBlock engine block = .ok record) :
    record.staticPassed = true ↔ ∀ tree, parse block.content = .ok tree →
      ¬ Faulty builtins tree ∧ ∀ root, Imports tree root → root ∈ gateRoots engine := by
  rw [checkBlock, if_neg (by omega)] at h
  obtain ⟨vr, hvr, h⟩ := bind_eq_ok h
  cases h
  have hvr' : validateCodeBlock (gateEngine engine).check (gateEngine engine).config
      (allowedImports (gateEngine engine).stdlib (gateEngine engine).config []) _ = .ok vr := hvr
  have hcheck' : (gateEngine engine).check = pythonCheck parse builtins := hcheck
  have hspec := (validateCodeBlock_spec hvr').2.1
  rw [flagged_iff hcheck'] at hspec
  refine hspec.trans ⟨fun h tree htree => ?_, ?_⟩
  · by_contra hbad
    exact h ⟨rfl, rfl, tree, htree, hbad⟩
  · rintro h ⟨-, -, tree, htree, hbad⟩
    exact hbad (h tree htree)

/-- The records of the gate are those of the Python blocks. -/
theorem gate_records {engine : ThinkEngine} {solution : Artifact} {verdict : GateVerdict}
    (hverify : engine.settings.verifyThink = true)
    (hblocks : (solution.codeBlocks.filter (isPython engine.unicode)).length ≤ 50)
    (hgate : verifyThinkSolution engine solution = .ok verdict) :
    List.Forall₂ (fun block record => checkBlock engine block = .ok record)
      (solution.codeBlocks.filter (isPython engine.unicode)) verdict.files := by
  rw [verifyThinkSolution, hverify, Bool.not_true, if_neg Bool.false_ne_true] at hgate
  split at hgate
  · next hnone =>
    cases hgate
    rw [hnone]
    exact .nil
  · rw [if_neg (by omega)] at hgate
    obtain ⟨files, hfiles, hgate⟩ := bind_eq_ok hgate
    cases hgate
    exact mapM_eq_ok hfiles

theorem getElem?_filter {α : Type} {p : α → Bool} {xs : List α} {i : Nat} {x : α}
    (hx : xs[i]? = some x) (hp : p x = true) : (xs.filter p)[(xs.take i).countP p]? = some x := by
  induction xs generalizing i with
  | nil => cases hx
  | cons y xs ih =>
    cases i with
    | zero =>
      cases hx
      simp [hp]
    | succ i =>
      have hrest := ih hx
      by_cases hy : p y = true
      · rw [List.filter_cons_of_pos hy, List.take_succ_cons, List.countP_cons_of_pos hy]
        exact hrest
      · rw [List.filter_cons_of_neg hy, List.take_succ_cons, List.countP_cons_of_neg hy]
        exact hrest

theorem gateRoots_subset {engine : ThinkEngine} {sandbox : SandboxEngine}
    (h : IsSandbox engine sandbox) (solution : Solution) {root : String}
    (hroot : root ∈ gateRoots engine) : root ∈ sandboxRoots sandbox solution := by
  rw [sandboxRoots, allowedImports, h.stdlib, h.allowImports]
  refine List.mem_append_left _ ?_
  simpa [gateRoots, allowedImports] using hroot

/-- One block: the marks are equal if and only if it is not one of those on which they differ. -/
theorem marks_iff {engine : ThinkEngine} {sandbox : SandboxEngine} (solution : Solution)
    (hsandbox : IsSandbox engine sandbox) (hcheck : sandbox.check = pythonCheck parse builtins)
    (block : CodeBlock) {f : SourceFile} (hlanguage : f.language = block.language)
    (hcontent : f.content = block.content) :
    ((∀ tree, parse block.content = .ok tree →
        ¬ Faulty builtins tree ∧ ∀ root, Imports tree root → root ∈ gateRoots engine) ↔
      ¬ Flagged sandbox (sourcesOf solution) f) ↔
      ∀ tree, parse block.content = .ok tree →
        ¬ Differs engine sandbox builtins solution block tree := by
  have henabled : sandbox.config.staticCheckEnabled = true := hsandbox.staticCheck
  rw [flagged_iff hcheck, hlanguage, hcontent]
  cases hparse : parse block.content with
  | error e => simp
  | ok tree =>
    have hmono : (∀ root, Imports tree root → root ∈ gateRoots engine) →
        ∀ root, Imports tree root → root ∈ sandboxRoots sandbox solution :=
      fun h root hroot => gateRoots_subset hsandbox solution (h root hroot)
    have houtside : (∃ root, Imports tree root ∧ root ∉ gateRoots engine) ↔
        ¬ ∀ root, Imports tree root → root ∈ gateRoots engine := by
      simp only [not_forall, exists_prop]
    simp only [Except.ok.injEq, forall_eq', exists_eq_left', henabled, true_and, Differs, houtside]
    show _ ↔ _
    rw [← sandboxRoots]
    -- Both sides check it, with more roots in the sandbox; or only the gate does.
    by_cases hpython : block.language = "python"
    · simp only [hpython, if_true, true_and]
      tauto
    · simp only [hpython, if_false, false_and]
      tauto

/-- **Where the gate and the sandbox agree**, for every solution with at most 50 Python blocks of
at most 200000 characters, and every run of the sandbox. -/
theorem agree_iff {engine : ThinkEngine} {sandbox : SandboxEngine} {solution : Artifact}
    {verdict : GateVerdict} {b : Behaviour} {withTests : Bool} {result : SandboxResult}
    {log log' : List Process} (hsandbox : IsSandbox engine sandbox)
    (hcheck : engine.check = pythonCheck parse builtins) (hverify : engine.settings.verifyThink = true)
    (hblocks : (solution.codeBlocks.filter (isPython engine.unicode)).length ≤ 50)
    (hchars : ∀ block ∈ solution.codeBlocks, isPython engine.unicode block = true →
      block.content.length ≤ 200000)
    (hgate : verifyThinkSolution engine solution = .ok verdict)
    (hvalidate : validateFiles sandbox b (sourcesOf solution.toSolution) withTests log =
      (.ok result, log')) :
    Agree engine.unicode solution.toSolution verdict result ↔
      ∀ block ∈ solution.codeBlocks, isPython engine.unicode block = true →
        ∀ tree, parse block.content = .ok tree →
          ¬ Differs engine sandbox builtins solution.toSolution block tree := by
  have hrecords := gate_records hverify hblocks hgate
  obtain ⟨hflags, -⟩ := validateFiles_flags hvalidate
  have hcheck' : sandbox.check = pythonCheck parse builtins := hsandbox.check.trans hcheck
  -- The record of the gate for a block is found by counting the Python blocks before it.
  have hmarks : ∀ i block, solution.codeBlocks[i]? = some block →
      isPython engine.unicode block = true →
      ((∃ record vr, verdict.files[(solution.codeBlocks.take i).countP (isPython engine.unicode)]? =
            some record ∧ result.files[i]? = some vr ∧
            (record.staticPassed = true ↔ vr.staticPassed = true)) ↔
        ∀ tree, parse block.content = .ok tree →
          ¬ Differs engine sandbox builtins solution.toSolution block tree) := by
    intro i block hblock hpython
    have hfile : (sourcesOf solution.toSolution)[i]? = some
        { pathKey := some block.filename, languageKey := some block.language
          contentKey := some block.content } := by
      rw [sourcesOf, List.getElem?_map, hblock]
      rfl
    obtain ⟨vr, hvr, -, hstatic, -⟩ := hflags.flags i _ hfile
    have hfiltered := getElem?_filter hblock hpython
    obtain ⟨hlt, hget⟩ := List.getElem?_eq_some_iff.mp hfiltered
    have hlt' := hrecords.length_eq ▸ hlt
    have hrecord := hrecords.get hlt hlt'
    simp only [List.get_eq_getElem, hget] at hrecord
    have hgateMark := checkBlock_staticPassed hcheck
      (hchars block (List.mem_of_getElem? hblock) hpython) hrecord
    have hmark := marks_iff solution.toSolution hsandbox hcheck' block
      (f := ⟨some block.filename, none, some block.language, some block.content⟩) rfl rfl
    rw [← hgateMark, ← hstatic] at hmark
    rw [← hmark]
    constructor
    · rintro ⟨record, vr', hrecord', hvr', hsame⟩
      rw [List.getElem?_eq_getElem hlt'] at hrecord'
      rw [hvr] at hvr'
      cases hrecord'
      cases hvr'
      exact hsame
    · exact fun hsame => ⟨_, vr, List.getElem?_eq_getElem hlt', hvr, hsame⟩
  constructor
  · intro hagree block hmem hpython
    obtain ⟨i, hblock⟩ := List.getElem?_of_mem hmem
    exact (hmarks i block hblock hpython).mp (hagree i block hblock hpython)
  · intro hsame i block hblock hpython
    exact (hmarks i block hblock hpython).mpr (hsame block (List.mem_of_getElem? hblock) hpython)

end Marks

/-! ## Samples -/

open Noema.Sandbox (smooth)

/-- An import as a module. -/
def importOf (name : String) : Ast :=
  .node 1 .module [(.body, .node 1 .import_ [(.names, .node 1 (.alias name none) [])])]

/-- The parser on the texts of the samples: any other text is the empty module. -/
def sampleParse (code : String) : Except SyntaxProblem Ast :=
  .ok (if code = "import util" then importOf "util" else if code = "import sys" then importOf "sys"
    else if code = "import missing" then importOf "missing" else .node 1 .module [])

/-- An engine whose standard library has one module. -/
def sampleEngine : ThinkEngine :=
  ⟨⟨"llm", "model"⟩, {}, "tenant", pythonCheck sampleParse [], ["sys"], .ascii⟩

/-- Its sandbox. -/
def sampleSandbox : SandboxEngine := gateEngine sampleEngine

theorem sampleSandbox_isSandbox : IsSandbox sampleEngine sampleSandbox := ⟨rfl, rfl, rfl, rfl⟩

/-- A solution of two files, the first of which imports the second if `code` does so. -/
def sampleSolution (code : String) : Artifact where
  taskId := "t"
  title := "t"
  summary := ""
  codeBlocks := [⟨"main.py", "python", code, ""⟩, ⟨"util.py", "python", "", ""⟩]
  origin := .attempt 1

/-- A solution of two files, of which the first one imports a module of the standard library, and
the second one a module that is nowhere. -/
def importingSolution : Artifact :=
  { sampleSolution "" with
    codeBlocks := [⟨"main.py", "python", "import sys", ""⟩,
      ⟨"data.py", "python", "import missing", ""⟩] }

/-- The roots that a tree imports, as a list. -/
theorem imports_iff_mem {tree : Ast} {root : String} :
    Imports tree root ↔ root ∈ tree.walk.flatMap nodeRoots :=
  List.mem_flatMap.symm

/-- Both mark the file with the import of the standard library, and not the other one. -/
theorem agree_importingSolution :
    ∃ verdict result log, verifyThinkSolution sampleEngine importingSolution = .ok verdict ∧
      validateFiles sampleSandbox smooth (sourcesOf importingSolution.toSolution) false [] =
        (.ok result, log) ∧
      verdict.files.map GateFile.staticPassed = [true, false] ∧
      Agree .ascii importingSolution.toSolution verdict result := by
  obtain ⟨verdict, hgate⟩ : ∃ verdict,
      verifyThinkSolution sampleEngine importingSolution = .ok verdict := ⟨_, rfl⟩
  obtain ⟨result, log, hvalidate⟩ : ∃ result log, validateFiles sampleSandbox smooth
      (sourcesOf importingSolution.toSolution) false [] = (.ok result, log) := ⟨_, _, rfl⟩
  have hmarks : verdict.files.map GateFile.staticPassed = [true, false] := by
    cases hgate
    rfl
  refine ⟨verdict, result, log, hgate, hvalidate, hmarks, ?_⟩
  have hcheck : sampleEngine.check = pythonCheck sampleParse [] := rfl
  refine (agree_iff sampleSandbox_isSandbox hcheck rfl ?_ ?_ hgate hvalidate).mpr ?_
  · decide
  · decide
  · intro block hblock _ tree htree hdiffers
    rcases List.mem_pair.mp hblock with rfl | rfl
    · cases htree
      -- the module of the standard library is no import outside the roots of the gate
      obtain ⟨-, -, root, himports, houtside⟩ := hdiffers
      have hroots : (importOf "sys").walk.flatMap nodeRoots = ["sys"] := by decide
      have hmem : root ∈ (importOf "sys").walk.flatMap nodeRoots := imports_iff_mem.mp himports
      rw [hroots, List.mem_singleton] at hmem
      subst hmem
      exact houtside (by decide)
    · cases htree
      -- the other module is outside the roots of the sandbox too
      obtain ⟨-, hall, -⟩ := hdiffers
      have hroots : (importOf "missing").walk.flatMap nodeRoots = ["missing"] := by decide
      have himports : Imports (importOf "missing") "missing" := by
        rw [imports_iff_mem, hroots, List.mem_singleton]
      exact absurd (hall _ himports) (by decide)

/-- The first file imports the second: the gate does not mark it, and the sandbox does. -/
theorem siblingImport_disagrees :
    ∃ verdict result log, verifyThinkSolution sampleEngine (sampleSolution "import util") = .ok verdict ∧
      validateFiles sampleSandbox smooth (sourcesOf (sampleSolution "import util").toSolution) false []
        = (.ok result, log) ∧
      verdict.files.map GateFile.staticPassed = [false, true] ∧
      result.files.map Noema.Sandbox.CodeValidationResult.staticPassed = [true, true] ∧
      ¬ Agree .ascii (sampleSolution "import util").toSolution verdict result := by
  obtain ⟨verdict, hgate⟩ : ∃ verdict,
      verifyThinkSolution sampleEngine (sampleSolution "import util") = .ok verdict := ⟨_, rfl⟩
  obtain ⟨result, log, hvalidate⟩ : ∃ result log, validateFiles sampleSandbox smooth
      (sourcesOf (sampleSolution "import util").toSolution) false [] = (.ok result, log) := ⟨_, _, rfl⟩
  have hrecords : verdict.files.map GateFile.staticPassed = [false, true] := by
    cases hgate
    rfl
  have hmarks : result.files.map Noema.Sandbox.CodeValidationResult.staticPassed = [true, true] := by
    cases hvalidate
    rfl
  refine ⟨verdict, result, log, hgate, hvalidate, hrecords, hmarks, fun hagree => ?_⟩
  -- The first block is marked by the sandbox and not by the gate.
  obtain ⟨record, vr, hrecord, hvr, hsame⟩ := hagree 0 _ rfl rfl
  have hrecord' := congrArg (·[0]?) hrecords
  have hvr' := congrArg (·[0]?) hmarks
  simp only [List.getElem?_map] at hrecord' hvr'
  rw [show verdict.files[0]? = some record from hrecord] at hrecord'
  rw [hvr] at hvr'
  rw [Option.some.inj hrecord', Option.some.inj hvr'] at hsame
  exact Bool.false_ne_true (hsame.mpr rfl)

end Noema.Core
