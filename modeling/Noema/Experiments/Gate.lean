import Noema.Core.Assemble
import Noema.Lib.PyText
import Noema.Ontology.Validator
import Noema.Sandbox.Ast

/-!
# The merge gate (`experiments/gate.py`)

`runMergeGate` looks at the changed files of a pull request in four stages: the axioms of the
ontology, the formal verifier, the sandbox and the judge. Each stage adds to `blockedBy` what speaks
against the merge, and the gate passes when nothing does. Without a changed file that is included,
the last two stages are not run.

What the gate calls is in `GateEnv` and `GateConfig`: git, the file system, Python's parser, the
verifier, the sandbox and the judge are functions that answer or raise. Which of their exceptions
are handled, and what a handler reports, differs from stage to stage and is as in the source: a
failed `git` is not told from one without output (`runGit`), a file that cannot be read is left out
or raises depending on the error, a verifier that raises blocks the merge.

The ontology stage collects two tables from the relations of the ontology (`axiomTables`):
`requires` with `setdefault`, which keeps the first object of a subject, and `forbids` with all of
them. It then compares the identifiers of each Python file with the tables, and reports in the order
of a set, which is any order (`GateEnv.order`).

What is proved about the gate is in `GateSound`.
-/

namespace Noema.Experiments

open Noema.Core Noema.Lib Noema.Ontology Noema.Sandbox PyJson

/-! ## Files and paths -/

/-- A changed file, as the stages see it. -/
structure ChangedFile where
  path : String
  language : String
  content : String
  deriving DecidableEq, Repr

/-- What `subprocess.run` returns. -/
structure CompletedProcess where
  returncode : Int
  stdout : String
  deriving DecidableEq, Repr

/-- How `read_text` ends. -/
inductive FileRead where
  | text (content : String)
  | osError
  | raised (e : PyExc)

/-- How `ast.parse` ends. -/
inductive Parse where
  | tree (root : Ast)
  | syntaxError
  | raised (e : PyExc)

/-- `Path(path).name`. -/
def pathName (path : String) : String :=
  let parts := (path.toList.splitOn '/').filter fun part => part ≠ [] ∧ part ≠ ['.']
  String.ofList (parts.getLast?.getD [])

/-- `"python" if path.endswith(".py") else "text"`. -/
def languageOf (path : String) : String := if endsWith path ".py" then "python" else "text"

/-! ## What the gate calls -/

/-- The attributes of a `JudgeVerdict` that the gate reads. -/
structure GateVerdict (F : Type) where
  overall : PyVal F
  passed : Bool
  summary : String

/-- The attributes that the gate reads of what a verifier or a sandbox returns. -/
structure CheckResult where
  passed : Bool
  text : String
  deriving DecidableEq, Repr

/-- `JudgeRunner`. -/
abbrev JudgeRunner (F : Type) := Solution → Except PyExc (GateVerdict F)

/-- `SandboxEngine.validate_files`, with `run_tests`. -/
abbrev SandboxRunner := List ChangedFile → Bool → Except PyExc CheckResult

/-- `GitRunner`. -/
abbrev GitRunner := List String → Except PyExc String

/-- The outside of the gate. -/
structure GateEnv (F : Type) where
  /-- `subprocess.run(["git", *args], ...)` -/
  process : List String → Except PyExc CompletedProcess
  readText : String → FileRead
  parse : String → Parse
  /-- The order in which a set of pairs is iterated. -/
  order : List (String × String) → List (String × String)
  perm : ∀ pairs, (order pairs).Perm pairs
  /-- `SandboxEngine(config=...)`, with `run_enabled` -/
  newSandbox : Bool → Except PyExc SandboxRunner
  /-- `_default_judge()` -/
  defaultJudge : Except PyExc (JudgeRunner F)
  /-- `f"{x:.3f}"` -/
  fixed : F → String

/-- `GateConfig` (gate.py:56); `none` is the value by default of `git`, `judge` and `sandbox`. -/
structure GateConfig (F : Type) where
  judgeThreshold : F
  sandboxEnabled : Bool := true
  sandboxRun : Bool := false
  runTests : Bool := false
  diffTarget : String := "origin/main"
  includeSuffixes : List String := [".py"]
  explicitFiles : Option (List (String × String)) := none
  git : Option GitRunner := none
  judge : Option (JudgeRunner F) := none
  sandbox : Option SandboxRunner := none
  verifier : Option (List (String × String) → Except PyExc CheckResult) := none
  requireSpecPatterns : List String := []
  ontology : Option (OntologyGraph F) := none

/-- `GateReport` (gate.py:82). -/
structure GateReport (F : Type) where
  passed : Bool
  changedFiles : Nat
  judgeScore : F
  judgePassed : Bool := false
  judgeSummary : String := ""
  sandboxAllValid : Option Bool := none
  sandboxSummary : String := ""
  formalVerified : Option Bool
  formalError : String
  blockedBy : List String
  ontologyViolations : List String
  note : String := ""

/-! ## The changed files -/

section Files

variable {F : Type} (env : GateEnv F)

/-- `run_git` (gate.py:40): a failed command is not told from one without output. -/
def runGit (args : List String) : Except PyExc String := do
  let result ← env.process args
  .ok result.stdout

/-- `_changed_file_paths` (gate.py:48). -/
def changedFilePaths (git : GitRunner) (diffTarget : String) : Except PyExc (List String) := do
  let stdout ← git ["diff", "--name-only", "--diff-filter=ACMR", diffTarget, "--", "."]
  let lines := splitLinesFrom [] (strip stdout.toList)
  .ok ((lines.filter fun line => strip line ≠ []).map String.ofList)

/-- The loop of `_raw_changed_files` over the paths. -/
def readFiles : List String → Except PyExc (List ChangedFile)
  | [] => .ok []
  | path :: paths =>
    match env.readText path with
    | .osError => readFiles paths
    | .raised e => .error e
    | .text content => do
      let rest ← readFiles paths
      .ok (⟨path, languageOf path, content⟩ :: rest)

/-- `_raw_changed_files` (gate.py:102). -/
def rawChangedFiles (cfg : GateConfig F) : Except PyExc (List ChangedFile) :=
  match cfg.explicitFiles with
  | some files => .ok (files.map fun (path, content) => ⟨path, languageOf path, content⟩)
  | none => do
    let paths ← changedFilePaths (cfg.git.getD (runGit env)) cfg.diffTarget
    readFiles env paths

/-- `f["path"].endswith(cfg.include_suffixes)`. -/
def GateConfig.includes (cfg : GateConfig F) (f : ChangedFile) : Bool :=
  cfg.includeSuffixes.any fun suffix => endsWith f.path suffix

/-- `_collect_files` (gate.py:129). -/
def collectFiles (cfg : GateConfig F) : Except PyExc (List ChangedFile) := do
  let files ← rawChangedFiles env cfg
  .ok (files.filter cfg.includes)

end Files

/-! ## The ontology stage -/

/-- The identifier of a node that `_referenced_identifiers` collects. -/
def referencedName : Kind → Option String
  | .name id _ => some id
  | .classDef name => some name
  | .functionDef name => some name
  | _ => none

mutual
/-- The identifiers of the nodes of `ast.walk(tree)`. -/
def identifiers : Ast → List String
  | .node _ kind children => (referencedName kind).toList ++ identifiersOf children
def identifiersOf : List (Field × Ast) → List String
  | [] => []
  | (_, child) :: rest => identifiers child ++ identifiersOf rest
end

/-- A violated axiom, with the file. -/
structure Violation where
  path : String
  subject : String
  predicate : Predicate
  object : String
  deriving DecidableEq, Repr

/-- `f"ontology:{path}:{subject} {predicate} {object}"` -/
def Violation.text (v : Violation) : String :=
  "ontology:" ++ v.path ++ ":" ++ v.subject ++ " " ++ v.predicate.text ++ " " ++ v.object

/-- The tables of `_ontology_violations`. -/
structure AxiomTables where
  requires : List (String × String) := []
  forbids : List (String × String) := []

section Ontology

variable {F : Type}

/-- Equality of pairs of names, under one name in every definition. -/
local instance lawfulBEqNames : LawfulBEq (String × String) := Prod.instLawfulBEq

/-- One turn of the loop over the relations: `requires.setdefault` keeps the first object of a
subject, `forbids` is a set. -/
def AxiomTables.add (t : AxiomTables) (r : Relation F) : AxiomTables :=
  if r.predicate = "requires" then
    if r.subject ∈ t.requires.map Prod.fst then t
    else { t with requires := t.requires ++ [(r.subject, r.object)] }
  else if r.predicate = "forbids" then
    if (r.subject, r.object) ∈ t.forbids then t
    else { t with forbids := t.forbids ++ [(r.subject, r.object)] }
  else t

/-- The tables of an ontology. -/
def axiomTables (ontology : OntologyGraph F) : AxiomTables := ontology.relations.foldl .add {}

variable (env : GateEnv F)

/-- `_referenced_identifiers` (gate.py:139). -/
def referencedIdentifiers (content : String) : Except PyExc (List String) :=
  match env.parse content with
  | .tree root => .ok (identifiers root)
  | .syntaxError => .ok []
  | .raised e => .error e

/-- The violations of one file. -/
def fileViolations (t : AxiomTables) (f : ChangedFile) : Except PyExc (List Violation) := do
  let ids ← referencedIdentifiers env f.content
  let missing := t.requires.filter fun (subject, object) => subject ∈ ids ∧ object ∉ ids
  let together := (env.order t.forbids).filter fun (subject, object) => subject ∈ ids ∧ object ∈ ids
  .ok ((missing.map fun (subject, object) => ⟨f.path, subject, .requires, object⟩) ++
    together.map fun (subject, object) => ⟨f.path, subject, .forbids, object⟩)

/-- The loop of `_ontology_violations` over the files. -/
def filesViolations (t : AxiomTables) : List ChangedFile → Except PyExc (List Violation)
  | [] => .ok []
  | f :: files =>
    if endsWith f.path ".py" then do
      let found ← fileViolations env t f
      let rest ← filesViolations t files
      .ok (found ++ rest)
    else filesViolations t files

/-- `_ontology_violations` (gate.py:154). -/
def ontologyViolations (files : List ChangedFile) (ontology : OntologyGraph F) :
    Except PyExc (List Violation) :=
  let t := axiomTables ontology
  if t.requires = [] ∧ t.forbids = [] then .ok [] else filesViolations env t files

/-- The ontology stage of `run_merge_gate`. -/
def ontologyStage (cfg : GateConfig F) (files : List ChangedFile) :
    Except PyExc (List Violation) :=
  match cfg.ontology with
  | some ontology => ontologyViolations env files ontology
  | none => .ok []

end Ontology

/-! ## The formal stage -/

/-- The places where a spec of the file may be. -/
def specCandidates (path : String) : List String :=
  let stem := String.ofList (path.toList.take (path.toList.length - ".py".length))
  [stem ++ ".lean", "specs/" ++ stem ++ ".lean", "specs/" ++ pathName stem ++ ".lean"]

/-- The file needs a spec: it is Python code under one of the prefixes. -/
def needsSpec (requirePatterns : List String) (f : ChangedFile) : Bool :=
  endsWith f.path ".py" && requirePatterns.any fun p => startsWith f.path p

/-- `_missing_formal_specs` (gate.py:186). -/
def missingFormalSpecs (files : List ChangedFile) (leanPaths requirePatterns : List String) :
    List String :=
  (files.filter fun f => needsSpec requirePatterns f ∧
    ∀ c ∈ specCandidates f.path, c ∉ leanPaths).map ChangedFile.path

/-- What the formal stage reports. -/
structure FormalOutcome where
  verified : Option Bool := none
  error : String := ""
  blockedBy : List String := []

section Stages

variable {F : Type}

/-- The verifier on the `.lean` files. -/
def verifyFiles (verifier : List (String × String) → Except PyExc CheckResult)
    (leanFiles : List (String × String)) : FormalOutcome :=
  if leanFiles = [] then {}
  else
    match verifier leanFiles with
    | .ok result =>
      { verified := some result.passed
        error := result.text
        blockedBy := if result.passed then [] else ["formal_verification"] }
    | .error e =>
      { verified := some false
        error := "verifier_crashed:" ++ e.msg
        blockedBy := ["formal_verification"] }

/-- The formal stage of `run_merge_gate`. -/
def formalStage (cfg : GateConfig F) (rawFiles files : List ChangedFile) : FormalOutcome :=
  match cfg.verifier with
  | none => {}
  | some verifier =>
    let leanFiles := (rawFiles.filter fun f => endsWith f.path ".lean").map fun f =>
      (f.path, f.content)
    let outcome := verifyFiles verifier leanFiles
    -- The patterns are only looked at when there is a verifier.
    let missing := missingFormalSpecs files (leanFiles.map Prod.fst) cfg.requireSpecPatterns
    if cfg.requireSpecPatterns = [] then outcome
    else
      { outcome with
        blockedBy := outcome.blockedBy ++ missing.map fun path => "missing_formal_spec:" ++ path }

/-! ## The sandbox and the judge -/

/-- What the sandbox stage reports. -/
structure SandboxOutcome where
  allValid : Option Bool := none
  summary : String := ""
  blockedBy : List String := []

/-- `cfg.sandbox or SandboxEngine(...)`. -/
def gateSandbox (env : GateEnv F) (cfg : GateConfig F) : Except PyExc SandboxRunner :=
  match cfg.sandbox with
  | some sandbox => .ok sandbox
  | none => env.newSandbox cfg.sandboxRun

/-- The sandbox stage of `run_merge_gate`. -/
def sandboxStage (env : GateEnv F) (cfg : GateConfig F) (files : List ChangedFile) :
    Except PyExc SandboxOutcome :=
  if cfg.sandboxEnabled then do
    let sandbox ← gateSandbox env cfg
    match sandbox files cfg.runTests with
    | .ok result =>
      .ok
        { allValid := some result.passed
          summary := result.text
          blockedBy := if result.passed then [] else ["sandbox"] }
    -- a sandbox that raises blocks the merge
    | .error e =>
      .ok
        { allValid := some false
          summary := "sandbox_error:" ++ e.msg
          blockedBy := ["sandbox"] }
  else .ok {}

/-- The solution that the judge sees. -/
def gateSolution (files : List ChangedFile) : Solution where
  taskId := "merge-gate"
  title := "Pull request changes"
  summary := "Changed files: " ++ toString files.length
  codeBlocks := files.map fun f => { filename := f.path, language := f.language, content := f.content }

/-- What the judge stage reports. -/
structure JudgeOutcome (F : Type) where
  score : F
  passed : Bool := false
  summary : String := ""
  blockedBy : List String := []

variable [PyInterp F]

/-- `float(verdict.scores.overall or 0.0)`. -/
def GateVerdict.score (verdict : GateVerdict F) : Except PyExc F :=
  (verdict.overall.pyOr (.float zeroFloat)).pyFloat

/-- The body of the `try` around the judge. -/
def askJudge (judge : JudgeRunner F) (files : List ChangedFile) :
    Except PyExc (GateVerdict F × F) := do
  let verdict ← judge (gateSolution files)
  let score ← verdict.score
  .ok (verdict, score)

/-- The `try` around the judge. -/
def judgeOutcome (judge : JudgeRunner F) (files : List ChangedFile) : JudgeOutcome F :=
  match askJudge judge files with
  | .ok (verdict, score) => { score := score, passed := verdict.passed, summary := verdict.summary }
  | .error e => { score := zeroFloat, blockedBy := ["judge_error:" ++ e.msg] }

/-- `cfg.judge or _default_judge()`. -/
def gateJudge (env : GateEnv F) (cfg : GateConfig F) : Except PyExc (JudgeRunner F) :=
  match cfg.judge with
  | some judge => .ok judge
  | none => env.defaultJudge

/-- The judge stage of `run_merge_gate`. -/
def judgeStage (env : GateEnv F) (cfg : GateConfig F) (files : List ChangedFile) :
    Except PyExc (JudgeOutcome F) := do
  let judge ← gateJudge env cfg
  let outcome := judgeOutcome judge files
  if PyInterp.lt outcome.score cfg.judgeThreshold then
    .ok
      { outcome with
        blockedBy := outcome.blockedBy ++ ["judge_score=" ++ env.fixed outcome.score ++
          " < threshold=" ++ env.fixed cfg.judgeThreshold] }
  else .ok outcome

/-! ## The gate -/

/-- `run_merge_gate` (gate.py:211). -/
def runMergeGate (env : GateEnv F) (cfg : GateConfig F) : Except PyExc (GateReport F) := do
  let rawFiles ← rawChangedFiles env cfg
  let files := rawFiles.filter cfg.includes
  let found ← ontologyStage env cfg files
  let violations := found.map Violation.text
  -- the Lean files are looked for among all changed files, whatever the filters take out
  let formal := formalStage cfg rawFiles files
  if files = [] then
    -- no file is left for the sandbox and the judge
    let blockedBy := violations ++ formal.blockedBy
    .ok
      { passed := blockedBy.isEmpty
        changedFiles := 0
        judgeScore := zeroFloat
        formalVerified := formal.verified
        formalError := formal.error
        blockedBy := blockedBy
        ontologyViolations := violations
        note := "no_changed_files" }
  else
    let sandbox ← sandboxStage env cfg files
    let judge ← judgeStage env cfg files
    let blockedBy := violations ++ formal.blockedBy ++ sandbox.blockedBy ++ judge.blockedBy
    .ok
      { passed := blockedBy.isEmpty
        changedFiles := files.length
        judgeScore := judge.score
        judgePassed := judge.passed
        judgeSummary := judge.summary
        sandboxAllValid := sandbox.allValid
        sandboxSummary := sandbox.summary
        formalVerified := formal.verified
        formalError := formal.error
        blockedBy := blockedBy
        ontologyViolations := violations }

end Stages

end Noema.Experiments
