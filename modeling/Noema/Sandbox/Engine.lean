import Noema.Neurosymbolic.Static
import Noema.Sandbox.Environment

/-!
# The sandbox engine (`sandbox/engine.py`)

`validateFiles` runs the static checks over all files, and then the stages of the environment that
was picked: the lint stage, the run stage and, when asked for, the test stage. Each stage can be
switched off in the configuration. A result is valid as a whole when all flags of all files are set;
the counters of the tests are not among them.

- `validateCodeBlock`: the static checks of one file, which leave alone what is not Python.
- `allowedImports`: the roots that the files may import: the standard library, the configured ones,
  and what their own paths name.

What Python's parser and the static pass say about a text are parameters (`PythonCheck`), either of
which may raise; `ImportIssues` has the pass of the source as an instance. What the system does in
the stages is in `Environment`.
-/

namespace Noema.Sandbox

open Noema.Lib Noema.Neurosymbolic

/-- `ast.parse`, with the text of a `SyntaxError`, and `analyze_code`. -/
structure PythonCheck where
  parse : String → Except PyExc (Option String)
  analyzeCode : String → List String → Except PyExc (List StaticIssue)

/-- What the system does in one validation. -/
structure Behaviour where
  hasDocker : Bool
  imageAvailable : Bool
  lint : StageBehaviour
  run : StageBehaviour
  tests : StageBehaviour

/-- `_pick_env` (engine.py:112). -/
def pickEnv (b : Behaviour) : Environment :=
  if b.hasDocker && b.imageAvailable then .docker else .local

/-- `validate_code_block` (engine.py:142). -/
def validateCodeBlock (check : PythonCheck) (cfg : SandboxConfig) (allowed : List String)
    (f : SourceFile) : Except PyExc CodeValidationResult := do
  let vr : CodeValidationResult := { filePath := f.path, language := f.language }
  if f.language = "python" then
    match ← check.parse f.content with
    | some error => return { vr with astValid := false, astErrors := [error] }
    | none =>
      if cfg.staticCheckEnabled then
        let issues ← check.analyzeCode f.content allowed
        return { vr with staticPassed := issues.isEmpty, staticIssues := issues.map renderIssue }
      else return vr
  else return vr

/-- `Path(name).stem` of a name without slashes. -/
def stem (name : String) : String :=
  if name = "." then ""
  else String.ofList (name.toList.take (name.length - (suffix [name]).length))

/-- The root under which a file is imported by its siblings. -/
def siblingRoot (f : SourceFile) : String :=
  let parts := ((f.path.toList.map fun c => if c = '\\' then '/' else c).splitOn '/').map String.ofList
  match parts with
  | [name] => stem name
  | parts => parts.headD ""

/-- The imports that the files may use: the standard library, the configured ones, and each
other. -/
def allowedImports (stdlib : List String) (cfg : SandboxConfig) (files : List SourceFile) :
    List String :=
  stdlib ++ cfg.staticAllowImports ++ (files.map siblingRoot).filter (· ≠ "")

/-- All flags of a file are set. -/
def CodeValidationResult.valid (vr : CodeValidationResult) : Bool :=
  vr.astValid && vr.staticPassed && vr.lintPassed && vr.runPassed

/-- The summary of a result. -/
def summaryOf (result : SandboxResult) (withTests : Bool) : String :=
  let passed := result.files.countP fun vr => vr.astValid && vr.staticPassed
  toString passed ++ "/" ++ toString result.files.length ++ " files valid" ++
    if withTests then ", tests: " ++ toString result.testsPassed ++ "/" ++
      toString (result.testsPassed + result.testsFailed) else ""

/-- `if enabled: result = stage`. -/
def stageIf (enabled : Bool) (stage : PyM (List Process) SandboxResult) (result : SandboxResult) :
    PyM (List Process) SandboxResult :=
  if enabled then stage else pure result

/-- What `validate_files` is given apart from the files. -/
structure SandboxEngine where
  check : PythonCheck
  stdlib : List String
  config : SandboxConfig
  unicode : Unicode
  digit : Char → Nat

/-- `validate_files` (engine.py:203). -/
def validateFiles (engine : SandboxEngine) (b : Behaviour) (files : List SourceFile)
    (withTests : Bool) : PyM (List Process) SandboxResult := do
  let cfg := engine.config
  let allowed := allowedImports engine.stdlib cfg files
  let checked ← PyM.lift (files.mapM (validateCodeBlock engine.check cfg allowed))
  let env := pickEnv b
  let result : SandboxResult := { files := checked }
  let result ← stageIf cfg.lintEnabled (lint env b.lint files result) result
  let result ← stageIf cfg.runEnabled (runCode env cfg b.run files result) result
  let result ← stageIf (withTests && cfg.testEnabled)
    (runTests engine.unicode engine.digit b.tests files result) result
  return { result with
    allValid := result.files.all CodeValidationResult.valid
    summary := summaryOf result withTests }

end Noema.Sandbox
