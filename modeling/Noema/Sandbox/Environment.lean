import Noema.Lib.Regex

/-!
# Execution environments (`sandbox/environment.py`)

The stages of the sandbox write the files into a fresh directory and start subprocesses over them.
What the system does is a `StageBehaviour`: creating the directory and writing a file may raise, and
a subprocess may fail to start, time out or exit with any code. A stage puts its verdicts into a
`SandboxResult`; the subprocesses that it started, with the directory that they see, are the state
of the computation, so that they are on record also when the stage raises.

- `safeJoin`: where a path leads in the directory. Resolved paths are lists of components: nothing
  in a fresh directory is a symbolic link.
- `writeFiles`, `diskOf`: the files are written in their order, so that the last one of a path wins.
- `withFiles`: an exception while the files are written ends the stage and is swallowed there; one
  of the directory is not.
- `lint`, `runCode`, `runTests`: the stages of both environments. Locally a subprocess is given the
  path of its file, and in a container only the name of that path.
- `parsePytestCounts`: the counts of the tests, read from the tail of what was printed.
-/

namespace Noema.Sandbox

open Noema.Lib

/-! ## Files and paths -/

/-- An entry of `files`, a dict of strings. -/
structure SourceFile where
  pathKey : Option String := none
  filenameKey : Option String := none
  languageKey : Option String := none
  contentKey : Option String := none
  deriving DecidableEq, Repr

namespace SourceFile

variable (f : SourceFile)

/-- `f.get("path", f.get("filename", "main.py"))`. -/
def path : String := f.pathKey.getD (f.filenameKey.getD "main.py")

/-- `f.get("language", "python")`. -/
def language : String := f.languageKey.getD "python"

/-- `f.get("content", "")`. -/
def content : String := f.contentKey.getD ""

/-- `"test" in f.get("path", f.get("filename", ""))`. -/
def isTest : Bool :=
  (f.pathKey.getD (f.filenameKey.getD "")).toList.tails.any fun t => "test".toList.isPrefixOf t

end SourceFile

/-- A path relative to the directory of a stage. -/
abbrev RelPath := List String

/-- The components of a path that is joined to another one. -/
def components (relPath : String) : List String :=
  let text := relPath.toList.dropWhile fun c => c = '/' ∨ c = '\\'
  ((text.splitOn '/').map String.ofList).filter fun c => c ≠ "" ∧ c ≠ "."

/-- `Path.resolve`. -/
def resolve (parts : List String) : List String :=
  parts.foldl (fun resolved part => if part = ".." then resolved.dropLast else resolved ++ [part]) []

/-- `_safe_join` (environment.py:100), relative to the directory. -/
def safeJoin (base : List String) (relPath : String) : Except PyExc RelPath :=
  let candidate := resolve (base ++ components (if relPath = "" then "main.py" else relPath))
  if base.isPrefixOf candidate then .ok (candidate.drop base.length)
  else .error (.valueError ("Unsafe path in sandbox input: '" ++ relPath ++ "'"))

/-- `name.suffix` of the last component of a path. -/
def suffix (path : RelPath) : String :=
  let name := (path.getLast?.getD "").toList
  let ext := name.reverse.takeWhile (· ≠ '.')
  if 0 < ext.length ∧ ext.length + 1 < name.length then String.ofList ('.' :: ext.reverse) else ""

/-- The files in a directory, the last written first. -/
abbrev Disk := List (RelPath × String)

/-! ## Results -/

/-- The fields of a `SandboxConfig` that validation reads. -/
structure SandboxConfig where
  maxCpuSeconds : String := "10.0"
  staticCheckEnabled : Bool := true
  staticAllowImports : List String := []
  lintEnabled : Bool := true
  runEnabled : Bool := true
  testEnabled : Bool := true

/-- `CodeValidationResult`, without its times. -/
structure CodeValidationResult where
  filePath : String
  language : String
  astValid : Bool := true
  astErrors : List String := []
  staticPassed : Bool := true
  staticIssues : List String := []
  lintPassed : Bool := true
  lintErrors : List String := []
  runPassed : Bool := true
  runOutput : String := ""
  runErrors : String := ""
  deriving DecidableEq, Repr

/-- `SandboxResult`, without its times. -/
structure SandboxResult where
  allValid : Bool := false
  files : List CodeValidationResult := []
  testsPassed : Nat := 0
  testsFailed : Nat := 0
  summary : String := ""
  deriving DecidableEq, Repr

/-- The value of a text of decimal digits. -/
def digitsValue (digit : Char → Nat) (text : List Char) : Nat :=
  text.foldl (fun n c => 10 * n + digit c) 0

/-- `_parse_pytest_counts` (environment.py:146); `digit` is the value of a decimal digit. -/
def parsePytestCounts (u : Unicode) (digit : Char → Nat) (output : String) (returncode : Int) :
    Nat × Nat :=
  let tail := output.toList.drop (output.length - 2000)
  let count (word : String) : Option Nat :=
    (Pat.search u (.seq (.group (.many1 u.isDecimal)) (.seq (.many1 isSpace) (Pat.lit word)))
      tail).bind fun groups => groups.head?.map (digitsValue digit)
  match count "passed", count "failed", count "error" with
  | none, none, none => if returncode = 0 then (1, 0) else (0, 1)
  | passed, failed, errors => (passed.getD 0, failed.getD 0 + errors.getD 0)

/-! ## Behaviour of the system -/

/-- The end of a subprocess, with what it wrote. -/
inductive Outcome where
  | exited (code : Int) (output : String)
  | timedOut
  | raised (started : Bool) (e : PyExc)
  deriving DecidableEq, Repr

/-- The subprocess was started. -/
def Outcome.isStarted : Outcome → Bool
  | .raised started _ => started
  | _ => true

/-- What the system does in a stage, by the indices of the files. `pooled` says which of the
waiting lint runs the thread pool still starts after one of them has raised. -/
structure StageBehaviour where
  tmpDir : Except PyExc (List String)
  writeError : Nat → Option PyExc
  outcome : Nat → Outcome
  pooled : Nat → Bool

/-- A subprocess that was started in a directory. -/
inductive Process where
  | ruff (index : Nat) (target : RelPath) (disk : Disk)
  | python (index : Nat) (target : RelPath) (disk : Disk)
  | pytest (disk : Disk)
  deriving DecidableEq, Repr

/-- The two environments. -/
inductive Environment where
  | local
  | docker
  deriving DecidableEq, Repr

/-- The file that a subprocess is given: in a container only the name of the path is used. -/
def Environment.target : Environment → RelPath → RelPath
  | .local, path => path
  | .docker, path => [path.getLast?.getD ""]

/-! ## Stages -/

/-- `_write_files` (environment.py:302 and 490), with the paths of the files. -/
def writeFiles (base : List String) (writeError : Nat → Option PyExc) (files : List SourceFile) :
    Except PyExc (List RelPath) :=
  files.zipIdx.mapM fun (f, i) => do
    let path ← safeJoin base f.path
    if path = [] then .error (.osError "Is a directory")
    else
      match writeError i with
      | some e => .error e
      | none => .ok path

/-- The directory after `_write_files`. -/
def diskOf (files : List SourceFile) (paths : List RelPath) : Disk :=
  (paths.zip (files.map SourceFile.content)).reverse

/-- A stage after its directory was made: an exception while the files are written ends it. -/
def withFiles (sb : StageBehaviour) (files : List SourceFile) (result : SandboxResult)
    (stage : List RelPath → PyM (List Process) SandboxResult) : PyM (List Process) SandboxResult := do
  let base ← PyM.lift sb.tmpDir
  match writeFiles base sb.writeError files with
  | .error _ => return result
  | .ok paths => stage paths

/-- The files with their paths, where `p` holds. -/
def indicesWhere (files : List SourceFile) (paths : List RelPath)
    (p : Nat → SourceFile → RelPath → Bool) : List (Nat × RelPath) :=
  (files.zip paths).zipIdx.filterMap fun ((f, path), i) => if p i f path then some (i, path) else none

/-- The file is linted: `lang == "python" and file_path.suffix == ".py"`. -/
def isLinted (f : SourceFile) (path : RelPath) : Bool :=
  f.language == "python" && suffix path == ".py"

/-- `text.split("\n")` of the stripped text. -/
def splitLines (text : String) : List String :=
  ((strip text.toList).splitOn '\n').map String.ofList

/-- A lint run has ended. -/
def CodeValidationResult.lint (vr : CodeValidationResult) (env : Environment) :
    Outcome → CodeValidationResult
  | .exited code output =>
    if code = 0 then vr
    else
      { vr with
        lintPassed := false
        lintErrors :=
          if strip output.toList = [] then
            match env with
            | .local => ["lint produced no output"]
            | .docker => [""]
          else splitLines output }
  -- only the Docker branch counts a timeout as a failure
  | .timedOut =>
    match env with
    | .local => vr
    | .docker => { vr with lintPassed := false, lintErrors := ["Lint timed out"] }
  | .raised _ _ => vr

/-- The outcome ends the lint stage with an exception. -/
def stopsLint : Environment → Outcome → Bool
  | _, .exited _ _ => false
  | .local, .timedOut => true
  | .docker, .timedOut => false
  | _, .raised _ _ => true

/-- The lint run of a file is started. In a container the files are linted in turn until one of
the runs raises; locally the thread pool may have started further runs by then. -/
def lintReached (env : Environment) (sb : StageBehaviour) (files : List SourceFile)
    (paths : List RelPath) (i : Nat) : Bool :=
  (indicesWhere files paths fun j f path => isLinted f path && stopsLint env (sb.outcome j)).all
    (fun (j, _) => i ≤ j) ||
  match env with
  | .local => sb.pooled i
  | .docker => false

/-- `lint` (environment.py:310 and 498). -/
def lint (env : Environment) (sb : StageBehaviour) (files : List SourceFile)
    (result : SandboxResult) : PyM (List Process) SandboxResult :=
  withFiles sb files result fun paths => do
    let reached := indicesWhere files paths fun i f path =>
      isLinted f path && lintReached env sb files paths i
    let started := reached.filter fun (i, _) => (sb.outcome i).isStarted
    PyM.modify fun log => log ++ started.map fun (i, path) =>
      .ruff i (env.target path) (diskOf files paths)
    return { result with
      files := result.files.mapIdx fun i vr =>
        if i ∈ reached.map Prod.fst then vr.lint env (sb.outcome i) else vr }

/-- A run of a file has ended. -/
def CodeValidationResult.run (vr : CodeValidationResult) (cfg : SandboxConfig) :
    Outcome → CodeValidationResult
  | .exited code output =>
    if code = 0 then
      { vr with runPassed := true, runOutput := String.ofList (output.toList.take 500) }
    else { vr with runPassed := false, runErrors := String.ofList (output.toList.take 1000) }
  | .timedOut =>
    { vr with
      runPassed := false
      runErrors := "Execution timed out after " ++ cfg.maxCpuSeconds ++ "s" }
  | .raised _ e =>
    { vr with runPassed := false, runErrors := String.ofList (e.msg.toList.take 500) }

/-- The static pass found nothing in the file with the index. -/
def staticPassedAt (result : SandboxResult) (i : Nat) : Bool :=
  (result.files[i]?.map CodeValidationResult.staticPassed).getD false

/-- `run_code` (environment.py:348 and 552). The tasks of `gather` touch only their own file. -/
def runCode (env : Environment) (cfg : SandboxConfig) (sb : StageBehaviour)
    (files : List SourceFile) (result : SandboxResult) : PyM (List Process) SandboxResult :=
  withFiles sb files result fun paths => do
    let reached := indicesWhere files paths fun i f _ =>
      f.language == "python" && staticPassedAt result i
    let started := reached.filter fun (i, _) => (sb.outcome i).isStarted
    PyM.modify fun log => log ++ started.map fun (i, path) =>
      .python i (env.target path) (diskOf files paths)
    return { result with
      files := result.files.mapIdx fun i vr =>
        if i ∈ reached.map Prod.fst then vr.run cfg (sb.outcome i) else vr }

/-- `run_tests` (environment.py:411 and 619); the outcome of `pytest` has the index 0. -/
def runTests (u : Unicode) (digit : Char → Nat) (sb : StageBehaviour) (files : List SourceFile)
    (result : SandboxResult) : PyM (List Process) SandboxResult :=
  if files.all fun f => !f.isTest then do
    let _ ← PyM.lift sb.tmpDir
    return result
  else
    withFiles sb files result fun paths => do
      if (sb.outcome 0).isStarted then
        PyM.modify fun log => log ++ [.pytest (diskOf files paths)]
      match sb.outcome 0 with
      | .exited code output =>
        let (passed, failed) := parsePytestCounts u digit output code
        return { result with testsPassed := passed, testsFailed := failed }
      | _ => return result

end Noema.Sandbox
