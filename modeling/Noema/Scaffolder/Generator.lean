import Noema.Core.Assemble
import Noema.Lib.PyText
import Noema.Lib.TextTree

/-!
# The project scaffolder (`scaffolder/generator.py`)

`scaffold` makes the directory of a project and writes the files of a solution into it: the code
blocks, each at the place that `mapFilename` gives its name, then the configuration, the README and
the manifest. The names of the code blocks are those that an LLM chose.

- `slugify`: the name of the directory, from the title of the task.
- `sanitizeFilename`: the parts of a name, without those that climb, are empty or name a drive. The
  parts are those of `PurePosixPath`, which knows a root of two slashes.
- `mapFilename`: tests go to `tests`, and a module of a Python project to its package.
- `writeBlock`: the path is resolved and compared with the directory of the project, and a path
  outside of it is refused.
- `createConfigs`, `createReadme`, `createProjectManifest`: the other files, with their texts.

The file system is that of `Lib.TextTree`, without symbolic links, and any system call may be
refused (`Surroundings`). The functions on names are irreducible, since their texts are long and
nothing but their lemmas is to be used.
-/

namespace Noema.Scaffolder

open Noema.Lib Noema.Core Posix PyM

/-! ## Data -/

/-- The fields of a `Task` that a project shows. -/
structure Task where
  title : String
  description : String
  deriving DecidableEq, Repr

/-- The fields of a `Solution` that a project shows, the confidence as a percentage. -/
structure Solution extends Core.Solution where
  quality : String := "draft"
  confidence : String := "50%"
  deriving DecidableEq, Repr

/-- What a run finds: the character data, `repr` of a name, which system calls are refused, and the
drawing of a directory (`_tree`). -/
structure Surroundings where
  u : Unicode
  upper : List Char → List Char
  nfkd : List Char → List Char
  repr : String → String
  fault : Nat → Bool
  tree : World → List String → String

/-- The directories for the files of a project. -/
structure Dirs where
  src : String
  tests : String
  docs : String
  config : String
  deriving DecidableEq, Repr

/-- What `scaffold` returns. -/
structure Scaffolded where
  projectDir : List String
  filesCreated : Nat
  files : List String
  tree : String
  deriving DecidableEq, Repr

/-! ## Names -/

/-- `re.sub(r"[^a-z0-9]+", "_", text)`; `inRun` says whether a run has been replaced already. -/
def underscoreRuns (inRun : Bool) : List Char → List Char
  | [] => []
  | c :: cs =>
    if ('a' ≤ c && c ≤ 'z') || ('0' ≤ c && c ≤ '9') then c :: underscoreRuns false cs
    else if inRun then underscoreRuns true cs
    else '_' :: underscoreRuns true cs

/-- `_slugify` (generator.py:280). -/
@[irreducible] def slugify (env : Surroundings) (text : String) : String :=
  let ascii := (env.nfkd text.toList).filter (·.toNat < 128)
  let slug := stripBy (· == '_') (underscoreRuns false (ascii.map Char.toLower))
  if slug = [] then "project" else String.ofList slug

/-- The root in the parts of a `PurePosixPath`: two slashes are another root than one, and than
three. -/
def rootParts : List Char → List String
  | '/' :: '/' :: '/' :: _ => ["/"]
  | '/' :: '/' :: _ => ["//"]
  | '/' :: _ => ["/"]
  | _ => []

/-- `PurePosixPath(text).parts`. -/
def pureParts (text : String) : List String := rootParts text.toList ++ parts text

/-- `raw.replace("\\", "/").strip()`. -/
def normalized (raw : String) : String :=
  String.ofList (strip (raw.toList.map fun c => if c = '\\' then '/' else c))

/-- The parts that `_sanitize_filename` keeps. -/
def isKept (p : String) : Bool :=
  p ∉ ["", ".", "..", "/"] && !p.toList.contains ':'

/-- `_sanitize_filename` (generator.py:91). -/
@[irreducible] def sanitizeFilename (raw : String) : String :=
  let parts := (pureParts (normalized raw)).filter isKept
  "/".intercalate (if parts = [] then ["generated.py"] else parts)

/-- The name is that of a test. -/
@[irreducible] def isTestName (fn : String) : Bool :=
  ["test_", "_test", "spec_"].any fun ind => startsWith fn ind || ind.toList <:+: fn.toList

/-- The name is that of a file for the root of a project. -/
@[irreducible] def isRootName (fn : String) : Bool :=
  fn ∈ ["Dockerfile", "docker-compose.yml", ".dockerignore"] ||
    [".yml", ".yaml", ".toml", ".json"].any (endsWith fn ·) || startsWith fn "."

/-- `_map_filename` (generator.py:109). -/
@[irreducible] def mapFilename (u : Unicode) (block : CodeBlock) (dirs : Dirs) : String :=
  let fn := sanitizeFilename block.filename
  if isTestName fn then "tests/" ++ fn
  else if isRootName fn then fn
  else if String.ofList (u.lower block.language.toList) = "python" then
    if '/' ∉ fn.toList then dirs.src ++ "/" ++ fn else fn
  else fn

/-! ## Texts -/

section Texts

variable (env : Surroundings)

/-- `solution.stack.languages[0].lower()`, if there is one. -/
def firstLanguage (solution : Solution) : Option String :=
  solution.stack.languages.head?.map fun lang => String.ofList (env.u.lower lang.toList)

/-- The language of a project. -/
def language (solution : Solution) : String := (firstLanguage env solution).getD "python"

/-- `_generate_gitignore` (generator.py:235). -/
def generateGitignore (solution : Solution) : String :=
  let base := "__pycache__/\n*.py[cod]\n*.egg-info/\ndist/\nbuild/\n.env\n.venv/\nvenv/\n*.log\n" ++
    "node_modules/\n.DS_Store\n"
  if language env solution = "typescript" then base ++ "\nnode_modules/\ndist/\n.env*\n" else base

/-- `_generate_env_example` (generator.py:255). -/
def generateEnvExample (solution : Solution) : String :=
  let urls := solution.stack.databases.map fun db =>
    String.ofList ((env.upper db.toList).map fun c => if c = ' ' then '_' else c) ++
      "_URL=connection_string"
  "\n".intercalate (["# Environment Configuration"] ++ urls ++
    ["LOG_LEVEL=INFO", "SECRET_KEY=change-me-in-production"]) ++ "\n"

/-- `ruff.toml`. -/
def ruffToml : String :=
  "[tool.ruff]\nline-length = 100\ntarget-version = \"py312\"\n\n[tool.ruff.lint]\n" ++
    "select = [\"E\", \"F\", \"I\", \"N\", \"UP\"]\n"

/-- `part in text.lower()`. -/
def mentions (text part : String) : Bool := part.toList <:+: env.u.lower text.toList

/-- `_python_deps` (generator.py:263). -/
def pythonDeps (solution : Solution) : String :=
  let frameworks := solution.stack.frameworks.flatMap fun fw =>
    if mentions env fw "fastapi" then ["\"fastapi>=0.100\"", "\"uvicorn>=0.23\""]
    else if mentions env fw "flask" then ["\"flask>=3.0\""] else []
  let databases := solution.stack.databases.flatMap fun db =>
    if mentions env db "postgres" then ["\"asyncpg>=0.29\"", "\"sqlalchemy>=2.0\""]
    else if mentions env db "redis" then ["\"redis>=5.0\""] else []
  "[" ++ ", ".intercalate (["\"pydantic>=2.0\""] ++ frameworks ++ databases) ++ "]"

/-- `pyproject.toml`. -/
def pyproject (solution : Solution) : String :=
  let name := slugify env solution.title
  "[build-system]\nrequires = [\"hatchling\"]\nbuild-backend = \"hatchling.build\"\n\n" ++
    "[project]\nname = \"" ++ name ++ "\"\nversion = \"0.1.0\"\nrequires-python = \">=3.12\"\n" ++
    "dependencies = " ++ pythonDeps env solution ++ "\n\n[tool.hatch.build.targets.wheel]\n" ++
    "packages = [\"src/" ++ name ++ "\"]\n"

/-- `package.json`. -/
def packageJson (solution : Solution) : String :=
  "\x7b\n  \"name\": \"" ++ slugify env solution.title ++ "\",\n  \"version\": \"0.1.0\",\n" ++
    "  \"private\": true,\n  \"scripts\": \x7b\n    \"dev\": \"tsx watch src/index.ts\",\n" ++
    "    \"build\": \"tsc\",\n    \"start\": \"node dist/index.js\",\n    \"test\": \"vitest\",\n" ++
    "    \"lint\": \"eslint src/\",\n    \"typecheck\": \"tsc --noEmit\"\n  \x7d,\n" ++
    "  \"dependencies\": \x7b\x7d,\n  \"devDependencies\": \x7b\n    \"typescript\": \"^5.4\",\n" ++
    "    \"tsx\": \"^4.7\",\n    \"vitest\": \"^1.3\"\n  \x7d\n\x7d\n"

/-- The README, with the drawing of the project. -/
def readme (solution : Solution) (task : Task) (tree : String) : String :=
  let archLine := match solution.architecture with
    | some arch => "Architecture: " ++ arch.name
    | none => ""
  let qualityLine := "Quality: " ++ solution.quality ++ " | Confidence: " ++ solution.confidence
  "# " ++ solution.title ++ "\n\n" ++
    (if task.description = "" then task.title else task.description) ++ "\n\n## Stack\n\n" ++
    solution.stack.summary ++ "\n\n" ++ archLine ++ "\n\n## Quick Start\n\n" ++
    "```bash\n# Install dependencies\npip install -e .\n\n# Run\npython -m " ++
    slugify env solution.title ++ ".main\n\n# Test\npytest tests/\n```\n\n" ++
    "## Project Structure\n\n```\n" ++ tree ++ "\n```\n\n---\nGenerated by Noema | " ++
    qualityLine ++ "\n"

end Texts

/-! ## Files -/

section Files

variable (env : Surroundings) (projectDir : List String)

/-- A directory of the project; in Python it is a package. -/
def createDirectory (lang dir : String) : PyM Disk Unit := do
  onWorld (mkdirP env.fault (joinPath projectDir dir))
  if lang = "python" then touchFile env.fault (joinPath projectDir dir ++ ["__init__.py"])
  else pure ()

/-- `_create_directories` (generator.py:63). -/
def createDirectories (solution : Solution) : PyM Disk Dirs := do
  let lang := language env solution
  let src := if lang = "python" then "src/" ++ slugify env solution.title else "src"
  createDirectory env projectDir lang src
  createDirectory env projectDir lang "tests"
  createDirectory env projectDir lang "docs"
  createDirectory env projectDir lang "config"
  onWorld (mkdirP env.fault (joinPath projectDir "tests"))
  return { src, tests := "tests", docs := "docs", config := "config" }

/-- `path.resolve()`: there are no symbolic links. -/
def resolvePath (path : List String) : Except PyExc Loc :=
  if path.any hasNul then .error (.valueError "embedded null byte") else .ok (resolve [] path)

/-- The exception for a name that leads out of the project. -/
def unsafeFilename (filename : String) : PyExc :=
  .valueError ("Unsafe filename escapes project directory: " ++ env.repr filename)

/-- The loop body of `scaffold`: the name of the file that was written. -/
@[irreducible] def writeBlock (dirs : Dirs) (block : CodeBlock) : PyM Disk String := do
  let projectRoot := resolve [] projectDir
  let target ← PyM.lift (resolvePath (joinPath projectDir (mapFilename env.u block dirs)))
  if ¬ projectRoot <+: target then PyM.raise (unsafeFilename env block.filename)
  else
    onWorld (mkdirP env.fault target.dropLast)
    writeText env.fault target block.content
    return "/".intercalate (target.drop projectRoot.length)

/-- The code blocks of a solution. -/
def writeBlocks (dirs : Dirs) : List CodeBlock → PyM Disk (List String)
  | [] => pure []
  | block :: blocks => do
    let file ← writeBlock env projectDir dirs block
    let files ← writeBlocks dirs blocks
    return file :: files

/-- `(project_dir / name).write_text(content)`. -/
def writeOwn (name content : String) : PyM Disk (List String) := do
  writeText env.fault (joinPath projectDir name) content
  return [name]

/-- `ruff.toml` is for a project that says that it is in Python. -/
def createRuff (solution : Solution) : PyM Disk (List String) :=
  if firstLanguage env solution = some "python" then writeOwn env projectDir "ruff.toml" ruffToml
  else pure []

/-- `_create_configs` (generator.py:129). -/
def createConfigs (solution : Solution) : PyM Disk (List String) := do
  let gitignore ← writeOwn env projectDir ".gitignore" (generateGitignore env solution)
  let envExample ← writeOwn env projectDir ".env.example" (generateEnvExample env solution)
  let ruff ← createRuff env projectDir solution
  return gitignore ++ envExample ++ ruff

/-- `_create_readme` (generator.py:194). -/
def createReadme (solution : Solution) (task : Task) : PyM Disk (List String) := do
  let d ← PyM.get
  writeOwn env projectDir "README.md" (readme env solution task (env.tree d.world projectDir))

/-- `_create_project_manifest` (generator.py:147). -/
def createProjectManifest (solution : Solution) : PyM Disk (List String) :=
  if language env solution = "python" then
    writeOwn env projectDir "pyproject.toml" (pyproject env solution)
  else if language env solution = "typescript" then
    writeOwn env projectDir "package.json" (packageJson env solution)
  else pure []

end Files

/-- `scaffold` (generator.py:27), in an output directory. -/
def scaffold (env : Surroundings) (outputDir : List String) (solution : Solution) (task : Task) :
    PyM Disk Scaffolded := do
  let projectDir := joinPath outputDir (slugify env task.title)
  let dirs ← createDirectories env projectDir solution
  let blocks ← writeBlocks env projectDir dirs solution.codeBlocks
  let configs ← createConfigs env projectDir solution
  let readme ← createReadme env projectDir solution task
  let manifest ← createProjectManifest env projectDir solution
  let files := blocks ++ configs ++ readme ++ manifest
  let d ← PyM.get
  return { projectDir, filesCreated := files.length, files, tree := env.tree d.world projectDir }

end Noema.Scaffolder
