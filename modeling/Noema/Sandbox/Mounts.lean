import Noema.Sandbox.ShortCircuit

/-!
# The file behind an argument (`sandbox/environment.py`)

A lint run and a run are given the path of their file as an argument. What it leads to depends on
what is mounted where the subprocess runs:

- locally the argument is the path of the file, and with bubblewrap (`bwrap_cmd`) the run has an
  empty `/tmp` of its own, besides `/proc`, `/dev` and the directory at `/sandbox`;
- in a container the argument is the name of the file under `/sandbox`, where the directory is.

`Mounts.locate` follows an argument through the mounts, of which the last one that fits is taken.
`mem_stage` says which subprocesses a stage starts, and `locate_argument` that the argument leads to
the file if and only if it is `Visible`.

**`givenOwn_iff`**: for every list of files with distinct paths, in every stage of every
environment, each subprocess is given the file that was written for its index, with the content of
that index, if and only if every file that a subprocess is started for is visible to it.
`docker_runs_other` has two files of one name in two directories: the run of the one is given the
other.
-/

namespace Noema.Sandbox

open Noema.Lib

/-! ## Mounts -/

/-- The mount points that a subprocess sees, the last mounted first, each with the directory of
the host that is mounted there, unless it is a file system of its own. -/
abbrev Mounts := List (List String × Option (List String))

/-- The path of the host that an absolute path leads to. -/
def Mounts.locate : Mounts → List String → Option (List String)
  | [], _ => none
  | (point, source) :: mounts, path =>
    if point <+: path then source.map fun dir => dir ++ path.drop point.length
    else locate mounts path

/-- The mounts of the host. -/
def hostMounts : Mounts := [([], some [])]

/-- The mounts of `bwrap_cmd` (environment.py:235). -/
def bwrapMounts (tmpDir : List String) : Mounts :=
  [(["sandbox"], some tmpDir), (["tmp"], none), (["dev"], none), (["proc"], none), ([], some [])]

/-- The mounts of `docker run -v tmp_dir:/sandbox:ro`. -/
def dockerMounts (tmpDir : List String) : Mounts := [(["sandbox"], some tmpDir), ([], none)]

/-- A stage that starts a subprocess for each file. -/
inductive Stage where
  | lint
  | run
  deriving DecidableEq

namespace Environment

variable (env : Environment) (bwrap : Bool) (tmpDir : List String)

/-- The mounts in a stage: bubblewrap wraps only the runs. -/
def mounts : Stage → Mounts
  | .lint =>
    match env with
    | .local => hostMounts
    | .docker => dockerMounts tmpDir
  | .run =>
    match env with
    | .local => if bwrap then bwrapMounts tmpDir else hostMounts
    | .docker => dockerMounts tmpDir

/-- The argument for a target: `str(file_path)`, or `f"/sandbox/\x7bfile_path.name\x7d"`. -/
def argument (target : RelPath) : List String :=
  match env with
  | .local => tmpDir ++ target
  | .docker => "sandbox" :: target

/-- The stage over the files. -/
def stage (cfg : SandboxConfig) (sb : StageBehaviour) (files : List SourceFile)
    (result : SandboxResult) : Stage → PyM (List Process) SandboxResult
  | .lint => lint env sb files result
  | .run => runCode env cfg sb files result

/-- The file is given to a subprocess in a stage. -/
def selects (sb : StageBehaviour) (files : List SourceFile) (paths : List RelPath)
    (result : SandboxResult) (i : Nat) (f : SourceFile) (path : RelPath) : Stage → Bool
  | .lint => isLinted f path && lintReached env sb files paths i
  | .run => f.language == "python" && staticPassedAt result i

/-- The subprocess of a stage for a file. -/
def process (files : List SourceFile) (paths : List RelPath) (i : Nat) (path : RelPath) :
    Stage → Process
  | .lint => .ruff i (env.target path) (diskOf files paths)
  | .run => .python i (env.target path) (diskOf files paths)

end Environment

/-- The index and the target of a subprocess for one file. -/
def Process.subject : Process → Option (Nat × RelPath × Disk)
  | .ruff i target disk | .python i target disk => some (i, target, disk)
  | .pytest _ => none

/-! ## The subprocesses of a stage -/

section Stages

variable {env : Environment} {cfg : SandboxConfig} {sb : StageBehaviour} {files : List SourceFile}
  {result : SandboxResult}

/-- A stage starts a subprocess for each file that it selects, unless the start fails. -/
theorem mem_stage {st : Stage} {p : Process} :
    p ∈ (env.stage cfg sb files result st []).2 ↔
      ∃ paths i f path, Wrote sb files paths ∧ files[i]? = some f ∧ paths[i]? = some path ∧
        env.selects sb files paths result i f path st = true ∧
        (sb.outcome i).isStarted = true ∧ p = env.process files paths i path st := by
  have hstarted : ∀ (paths : List RelPath) (p : Process),
      (∃ x ∈ (indicesWhere files paths fun i f path =>
          env.selects sb files paths result i f path st).filter fun y =>
          (sb.outcome y.1).isStarted, env.process files paths x.1 x.2 st = p) ↔
        ∃ i f path, files[i]? = some f ∧ paths[i]? = some path ∧
          env.selects sb files paths result i f path st = true ∧
          (sb.outcome i).isStarted = true ∧ p = env.process files paths i path st := by
    intro paths p
    constructor
    · rintro ⟨⟨i, path⟩, hmem, rfl⟩
      obtain ⟨hmem, hstarted⟩ := List.mem_filter.mp hmem
      obtain ⟨f, hf, hpath, hselects⟩ := mem_indicesWhere.mp hmem
      exact ⟨i, f, path, hf, hpath, hselects, hstarted, rfl⟩
    · rintro ⟨i, f, path, hf, hpath, hselects, hstarted, rfl⟩
      exact ⟨(i, path), List.mem_filter.mpr ⟨mem_indicesWhere.mpr ⟨f, hf, hpath, hselects⟩,
        hstarted⟩, rfl⟩
  -- the log of a stage has the runs that were started, in the order of the files
  have hlog : p ∈ (env.stage cfg sb files result st []).2 ↔ p ∈ ([] : List Process) ∨
      ∃ paths, Wrote sb files paths ∧ ∃ x ∈ (indicesWhere files paths fun i f path =>
        env.selects sb files paths result i f path st).filter fun y =>
        (sb.outcome y.1).isStarted, env.process files paths x.1 x.2 st = p := by
    cases st with
    | lint => exact log_withFiles sb files result [] (fun paths _ p => log_stage _ _ _ _ p) p
    | run => exact log_withFiles sb files result [] (fun paths _ p => log_stage _ _ _ _ p) p
  rw [hlog, or_iff_right List.not_mem_nil]
  constructor
  · rintro ⟨paths, hwrote, hp⟩
    obtain ⟨i, f, path, h⟩ := (hstarted paths p).mp hp
    exact ⟨paths, i, f, path, hwrote, h⟩
  · rintro ⟨paths, i, f, path, hwrote, h⟩
    exact ⟨paths, hwrote, (hstarted paths p).mpr ⟨i, f, path, h⟩⟩

/-- The files are written where `_safe_join` puts them, and none of them is the directory. -/
theorem Wrote.joined {base : List String} {paths paths' : List RelPath}
    (h : Wrote sb files paths') (hbase : sb.tmpDir = .ok base)
    (hpaths : files.mapM (fun f => safeJoin base f.path) = .ok paths) :
    paths' = paths ∧ ∀ path ∈ paths, path ≠ [] := by
  obtain ⟨base', hbase', hwrote⟩ := h
  rw [hbase] at hbase'
  cases hbase'
  have hzip : List.Forall₂ (fun x path => safeJoin base x.1.path = .ok path ∧ path ≠ [])
      files.zipIdx paths' := by
    refine (mapM_eq_ok hwrote).imp fun x path hx => ?_
    obtain ⟨path', hpath', hx⟩ := bind_eq_ok hx
    split at hx
    · cases hx
    · next hne =>
      split at hx
      · cases hx
      · cases hx
        exact ⟨hpath', hne⟩
  have hfiles : List.Forall₂ (fun f path => safeJoin base (SourceFile.path f) = .ok path ∧ path ≠ [])
      files paths' := by
    rw [← List.zipIdx_map_fst 0 files, List.forall₂_map_left_iff]
    exact hzip
  have hunique : Relator.RightUnique fun f path => safeJoin base (SourceFile.path f) = .ok path :=
    fun f path path' h h' => Except.ok.inj (h.symm.trans h')
  have hsame : paths' = paths :=
    hunique.forall₂ (hfiles.imp fun _ _ h => h.1) (mapM_eq_ok hpaths)
  refine ⟨hsame, fun path hpath => ?_⟩
  obtain ⟨f, -, -, hne⟩ := exists_mem_of_forall₂ hfiles.flip (hsame ▸ hpath)
  exact hne

/-- The content at a path, when the paths are distinct. -/
theorem lookup_diskOf_getElem {paths : List RelPath} (hdistinct : paths.Nodup)
    (hlength : paths.length = files.length) {i : Nat} {f : SourceFile} {path : RelPath}
    (hf : files[i]? = some f) (hpath : paths[i]? = some path) :
    (diskOf files paths).lookup path = some f.content := by
  have hmem : (path, f.content) ∈ diskOf files paths := by
    rw [diskOf, List.mem_reverse]
    refine List.mem_of_getElem? (i := i) ?_
    rw [List.getElem?_zip_eq_some]
    exact ⟨hpath, by rw [List.getElem?_map, hf, Option.map_some]⟩
  have hnodup : ((diskOf files paths).map Prod.fst).Nodup := by
    rw [diskOf, List.map_reverse, List.nodup_reverse, List.map_fst_zip]
    · exact hdistinct
    · rw [List.length_map, hlength]
  obtain ⟨before, after, hsplit⟩ := List.append_of_mem hmem
  refine List.lookup_eq_some_iff.mpr ⟨before, after, hsplit, fun p hp => ?_⟩
  rw [hsplit, List.map_append, List.map_cons, List.nodup_append] at hnodup
  have hne := hnodup.2.2 p.1 (List.mem_map_of_mem hp) path List.mem_cons_self
  simpa using Ne.symm hne

end Stages

/-! ## Where the arguments lead -/

/-- The path of the host is not the one that a wrapped subprocess sees under this name. -/
def Hidden (base path : List String) : Prop :=
  (base ++ path).head? ∈ [some "tmp", some "dev", some "proc"] ∨
    (base ++ path).head? = some "sandbox" ∧ base ≠ ["sandbox"]

/-- What is mounted lets a subprocess see the file under its argument: in a container only a file
in no subdirectory, and in a wrapped run only a file whose path is not hidden. -/
def Visible (env : Environment) (bwrap : Bool) (base : List String) (path : RelPath) : Stage → Prop
  | .lint => env = .docker → path.length = 1
  | .run =>
    match env with
    | .local => bwrap = true → ¬ Hidden base path
    | .docker => path.length = 1

theorem locate_host (path : List String) : hostMounts.locate path = some path := by
  simp [hostMounts, Mounts.locate]

theorem locate_docker {base : List String} {path : RelPath} (hpath : path ≠ []) :
    (dockerMounts base).locate (Environment.argument .docker base (Environment.target .docker path))
      = some (base ++ path) ↔ path.length = 1 := by
  have hlocate : (dockerMounts base).locate ["sandbox", path.getLast?.getD ""] =
      some (base ++ [path.getLast?.getD ""]) := by
    simp [dockerMounts, Mounts.locate]
  rw [Environment.argument, Environment.target, hlocate, Option.some.injEq, List.append_cancel_left_eq]
  constructor
  · intro h
    rw [← h]
    rfl
  · intro h
    obtain ⟨name, rfl⟩ := List.length_eq_one_iff.mp h
    rfl

theorem locate_bwrap {base : List String} {path : RelPath} (hpath : path ≠ []) :
    (bwrapMounts base).locate (base ++ path) = some (base ++ path) ↔ ¬ Hidden base path := by
  obtain ⟨seg, rest, hrest⟩ := List.exists_cons_of_ne_nil (List.append_ne_nil_of_right_ne_nil base hpath)
  have hhead : (base ++ path).head? = some seg := by rw [hrest]; rfl
  rw [Hidden, hhead]
  by_cases hsandbox : seg = "sandbox"
  · subst hsandbox
    have hlocate : (bwrapMounts base).locate ("sandbox" :: rest) = some (base ++ rest) := by
      simp [bwrapMounts, Mounts.locate]
    have hbase : base ++ rest = ["sandbox"] ++ rest ↔ base = ["sandbox"] := List.append_left_inj rest
    rw [hrest, hlocate, Option.some.injEq]
    simpa using hbase
  · by_cases hown : seg ∈ ["tmp", "dev", "proc"]
    · have hlocate : (bwrapMounts base).locate (seg :: rest) = none := by
        simp only [List.mem_cons, List.not_mem_nil, or_false] at hown
        rcases hown with rfl | rfl | rfl <;> simp [bwrapMounts, Mounts.locate]
      rw [hrest, hlocate]
      simp_all
    · have hlocate : (bwrapMounts base).locate (seg :: rest) = some (seg :: rest) := by
        simp only [List.mem_cons, List.not_mem_nil, or_false, not_or] at hown
        simp [bwrapMounts, Mounts.locate, Ne.symm hsandbox, Ne.symm hown.1, Ne.symm hown.2.1,
          Ne.symm hown.2.2]
      rw [hrest, hlocate]
      simp_all

/-- The argument for a file leads to it if and only if it is visible. -/
theorem locate_argument {env : Environment} {bwrap : Bool} {base : List String} {path : RelPath}
    (hpath : path ≠ []) (st : Stage) :
    (env.mounts bwrap base st).locate (env.argument base (env.target path)) = some (base ++ path) ↔
      Visible env bwrap base path st := by
  cases env with
  | docker =>
    cases st with
    | lint => exact (locate_docker hpath).trans ⟨fun h _ => h, fun h => h rfl⟩
    | run => exact locate_docker hpath
  | «local» =>
    cases st with
    | lint => exact iff_of_true (locate_host _) nofun
    | run =>
      cases bwrap with
      | false => exact iff_of_true (locate_host _) nofun
      | true => exact (locate_bwrap hpath).trans ⟨fun h _ => h, fun h => h rfl⟩

/-! ## Every file is its own subject -/

variable {env : Environment} {bwrap : Bool} {cfg : SandboxConfig} {sb : StageBehaviour}
  {files : List SourceFile} {result : SandboxResult} {base : List String} {paths : List RelPath}

/-- A subprocess is given the file that was written for its index, with the content of the index. -/
def GivenOwn (env : Environment) (bwrap : Bool) (base : List String) (files : List SourceFile)
    (paths : List RelPath) (st : Stage) (p : Process) : Prop :=
  ∀ i target disk, p.subject = some (i, target, disk) → ∃ f path, files[i]? = some f ∧
    paths[i]? = some path ∧
    (env.mounts bwrap base st).locate (env.argument base target) = some (base ++ path) ∧
    disk.lookup path = some f.content

/-- **Each verdict is about its own file**, for every list of files with distinct paths: in every
stage of every environment the subprocesses are given their own files if and only if the files
that are selected are visible. -/
theorem givenOwn_iff (env : Environment) (bwrap : Bool) (cfg : SandboxConfig) (sb : StageBehaviour)
    (result : SandboxResult) (st : Stage) (hbase : sb.tmpDir = .ok base)
    (hpaths : files.mapM (fun f => safeJoin base f.path) = .ok paths) (hdistinct : paths.Nodup) :
    (∀ p ∈ (env.stage cfg sb files result st []).2, GivenOwn env bwrap base files paths st p) ↔
      ∀ i f path, Wrote sb files paths → files[i]? = some f → paths[i]? = some path →
        env.selects sb files paths result i f path st = true → (sb.outcome i).isStarted = true →
        Visible env bwrap base path st := by
  have hsubject : ∀ i path, (env.process files paths i path st).subject =
      some (i, env.target path, diskOf files paths) := by
    intro i path
    cases st <;> rfl
  constructor
  · intro hown i f path hwrote hf hpath hselects hstarted
    have hne := (hwrote.joined hbase hpaths).2 path (List.mem_of_getElem? hpath)
    obtain ⟨f', path', -, hpath', hlocate, -⟩ := hown _ (mem_stage.mpr
      ⟨paths, i, f, path, hwrote, hf, hpath, hselects, hstarted, rfl⟩) _ _ _ (hsubject i path)
    rw [hpath] at hpath'
    cases hpath'
    exact (locate_argument hne st).mp hlocate
  · intro hvisible p hp i target disk hsub
    obtain ⟨paths', j, f, path, hwrote, hf, hpath, hselects, hstarted, rfl⟩ := mem_stage.mp hp
    obtain ⟨rfl, hne⟩ := hwrote.joined hbase hpaths
    rw [hsubject j path] at hsub
    obtain ⟨rfl, rfl, rfl⟩ : j = i ∧ env.target path = target ∧ diskOf files paths' = disk := by
      simpa using hsub
    -- the paths are distinct, so the directory has the content of the index at the path
    have hlength : paths'.length = files.length := (mapM_eq_ok hpaths).length_eq.symm
    refine ⟨f, path, hf, hpath, ?_, lookup_diskOf_getElem hdistinct hlength hf hpath⟩
    exact (locate_argument (hne path (List.mem_of_getElem? hpath)) st).mpr
      (hvisible j f path hwrote hf hpath hselects hstarted)

/-! ## Samples -/

/-- Two files of one name, in two directories. -/
def twoModules : List SourceFile :=
  [{ pathKey := some "pkg/m.py", contentKey := some "raise SystemExit(1)" },
    { pathKey := some "m.py", contentKey := some "x = 1" }]

/-- The directory is made, every file is written, and every subprocess exits with code 0. -/
def quietStage : StageBehaviour where
  tmpDir := .ok ["var", "tmp", "tmp0"]
  writeError _ := none
  outcome _ := .exited 0 ""
  pooled _ := true

/-- The results of the static checks of the two files. -/
def twoResults : SandboxResult where
  files := [{ filePath := "pkg/m.py", language := "python" }, { filePath := "m.py", language := "python" }]

/-- The theorem at work on the local runs of the two files. -/
theorem givenOwn_local :
    (Environment.stage .local {} quietStage twoModules twoResults .run []).2.length = 2 ∧
      ∀ p ∈ (Environment.stage .local {} quietStage twoModules twoResults .run []).2,
        GivenOwn .local true ["var", "tmp", "tmp0"] twoModules [["pkg", "m.py"], ["m.py"]] .run p := by
  refine ⟨by decide,
    (givenOwn_iff .local true {} quietStage twoResults .run rfl (by decide) (by decide)).mpr ?_⟩
  intro i f path _ _ hpath _ _ _
  have hmem := List.mem_of_getElem? hpath
  simp only [List.mem_cons, List.not_mem_nil, or_false] at hmem
  rcases hmem with rfl | rfl <;> simp [Hidden]

/-- In a container the run of `pkg/m.py` is given `m.py`, and so the content of the other file. -/
theorem docker_runs_other :
    twoModules.mapM (fun f => safeJoin ["var", "tmp", "tmp0"] f.path) =
        .ok [["pkg", "m.py"], ["m.py"]] ∧
      (Environment.stage .docker {} quietStage twoModules twoResults .run []).2.map
          (fun p => p.subject.bind fun x => x.2.2.lookup x.2.1) = [some "x = 1", some "x = 1"] ∧
      ¬ ∀ p ∈ (Environment.stage .docker {} quietStage twoModules twoResults .run []).2,
        GivenOwn .docker false ["var", "tmp", "tmp0"] twoModules [["pkg", "m.py"], ["m.py"]] .run p := by
  refine ⟨by decide, by decide, fun hown => ?_⟩
  have hfirst := hown (.python 0 ["m.py"] [(["m.py"], "x = 1"), (["pkg", "m.py"], "raise SystemExit(1)")])
    (by decide) 0 _ _ rfl
  obtain ⟨f, path, -, hpath, hlocate, -⟩ := hfirst
  cases hpath
  exact absurd hlocate (by decide)

end Noema.Sandbox
