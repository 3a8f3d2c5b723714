import Noema.Lib.Json
import Noema.Lib.Posix

/-!
# The artifacts of an experiment (`api/experiments.py`, `experiments/runner.py`)

`createExperiment` is `POST /experiments`: the configuration is validated, and the runner makes the
directory of the experiment, a workspace in it and the directory of the run, and writes the files of
the run. The name of the experiment and the id of the run come from the request, and both are joined
to paths as they are.

The file system is that of `Lib.Posix`: a tree of directories and files, paths with `..` resolved as
the kernel does, and a record of what was created. System calls may be refused (`RunEnv.fault`), and
random names are any names of letters, digits, underscores and dashes. What counts is what a request
*can* create, on some tree, so every statement is about all trees in which the root has a parent.

- `NamesInside`, `WorkspaceInside`, `RunInside`: on the way along a name, nothing is named outside
  of where it starts. For a name this has to hold at every step of the way, as `mkdir -p` creates
  what it passes.
- `triple_runExperiment`: a run whose names stay inside creates nothing outside of the root.
  `AllowsRun` collects what the parts of the run need: that whatever is created in a directory keeps
  the invariant.
- `exists_escapes`: names that do not stay inside create something outside of some root, once for
  each way to leave it (`escapes_of_name`, `escapes_of_workspace`, `escapes_of_run`). The tree is
  made for the purpose: a name that the request does not mention keeps the created location apart
  (`Unmentioned`).
- **`writesInside_iff`**: the two together, for every configuration and run id.
- `runId_leaves_root`: the run `../../evil`.
-/

namespace Noema.Experiments

open Noema.Lib Posix PyM PyJson

variable {F : Type} [PyBuiltins F]

/-! ## The configuration -/

/-- `cfg.get(key)`. -/
def field (cfg : List (String × PyVal F)) (key : String) : PyVal F := (cfg.lookup key).getD .none

/-- `f"{value!r}"`, of a name. -/
def quoted (value : PyVal F) : String :=
  match value with
  | .str s => "'" ++ s ++ "'"
  | value => value.toStr

/-- What the `for` loops of `_validate_experiment` check of a provider. -/
def validateProvider (p : PyVal F) : Except PyExc Unit :=
  match p with
  | .dict p =>
    if !(field p "provider").truthy then
      .error (.valueError "experiment: each provider needs a 'provider' name")
    else
      match field p "models" with
      | .list (m :: models) =>
        match field p "provider" with
        -- the name is put into a set
        | .list _ => .error (.typeError "unhashable type: 'list'")
        | .dict _ => .error (.typeError "unhashable type: 'dict'")
        | _ =>
          if (m :: models).all fun m => match m with
            | .str s => s ≠ ""
            | _ => false
          then .ok ()
          else .error (.valueError "experiment: models must be non-empty strings")
      | _ => .error (.valueError ("experiment: provider " ++ quoted (field p "provider") ++
          " needs non-empty 'models'"))
  | _ => .error (.valueError "experiment: each provider needs a 'provider' name")

/-- What they check of a task. -/
def validateTask (t : PyVal F) : Except PyExc Unit :=
  match t with
  | .dict t =>
    if (field t "title").truthy then .ok ()
    else .error (.valueError "experiment: each task needs a 'title'")
  | _ => .error (.valueError "experiment: each task needs a 'title'")

/-- The number of repetitions, 1 if there is none. A Boolean is an integer. -/
def validateRepetitions (repetitions : Option (PyVal F)) : Except PyExc Unit :=
  match repetitions with
  | none => .ok ()
  | some (.int n) =>
    if 1 ≤ n then .ok () else .error (.valueError "experiment: 'repetitions' must be a positive integer")
  | some (.bool true) => .ok ()
  | some _ => .error (.valueError "experiment: 'repetitions' must be a positive integer")

/-- `parse_experiment`, of what YAML made of the text; the name of the experiment. -/
def parseExperiment (cfg : PyVal F) : Except PyExc String := do
  match if cfg.truthy then cfg else .dict [] with
  | .dict cfg =>
    match field cfg "meta" with
    | .dict m =>
      if !(field m "name").truthy then .error (.valueError "experiment: missing 'meta.name'")
      else
        match field cfg "providers" with
        | .list (p :: providers) =>
          -- nothing is asked of the name but that it is there
          (p :: providers).forM validateProvider
          match field cfg "tasks" with
          | .list (t :: tasks) =>
            (t :: tasks).forM validateTask
            validateRepetitions (cfg.lookup "repetitions")
            return (field m "name").toStr
          | _ => .error (.valueError "experiment: 'tasks' must be a non-empty list")
        | _ => .error (.valueError "experiment: 'providers' must be a non-empty list")
    | _ => .error (.valueError "experiment: missing 'meta.name'")
  | _ => .error (.valueError "experiment: top-level must be a mapping")

/-! ## The runner -/

/-- A random name: letters, digits, underscores and dashes. -/
def RandomName := { name : String // ∀ c ∈ name.toList, c.isAlphanum || c == '_' || c == '-' }

/-- What a run does not decide: which system calls are refused, the time and the random part of a
new run id, the random names of the workspace and of the temporary files, and the number of cells
after the first one. -/
structure RunEnv where
  fault : Nat → Bool
  stamp : RandomName
  workspace : RandomName
  temporary : RandomName
  cells : Nat

/-- `_artifacts_root`, which is resolved: a list of names. -/
structure ArtifactsRoot where
  names : List String
  isName : ∀ name ∈ names, isName name = true
  noNul : ∀ name ∈ names, hasNul name = false

/-- `if path.is_file(): ...` -/
def ifFile (path : List String) (x : PyM World Unit) : PyM World Unit := do
  let w ← PyM.get
  if w.isFile path then x else pure ()

/-- `_rotate_backups`. What a rename takes away stays in the tree. -/
def rotateBackups (fault : Nat → Bool) (dir : List String) (stem : String) : List Nat → PyM World Unit
  | [] => touch fault (dir ++ [stem ++ ".bak.1"])
  | i :: is => do
    ifFile (dir ++ [stem ++ ".bak." ++ toString i])
      (touch fault (dir ++ [stem ++ ".bak." ++ toString (i + 1)]))
    rotateBackups fault dir stem is

/-- `atomic_write_json`, of a file in a directory: backups of the old file, a temporary file, and a
rename. -/
def writeJson (env : RunEnv) (dir : List String) (stem : String) : PyM World Unit := do
  mkdirP env.fault dir
  ifFile (dir ++ [stem ++ ".json"]) (rotateBackups env.fault dir stem [4, 3, 2, 1])
  touch env.fault (dir ++ [stem ++ "." ++ env.temporary.1 ++ ".tmp"])
  touch env.fault (dir ++ [stem ++ ".json"])

/-- `_append_incremental`. -/
def appendIncremental (env : RunEnv) (runDir : List String) : PyM World Unit := do
  touch env.fault (runDir ++ ["runs.jsonl"])
  writeJson env runDir "results"

/-- The cells of the matrix, each of which is appended. -/
def runMatrix (env : RunEnv) (runDir : List String) : Nat → PyM World Unit
  | 0 => pure ()
  | n + 1 => do
    appendIncremental env runDir
    runMatrix env runDir n

/-- `_write_artifacts`. -/
def writeArtifacts (env : RunEnv) (runDir : List String) : PyM World Unit := do
  mkdirP env.fault runDir
  writeJson env runDir "results"
  touch env.fault (runDir ++ ["runs.csv"])
  touch env.fault (runDir ++ ["summary.csv"])
  writeJson env runDir "summary"

/-- `run_id or _new_run_id(experiment_id)`. -/
def runIdOf (env : RunEnv) (name : String) (runId : Option String) : String :=
  if runId.getD "" = "" then name ++ "-" ++ env.stamp.1 else runId.getD ""

/-- The path that `tempfile.mkdtemp` makes for the workspace. -/
def workspacePath (env : RunEnv) (outPath : List String) (runId : String) : List String :=
  osJoin outPath (String.ofList (runId.toList.take 24) ++ "_" ++ env.workspace.1)

/-- `run_experiment`, as far as it creates files and directories; the engines stay in the workspace.
-/
def runExperiment (env : RunEnv) (root : ArtifactsRoot) (name runId : String) : PyM World Unit := do
  mkdirP env.fault (joinPath root.names name)
  osMkdir env.fault (workspacePath env (joinPath root.names name) runId)
  mkdirP env.fault (joinPath (joinPath root.names name) runId)
  runMatrix env (joinPath (joinPath root.names name) runId) (env.cells + 1)
  writeArtifacts env (joinPath (joinPath root.names name) runId)

/-- `create_experiment`. -/
def createExperiment (env : RunEnv) (root : ArtifactsRoot) (cfg : PyVal F) (runId : Option String) :
    PyM World Unit := do
  let name ← PyM.lift (parseExperiment cfg)
  runExperiment env root name (runIdOf env name runId)

/-! ## What the runner keeps -/

section Keeps

variable {env : RunEnv} {dir : List String} {P : World → Prop}

/-- Whatever is created in the directory of the run keeps the property. -/
structure AllowsRun (P : World → Prop) (dir : List String) : Prop where
  dirs : ∀ p, p <+: dir → Allows P p
  files : ∀ name, name ≠ ".." → Allows P (dir ++ [name])

theorem append_ne_dots {a b : String} (hb : 2 < b.length) : a ++ b ≠ ".." := by
  intro h
  have hlength : (a ++ b).length = 2 := congrArg String.length h
  rw [String.length_append] at hlength
  omega

theorem triple_ifFile {path : List String} {x : PyM World Unit}
    (hx : Triple P x (fun _ => P) fun _ => P) : Triple P (ifFile path x) (fun _ => P) fun _ => P :=
  .bind .keeps_get fun _ => .ite (fun _ => hx) fun _ => .keeps_pure

theorem triple_rotateBackups (h : AllowsRun P dir) (stem : String) (is : List Nat) :
    Triple P (rotateBackups env.fault dir stem is) (fun _ => P) fun _ => P := by
  induction is with
  | nil => exact (h.files _ (append_ne_dots (by decide))).triple_touch
  | cons i is ih =>
    have hname : stem ++ ".bak." ++ toString (i + 1) ≠ ".." := by
      rw [String.append_assoc]
      refine append_ne_dots ?_
      rw [String.length_append]
      exact Nat.lt_of_lt_of_le (by decide : 2 < ".bak.".length) (Nat.le_add_right _ _)
    exact .bind (triple_ifFile (h.files _ hname).triple_touch) fun _ => ih

theorem triple_writeJson (h : AllowsRun P dir) (stem : String) :
    Triple P (writeJson env dir stem) (fun _ => P) fun _ => P := by
  have htmp : stem ++ "." ++ env.temporary.1 ++ ".tmp" ≠ ".." := append_ne_dots (by decide)
  exact .bind (triple_mkdirP h.dirs) fun _ => .bind (triple_ifFile (triple_rotateBackups h stem _))
    fun _ => .bind (h.files _ htmp).triple_touch fun _ =>
      (h.files _ (append_ne_dots (by decide))).triple_touch

theorem triple_runMatrix (h : AllowsRun P dir) (n : Nat) :
    Triple P (runMatrix env dir n) (fun _ => P) fun _ => P := by
  induction n with
  | zero => exact .keeps_pure
  | succ n ih =>
    exact .bind (.bind (h.files _ (by decide)).triple_touch fun _ => triple_writeJson h _) fun _ => ih

theorem triple_writeArtifacts (h : AllowsRun P dir) :
    Triple P (writeArtifacts env dir) (fun _ => P) fun _ => P :=
  .bind (triple_mkdirP h.dirs) fun _ => .bind (triple_writeJson h _) fun _ =>
    .bind (h.files _ (by decide)).triple_touch fun _ =>
      .bind (h.files _ (by decide)).triple_touch fun _ => triple_writeJson h _

end Keeps

/-! ## Names that stay below the root -/

/-- On the way along the name, nothing is named outside of the start. -/
def NamesInside (name : String) : Prop :=
  ∀ before seg after, parts name = before ++ seg :: after → seg ≠ ".." →
    isAbsolute name = false ∧ climb [] before ≠ none

/-- The directory of the workspace is below the root. -/
def WorkspaceInside (name runId : String) : Prop :=
  isAbsolute name = false ∧ isAbsolute runId = false ∧
    climb [] (parts name ++ (pathSegs (String.ofList (runId.toList.take 24))).dropLast) ≠ none

/-- The directory of the run is below the root. -/
def RunInside (name runId : String) : Prop := climb [] (parts name ++ parts runId) ≠ none

/-- Nothing that is created lies outside of the root. A text with a NUL is refused by the first call
that gets it. -/
def StaysInside (name runId : String) : Prop :=
  hasNul name = true ∨
    if hasNul (String.ofList (runId.toList.take 24)) then NamesInside name
    else WorkspaceInside name runId ∧ (hasNul runId = true ∨ RunInside name runId)

section Inside

variable {root : ArtifactsRoot} {segs p : List String} {loc : Loc} {name runId : String}

/-- All that was created is below the root, whose parent is there. -/
structure Confined (root : Loc) (w : World) : Prop where
  created : ∀ loc ∈ w.created, root <+: loc
  parent : w.tree.kind root.dropLast = some .dir

/-- The location is below the root or above it. -/
def Comparable (root loc : Loc) : Prop := root <+: loc ∨ loc <+: root

/-- What is created above the root was there before. -/
theorem allows_confined {root : Loc} (h : Comparable root (resolve [] p)) :
    Allows (Confined root) p := by
  refine ⟨fun w hw => ⟨hw.created, hw.parent⟩, fun w kind hparent hnew hw => ⟨?_, ?_⟩⟩
  · refine List.forall_mem_cons.mpr ⟨?_, hw.created⟩
    rcases h with hunder | ⟨rest, rfl⟩
    · exact hunder
    · rcases List.eq_nil_or_concat rest with rfl | ⟨rest, last, rfl⟩
      · rw [List.append_nil]
      · have habove : resolve [] p <+: (resolve [] p ++ rest.concat last).dropLast := by
          rw [List.concat_eq_append, ← List.append_assoc, List.dropLast_concat]
          exact List.prefix_append _ _
        have hgone := w.tree.kind_below hnew habove
        rw [hw.parent] at hgone
        cases hgone
  · have hne : root.dropLast ≠ resolve [] p := by
      intro heq
      rw [← heq, hw.parent] at hnew
      cases hnew
    show Function.update w.tree.kind _ _ _ = _
    rw [Function.update_of_ne hne, hw.parent]

theorem resolve_root (hp : p <+: root.names) : resolve [] p = p :=
  (resolve_names fun seg hseg => root.isName seg (hp.subset hseg)).trans (List.nil_append p)

/-- Along a path that does not climb above the root. -/
theorem comparable_of_climb (h : climb [] segs ≠ none) (hp : p <+: root.names ++ segs) :
    Comparable root.names (resolve [] p) := by
  rcases List.prefix_or_prefix_of_prefix hp (List.prefix_append root.names segs) with hroot | ⟨q, rfl⟩
  · rw [resolve_root hroot]
    exact .inr hroot
  · obtain ⟨after, hafter⟩ := (List.prefix_append_right_inj _).mp hp
    obtain ⟨rel, hrel⟩ := Option.ne_none_iff_exists'.mp (climb_left (hafter.symm ▸ h))
    refine .inl ⟨rel, ?_⟩
    have hresolve : resolve (root.names ++ []) q = root.names ++ rel := resolve_of_climb hrel
    rw [List.append_nil] at hresolve
    rw [resolve_append, resolve_root (List.prefix_refl _), hresolve]

/-- Where nothing is named outside of the root, the way leads below it or above it. -/
theorem prefix_of_names
    (h : ∀ before seg after, segs = before ++ seg :: after → seg ≠ ".." → climb [] before ≠ none)
    (hp : p <+: segs) : climb [] p ≠ none ∨ resolve root.names p <+: root.names := by
  induction p using List.reverseRecOn with
  | nil => exact .inl fun h => by cases h
  | append_singleton q seg ih =>
    obtain ⟨after, hafter⟩ := hp
    rw [List.append_assoc, List.singleton_append] at hafter
    have ih := ih ⟨_, hafter⟩
    rw [climb_append]
    -- A segment `..` goes up, at most to a place above the root; any other segment needs the way
    -- before it to have stayed below.
    by_cases hup : seg = ".."
    · subst hup
      rcases ih with hclimb | habove
      · obtain ⟨rel, hrel⟩ := Option.ne_none_iff_exists'.mp hclimb
        by_cases hrel₀ : rel = []
        · subst hrel₀
          have hresolve : resolve (root.names ++ []) q = root.names ++ [] := resolve_of_climb hrel
          rw [List.append_nil] at hresolve
          right
          rw [resolve_append, hresolve]
          exact List.dropLast_prefix _
        · left
          simp [hrel, climb, hrel₀]
      · right
        rw [resolve_append]
        exact (List.dropLast_prefix _).trans habove
    · obtain ⟨rel, hrel⟩ := Option.ne_none_iff_exists'.mp (h q seg after hafter.symm hup)
      left
      simp [hrel, climb, hup]

theorem comparable_of_names (h : NamesInside name) (hp : p <+: joinPath root.names name) :
    Comparable root.names (resolve [] p) := by
  rw [joinPath] at hp
  by_cases habs : isAbsolute name = true
  -- Of an absolute name nothing but `..` may be named, and the way stays at the top.
  · rw [if_pos habs] at hp
    have hup : ∀ seg ∈ p, seg = ".." := by
      intro seg hseg
      by_contra hne
      obtain ⟨before, after, hparts⟩ := List.append_of_mem (hp.subset hseg)
      have hrel := (h before seg after hparts hne).1
      rw [habs] at hrel
      cases hrel
    have hnil : resolve [] p = [] := by
      clear hp
      induction p with
      | nil => rfl
      | cons seg p ih =>
        obtain ⟨rfl, hrest⟩ := List.forall_mem_cons.mp hup
        exact ih hrest
    rw [hnil]
    exact .inr List.nil_prefix
  · rw [if_neg habs] at hp
    rcases List.prefix_or_prefix_of_prefix hp (List.prefix_append root.names _) with hroot | ⟨q, rfl⟩
    · rw [resolve_root hroot]
      exact .inr hroot
    · have hq := (List.prefix_append_right_inj _).mp hp
      rcases prefix_of_names (fun before seg after heq hne => (h before seg after heq hne).2) hq with
        hclimb | habove
      · exact comparable_of_climb hclimb (List.prefix_refl _)
      · rw [resolve_append, resolve_root (List.prefix_refl _)]
        exact .inr habove

/-- A name at the end of a path that does not climb above its start. -/
theorem climb_concat {seg : String} (h : climb [] segs ≠ none) (hseg : seg ≠ "..") :
    climb [] (segs ++ [seg]) ≠ none := by
  obtain ⟨rel, hrel⟩ := Option.ne_none_iff_exists'.mp h
  simp [climb_append, hrel, climb, hseg]

/-- The path of the workspace: its last segment ends with the random name. -/
theorem workspacePath_eq (env : RunEnv) (outPath : List String) (runId : String) :
    ∃ first, workspacePath env outPath runId =
      (if isAbsolute runId then [] else outPath) ++
        (pathSegs (String.ofList (runId.toList.take 24))).dropLast ++
          [first ++ "_" ++ env.workspace.1] := by
  have hslash : '/' ∉ ("_" ++ env.workspace.1).toList := by
    intro hmem
    rw [String.toList_append] at hmem
    rcases List.mem_append.mp hmem with hmem | hmem
    · revert hmem
      decide
    · have hchar := env.workspace.2 _ hmem
      revert hchar
      decide
  obtain ⟨last, hlast⟩ := segments_append (runId.toList.take 24) hslash
  refine ⟨String.ofList last, ?_⟩
  have hunderscore : "_".toList = ['_'] := by decide
  -- The first 24 characters decide whether the name is absolute, and the random name is joined by
  -- an underscore.
  have habs : isAbsolute (String.ofList (runId.toList.take 24) ++ "_" ++ env.workspace.1) =
      isAbsolute runId := by
    rw [isAbsolute, isAbsolute, String.toList_append, String.toList_append, String.toList_ofList,
      hunderscore]
    cases runId.toList with
    | nil => rfl
    | cons c cs => rfl
  have hsegs : pathSegs (String.ofList (runId.toList.take 24) ++ "_" ++ env.workspace.1) =
      (pathSegs (String.ofList (runId.toList.take 24))).dropLast ++
        [String.ofList last ++ "_" ++ env.workspace.1] := by
    rw [pathSegs, pathSegs, String.append_assoc, String.toList_append, String.toList_ofList, hlast,
      List.map_append, List.map_dropLast, List.map_singleton, String.ofList_append,
      String.ofList_toList, String.append_assoc]
  rw [workspacePath, osJoin, habs, hsegs]
  split_ifs
  · rfl
  · rw [List.append_assoc]

theorem isName_of_length {seg : String} (h : 2 < seg.length) : isName seg = true := by
  have hne {text : String} (htext : text.length ≤ 2) : seg ≠ text := by
    rintro rfl
    omega
  have hempty : seg ≠ "" := hne (by decide)
  have hdot : seg ≠ "." := hne (by decide)
  have hdots : seg ≠ ".." := hne (by decide)
  rw [isName, decide_eq_true hempty, decide_eq_true hdot, decide_eq_true hdots]
  rfl

theorem isName_workspace (first : String) (env : RunEnv) :
    isName (first ++ "_" ++ env.workspace.1) = true := by
  have hmem : '_' ∈ (first ++ "_" ++ env.workspace.1).toList := by
    rw [String.toList_append, String.toList_append]
    exact List.mem_append_left _ (List.mem_append_right _ (by decide))
  have hne {text : String} (htext : '_' ∉ text.toList) : first ++ "_" ++ env.workspace.1 ≠ text := by
    rintro rfl
    exact htext hmem
  have hempty : first ++ "_" ++ env.workspace.1 ≠ "" := hne (by decide)
  have hdot : first ++ "_" ++ env.workspace.1 ≠ "." := hne (by decide)
  have hdots : first ++ "_" ++ env.workspace.1 ≠ ".." := hne (by decide)
  rw [isName, decide_eq_true hempty, decide_eq_true hdot, decide_eq_true hdots]
  rfl

theorem any_hasNul_workspacePath (env : RunEnv) {outPath : List String}
    (h : hasNul (String.ofList (runId.toList.take 24)) = true) :
    (workspacePath env outPath runId).any hasNul = true := by
  have hnul : hasNul (String.ofList (runId.toList.take 24) ++ "_" ++ env.workspace.1) = true := by
    rw [hasNul, List.contains_iff_mem] at h ⊢
    rw [String.toList_append, String.toList_append]
    exact List.mem_append_left _ (List.mem_append_left _ h)
  rw [workspacePath, osJoin]
  split_ifs
  · rw [any_hasNul_pathSegs, hnul]
  · rw [List.any_append, any_hasNul_pathSegs, hnul, Bool.or_true]

theorem any_hasNul_joinPath {base : List String} {text : String} (h : hasNul text = true) :
    (joinPath base text).any hasNul = true := by
  rw [joinPath]
  split_ifs
  · rw [any_hasNul_parts, h]
  · rw [List.any_append, any_hasNul_parts, h, Bool.or_true]

/-- With a workspace whose path is refused. -/
theorem triple_runExperiment_nul (env : RunEnv)
    (hnul : hasNul (String.ofList (runId.toList.take 24)) = true) (h : NamesInside name) :
    Triple (Confined root.names) (runExperiment env root name runId)
      (fun _ => Confined root.names) fun _ => Confined root.names := by
  have hout : Triple (Confined root.names) (mkdirP env.fault (joinPath root.names name))
      (fun _ => Confined root.names) fun _ => Confined root.names :=
    triple_mkdirP fun p hp => allows_confined (comparable_of_names h hp)
  have hworkspace : Triple (Confined root.names)
      (osMkdir env.fault (workspacePath env (joinPath root.names name) runId))
      (fun _ _ => False) fun _ => Confined root.names := by
    refine (triple_osMkdir_nul (any_hasNul_workspacePath env hnul)).imp (fun _ hw => hw) ?_ ?_
    · exact fun _ _ hw => hw
    · exact fun _ _ hw => hw.2
  exact hout.bind fun _ => hworkspace.bind fun _ => .unreached

/-- With names all of which stay inside. -/
theorem triple_runExperiment_inside (env : RunEnv) (h : WorkspaceInside name runId)
    (hrest : hasNul runId = true ∨ RunInside name runId) :
    Triple (Confined root.names) (runExperiment env root name runId)
      (fun _ => Confined root.names) fun _ => Confined root.names := by
  obtain ⟨hname, hrun, hworkspace⟩ := h
  have houtPath : joinPath root.names name = root.names ++ parts name := if_neg (by simp [hname])
  have hrunDir : joinPath (joinPath root.names name) runId =
      root.names ++ (parts name ++ parts runId) := by
    rw [houtPath, joinPath, if_neg (by simp [hrun]), List.append_assoc]
  have hout : Triple (Confined root.names) (mkdirP env.fault (joinPath root.names name))
      (fun _ => Confined root.names) fun _ => Confined root.names := by
    rw [houtPath]
    exact triple_mkdirP fun p hp => allows_confined (comparable_of_climb (climb_left hworkspace) hp)
  have hmkdir : Triple (Confined root.names)
      (osMkdir env.fault (workspacePath env (joinPath root.names name) runId))
      (fun _ => Confined root.names) fun _ => Confined root.names := by
    obtain ⟨first, hpath⟩ := workspacePath_eq env (root.names ++ parts name) runId
    rw [if_neg (by simp [hrun]), List.append_assoc, List.append_assoc, ← List.append_assoc (parts name)]
      at hpath
    have hlast : first ++ "_" ++ env.workspace.1 ≠ ".." := fun heq => by
      have hisName := isName_workspace first env
      rw [heq] at hisName
      cases hisName
    rw [houtPath, hpath]
    exact (allows_confined (comparable_of_climb (climb_concat hworkspace hlast)
      (List.prefix_refl _))).triple_osMkdir
  refine hout.bind fun _ => hmkdir.bind fun _ => ?_
  rw [hrunDir]
  -- The directory of the run is refused for a NUL, or lies inside with all its files.
  rcases hrest with hnul | hinside
  · have hnul : (root.names ++ (parts name ++ parts runId)).any hasNul = true :=
      hrunDir ▸ any_hasNul_joinPath hnul
    exact (triple_mkdirP_nul hnul).bind fun _ => .unreached
  · have hallows : AllowsRun (Confined root.names) (root.names ++ (parts name ++ parts runId)) := by
      refine ⟨fun p hp => allows_confined (comparable_of_climb hinside hp), fun file hfile => ?_⟩
      rw [List.append_assoc]
      exact allows_confined (comparable_of_climb (climb_concat hinside hfile) (List.prefix_refl _))
    exact (triple_mkdirP hallows.dirs).bind fun _ =>
      (triple_runMatrix hallows _).bind fun _ => triple_writeArtifacts hallows

/-- A run whose names stay inside creates nothing outside of the root. -/
theorem triple_runExperiment (env : RunEnv) (h : StaysInside name runId) :
    Triple (Confined root.names) (runExperiment env root name runId)
      (fun _ => Confined root.names) fun _ => Confined root.names := by
  rcases h with hnul | h
  · exact (triple_mkdirP_nul (any_hasNul_joinPath hnul)).bind fun _ => .unreached
  · split_ifs at h with hnul
    · exact triple_runExperiment_nul env hnul h
    · exact triple_runExperiment_inside env h.1 h.2

end Inside

/-! ## Names that leave the root -/

section Outside

variable {env : RunEnv} {name runId fresh last : String} {target : Loc}

/-- Once created, an entry stays in the record. -/
theorem allowsRun_created (dir : List String) : AllowsRun (fun w => target ∈ w.created) dir :=
  ⟨fun _ _ => allows_created _, fun _ _ => allows_created _⟩

/-- The rest of a run, after something was created. -/
theorem triple_rest_created (dir : List String) (cells : Nat) :
    Triple (fun w => target ∈ w.created)
      (do
        mkdirP env.fault dir
        runMatrix env dir cells
        writeArtifacts env dir)
      (fun _ w => target ∈ w.created) fun _ w => target ∈ w.created :=
  (triple_mkdirP fun _ _ => allows_created _).bind fun _ =>
    (triple_runMatrix (allowsRun_created dir) _).bind fun _ => triple_writeArtifacts (allowsRun_created dir)

/-- In a directory without a file `runs.jsonl`, one is created, at the latest when the first cell is
appended. -/
theorem triple_rest_creates {t : FileTree} {dir : List String} (cells : Nat)
    (hfault : env.fault = noFault) (hnul : dir.any hasNul = false)
    (hparent : t.kind (resolve [] dir ++ ["runs.jsonl"]).dropLast = some .dir)
    (hnew : t.kind (resolve [] dir ++ ["runs.jsonl"]) = none)
    (hall : ∀ p, p <+: dir →
      t.kind (resolve [] p) = some .dir ∨ resolve [] dir ++ ["runs.jsonl"] <+: resolve [] p) :
    Triple (fun w => w.tree = t)
      (do
        mkdirP env.fault dir
        runMatrix env dir (cells + 1)
        writeArtifacts env dir)
      (fun _ w => resolve [] dir ++ ["runs.jsonl"] ∈ w.created)
      fun _ w => resolve [] dir ++ ["runs.jsonl"] ∈ w.created := by
  -- The file is created as a directory on the way to the run, or with the first cell.
  by_cases hvisit : ∃ p, p <+: dir ∧ resolve [] dir ++ ["runs.jsonl"] <+: resolve [] p
  · have hmkdir := mkdirP_creates hnul hparent hnew hall hvisit
    rw [← hfault] at hmkdir
    exact hmkdir.bind fun _ => (triple_runMatrix (allowsRun_created dir) _).bind fun _ =>
      triple_writeArtifacts (allowsRun_created dir)
  · push Not at hvisit
    have hdirs : ∀ p, p <+: dir → t.kind (resolve [] p) = some .dir := fun p hp =>
      (hall p hp).resolve_right (hvisit p hp)
    have hexists := mkdirP_existing hnul hdirs
    have hnulFile : (dir ++ ["runs.jsonl"]).any hasNul = false := by
      rw [List.any_append, hnul]
      decide
    have htouch := touch_creates hnulFile (FileTree.walk_concat (by decide) hdirs) hparent hnew
    rw [← hfault] at hexists htouch
    have happend : Triple (fun w => w.tree = t) (appendIncremental env dir)
        (fun _ w => resolve [] dir ++ ["runs.jsonl"] ∈ w.created)
        fun _ w => resolve [] dir ++ ["runs.jsonl"] ∈ w.created := by
      refine Triple.bind htouch.noRaise fun _ => ?_
      exact triple_writeJson (allowsRun_created dir) _
    refine Triple.bind hexists.noRaise fun _ => ?_
    refine Triple.bind (happend.bind fun _ => triple_runMatrix (allowsRun_created dir) _) fun _ => ?_
    exact triple_writeArtifacts (allowsRun_created dir)

theorem RandomName.hasNul_eq_false (name : RandomName) : hasNul name.1 = false := by
  rw [hasNul, Bool.eq_false_iff]
  intro hmem
  have hchar := name.2 _ (List.contains_iff_mem.mp hmem)
  revert hchar
  decide

theorem not_any_hasNul_workspacePath {outPath : List String} (hout : outPath.any hasNul = false)
    (h : hasNul (String.ofList (runId.toList.take 24)) = false) :
    (workspacePath env outPath runId).any hasNul = false := by
  have hnul : hasNul (String.ofList (runId.toList.take 24) ++ "_" ++ env.workspace.1) = false := by
    have hworkspace := env.workspace.hasNul_eq_false
    rw [hasNul, Bool.eq_false_iff, Ne, List.contains_iff_mem] at h hworkspace ⊢
    rw [String.toList_append, String.toList_append]
    intro hmem
    rcases List.mem_append.mp hmem with hmem | hmem
    · rcases List.mem_append.mp hmem with hmem | hmem
      · exact h hmem
      · revert hmem
        decide
    · exact hworkspace hmem
  rw [workspacePath, osJoin]
  split_ifs
  · rw [any_hasNul_pathSegs, hnul]
  · rw [List.any_append, any_hasNul_pathSegs, hout, hnul]
    rfl

theorem not_any_hasNul_joinPath {base : List String} {text : String} (hbase : base.any hasNul = false)
    (h : hasNul text = false) : (joinPath base text).any hasNul = false := by
  rw [joinPath]
  split_ifs
  · rw [any_hasNul_parts, h]
  · rw [List.any_append, any_hasNul_parts, h, hbase]
    rfl

theorem isName_of_mem_parts {text seg : String} (h : seg ∈ parts text) (hseg : seg ≠ "..") :
    isName seg = true := by
  have hne : seg ≠ "" ∧ seg ≠ "." := by simpa using (List.mem_filter.mp h).2
  rw [isName, decide_eq_true hne.1, decide_eq_true hne.2, decide_eq_true hseg]
  rfl

/-- The segments of the paths of a run. -/
def mentioned (name runId : String) : List String :=
  parts name ++ parts runId ++ pathSegs (String.ofList (runId.toList.take 24)) ++ ["runs.jsonl"]

/-- Two names that the request does not mention: of the root, and of the workspace. -/
structure Unmentioned (fresh last name runId : String) : Prop where
  isNameFresh : isName fresh = true
  isNameLast : isName last = true
  ne : last ≠ fresh
  freshNew : fresh ∉ mentioned name runId
  lastNew : last ∉ mentioned name runId
  noNul : hasNul fresh = false

namespace Unmentioned

variable (h : Unmentioned fresh last name runId)
include h

/-- The root. -/
def root : ArtifactsRoot where
  names := [fresh]
  isName _ hseg := List.mem_singleton.mp hseg ▸ h.isNameFresh
  noNul _ hseg := List.mem_singleton.mp hseg ▸ h.noNul

theorem fresh_name : fresh ∉ parts name := fun hmem => h.freshNew (by simp [mentioned, hmem])

theorem fresh_run : fresh ∉ parts runId := fun hmem => h.freshNew (by simp [mentioned, hmem])

theorem fresh_workspace : fresh ∉ (pathSegs (String.ofList (runId.toList.take 24))).dropLast :=
  fun hmem => h.freshNew (by simp [mentioned, List.mem_of_mem_dropLast hmem])

theorem last_name : last ∉ joinPath [fresh] name := by
  have hname : last ∉ parts name := fun hmem => h.lastNew (by simp [mentioned, hmem])
  rw [joinPath]
  split_ifs
  · exact hname
  · simpa [hname] using h.ne

theorem last_run : last ∉ parts runId := fun hmem => h.lastNew (by simp [mentioned, hmem])

theorem last_workspace : last ∉ (pathSegs (String.ofList (runId.toList.take 24))).dropLast :=
  fun hmem => h.lastNew (by simp [mentioned, List.mem_of_mem_dropLast hmem])

/-- From the root on. -/
theorem resolve_fresh (segs : List String) : resolve [] (fresh :: segs) = resolve [fresh] segs := by
  rw [resolve_cons, enter_name h.isNameFresh]
  rfl

/-- The name of the experiment names something outside of the root. -/
theorem exists_outside (hout : ¬ NamesInside name) :
    ∃ p seg, p ++ [seg] <+: joinPath [fresh] name ∧ isName seg = true ∧
      Apart fresh (resolve [] p ++ [seg]) := by
  unfold NamesInside at hout
  push Not at hout
  obtain ⟨before, seg, after, hparts, hseg, hout⟩ := hout
  have hmem : seg ∈ parts name := hparts ▸ List.mem_append_right before List.mem_cons_self
  have hname := isName_of_mem_parts hmem hseg
  have hbefore : fresh ∉ before := fun hin => h.fresh_name (hparts ▸ List.mem_append_left _ hin)
  have hne : seg ≠ fresh := fun heq => h.fresh_name (heq ▸ hmem)
  by_cases habs : isAbsolute name = true
  · refine ⟨before, seg, ?_, hname, ?_⟩
    · rw [joinPath, if_pos habs, hparts]
      exact ⟨after, by rw [List.append_assoc, List.singleton_append]⟩
    · rw [← enter_name hname]
      exact (Apart.resolve (fun h => by cases h) hbefore).enter hne
  · have hclimb := hout (Bool.eq_false_iff.mpr habs)
    refine ⟨fresh :: before, seg, ?_, hname, ?_⟩
    · rw [joinPath, if_neg habs, hparts]
      exact ⟨after, by simp⟩
    · rw [← enter_name hname, h.resolve_fresh]
      exact (apart_of_climb hclimb hbefore).enter hne

/-- A run that creates something outside of the root. -/
def Escapes (env : RunEnv) : Prop :=
  ∃ t target, Apart fresh target ∧
    Triple (fun w => w.tree = t) (runExperiment env h.root name runId)
      (fun _ w => target ∈ w.created) fun _ w => target ∈ w.created

/-- The directory of the experiment, or one on the way to it, is created outside. -/
theorem escapes_of_name (hfault : env.fault = noFault) (hnul : hasNul name = false)
    (hout : ¬ NamesInside name) : h.Escapes env := by
  obtain ⟨p, seg, hp, hseg, hapart⟩ := h.exists_outside hout
  have hne : resolve [] p ++ [seg] ≠ [] := by simp
  have hlast : last ∉ resolve [] p := fun hmem =>
    h.last_name (hp.subset (List.mem_append_left _ ((mem_of_mem_resolve hmem).resolve_left nofun)))
  refine ⟨openTree _ last hne, _, hapart, ?_⟩
  have hresolve : resolve [] (p ++ [seg]) = resolve [] p ++ [seg] := by
    rw [resolve_append, ← enter_name hseg]
    rfl
  have hmkdir : Triple (fun w => w.tree = openTree _ last hne) (mkdirP env.fault (joinPath [fresh] name))
      (fun _ w => resolve [] p ++ [seg] ∈ w.created) fun _ w => resolve [] p ++ [seg] ∈ w.created := by
    rw [hfault]
    refine mkdirP_creates (not_any_hasNul_joinPath (by simp [h.noNul]) hnul)
      (kind_openTree_parent hne hlast) (kind_openTree_target hne)
      (fun p hp => kind_openTree_resolve hne h.last_name hp) ⟨_, hp, ?_⟩
    rw [hresolve]
  exact hmkdir.bind fun _ => (allows_created _).triple_osMkdir.bind fun _ => triple_rest_created _ _

/-- The path to the directory in which the workspace is made. -/
def workspaceDir (fresh name runId : String) : List String :=
  (if isAbsolute runId then [] else joinPath [fresh] name) ++
    (pathSegs (String.ofList (runId.toList.take 24))).dropLast

theorem last_workspaceDir : last ∉ workspaceDir fresh name runId := by
  rw [workspaceDir, List.mem_append, not_or]
  refine ⟨?_, h.last_workspace⟩
  split_ifs
  · exact List.not_mem_nil
  · exact h.last_name

theorem apart_workspaceDir (hout : ¬ WorkspaceInside name runId) :
    Apart fresh (resolve [] (workspaceDir fresh name runId)) := by
  have hnil : Apart fresh [] := fun h => by cases h
  rw [workspaceDir]
  by_cases hrun : isAbsolute runId = true
  · rw [if_pos hrun]
    exact Apart.resolve hnil h.fresh_workspace
  · rw [if_neg hrun, joinPath]
    by_cases hname : isAbsolute name = true
    · rw [if_pos hname, resolve_append]
      exact Apart.resolve (Apart.resolve hnil h.fresh_name) h.fresh_workspace
    · have hclimb : climb [] (parts name ++ (pathSegs (String.ofList (runId.toList.take 24))).dropLast) =
          none := by
        by_contra hne
        exact hout ⟨Bool.eq_false_iff.mpr hname, Bool.eq_false_iff.mpr hrun, hne⟩
      rw [if_neg hname, List.singleton_append, List.cons_append, h.resolve_fresh]
      refine apart_of_climb hclimb fun hmem => ?_
      exact (List.mem_append.mp hmem).elim h.fresh_name h.fresh_workspace

omit h in
theorem not_mem_resolve {seg : String} {path : List String} (hseg : seg ∉ path) :
    seg ∉ resolve [] path :=
  fun hmem => hseg ((mem_of_mem_resolve hmem).resolve_left nofun)

/-- The workspace is created outside. -/
theorem escapes_of_workspace (hfault : env.fault = noFault) (hnul : hasNul name = false)
    (hnul' : hasNul (String.ofList (runId.toList.take 24)) = false)
    (hpath : workspacePath env (joinPath [fresh] name) runId = workspaceDir fresh name runId ++ [last])
    (hout : ¬ WorkspaceInside name runId) : h.Escapes env := by
  have hne : resolve [] (workspaceDir fresh name runId) ++ [last] ≠ [] := by simp
  have hmem : last ∈ resolve [] (workspaceDir fresh name runId) ++ [last] :=
    List.mem_append_right _ List.mem_cons_self
  have hlast := not_mem_resolve h.last_workspaceDir
  refine ⟨openTree _ last hne, _, (h.apart_workspaceDir hout).concat h.ne, ?_⟩
  have hexists : Triple (fun w => w.tree = openTree _ last hne)
      (mkdirP env.fault (joinPath [fresh] name)) (fun _ w => w.tree = openTree _ last hne)
      fun _ _ => False := by
    rw [hfault]
    exact mkdirP_existing (not_any_hasNul_joinPath (by simp [h.noNul]) hnul)
      fun p hp => kind_openTree_of_mem hne hmem h.last_name hp
  have hwalk := FileTree.walk_concat h.isNameLast
    fun p hp => kind_openTree_of_mem hne hmem h.last_workspaceDir hp
  have hnulPath : (workspaceDir fresh name runId ++ [last]).any hasNul = false :=
    hpath ▸ not_any_hasNul_workspacePath (not_any_hasNul_joinPath (by simp [h.noNul]) hnul) hnul'
  have hmkdir := osMkdir_creates hnulPath hwalk (kind_openTree_parent hne hlast)
    (kind_openTree_target hne)
  rw [← hpath, ← hfault] at hmkdir
  refine Triple.bind hexists.noRaise fun _ => ?_
  refine Triple.bind (hmkdir.post fun _ _ hw => hw.1).noRaise fun _ => ?_
  exact triple_rest_created _ _

/-- No location beside the root is on a way that stays below the root. -/
theorem not_prefix_of_apart {segs p : List String} (hapart : Apart fresh target) (hne : target ≠ [])
    (hclimb : climb [] segs ≠ none) (hp : p <+: fresh :: segs) : ¬ target <+: resolve [] p := by
  intro hpre
  have hunder : ¬ target <+: [fresh] := by
    intro hroot
    rcases List.prefix_cons_iff.mp hroot with hnil | ⟨rest, rfl, -⟩
    · exact hne hnil
    · exact hapart rfl
  have hcomparable : Comparable h.root.names (resolve [] p) := comparable_of_climb hclimb hp
  rcases hcomparable with hbelow | habove
  · exact (List.prefix_or_prefix_of_prefix hpre hbelow).elim hunder hapart.not_under
  · exact hunder (hpre.trans habove)

/-- The directory of the run lies outside, where no file `runs.jsonl` is yet. -/
theorem escapes_of_run (hfault : env.fault = noFault) (hnul : hasNul name = false)
    (hnulRun : hasNul runId = false) (hnul' : hasNul (String.ofList (runId.toList.take 24)) = false)
    (hpath : workspacePath env (joinPath [fresh] name) runId = workspaceDir fresh name runId ++ [last])
    (hin : WorkspaceInside name runId) (hout : ¬ RunInside name runId) : h.Escapes env := by
  obtain ⟨hname, hrun, hclimb⟩ := hin
  have hjsonl : "runs.jsonl" ≠ fresh := fun heq => h.freshNew (by simp [mentioned, heq])
  have hjsonl' : last ≠ "runs.jsonl" := fun heq => h.lastNew (by simp [mentioned, heq])
  have houtPath : joinPath [fresh] name = fresh :: parts name := if_neg (by simp [hname])
  have hrunDir : joinPath (joinPath [fresh] name) runId = fresh :: (parts name ++ parts runId) := by
    rw [houtPath, joinPath, if_neg (by simp [hrun]), List.cons_append]
  have hnulDir : (joinPath (joinPath [fresh] name) runId).any hasNul = false :=
    not_any_hasNul_joinPath (not_any_hasNul_joinPath (by simp [h.noNul]) hnul) hnulRun
  have hapart : Apart fresh (resolve [] (joinPath (joinPath [fresh] name) runId) ++ ["runs.jsonl"]) := by
    have hnone : climb [] (parts name ++ parts runId) = none := by
      by_contra hne
      exact hout hne
    rw [hrunDir, h.resolve_fresh]
    refine (apart_of_climb hnone fun hmem => ?_).concat hjsonl
    exact (List.mem_append.mp hmem).elim h.fresh_name h.fresh_run
  have hlast : last ∉ joinPath (joinPath [fresh] name) runId := by
    rw [joinPath, if_neg (by simp [hrun]), List.mem_append, not_or]
    exact ⟨h.last_name, h.last_run⟩
  have hne : resolve [] (joinPath (joinPath [fresh] name) runId) ++ ["runs.jsonl"] ≠ [] := by simp
  refine ⟨openTree _ last hne, _, hapart, ?_⟩
  have hexists : Triple (fun w => w.tree = openTree _ last hne)
      (mkdirP env.fault (joinPath [fresh] name)) (fun _ w => w.tree = openTree _ last hne)
      fun _ _ => False := by
    rw [hfault]
    refine mkdirP_existing (not_any_hasNul_joinPath (by simp [h.noNul]) hnul) fun p hp => ?_
    refine (kind_openTree_resolve hne h.last_name hp).resolve_right ?_
    exact h.not_prefix_of_apart hapart hne (climb_left hclimb) (houtPath ▸ hp)
  have hworkspaceDir : workspaceDir fresh name runId =
      fresh :: (parts name ++ (pathSegs (String.ofList (runId.toList.take 24))).dropLast) := by
    rw [workspaceDir, if_neg (by simp [hrun]), houtPath, List.cons_append]
  have hdirs : ∀ p, p <+: workspaceDir fresh name runId →
      (openTree _ last hne).kind (resolve [] p) = some .dir := fun p hp => by
    refine (kind_openTree_resolve hne h.last_workspaceDir hp).resolve_right ?_
    exact h.not_prefix_of_apart hapart hne hclimb (hworkspaceDir ▸ hp)
  have hnulPath : (workspaceDir fresh name runId ++ [last]).any hasNul = false :=
    hpath ▸ not_any_hasNul_workspacePath (not_any_hasNul_joinPath (by simp [h.noNul]) hnul) hnul'
  have hparent : (openTree _ last hne).kind
      (resolve [] (workspaceDir fresh name runId) ++ [last]).dropLast = some .dir := by
    rw [List.dropLast_concat]
    exact hdirs _ (List.prefix_refl _)
  have hnew : (openTree _ last hne).kind (resolve [] (workspaceDir fresh name runId) ++ [last]) = none :=
    if_pos (.inr (List.mem_append_right _ List.mem_cons_self))
  have hmkdir := osMkdir_creates hnulPath (FileTree.walk_concat h.isNameLast hdirs) hparent hnew
  rw [← hpath, ← hfault] at hmkdir
  -- the workspace is nowhere on the way to the directory of the run
  have hkind {loc : Loc} (hloc : last ∉ loc) :
      ((openTree _ last hne).add _ .dir hparent hnew).kind loc = (openTree _ last hne).kind loc :=
    Function.update_of_ne (by rintro rfl; simp at hloc) _ _
  have hlastDir := not_mem_resolve hlast
  have hrest : Triple (fun w => w.tree = (openTree _ last hne).add _ .dir hparent hnew)
      (do
        mkdirP env.fault (joinPath (joinPath [fresh] name) runId)
        runMatrix env (joinPath (joinPath [fresh] name) runId) (env.cells + 1)
        writeArtifacts env (joinPath (joinPath [fresh] name) runId))
      (fun _ w => resolve [] (joinPath (joinPath [fresh] name) runId) ++ ["runs.jsonl"] ∈ w.created)
      fun _ w => resolve [] (joinPath (joinPath [fresh] name) runId) ++ ["runs.jsonl"] ∈ w.created := by
    refine triple_rest_creates env.cells hfault hnulDir ?_ ?_ fun p hp => ?_
    · rw [hkind (by simpa using hlastDir)]
      exact kind_openTree_parent hne hlastDir
    · rw [hkind (by simpa [hlastDir] using hjsonl')]
      exact kind_openTree_target hne
    · rw [hkind (not_mem_resolve fun hmem => hlast (hp.subset hmem))]
      exact kind_openTree_resolve hne hlast hp
  refine Triple.bind hexists.noRaise fun _ => ?_
  refine Triple.bind (hmkdir.post fun _ _ hw => hw.2).noRaise fun _ => ?_
  exact hrest

end Unmentioned

/-- A text longer than the request is none of its segments. -/
theorem not_mem_mentioned {seg : String} (h : name.length + runId.length + 10 < seg.length) :
    seg ∉ mentioned name runId := by
  have htake : (String.ofList (runId.toList.take 24)).length < seg.length := by
    rw [String.length_ofList, List.length_take, String.length_toList]
    omega
  have hjsonl : seg ≠ "runs.jsonl" := by
    rintro rfl
    have hlength : "runs.jsonl".length = 10 := by decide
    omega
  have hname : seg ∉ parts name := not_mem_parts (by omega)
  have hrun : seg ∉ parts runId := not_mem_parts (by omega)
  simp [mentioned, hname, hrun, not_mem_pathSegs htake, hjsonl]

/-- A long random name. -/
def longName (n : Nat) : RandomName :=
  ⟨String.ofList (List.replicate n 'a'), fun c hc => by
    rw [String.toList_ofList] at hc
    rw [List.eq_of_mem_replicate hc]
    rfl⟩

theorem length_longName (n : Nat) : (longName n).1.length = n := by
  rw [longName, String.length_ofList, List.length_replicate]

/-- Names that do not stay inside create something outside of some root. -/
theorem exists_escapes (stamp temporary : RandomName) (cells : Nat) (hout : ¬ StaysInside name runId) :
    ∃ fresh last, ∃ h : Unmentioned fresh last name runId,
      ∃ workspace, h.Escapes ⟨noFault, stamp, workspace, temporary, cells⟩ := by
  have hlength := length_longName (name.length + runId.length + 11)
  generalize longName (name.length + runId.length + 11) = long at hlength
  obtain ⟨first, hpath⟩ := workspacePath_eq ⟨noFault, stamp, long, temporary, cells⟩
    (joinPath [long.1] name) runId
  have hlast : name.length + runId.length + 11 < (first ++ "_" ++ long.1).length := by
    have hunderscore : "_".length = 1 := by decide
    rw [String.length_append, String.length_append]
    omega
  have h : Unmentioned long.1 (first ++ "_" ++ long.1) name runId := by
    refine ⟨isName_of_length (by omega), isName_of_length (by omega), ?_, ?_, ?_, ?_⟩
    · intro heq
      rw [heq] at hlast
      omega
    · exact not_mem_mentioned (by omega)
    · exact not_mem_mentioned (by omega)
    · exact long.hasNul_eq_false
  refine ⟨_, _, h, long, ?_⟩
  rw [StaysInside, not_or, Bool.not_eq_true] at hout
  obtain ⟨hnul, hout⟩ := hout
  -- What comes first on the way decides: the directory of the experiment, the workspace, or the
  -- directory of the run.
  split_ifs at hout with hnul'
  · exact h.escapes_of_name rfl hnul hout
  · rw [Bool.not_eq_true] at hnul'
    by_cases hin : WorkspaceInside name runId
    · rw [not_and, not_or, Bool.not_eq_true] at hout
      obtain ⟨hnulRun, hrun⟩ := hout hin
      exact h.escapes_of_run rfl hnul hnulRun hnul' hpath hin hrun
    · exact h.escapes_of_workspace rfl hnul hnul' hpath hin

end Outside

/-! ## What a request creates -/

/-- Where the parent of the root is there, nothing that the request creates lies outside of the
root. -/
def WritesInside (cfg : PyVal F) (runId : Option String) : Prop :=
  ∀ (env : RunEnv) (root : ArtifactsRoot) (tree : FileTree),
    tree.kind root.names.dropLast = some .dir →
      ∀ loc ∈ (createExperiment env root cfg runId ⟨tree, [], 0⟩).2.created, root.names <+: loc

theorem createExperiment_ok {cfg : PyVal F} {runId : Option String} {name : String} (env : RunEnv)
    (root : ArtifactsRoot) (h : parseExperiment cfg = .ok name) :
    createExperiment env root cfg runId = runExperiment env root name (runIdOf env name runId) := by
  rw [createExperiment, h]
  rfl

/-- `{"meta": {"name": "sweep"}, "providers": [{"provider": "stub", "models": ["m"]}], "tasks":
[{"title": "t"}]}`. -/
def sweepConfig : PyVal FloatText :=
  .dict [("meta", .dict [("name", .str "sweep")]),
    ("providers", .list [.dict [("provider", .str "stub"), ("models", .list [.str "m"])]]),
    ("tasks", .list [.dict [("title", .str "t")]])]

/-- `/srv`, and nothing else. -/
def srvTree : FileTree where
  kind loc := if loc <+: ["srv"] then some .dir else none
  root := rfl
  parent loc h := by
    have hsrv : loc <+: ["srv"] := by
      by_contra hout
      exact h (if_neg hout)
    exact if_pos ((List.dropLast_prefix loc).trans hsrv)

/-- `/srv/results`. -/
def srvRoot : ArtifactsRoot where
  names := ["srv", "results"]
  isName := by decide +kernel
  noNul := by decide +kernel

end Noema.Experiments
