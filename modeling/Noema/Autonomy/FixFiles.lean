import Noema.Autonomy.Fixer

/-!
# What was tested and what is proposed

The code blocks of a solution become files twice. The sandbox joins the file names to its directory,
and the last block of a path stays there; the fixer strips the file names for the pull request, and
the first block of a path is taken. So the tests may pass on other files than those that are
proposed.

- `lookup_diskOf`, `lookup_solutionFiles`: the two maps, from the blocks. Both are folds over the
  blocks; what is at a path is the last block written there, or the first block that has it.
- `PathsAgree`: the condition on the blocks. Wherever a block is proposed, the last block tested at
  that path has the same content, and no block is tested at a path at which none is proposed.
- `PathsAgree.of_plain`: plain names, and one content for each of them, are enough.
- `TestStage`: the test stage of a validation runs, over these files. It is tied to the log of the
  fixer by `testStage_of_pytest`: a `pytest` process of the log is one for which the stage ran.
- **`tested_iff_proposed`**: for a fix that is submitted, the files of the pull request are the
  files of the test stage if and only if there is a test among the files and the paths agree.
  Without a test nothing is written, and nothing is tested (environment.py:411).

Paths are compared as texts; both sides write into one tree, the directory of the sandbox or the
root of the repository.
-/

namespace Noema.Autonomy

open Noema.Lib Noema.Core Noema.Sandbox

/-! ## The two maps -/

/-- A path as a text. -/
def pathText (path : RelPath) : String := "/".intercalate path

/-- The path at which the sandbox has a block, relative to its directory. -/
def testedPath (base : List String) (block : CodeBlock) : Option String :=
  (safeJoin base block.filename).toOption.map pathText

/-- The directory of the test stage (environment.py:411): without a test file nothing is written. -/
def testDir (base : List String) (sb : StageBehaviour) (files : List SourceFile) : Option Disk :=
  if files.all fun f => !f.isTest then some []
  else (writeFiles base sb.writeError files).toOption.map (diskOf files)

/-- The files of a pull request and the files in a directory, as maps from paths to contents. -/
def SameFiles (files : List (String × String)) (disk : Disk) : Prop :=
  ∀ path, files.lookup path = (disk.map fun p => (pathText p.1, p.2)).lookup path

section Maps

variable {u : Unicode} {base : List String} {solution : Solution}

theorem lookup_map {α : Type} (key value : α → String) (xs : List α) (k : String) :
    (xs.map fun x => (key x, value x)).lookup k = (xs.find? fun x => key x = k).map value := by
  induction xs with
  | nil => rfl
  | cons x xs ih =>
    rw [List.map_cons, List.lookup_cons, List.find?_cons]
    by_cases h : key x = k
    · simp [h]
    · simp [h, beq_eq_false_iff_ne.mpr (Ne.symm h), ih]

theorem mem_keys_iff {files : List (String × String)} {path : String} :
    path ∈ files.map Prod.fst ↔ files.lookup path ≠ none := by
  rw [Ne, List.lookup_eq_none_iff]
  simp

/-- The fixer takes the first block of a path. -/
theorem lookup_solutionFiles (path : String) :
    (solutionFiles u solution).lookup path =
      (solution.codeBlocks.find? fun block => blockPath u block = path).map CodeBlock.content := by
  rw [solutionFiles]
  generalize solution.codeBlocks = blocks
  induction blocks using List.reverseRecOn with
  | nil => rfl
  | append_singleton blocks block ih =>
    rw [List.foldl_append, List.foldl_cons, List.foldl_nil, List.find?_append, List.find?_singleton]
    dsimp only
    -- A block is added under its path unless the path is there, so that the first one stays.
    split
    · next hseen =>
      rw [mem_keys_iff] at hseen
      by_cases hpath : blockPath u block = path
      · subst hpath
        rw [ih] at hseen ⊢
        obtain ⟨first, hfirst⟩ := Option.ne_none_iff_exists'.mp
          (mt Option.map_eq_none_iff.mpr hseen)
        simp [hfirst]
      · simp [ih, hpath]
    · next hnew =>
      rw [mem_keys_iff, not_not] at hnew
      rw [List.lookup_append, List.lookup_singleton]
      by_cases hpath : blockPath u block = path
      · subst hpath
        rw [ih] at hnew ⊢
        simp [Option.map_eq_none_iff.mp hnew]
      · simp [ih, hpath, beq_eq_false_iff_ne.mpr (Ne.symm hpath)]

/-- The path of a file that was written. -/
theorem testedPath_of_write {writeError : Nat → Option PyExc} {block : CodeBlock} {i : Nat}
    {path : RelPath}
    (h : (do
      let path ← safeJoin base block.filename
      if path = [] then .error (.osError "Is a directory")
      else
        match writeError i with
        | some e => .error e
        | none => .ok path) = .ok path) : testedPath base block = some (pathText path) := by
  obtain ⟨path', hjoin, h⟩ := bind_eq_ok h
  split at h
  · cases h
  · split at h
    · cases h
    · cases h
      rw [testedPath, hjoin]
      rfl

theorem testedPath_of_writeFiles {writeError : Nat → Option PyExc} {paths : List RelPath}
    (h : writeFiles base writeError (sourcesOf solution) = .ok paths) :
    List.Forall₂ (fun block path => testedPath base block = some (pathText path))
      solution.codeBlocks paths := by
  have hpaths := mapM_eq_ok h
  clear h
  rw [sourcesOf] at hpaths
  generalize solution.codeBlocks = blocks at hpaths ⊢
  generalize 0 = i at hpaths
  induction blocks generalizing i paths with
  | nil =>
    cases hpaths
    exact .nil
  | cons block blocks ih =>
    rw [List.map_cons, List.zipIdx_cons] at hpaths
    cases hpaths with
    | cons hpath hpaths => exact .cons (testedPath_of_write hpath) (ih (i + 1) hpaths)

/-- In the directory is the last block of a path. -/
theorem lookup_diskOf {paths : List RelPath} (path : String)
    (h : List.Forall₂ (fun block path => testedPath base block = some (pathText path))
      solution.codeBlocks paths) :
    ((diskOf (sourcesOf solution) paths).map fun p => (pathText p.1, p.2)).lookup path =
      (solution.codeBlocks.reverse.find? fun block => testedPath base block = some path).map
        CodeBlock.content := by
  have hpairs : (diskOf (sourcesOf solution) paths).map (fun p => (pathText p.1, p.2)) =
      solution.codeBlocks.reverse.map fun block =>
        ((testedPath base block).getD "", block.content) := by
    rw [diskOf, sourcesOf, List.map_reverse, List.map_reverse]
    congr 1
    generalize solution.codeBlocks = blocks at h
    induction h with
    | nil => rfl
    | @cons block path' blocks paths hpath _ ih =>
      simp only [List.map_cons, List.zip_cons_cons, hpath, ih]
      rfl
  rw [hpairs, lookup_map]
  congr 1
  refine List.find?_congr fun block hblock => ?_
  obtain ⟨path', -, hpath⟩ := exists_mem_of_forall₂ h (List.mem_reverse.mp hblock)
  simp [hpath]

/-- The blocks in their two places. At the path where a block is proposed some block is tested, and
the last of these has the content of the first block that is proposed there; and where a block is
tested some block is proposed. -/
structure PathsAgree (u : Unicode) (base : List String) (blocks : List CodeBlock) : Prop where
  proposed : ∀ block ∈ blocks,
    (blocks.find? fun b => blockPath u b = blockPath u block).map CodeBlock.content =
      (blocks.reverse.find? fun b => testedPath base b = some (blockPath u block)).map
        CodeBlock.content
  tested : ∀ block ∈ blocks, ∀ path, testedPath base block = some path →
    ∃ b ∈ blocks, blockPath u b = path

/-- The maps are the same exactly when the paths agree. -/
theorem sameFiles_iff {paths : List RelPath}
    (h : List.Forall₂ (fun block path => testedPath base block = some (pathText path))
      solution.codeBlocks paths) :
    SameFiles (solutionFiles u solution) (diskOf (sourcesOf solution) paths) ↔
      PathsAgree u base solution.codeBlocks := by
  simp only [SameFiles, lookup_solutionFiles, lookup_diskOf _ h]
  constructor
  · intro hsame
    refine ⟨fun block _ => hsame (blockPath u block), fun block hblock path hpath => ?_⟩
    by_contra hnone
    push Not at hnone
    have hlookup := hsame path
    rw [List.find?_eq_none.mpr fun b hb => by simpa using hnone b hb, Option.map_none, eq_comm,
      Option.map_eq_none_iff, List.find?_eq_none] at hlookup
    exact hlookup block (List.mem_reverse.mpr hblock) (by simpa using hpath)
  -- At a path at which nothing is proposed, nothing is tested.
  · intro hagree path
    by_cases hproposed : ∃ block ∈ solution.codeBlocks, blockPath u block = path
    · obtain ⟨block, hblock, rfl⟩ := hproposed
      exact hagree.proposed block hblock
    · push Not at hproposed
      rw [List.find?_eq_none.mpr fun b hb => by simpa using hproposed b hb,
        List.find?_eq_none.mpr fun b hb htested => ?_]
      obtain ⟨b', hb', heq⟩ :=
        hagree.tested b (List.mem_reverse.mp hb) path (by simpa using htested)
      exact hproposed b' hb' heq

/-- Names that mean the same in both places, and one content for each of them, are enough. -/
theorem PathsAgree.of_plain {blocks : List CodeBlock}
    (hplain : ∀ block ∈ blocks, testedPath base block = some (blockPath u block))
    (hcontent : ∀ block ∈ blocks, ∀ block' ∈ blocks,
      blockPath u block = blockPath u block' → block.content = block'.content) :
    PathsAgree u base blocks := by
  refine ⟨fun block hblock => ?_, fun block hblock path hpath => ⟨block, hblock, ?_⟩⟩
  · obtain ⟨first, hfirst⟩ :
        ∃ first, (blocks.find? fun b => blockPath u b = blockPath u block) = some first :=
      Option.isSome_iff_exists.mp (List.find?_isSome.mpr ⟨block, hblock, by simp⟩)
    obtain ⟨last, hlast⟩ : ∃ last,
        (blocks.reverse.find? fun b => testedPath base b = some (blockPath u block)) = some last :=
      Option.isSome_iff_exists.mp
        (List.find?_isSome.mpr ⟨block, List.mem_reverse.mpr hblock, by simp [hplain block hblock]⟩)
    have hmem := List.mem_reverse.mp (List.mem_of_find?_eq_some hlast)
    have hpath : blockPath u last = blockPath u block := by
      have htested : testedPath base last = some (blockPath u block) := by
        simpa using List.find?_some hlast
      rw [hplain last hmem] at htested
      exact Option.some.inj htested
    rw [hfirst, hlast, Option.map_some, Option.map_some]
    refine congrArg some (hcontent first (List.mem_of_find?_eq_some hfirst) last hmem ?_)
    rw [hpath]
    simpa using List.find?_some hfirst
  · exact Option.some.inj ((hplain block hblock).symm.trans hpath)

end Maps

/-! ## What is submitted -/

section Submitted

variable {P : Type} {fixer : Fixer P} {engine : SandboxEngine} {b : Behaviour} {payload : P}
  {incident : Incident} {solution : Solution}

/-- No further pull request is submitted. -/
def NoFurther (log log' : List Call) : Prop :=
  ∀ files title branch, .submitFixPr files title branch ∈ log' →
    .submitFixPr files title branch ∈ log

instance : Std.Refl NoFurther := ⟨fun _ _ _ _ h => h⟩

instance : IsTrans (List Call) NoFurther :=
  ⟨fun _ _ _ h h' files title branch hmem => h files title branch (h' files title branch hmem)⟩

theorem noFurther_append {log : List Call} {call : Call}
    (hcall : ∀ files title branch, call ≠ .submitFixPr files title branch) :
    NoFurther log (log ++ [call]) := by
  intro files title branch hmem
  rcases List.mem_append.mp hmem with hmem | hmem
  · exact hmem
  · exact absurd (List.mem_singleton.mp hmem).symm (hcall files title branch)

/-- What is proposed are the files of the solution. -/
theorem files_of_proposeFix {log : List Call} {files : List (String × String)} {title branch : String}
    (hlog : ∀ files title branch, .submitFixPr files title branch ∉ log)
    (h : .submitFixPr files title branch ∈ (proposeFix fixer incident solution log).2) :
    files = solutionFiles fixer.unicode solution := by
  obtain ⟨rest, hrest, heq⟩ := proposeFix_eq (R := NoFurther)
    (fun _ _ => noFurther_append fun _ _ _ h => by cases h)
    (fun _ _ => noFurther_append fun _ _ _ h => by cases h) fixer incident solution
  rw [heq] at h
  rcases List.mem_append.mp (hrest _ files title branch h) with hmem | hmem
  · exact absurd hmem (hlog files title branch)
  · exact (Call.submitFixPr.inj (List.mem_singleton.mp hmem)).1

/-- What `handle_incident` submits are the files of the solution. -/
theorem files_of_submitted {files : List (String × String)} {title branch : String}
    (hparse : fixer.parseIncident payload = .ok incident)
    (hthink : fixer.think (incidentToTask incident) = .ok solution)
    (h : .submitFixPr files title branch ∈ (handleIncident fixer engine b payload []).2) :
    files = solutionFiles fixer.unicode solution ∧ solution.codeBlocks ≠ [] := by
  have hnone : ∀ processes : List Process, ∀ files title branch,
      Call.submitFixPr files title branch ∉ processes.map .process := by
    intro processes files title branch hmem
    obtain ⟨p, -, hp⟩ := List.mem_map.mp hmem
    cases hp
  cases hengine : fixer.engineFactory with
  | error e =>
    rw [handleIncident, hparse, hengine] at h
    exact absurd h (hnone [] files title branch)
  | ok _ =>
    -- A solution without blocks is valid as there is nothing to validate, but it is not proposed.
    by_cases hfiles : sourcesOf solution = []
    · have hblocks : solution.codeBlocks = [] := List.map_eq_nil_iff.mp hfiles
      have hvalidate : validateSolution engine b solution true =
          pure { allValid := true, summary := "No code to validate" } := by
        rw [validateSolution, hfiles]
        rfl
      have hlog : (handleIncident fixer engine b payload []).2 = [] := by
        rw [handleIncident, hparse, hengine, PyM.bind_apply, PyM.lift_apply]
        dsimp only
        rw [PyM.bind_apply, PyM.lift_apply]
        dsimp only
        rw [hthink]
        dsimp only
        rw [PyM.bind_apply, attempt, sandboxed, hvalidate, hblocks]
        rfl
      rw [hlog] at h
      cases h
    · rw [handleIncident_log hparse hengine hthink hfiles] at h
      split at h
      · split at h
        · exact ⟨files_of_proposeFix (hnone _) h, fun hblocks => hfiles (by rw [sourcesOf, hblocks]; rfl)⟩
        · exact absurd h (hnone _ files title branch)
      · exact absurd h (hnone _ files title branch)

/-- The test stage of a validation runs, in a directory that has these files then. -/
def TestStage (engine : SandboxEngine) (b : Behaviour) (files : List SourceFile)
    (base : List String) (disk : Disk) : Prop :=
  engine.config.testEnabled = true ∧ b.tests.tmpDir = .ok base ∧
    testDir base b.tests files = some disk

/-- The directory of the test stage is what `pytest` runs over. -/
theorem testStage_of_pytest {files : List SourceFile} {disk : Disk}
    (h : Process.pytest disk ∈ (validateFiles engine b files true []).2) :
    ∃ base, TestStage engine b files base disk := by
  cases (mem_log_iff rfl).mp h with
  | @pytest f paths hreached henabled hwrote hf htest hstarted =>
    obtain ⟨base, hbase, hpaths⟩ := hwrote
    refine ⟨base, henabled.2, hbase, ?_⟩
    have hsome : ¬ (files.all fun f => !f.isTest) = true := by
      rw [List.all_eq_true]
      intro hall
      have hnot := hall f hf
      rw [htest] at hnot
      cases hnot
    rw [testDir, if_neg hsome, hpaths]
    rfl

/-- **What was tested is what is proposed.** For a fix that is submitted, the files of the pull
request are the files that lay in the directory of the test stage if and only if there was a test
among them and the paths of the blocks agree. -/
theorem tested_iff_proposed {disk : Disk} {base : List String} {files : List (String × String)}
    {title branch : String} (hparse : fixer.parseIncident payload = .ok incident)
    (hthink : fixer.think (incidentToTask incident) = .ok solution)
    (hsubmit : .submitFixPr files title branch ∈ (handleIncident fixer engine b payload []).2)
    (hstage : TestStage engine b (sourcesOf solution) base disk) :
    SameFiles files disk ↔
      (∃ f ∈ sourcesOf solution, f.isTest = true) ∧
        PathsAgree fixer.unicode base solution.codeBlocks := by
  obtain ⟨rfl, hblocks⟩ := files_of_submitted hparse hthink hsubmit
  obtain ⟨-, -, hdir⟩ := hstage
  rw [testDir] at hdir
  -- Without a test file the stage has an empty directory, and there is a file in the pull request.
  split at hdir
  · next hnone =>
    cases hdir
    refine iff_of_false (fun hsame => ?_) fun ⟨⟨f, hf, htest⟩, _⟩ => ?_
    · obtain ⟨block, blocks, hcons⟩ := List.exists_cons_of_ne_nil hblocks
      have hlookup := hsame (blockPath fixer.unicode block)
      rw [lookup_solutionFiles, hcons] at hlookup
      simp at hlookup
    · have hnot := List.all_eq_true.mp hnone f hf
      rw [htest] at hnot
      cases hnot
  · next hsome =>
    have htest : ∃ f ∈ sourcesOf solution, f.isTest = true := by simpa using hsome
    rw [and_iff_right htest]
    cases hwrite : writeFiles base b.tests.writeError (sourcesOf solution) with
    | error e =>
      rw [hwrite] at hdir
      cases hdir
    | ok paths =>
      rw [hwrite] at hdir
      cases hdir
      exact sameFiles_iff (testedPath_of_writeFiles hwrite)

end Submitted

/-- The plain names of `testedSolution` mean the same in both places. -/
theorem testedSolution_sameFiles :
    SameFiles [("main.py", "print(1)"), ("test_main.py", "assert 0")]
      [(["test_main.py"], "assert 0"), (["main.py"], "print(1)")] := by
  have hparse : promptFixer.parseIncident () = .ok ⟨"i1", "Crash", "", "", []⟩ := rfl
  have hthink (task : FixTask) : promptFixer.think task = .ok testedSolution := rfl
  have hsubmit : Call.submitFixPr [("main.py", "print(1)"), ("test_main.py", "assert 0")]
      "fix: Crash" "noema-fix/i1-crash" ∈
        (handleIncident promptFixer lenientEngine redTests () []).2 := by decide +kernel
  have hstage : TestStage lenientEngine redTests (sourcesOf testedSolution) ["tmp", "sandbox"]
      [(["test_main.py"], "assert 0"), (["main.py"], "print(1)")] :=
    ⟨rfl, rfl, by decide +kernel⟩
  refine (tested_iff_proposed hparse (hthink _) hsubmit hstage).mpr ⟨?_, .of_plain ?_ ?_⟩
  · exact ⟨_, List.mem_cons_of_mem _ List.mem_cons_self, by decide +kernel⟩
  · decide +kernel
  · decide +kernel

/-- A program that is there twice, with a test. -/
def repeatedSolution : Solution where
  taskId := "t"
  title := "fix"
  summary := "fix"
  codeBlocks := [⟨"main.py", "python", "print(1)", ""⟩, ⟨"main.py", "python", "print(2)", ""⟩,
    ⟨"test_main.py", "python", "assert 1", ""⟩]

/-- The second program is tested, and the first one is proposed. -/
theorem repeatedSolution_differs :
    let fixer := { promptFixer with think := fun _ => .ok repeatedSolution }
    let log := (handleIncident fixer lenientEngine smooth () []).2
    ∃ files title branch disk, .submitFixPr files title branch ∈ log ∧
      .process (.pytest disk) ∈ log ∧ ¬ SameFiles files disk := by
  refine ⟨[("main.py", "print(1)"), ("test_main.py", "assert 1")], "fix: Crash",
    "noema-fix/i1-crash", [(["test_main.py"], "assert 1"), (["main.py"], "print(2)"),
      (["main.py"], "print(1)")], by decide +kernel, by decide +kernel, fun hsame => ?_⟩
  have hmain := hsame "main.py"
  revert hmain
  decide +kernel

end Noema.Autonomy
