import Noema.Lib.PyText
import Noema.Lib.PyTriple

/-!
# Landing a patch (`evolution/engine.py`)

A patch is tried in the worktree: its text is written over the file, and the original is written
back when it does not land. The tests, the compiler and the file system may end each step in any way
(`Surroundings`): a write may fail before or in the middle, a read may raise, the backup may stay,
the tests may be red, raise or be cancelled. The tests do not change the file themselves.

Exceptions matter in detail here. `except Exception` catches what is an `Exception`, and a
cancellation is none; so a handler that writes the original back is skipped when the tests are
cancelled.

- `Stranded`: the ways for a call to be left with a text in the file that it should have removed. It
  is an inductive predicate with one constructor for each, on the inputs of the call: what reads
  raise, how writes end, what the tests and the compiler say.
- `stranded_spec`: a call that meets one of them leaves that text, and the patch has not landed.
- `validateAndLand_ends`: a call ends with the original, with a patch that has landed, or stranded.
  These two are the proof; each follows the code step by step.
- `runEvolutionCycle_triple`: a cycle that returns has counted every patch exactly once.
- **`landsGreen_iff`**: whatever happens, the file has its original text at the end of a call, or
  the patch has landed with green tests and compiled, and the counts add up, if and only if every
  text that a call is stranded with is the original.
- `brokenPatch_strands`: a cancelled test run, and an empty original, which the code takes for a
  missing one.
-/

namespace Noema.Evolution

open Noema.Lib

/-! ## The engine -/

/-- `EvolutionPatch`. -/
structure EvolutionPatch where
  target : String := ""
  description : String := ""
  originalCode : String := ""
  patchedCode : String := ""
  applied : Bool := false
  testsPassed : Bool := false
  testsOutput : String := ""

/-- How a `write_text` ends: the text is in the file, or the file could not be opened, or it was
emptied and got another text. -/
inductive WriteEnd where
  | done
  | refused
  | cut (left : String)

/-- The writes of a call: the patched text before the tests, the original after red ones, the
original of a proposal, the backup, the patched text again, and the original when that fails. -/
inductive WriteSite where
  | provisional
  | rejected
  | proposed
  | backup
  | applied
  | restored

/-- The reads of a call, in `_validate_and_land` and in `apply_patch`. -/
inductive ReadSite where
  | validate
  | apply

/-- The removals of the backup, when the patch is applied and when it is not. -/
inductive UnlinkSite where
  | applied
  | restored

/-- What a call meets: what its reads raise, how its writes end, whether it can remove the backup,
what the tests return or raise, and what the compiler raises. -/
structure Surroundings where
  read : ReadSite → Option PyExc := fun _ => none
  write : WriteSite → WriteEnd := fun _ => .done
  unlinkOk : UnlinkSite → Bool := fun _ => true
  tests : Except PyExc (Bool × String)
  compile : Except PyExc Unit

/-- The files, the patch, and what was seen: the texts of the target on which the tests were green,
and those that compiled. -/
structure Worktree where
  files : String → Option String
  patch : EvolutionPatch
  greenOn : List (Option String) := []
  compiledOn : List (Option String) := []

/-- A file gets a text. -/
def Worktree.put (s : Worktree) (path text : String) : Worktree :=
  { s with files := Function.update s.files path (some text) }

/-- The file next to the target that keeps the original. -/
def backupPath (path : String) : String := withSuffix path (suffix path ++ ".bak")

/-- The settings of an engine. -/
structure EvolutionEngine where
  enabled : Bool
  testBeforeApply : Bool
  autoApply : Bool
  maxPatchesPerCycle : Nat := 5

/-- The exceptions that `except Exception` catches. -/
def isException : PyExc → Bool
  | .custom cls _ => cls ∉ ["CancelledError", "KeyboardInterrupt", "SystemExit", "GeneratorExit"]
  | _ => true

/-- `try: x except Exception as e: handler(e)`. -/
def exceptException {σ α : Type} (x : PyM σ α) (handler : PyExc → PyM σ α) : PyM σ α :=
  PyM.tryCatch x fun e => if isException e then handler e else PyM.raise e

/-- The patch is changed. -/
def editPatch (f : EvolutionPatch → EvolutionPatch) : PyM Worktree Unit :=
  PyM.modify fun s => { s with patch := f s.patch }

variable (w : Surroundings)

/-- `path.write_text(text)`. -/
def writeText (site : WriteSite) (path text : String) : PyM Worktree Unit := fun s =>
  match w.write site with
  | .done => (.ok (), s.put path text)
  | .refused => (.error (.osError "write failed"), s)
  | .cut left => (.error (.osError "write failed"), s.put path left)

/-- `patch.original_code or path.read_text()`. -/
def originalCode (site : ReadSite) : PyM Worktree String := fun s =>
  if s.patch.originalCode ≠ "" then (.ok s.patch.originalCode, s)
  else
    match w.read site with
    | none => (.ok ((s.files s.patch.target).getD ""), s)
    | some e => (.error e, s)

/-- `backup.unlink(missing_ok=True)`. -/
def unlink (site : UnlinkSite) (path : String) : PyM Worktree Unit := fun s =>
  if w.unlinkOk site then (.ok (), { s with files := Function.update s.files path none })
  else (.error (.osError "unlink failed"), s)

/-- `await test_runner()`. -/
def runTests (path : String) : PyM Worktree (Bool × String) := fun s =>
  match w.tests with
  | .ok (true, output) => (.ok (true, output), { s with greenOn := s.files path :: s.greenOn })
  | .ok (false, output) => (.ok (false, output), s)
  | .error e => (.error e, s)

/-- `py_compile.compile(str(path), doraise=True)`. -/
def compile (path : String) : PyM Worktree Unit := fun s =>
  match w.compile with
  | .ok _ => (.ok (), { s with compiledOn := s.files path :: s.compiledOn })
  | .error e => (.error e, s)

/-- The `try` of `apply_patch`. -/
def tryPatch (path backup patchedCode : String) : PyM Worktree Bool := do
  writeText w .applied path patchedCode
  compile w path
  editPatch fun patch => { patch with applied := true }
  unlink w .applied backup
  pure true

/-- The `except` of `apply_patch`. -/
def restorePatch (path backup original : String) : PyM Worktree Bool := do
  writeText w .restored path original
  unlink w .restored backup
  editPatch fun patch => { patch with applied := false, testsPassed := false }
  pure false

/-- `apply_patch` (engine.py:260). -/
def applyPatch (dryRun : Bool) : PyM Worktree Bool := do
  let s ← PyM.get
  let path := s.patch.target
  if (s.files path).isNone then pure false
  else if dryRun then pure true
  else do
    let original ← originalCode w .apply
    let backup := backupPath path
    writeText w .backup backup original
    exceptException (tryPatch w path backup s.patch.patchedCode) fun _ =>
      restorePatch w path backup original

/-- The part of `_validate_and_land` under `if self.test_before_apply`: whether it goes on. -/
def testPatch (path patchedCode original : String) : PyM Worktree Bool := do
  writeText w .provisional path patchedCode
  let (ok, output) ← exceptException (runTests w path) fun e =>
    pure (false, e.typeName ++ ": " ++ e.msg)
  editPatch fun patch => { patch with testsOutput := output }
  if ok then do
    editPatch fun patch => { patch with testsPassed := true }
    pure true
  else do
    editPatch fun patch => { patch with testsPassed := false }
    writeText w .rejected path original
    pure false

/-- The end of `_validate_and_land`. -/
def land (engine : EvolutionEngine) (path original : String) : PyM Worktree Bool :=
  if engine.autoApply then applyPatch w false
  else do
    -- Propose for review: keep the worktree untouched.
    editPatch fun patch => { patch with applied := false }
    writeText w .proposed path original
    pure true

/-- `_validate_and_land` (engine.py:315). -/
def validateAndLand (engine : EvolutionEngine) : PyM Worktree Bool := do
  let s ← PyM.get
  let path := s.patch.target
  if (s.files path).isNone then pure false
  else do
    let original ← originalCode w .validate
    editPatch fun patch => { patch with originalCode := original }
    if engine.testBeforeApply then do
      let ok ← testPatch w path s.patch.patchedCode original
      if ok then land w engine path original else pure false
    else land w engine path original

/-! ## The cycle -/

/-- An issue of `analyze_self`: what the generator makes of it, and what its patch meets. -/
structure Issue where
  generated : Except PyExc (Option EvolutionPatch)
  surroundings : Surroundings

/-- `EvolutionResult`. -/
structure EvolutionResult where
  patchesGenerated : Nat := 0
  patchesApplied : Nat := 0
  patchesProposed : Nat := 0
  patchesRejected : Nat := 0
  evolutionCycle : Nat := 0
  summary : String := ""
  improvements : List String := []

/-- The files, what the engine remembers, and the result of its cycle. -/
structure EngineState where
  files : String → Option String
  cycle : Nat := 0
  patches : List EvolutionPatch := []
  history : List EvolutionResult := []
  result : EvolutionResult := {}

/-- The result is changed. -/
def editResult (f : EvolutionResult → EvolutionResult) : PyM EngineState Unit :=
  PyM.modify fun s => { s with result := f s.result }

/-- `_validate_and_land` for a new patch, which stays in the list of patches: whether it landed, and
the patch. -/
def landPatch (engine : EvolutionEngine) (w : Surroundings) (patch : EvolutionPatch) :
    PyM EngineState (Bool × EvolutionPatch) := fun s =>
  let (landed, tree) := validateAndLand w engine ⟨s.files, patch, [], []⟩
  (landed.map (·, tree.patch), { s with files := tree.files, patches := s.patches ++ [tree.patch] })

/-- The body of the loop of a cycle. -/
def handleIssue (engine : EvolutionEngine) (issue : Issue) : PyM EngineState Unit := do
  let generated ← PyM.lift issue.generated
  match generated with
  | none => pure ()
  | some patch => do
    editResult fun r => { r with patchesGenerated := r.patchesGenerated + 1 }
    let (landed, patch) ← landPatch engine issue.surroundings patch
    if !landed then editResult fun r => { r with patchesRejected := r.patchesRejected + 1 }
    else if patch.applied then
      editResult fun r => { r with
        patchesApplied := r.patchesApplied + 1
        improvements := r.improvements ++
          ["Applied patch to " ++ patch.target ++ ": " ++ patch.description] }
    else editResult fun r => { r with patchesProposed := r.patchesProposed + 1 }

/-- The loop of a cycle. -/
def handleIssues (engine : EvolutionEngine) : List Issue → PyM EngineState Unit
  | [] => pure ()
  | issue :: issues => do
    handleIssue engine issue
    handleIssues engine issues

/-- What a cycle has come to. -/
def summaryOf (r : EvolutionResult) : String :=
  "Cycle " ++ toString r.evolutionCycle ++ ": " ++ toString r.patchesGenerated ++ " generated, " ++
    toString r.patchesApplied ++ " applied, " ++ toString r.patchesProposed ++ " proposed, " ++
    toString r.patchesRejected ++ " rejected"

/-- `run_evolution_cycle` (engine.py:362), on what `analyze_self` finds. -/
def runEvolutionCycle (engine : EvolutionEngine) (issues : Except PyExc (List Issue)) :
    PyM EngineState EvolutionResult := do
  PyM.modify fun s => { s with cycle := s.cycle + 1, result := { evolutionCycle := s.cycle + 1 } }
  if engine.enabled then do
    let issues ← PyM.lift issues
    handleIssues engine (issues.take engine.maxPatchesPerCycle)
    editResult fun r => { r with summary := summaryOf r }
  else
    editResult fun r => { r with
      summary := "Cycle " ++ toString r.evolutionCycle ++ ": evolution disabled by settings" }
  PyM.modify fun s => { s with history := s.history ++ [s.result] }
  let s ← PyM.get
  pure s.result

/-! ## Stranded texts -/

/-- A write that fails leaves a text in a file that had another. -/
def WriteEnd.Leaves (old left : String) : WriteEnd → Prop
  | .done => False
  | .refused => left = old
  | .cut left' => left = left'

/-- The tests are red, or could not be run. -/
def Red : Prop :=
  (∃ output, w.tests = .ok (false, output)) ∨ ∃ e, w.tests = .error e ∧ isException e

section Stranded

variable (patched original : String)

/-- How the `try` of `apply_patch` fails before the patch has compiled, and what it leaves. -/
inductive TryFails (before : String) : String → Prop
  | write {left : String} (hwrite : (w.write .applied).Leaves before left) : TryFails before left
  | compile {e : PyExc} (hwrite : w.write .applied = .done) (he : w.compile = .error e)
    (hexception : isException e) : TryFails before patched

/-- How `apply_patch` is left with a text that it should have removed, when it has found the text
`before`. -/
inductive StrandedApply (before : String) : String → Prop
  /-- the original is empty, so it is read again, from the patched file -/
  | unread {e : PyExc} (hempty : original = "") (hread : w.read .apply = some e) :
    StrandedApply before before
  /-- there is no backup -/
  | noBackup (hread : original ≠ "" ∨ w.read .apply = none) (hbackup : w.write .backup ≠ .done) :
    StrandedApply before before
  /-- the compiler is interrupted -/
  | interrupted {e : PyExc} (hread : original ≠ "" ∨ w.read .apply = none)
    (hbackup : w.write .backup = .done) (hwrite : w.write .applied = .done)
    (he : w.compile = .error e) (hbase : ¬ isException e) : StrandedApply before patched
  /-- what was read again is written back -/
  | restored {left : String} (hempty : original = "") (hread : w.read .apply = none)
    (hbackup : w.write .backup = .done) (hfails : TryFails w patched before left)
    (hrestored : w.write .restored = .done) : StrandedApply before before
  /-- the original is not written back -/
  | notRestored {left left' : String} (hread : original ≠ "" ∨ w.read .apply = none)
    (hbackup : w.write .backup = .done) (hfails : TryFails w patched before left)
    (hrestored : (w.write .restored).Leaves left left') : StrandedApply before left'
  /-- nor when the backup could not be removed -/
  | notRemoved {e : Unit} {left : String} (hread : original ≠ "" ∨ w.read .apply = none)
    (hbackup : w.write .backup = .done) (hwrite : w.write .applied = .done) (hok : w.compile = .ok e)
    (hunlink : w.unlinkOk .applied = false) (hrestored : (w.write .restored).Leaves patched left)
    (hne : left ≠ patched) : StrandedApply before left

variable (engine : EvolutionEngine) (text : String)

/-- A call comes to the decision whether to apply the patch, with a text in the file: that of the
patch, if the tests were green on it, and the one it has found, if there are no tests. -/
inductive ReachesLanding : String → Prop
  | untested (htest : engine.testBeforeApply = false) : ReachesLanding text
  | green {output : String} (htest : engine.testBeforeApply)
    (hwrite : w.write .provisional = .done) (htests : w.tests = .ok (true, output)) :
    ReachesLanding patched

/-- How a call is left with a text that it should have removed, when it knows the original. -/
inductive StrandedCall : String → Prop
  /-- the patch is not written completely -/
  | provisional {left : String} (htest : engine.testBeforeApply)
    (hwrite : (w.write .provisional).Leaves text left) : StrandedCall left
  /-- the tests are cancelled -/
  | cancelled {e : PyExc} (htest : engine.testBeforeApply) (hwrite : w.write .provisional = .done)
    (he : w.tests = .error e) (hbase : ¬ isException e) : StrandedCall patched
  /-- the original is not written back after red tests -/
  | rejected {left : String} (htest : engine.testBeforeApply) (hwrite : w.write .provisional = .done)
    (hred : Red w) (hrejected : (w.write .rejected).Leaves patched left) : StrandedCall left
  /-- nor for a proposal -/
  | proposed {before left : String} (hreach : ReachesLanding w patched engine text before)
    (happly : engine.autoApply = false) (hproposed : (w.write .proposed).Leaves before left) :
    StrandedCall left
  /-- `apply_patch` does not restore it -/
  | applying {before left : String} (hreach : ReachesLanding w patched engine text before)
    (happly : engine.autoApply) (hstranded : StrandedApply w patched original before left) :
    StrandedCall left

end Stranded

/-- The original text of a patch for a file. -/
def originalOf (patch : EvolutionPatch) (text : String) : String :=
  if patch.originalCode ≠ "" then patch.originalCode else text

/-- A call is left with a text that it should have removed from the file. -/
def Stranded (engine : EvolutionEngine) (patch : EvolutionPatch) (text left : String) : Prop :=
  (patch.originalCode ≠ "" ∨ w.read .validate = none) ∧
    StrandedCall w patch.patchedCode (originalOf patch text) engine text left

/-- At the end of a call the file has the original text, or the patch has landed: then it may be
applied, it has compiled, and the tests were green on it, if there are tests. -/
def LandsGreen (engine : EvolutionEngine) (patch : EvolutionPatch) (files : String → Option String)
    (text : String) : Prop :=
  let after := (validateAndLand w engine ⟨files, patch, [], []⟩).2
  after.files patch.target = some (originalOf patch text) ∨
    after.files patch.target = some patch.patchedCode ∧ engine.autoApply ∧
      some patch.patchedCode ∈ after.compiledOn ∧
      (engine.testBeforeApply → some patch.patchedCode ∈ after.greenOn)

instance (engine : EvolutionEngine) (patch : EvolutionPatch) (files : String → Option String)
    (text : String) : Decidable (LandsGreen w engine patch files text) :=
  inferInstanceAs (Decidable (_ ∨ _ ∧ _ ∧ _ ∧ (_ → _)))

/-! ## What the steps do to the target -/

section Steps

variable {w : Surroundings} {s : Worktree} {path backup text before original : String}

@[simp] theorem put_patch (s : Worktree) (path text : String) : (s.put path text).patch = s.patch := rfl

@[simp] theorem put_compiledOn (s : Worktree) (path text : String) :
    (s.put path text).compiledOn = s.compiledOn := rfl

@[simp] theorem put_greenOn (s : Worktree) (path text : String) :
    (s.put path text).greenOn = s.greenOn := rfl

@[simp] theorem put_files_self (s : Worktree) (path text : String) :
    (s.put path text).files path = some text := Function.update_self ..

theorem put_files_ne {other : String} (h : other ≠ path) (s : Worktree) (text : String) :
    (s.put path text).files other = s.files other := Function.update_of_ne h ..

theorem backupPath_ne (path : String) : path ≠ backupPath path := by
  rw [backupPath, withSuffix_suffix]
  intro h
  have hlength := congrArg String.length h
  rw [String.length_append] at hlength
  have hbak : ".bak".length = 4 := rfl
  omega

theorem writeText_done {site : WriteSite} (h : w.write site = .done) (path text : String)
    (s : Worktree) : writeText w site path text s = (.ok (), s.put path text) := by
  rw [writeText, h]

/-- A write that fails. -/
theorem writeText_leaves {site : WriteSite} {left : String} (h : (w.write site).Leaves before left)
    (hbefore : s.files path = some before) (text : String) :
    writeText w site path text s = (.error (.osError "write failed"), s.put path left) := by
  rw [writeText]
  cases hend : w.write site with
  | done =>
    rw [hend] at h
    cases h
  | refused =>
    rw [hend] at h
    obtain rfl : left = before := h
    have hput : s.put path left = s := by rw [Worktree.put, ← hbefore, Function.update_eq_self]
    rw [hput]
  | cut left' =>
    rw [hend] at h
    obtain rfl : left = left' := h
    rfl

theorem exists_leaves {site : WriteSite} (h : w.write site ≠ .done) (before : String) :
    ∃ left, (w.write site).Leaves before left := by
  cases hend : w.write site with
  | done => exact absurd hend h
  | refused => exact ⟨before, rfl⟩
  | cut left => exact ⟨left, rfl⟩

/-- A write that fails leaves the other files. -/
theorem writeText_other {site : WriteSite} (h : w.write site ≠ .done) {other : String}
    (hne : other ≠ path) (text : String) : ∃ files,
      writeText w site path text s = (.error (.osError "write failed"), { s with files }) ∧
        files other = s.files other := by
  rw [writeText]
  cases hend : w.write site with
  | done => exact absurd hend h
  | refused => exact ⟨_, rfl, rfl⟩
  | cut left => exact ⟨_, rfl, Function.update_of_ne hne ..⟩

/-- The original is that of the patch, if it has one, or else read from the file. -/
theorem originalCode_apply {site : ReadSite} (h : original ≠ "" ∨ w.read site = none)
    (horiginal : s.patch.originalCode = original) (hbefore : s.files s.patch.target = some before) :
    originalCode w site s = (.ok (if original ≠ "" then original else before), s) := by
  subst horiginal
  rw [originalCode]
  by_cases hempty : s.patch.originalCode ≠ ""
  · rw [if_pos hempty, if_pos hempty]
  · rw [if_neg hempty, if_neg hempty, h.resolve_left hempty, hbefore]
    rfl

/-- `apply_patch` on a target: the backup is written, and the patch is tried. -/
theorem applyPatch_eq (hread : original ≠ "" ∨ w.read .apply = none)
    (horiginal : s.patch.originalCode = original) (hbefore : s.files s.patch.target = some before)
    (hbackup : w.write .backup = .done) :
    applyPatch w false s =
      exceptException (tryPatch w s.patch.target (backupPath s.patch.target) s.patch.patchedCode)
        (fun _ => restorePatch w s.patch.target (backupPath s.patch.target)
          (if original ≠ "" then original else before))
        (s.put (backupPath s.patch.target) (if original ≠ "" then original else before)) := by
  rw [applyPatch, PyM.bind_ok (PyM.get_apply s), hbefore, if_neg (by simp), if_neg (by simp),
    PyM.bind_ok (originalCode_apply hread horiginal hbefore), PyM.bind_ok (writeText_done hbackup ..)]

theorem exceptException_ok {σ α : Type} {x : PyM σ α} {s s' : σ} {a : α} (h : x s = (.ok a, s'))
    (handler : PyExc → PyM σ α) : exceptException x handler s = (.ok a, s') := by
  rw [exceptException, PyM.tryCatch, h]

theorem exceptException_error {σ α : Type} {x : PyM σ α} {s s' : σ} {e : PyExc}
    (h : x s = (.error e, s')) (handler : PyExc → PyM σ α) : exceptException x handler s =
      if isException e then handler e s' else (.error e, s') := by
  rw [exceptException, PyM.tryCatch, h]
  dsimp only
  split_ifs <;> rfl

/-- The `try` fails, and the patch has not compiled. -/
theorem tryPatch_fails {patched left : String} (h : TryFails w patched before left)
    (hbefore : s.files path = some before) (backup : String) :
    ∃ e, isException e ∧ tryPatch w path backup patched s = (.error e, s.put path left) := by
  cases h with
  | write hwrite =>
    refine ⟨.osError "write failed", rfl, ?_⟩
    rw [tryPatch, PyM.bind_error (writeText_leaves hwrite hbefore patched)]
  | compile hwrite he hexception =>
    refine ⟨_, hexception, ?_⟩
    rw [tryPatch, PyM.bind_ok (writeText_done hwrite ..), PyM.bind_error]
    rw [compile, he]

/-- The patch compiles. -/
theorem tryPatch_compiles {u : Unit} (hwrite : w.write .applied = .done) (hok : w.compile = .ok u)
    (hne : path ≠ backup) (patched : String) (s : Worktree) :
    ∃ s', s'.files path = some patched ∧ s'.compiledOn = some patched :: s.compiledOn ∧
      tryPatch w path backup patched s =
        (if w.unlinkOk .applied then .ok true else .error (.osError "unlink failed"), s') := by
  let compiled : Worktree := { s.put path patched with
    compiledOn := some patched :: s.compiledOn
    patch := { s.patch with applied := true } }
  have hcompile : compile w path (s.put path patched) =
      (.ok (), { s.put path patched with compiledOn := some patched :: s.compiledOn }) := by
    rw [compile, hok, put_files_self]
    rfl
  have hrun : tryPatch w path backup patched s =
      (unlink w .applied backup >>= fun _ => pure true) compiled := by
    rw [tryPatch, PyM.bind_ok (writeText_done hwrite ..), PyM.bind_ok hcompile]
    rfl
  rw [hrun, PyM.bind_apply, unlink]
  cases w.unlinkOk .applied with
  | false => exact ⟨compiled, put_files_self .., rfl, rfl⟩
  | true =>
    refine ⟨_, ?_, rfl, rfl⟩
    exact (Function.update_of_ne hne ..).trans (put_files_self s path patched)

/-- The file is restored, whether the backup can be removed or not. -/
theorem restorePatch_done (h : w.write .restored = .done) (hne : path ≠ backup) (original : String)
    (s : Worktree) :
    (restorePatch w path backup original s).2.files path = some original ∧
      (restorePatch w path backup original s).2.compiledOn = s.compiledOn := by
  rw [restorePatch, PyM.bind_ok (writeText_done h ..)]
  cases hunlink : w.unlinkOk .restored with
  | false => simp [PyM.bind_apply, unlink, hunlink]
  | true => simp [PyM.bind_apply, unlink, hunlink, editPatch, Function.update_of_ne hne]

theorem restorePatch_leaves {left : String} (h : (w.write .restored).Leaves before left)
    (hbefore : s.files path = some before) :
    restorePatch w path backup original s = (.error (.osError "write failed"), s.put path left) := by
  rw [restorePatch, PyM.bind_error (writeText_leaves h hbefore original)]

/-- `apply_patch` goes on to restore the file. -/
theorem applyPatch_fails {left : String} (hread : original ≠ "" ∨ w.read .apply = none)
    (horiginal : s.patch.originalCode = original) (hbefore : s.files s.patch.target = some before)
    (hbackup : w.write .backup = .done) (hfails : TryFails w s.patch.patchedCode before left) :
    applyPatch w false s =
      restorePatch w s.patch.target (backupPath s.patch.target)
        (if original ≠ "" then original else before)
        ((s.put (backupPath s.patch.target) (if original ≠ "" then original else before)).put
          s.patch.target left) := by
  have htarget := (put_files_ne (backupPath_ne s.patch.target) s
    (if original ≠ "" then original else before)).trans hbefore
  obtain ⟨e, hexception, htry⟩ := tryPatch_fails hfails htarget (backupPath s.patch.target)
  rw [applyPatch_eq hread horiginal hbefore hbackup, exceptException_error htry, if_pos hexception]

/-- `apply_patch` returns, if it can remove the backup, and else restores the file. -/
theorem applyPatch_compiles {u : Unit} (hread : original ≠ "" ∨ w.read .apply = none)
    (horiginal : s.patch.originalCode = original) (hbefore : s.files s.patch.target = some before)
    (hbackup : w.write .backup = .done) (hwrite : w.write .applied = .done)
    (hok : w.compile = .ok u) :
    ∃ s', s'.files s.patch.target = some s.patch.patchedCode ∧
      s'.compiledOn = some s.patch.patchedCode :: s.compiledOn ∧
      applyPatch w false s =
        if w.unlinkOk .applied then (.ok true, s')
        else restorePatch w s.patch.target (backupPath s.patch.target)
          (if original ≠ "" then original else before) s' := by
  obtain ⟨s', hfiles, hcompiled, htry⟩ := tryPatch_compiles hwrite hok
    (backupPath_ne s.patch.target) s.patch.patchedCode
    (s.put (backupPath s.patch.target) (if original ≠ "" then original else before))
  refine ⟨s', hfiles, hcompiled, ?_⟩
  rw [applyPatch_eq hread horiginal hbefore hbackup]
  cases hunlink : w.unlinkOk .applied with
  | false =>
    rw [hunlink] at htry
    exact exceptException_error htry _
  | true =>
    rw [hunlink] at htry
    exact exceptException_ok htry _

/-- What `apply_patch` is left with. -/
theorem applyPatch_stranded {left : String} (horiginal : s.patch.originalCode = original)
    (hbefore : s.files s.patch.target = some before)
    (h : StrandedApply w s.patch.patchedCode original before left) :
    (applyPatch w false s).2.files s.patch.target = some left ∧
      ((applyPatch w false s).2.compiledOn = s.compiledOn ∨ left ≠ s.patch.patchedCode) := by
  have hne := backupPath_ne s.patch.target
  -- One case for each constructor, in the order of the code: reading the original, the backup,
  -- compiling, restoring, and removing the backup.
  cases h with
  | @unread e hempty hread =>
    have hraise : originalCode w .apply s = (.error e, s) := by
      rw [originalCode, if_neg (by rw [horiginal, hempty]; exact fun h => h rfl), hread]
    rw [applyPatch, PyM.bind_ok (PyM.get_apply s), hbefore, if_neg (by simp), if_neg (by simp),
      PyM.bind_error hraise]
    exact ⟨hbefore, .inl rfl⟩
  | noBackup hread hbackup =>
    obtain ⟨files, hwrite, hfiles⟩ := writeText_other (s := s) hbackup hne
      (if original ≠ "" then original else before)
    rw [applyPatch, PyM.bind_ok (PyM.get_apply s), hbefore, if_neg (by simp), if_neg (by simp),
      PyM.bind_ok (originalCode_apply hread horiginal hbefore), PyM.bind_error hwrite]
    exact ⟨hfiles.trans hbefore, .inl rfl⟩
  | @interrupted e hread hbackup hwrite he hbase =>
    have htry (s : Worktree) (path backup patched : String) :
        tryPatch w path backup patched s = (.error e, s.put path patched) := by
      rw [tryPatch, PyM.bind_ok (writeText_done hwrite ..), PyM.bind_error]
      rw [compile, he]
    rw [applyPatch_eq hread horiginal hbefore hbackup, exceptException_error (htry ..), if_neg hbase]
    exact ⟨put_files_self .., .inl rfl⟩
  | @restored left hempty hread hbackup hfails hrestored =>
    obtain ⟨hfiles, hcompiled⟩ := restorePatch_done hrestored hne before
      ((s.put (backupPath s.patch.target) before).put s.patch.target left)
    rw [applyPatch_fails (.inr hread) horiginal hbefore hbackup hfails, if_neg (not_not.mpr hempty)]
    exact ⟨hfiles, .inl hcompiled⟩
  | notRestored hread hbackup hfails hrestored =>
    rw [applyPatch_fails hread horiginal hbefore hbackup hfails,
      restorePatch_leaves hrestored (put_files_self ..)]
    exact ⟨put_files_self .., .inl rfl⟩
  | notRemoved hread hbackup hwrite hok hunlink hrestored hleft =>
    obtain ⟨s', hfiles, -, hrun⟩ := applyPatch_compiles hread horiginal hbefore hbackup hwrite hok
    rw [hrun, hunlink, if_neg Bool.false_ne_true, restorePatch_leaves hrestored hfiles]
    exact ⟨put_files_self .., .inr hleft⟩

/-- How `apply_patch` ends: with the original, with a patch that has compiled, or stranded. -/
theorem applyPatch_ends (horiginal : s.patch.originalCode = original)
    (hbefore : s.files s.patch.target = some before)
    (hempty : original = "" → before = "" ∨ before = s.patch.patchedCode) :
    (applyPatch w false s).2.files s.patch.target = some original ∨
      ((applyPatch w false s).2.files s.patch.target = some s.patch.patchedCode ∧
        some s.patch.patchedCode ∈ (applyPatch w false s).2.compiledOn) ∨
      ∃ left, StrandedApply w s.patch.patchedCode original before left := by
  have hne := backupPath_ne s.patch.target
  by_cases hread : original ≠ "" ∨ w.read .apply = none
  swap
  · obtain ⟨hnone, hread⟩ := not_or.mp hread
    obtain ⟨e, he⟩ := Option.ne_none_iff_exists'.mp hread
    exact .inr (.inr ⟨_, .unread (not_not.mp hnone) he⟩)
  by_cases hbackup : w.write .backup = .done
  swap
  · exact .inr (.inr ⟨_, .noBackup hread hbackup⟩)
  -- When the `try` has failed, the file is restored, or else the call is stranded.
  have hfailed {left : String} (hfails : TryFails w s.patch.patchedCode before left) :
      (applyPatch w false s).2.files s.patch.target = some original ∨
        ∃ left, StrandedApply w s.patch.patchedCode original before left := by
    by_cases hrestored : w.write .restored = .done
    · by_cases hnone : original = ""
      · exact .inr ⟨_, .restored hnone (hread.resolve_left (not_not.mpr hnone)) hbackup hfails hrestored⟩
      · rw [applyPatch_fails hread horiginal hbefore hbackup hfails, if_pos hnone]
        exact .inl (restorePatch_done hrestored hne ..).1
    · obtain ⟨left', hleaves⟩ := exists_leaves hrestored left
      exact .inr ⟨_, .notRestored hread hbackup hfails hleaves⟩
  by_cases hwrite : w.write .applied = .done
  swap
  · obtain ⟨left, hleaves⟩ := exists_leaves hwrite before
    exact (hfailed (.write hleaves)).imp_right .inr
  cases hcompile : w.compile with
  | error e =>
    by_cases hexception : isException e
    · exact (hfailed (.compile hwrite hcompile hexception)).imp_right .inr
    · exact .inr (.inr ⟨_, .interrupted hread hbackup hwrite hcompile hexception⟩)
  | ok u =>
    obtain ⟨s', hfiles, hcompiled, hrun⟩ :=
      applyPatch_compiles hread horiginal hbefore hbackup hwrite hcompile
    have hmem : some s.patch.patchedCode ∈ s'.compiledOn := hcompiled ▸ List.mem_cons_self
    cases hunlink : w.unlinkOk .applied with
    | true =>
      rw [hrun, hunlink]
      exact .inr (.inl ⟨hfiles, hmem⟩)
    | false =>
      rw [hrun, hunlink, if_neg Bool.false_ne_true]
      by_cases hrestored : w.write .restored = .done
      · obtain ⟨hfiles', hcompiled'⟩ := restorePatch_done hrestored hne
          (if original ≠ "" then original else before) s'
        have hkept : (if original ≠ "" then original else before) = original ∨
            (if original ≠ "" then original else before) = s.patch.patchedCode := by
          by_cases hnone : original = ""
          · rw [if_neg (not_not.mpr hnone), hnone]
            exact hempty hnone
          · exact .inl (if_pos hnone)
        rcases hkept with hkept | hkept
        · exact .inl (hfiles'.trans (congrArg some hkept))
        · exact .inr (.inl ⟨hfiles'.trans (congrArg some hkept), hcompiled' ▸ hmem⟩)
      · obtain ⟨left, hleaves⟩ := exists_leaves hrestored s.patch.patchedCode
        rw [restorePatch_leaves hleaves hfiles]
        by_cases hleft : left = s.patch.patchedCode
        · exact .inr (.inl ⟨hleft ▸ put_files_self .., hmem⟩)
        · exact .inr (.inr ⟨_, .notRemoved hread hbackup hwrite hcompile hunlink hleaves hleft⟩)

/-- Code that says nothing about the tests. -/
def SameGreen (s s' : Worktree) : Prop := s'.greenOn = s.greenOn

instance : Std.Refl SameGreen := ⟨fun _ => rfl⟩

instance : IsTrans Worktree SameGreen := ⟨fun _ _ _ h h' => Eq.trans h' h⟩

theorem sameGreen_writeText (w : Surroundings) (site : WriteSite) (path text : String) :
    PyM.Keeps SameGreen (writeText w site path text) := by
  intro s
  rw [writeText]
  cases w.write site <;> rfl

theorem sameGreen_editPatch (f : EvolutionPatch → EvolutionPatch) : PyM.Keeps SameGreen (editPatch f) :=
  PyM.Keeps.modify fun _ => rfl

theorem sameGreen_unlink (w : Surroundings) (site : UnlinkSite) (path : String) :
    PyM.Keeps SameGreen (unlink w site path) := by
  intro s
  rw [unlink]
  cases w.unlinkOk site <;> rfl

theorem sameGreen_compile (w : Surroundings) (path : String) : PyM.Keeps SameGreen (compile w path) := by
  intro s
  rw [compile]
  cases w.compile <;> rfl

theorem sameGreen_originalCode (w : Surroundings) (site : ReadSite) :
    PyM.Keeps SameGreen (originalCode w site) := by
  intro s
  rw [originalCode]
  split_ifs
  · rfl
  · cases w.read site <;> rfl

theorem sameGreen_exceptException {α : Type} {x : PyM Worktree α} {handler : PyExc → PyM Worktree α}
    (hx : PyM.Keeps SameGreen x) (hhandler : ∀ e, PyM.Keeps SameGreen (handler e)) :
    PyM.Keeps SameGreen (exceptException x handler) := by
  intro s
  have hfirst := hx s
  rcases hrun : x s with ⟨e | a, s'⟩ <;> rw [hrun] at hfirst
  · rw [exceptException_error hrun]
    split_ifs
    · exact IsTrans.trans _ _ _ hfirst (hhandler e s')
    · exact hfirst
  · rw [exceptException_ok hrun]
    exact hfirst

theorem sameGreen_applyPatch (w : Surroundings) (dryRun : Bool) :
    PyM.Keeps SameGreen (applyPatch w dryRun) := by
  refine .bind .get fun s => .ite (.pure _) (.ite (.pure _) ?_)
  refine .bind (sameGreen_originalCode _ _) fun original => .bind (sameGreen_writeText _ _ _ _) fun _ => ?_
  refine sameGreen_exceptException ?_ fun _ => ?_
  · exact .bind (sameGreen_writeText _ _ _ _) fun _ => .bind (sameGreen_compile _ _) fun _ =>
      .bind (sameGreen_editPatch _) fun _ => .bind (sameGreen_unlink _ _ _) fun _ => .pure _
  · exact .bind (sameGreen_writeText _ _ _ _) fun _ => .bind (sameGreen_unlink _ _ _) fun _ =>
      .bind (sameGreen_editPatch _) fun _ => .pure _

/-! ## The tests, and the decision -/

/-- The tests are red: the original is to be written back. -/
theorem testPatch_red (hwrite : w.write .provisional = .done) (hred : Red w) (patched original : String)
    (s : Worktree) : ∃ s', s'.files path = some patched ∧ s'.compiledOn = s.compiledOn ∧
      testPatch w path patched original s =
        (writeText w .rejected path original >>= fun _ => pure false) s' := by
  have htests : ∃ output, exceptException (runTests w path)
      (fun e => pure (false, e.typeName ++ ": " ++ e.msg)) (s.put path patched) =
        (.ok (false, output), s.put path patched) := by
    rcases hred with ⟨output, htests⟩ | ⟨e, htests, hexception⟩
    · refine ⟨output, exceptException_ok ?_ _⟩
      rw [runTests, htests]
    · refine ⟨_, (exceptException_error (e := e) ?_ _).trans (if_pos hexception)⟩
      rw [runTests, htests]
  obtain ⟨output, htests⟩ := htests
  let tested : Worktree := { s.put path patched with
    patch := { s.patch with testsOutput := output, testsPassed := false } }
  refine ⟨tested, put_files_self .., rfl, ?_⟩
  rw [testPatch, PyM.bind_ok (writeText_done hwrite ..), PyM.bind_ok htests]
  rfl

/-- The tests are green. -/
theorem testPatch_green {output : String} (hwrite : w.write .provisional = .done)
    (htests : w.tests = .ok (true, output)) (patched original : String) (s : Worktree) :
    ∃ s', testPatch w path patched original s = (.ok true, s') ∧ s'.files path = some patched ∧
      s'.greenOn = some patched :: s.greenOn ∧ s'.compiledOn = s.compiledOn ∧
      s'.patch = { s.patch with testsOutput := output, testsPassed := true } := by
  have hgreen : runTests w path (s.put path patched) =
      (.ok (true, output), { s.put path patched with greenOn := some patched :: s.greenOn }) := by
    rw [runTests, htests, put_files_self]
    rfl
  let tested : Worktree := { s.put path patched with
    greenOn := some patched :: s.greenOn
    patch := { s.patch with testsOutput := output, testsPassed := true } }
  refine ⟨tested, ?_, put_files_self .., rfl, rfl, rfl⟩
  rw [testPatch, PyM.bind_ok (writeText_done hwrite ..), PyM.bind_ok (exceptException_ok hgreen _)]
  rfl

end Steps

section Calls

variable {w : Surroundings} {engine : EvolutionEngine} {patch : EvolutionPatch}
  {files : String → Option String} {text before left : String}

/-- A call has come to the decision whether to apply the patch. -/
structure AtLanding (w : Surroundings) (engine : EvolutionEngine) (patch : EvolutionPatch)
    (original before : String) (s : Worktree) : Prop where
  file : s.files patch.target = some before
  target : s.patch.target = patch.target
  patchedCode : s.patch.patchedCode = patch.patchedCode
  originalCode : s.patch.originalCode = original
  compiledOn : s.compiledOn = []
  greenOn : engine.testBeforeApply → some patch.patchedCode ∈ s.greenOn

theorem eq_empty_of_originalOf (h : originalOf patch text = "") : text = "" := by
  by_cases hnone : patch.originalCode ≠ ""
  · rw [originalOf, if_pos hnone] at h
    exact absurd h hnone
  · rwa [originalOf, if_neg hnone] at h

/-- What is left to do when the original is known. -/
theorem validateAndLand_eq (hread : patch.originalCode ≠ "" ∨ w.read .validate = none)
    (htext : files patch.target = some text) :
    validateAndLand w engine ⟨files, patch, [], []⟩ =
      (if engine.testBeforeApply then do
        let ok ← testPatch w patch.target patch.patchedCode (originalOf patch text)
        if ok then land w engine patch.target (originalOf patch text) else pure false
      else land w engine patch.target (originalOf patch text))
        ⟨files, { patch with originalCode := originalOf patch text }, [], []⟩ := by
  rw [validateAndLand, PyM.bind_ok (PyM.get_apply _), if_neg (by simp [htext]),
    PyM.bind_ok (originalCode_apply hread rfl htext)]
  rfl

/-- A patch that is only proposed. -/
theorem land_proposed (happly : engine.autoApply = false) (path original : String) (s : Worktree) :
    ∃ s', s'.files = s.files ∧ s'.compiledOn = s.compiledOn ∧
      land w engine path original s = (writeText w .proposed path original >>= fun _ => pure true) s' :=
  ⟨{ s with patch := { s.patch with applied := false } }, rfl, rfl, by rw [land, happly]; rfl⟩

/-- A call comes to the decision. -/
theorem reachesLanding_spec (hread : patch.originalCode ≠ "" ∨ w.read .validate = none)
    (htext : files patch.target = some text)
    (hreach : ReachesLanding w patch.patchedCode engine text before) :
    ∃ s, AtLanding w engine patch (originalOf patch text) before s ∧
      validateAndLand w engine ⟨files, patch, [], []⟩ =
        land w engine patch.target (originalOf patch text) s := by
  rw [validateAndLand_eq hread htext]
  cases hreach with
  | untested htest =>
    refine ⟨_, ⟨htext, rfl, rfl, rfl, rfl, fun h => ?_⟩, by rw [htest]; rfl⟩
    rw [htest] at h
    cases h
  | green htest hwrite htests =>
    obtain ⟨s, hrun, hfile, hgreen, hcompiled, hpatch⟩ := testPatch_green hwrite htests
      patch.patchedCode (originalOf patch text)
      ⟨files, { patch with originalCode := originalOf patch text }, [], []⟩
    refine ⟨s, ⟨hfile, ?_, ?_, ?_, hcompiled, fun _ => ?_⟩, ?_⟩
    · rw [hpatch]
    · rw [hpatch]
    · rw [hpatch]
    · rw [hgreen]
      exact List.mem_cons_self
    · rw [if_pos htest, PyM.bind_ok hrun, if_pos rfl]

/-- A call that is stranded has left the text in the file, and the patch has not landed. -/
theorem stranded_spec (htext : files patch.target = some text) (h : Stranded w engine patch text left) :
    (validateAndLand w engine ⟨files, patch, [], []⟩).2.files patch.target = some left ∧
      ((validateAndLand w engine ⟨files, patch, [], []⟩).2.compiledOn = [] ∨
        left ≠ patch.patchedCode) := by
  obtain ⟨hread, h⟩ := h
  let started : Worktree :=
    ⟨files, { patch with originalCode := originalOf patch text }, [], []⟩
  -- The provisional write, cancelled tests, the original after red tests, the original of a
  -- proposal, and applying.
  cases h with
  | @provisional left htest hwrite =>
    have hrun := writeText_leaves (s := started) hwrite htext patch.patchedCode
    rw [validateAndLand_eq hread htext, if_pos htest, testPatch, PyM.bind_assoc, PyM.bind_error hrun]
    exact ⟨put_files_self .., .inl rfl⟩
  | @cancelled e htest hwrite he hbase =>
    have hrun : exceptException (runTests w patch.target)
        (fun e => pure (false, e.typeName ++ ": " ++ e.msg)) (started.put patch.target patch.patchedCode) =
          (.error e, started.put patch.target patch.patchedCode) := by
      rw [exceptException_error (e := e), if_neg hbase]
      rw [runTests, he]
    rw [validateAndLand_eq hread htext, if_pos htest, testPatch, PyM.bind_assoc,
      PyM.bind_ok (writeText_done hwrite ..), PyM.bind_assoc, PyM.bind_error hrun]
    exact ⟨put_files_self .., .inl rfl⟩
  | rejected htest hwrite hred hrejected =>
    obtain ⟨s, hfile, hcompiled, hrun⟩ := testPatch_red hwrite hred patch.patchedCode
      (originalOf patch text) started
    rw [validateAndLand_eq hread htext, if_pos htest, PyM.bind_apply, hrun,
      PyM.bind_error (writeText_leaves hrejected hfile _)]
    exact ⟨put_files_self .., .inl hcompiled⟩
  | proposed hreach happly hproposed =>
    obtain ⟨s, hs, hrun⟩ := reachesLanding_spec hread htext hreach
    obtain ⟨s', hfiles, hcompiled, hland⟩ := land_proposed (w := w) happly patch.target
      (originalOf patch text) s
    rw [hrun, hland, PyM.bind_error (writeText_leaves hproposed (hfiles ▸ hs.file) _)]
    exact ⟨put_files_self .., .inl (hcompiled.trans hs.compiledOn)⟩
  | @applying before left hreach happly hstranded =>
    obtain ⟨s, hs, hrun⟩ := reachesLanding_spec hread htext hreach
    rw [hrun, land, if_pos happly]
    have hfile : s.files s.patch.target = some before := by rw [hs.target, hs.file]
    have h := applyPatch_stranded hs.originalCode hfile (hs.patchedCode ▸ hstranded)
    rw [hs.target, hs.patchedCode, hs.compiledOn] at h
    exact h

/-- How a call ends: with the original, with a patch that has landed, or stranded. -/
theorem validateAndLand_ends (htext : files patch.target = some text) :
    LandsGreen w engine patch files text ∨ ∃ left, Stranded w engine patch text left := by
  by_cases hread : patch.originalCode ≠ "" ∨ w.read .validate = none
  swap
  · -- Nothing was read, and nothing is written.
    obtain ⟨hnone, hread⟩ := not_or.mp hread
    obtain ⟨e, he⟩ := Option.ne_none_iff_exists'.mp hread
    have hraise : originalCode w .validate ⟨files, patch, [], []⟩ =
        (.error e, ⟨files, patch, [], []⟩) := by
      rw [originalCode, if_neg hnone, he]
    have horiginal : originalOf patch text = text := if_neg hnone
    refine .inl (.inl ?_)
    rw [validateAndLand, PyM.bind_ok (PyM.get_apply _), if_neg (by simp [htext]),
      PyM.bind_error hraise, horiginal]
    exact htext
  -- From the decision on.
  have hlanding {before : String} (hreach : ReachesLanding w patch.patchedCode engine text before) :
      LandsGreen w engine patch files text ∨ ∃ left, Stranded w engine patch text left := by
    obtain ⟨s, hs, hrun⟩ := reachesLanding_spec hread htext hreach
    have hfile : s.files s.patch.target = some before := by rw [hs.target, hs.file]
    rw [LandsGreen, hrun, land]
    by_cases happly : engine.autoApply = true
    · rw [if_pos happly]
      have hempty : originalOf patch text = "" → before = "" ∨ before = s.patch.patchedCode := by
        intro hnone
        cases hreach with
        | untested htest => exact .inl (eq_empty_of_originalOf hnone)
        | green htest hwrite htests => exact .inr hs.patchedCode.symm
      have hgreen := (sameGreen_applyPatch w false s).symm
      rcases applyPatch_ends (w := w) hs.originalCode hfile hempty with
        horiginal | ⟨hpatched, hcompiled⟩ | ⟨left, hstranded⟩
      · exact .inl (.inl (hs.target ▸ horiginal))
      · rw [hs.target, hs.patchedCode] at hpatched
        rw [hs.patchedCode] at hcompiled
        exact .inl (.inr ⟨hpatched, happly, hcompiled, fun htest => hgreen ▸ hs.greenOn htest⟩)
      · exact .inr ⟨left, hread, .applying hreach happly (hs.patchedCode ▸ hstranded)⟩
    · have happly := Bool.eq_false_iff.mpr happly
      by_cases hproposed : w.write .proposed = .done
      · obtain ⟨s', -, -, hland⟩ := land_proposed (w := w) happly patch.target
          (originalOf patch text) s
        refine .inl (.inl ?_)
        rw [← land, hland, PyM.bind_ok (writeText_done hproposed ..)]
        exact put_files_self ..
      · obtain ⟨left, hleaves⟩ := exists_leaves hproposed before
        exact .inr ⟨left, hread, .proposed hreach happly hleaves⟩
  by_cases htest : engine.testBeforeApply = true
  swap
  · exact hlanding (.untested (Bool.eq_false_iff.mpr htest))
  by_cases hwrite : w.write .provisional = .done
  swap
  · obtain ⟨left, hleaves⟩ := exists_leaves hwrite text
    exact .inr ⟨left, hread, .provisional htest hleaves⟩
  have hrejected (hred : Red w) :
      LandsGreen w engine patch files text ∨ ∃ left, Stranded w engine patch text left := by
    by_cases hrejected : w.write .rejected = .done
    · obtain ⟨s, -, -, hrun⟩ := testPatch_red hwrite hred patch.patchedCode (originalOf patch text)
        ⟨files, { patch with originalCode := originalOf patch text }, [], []⟩
      refine .inl (.inl ?_)
      rw [validateAndLand_eq hread htext, if_pos htest, PyM.bind_apply, hrun,
        PyM.bind_ok (writeText_done hrejected ..)]
      exact put_files_self ..
    · obtain ⟨left, hleaves⟩ := exists_leaves hrejected patch.patchedCode
      exact .inr ⟨left, hread, .rejected htest hwrite hred hleaves⟩
  cases htests : w.tests with
  | error e =>
    by_cases hexception : isException e
    · exact hrejected (.inr ⟨e, htests, hexception⟩)
    · exact .inr ⟨_, hread, .cancelled htest hwrite htests hexception⟩
  | ok result =>
    obtain ⟨ok, output⟩ := result
    cases ok with
    | false => exact hrejected (.inl ⟨output, htests⟩)
    | true => exact hlanding (.green htest hwrite htests)

end Calls

/-! ## The counts of a cycle -/

section Counts

/-- Every patch of the cycle, up to some that are still on the way, is counted once. -/
def Counted (pending : Nat) (r : EvolutionResult) : Prop :=
  r.patchesGenerated = r.patchesApplied + r.patchesProposed + r.patchesRejected + pending

open PyM in
theorem landPatch_triple (engine : EvolutionEngine) (w : Surroundings) (patch : EvolutionPatch)
    (pending : Nat) : Triple (fun s => Counted pending s.result) (landPatch engine w patch)
      (fun _ s => Counted pending s.result) anything := by
  intro s hs
  rw [landPatch]
  rcases validateAndLand w engine ⟨s.files, patch, [], []⟩ with ⟨e | landed, tree⟩
  · trivial
  · exact hs

open PyM in
theorem editResult_triple {f : EvolutionResult → EvolutionResult} {pending pending' : Nat}
    {E : PyExc → EngineState → Prop} (hf : ∀ r, Counted pending r → Counted pending' (f r)) :
    Triple (fun s => Counted pending s.result) (editResult f)
      (fun _ s => Counted pending' s.result) E :=
  .modify fun s hs => hf s.result hs

open PyM in
theorem handleIssue_triple (engine : EvolutionEngine) (issue : Issue) :
    Triple (fun s => Counted 0 s.result) (handleIssue engine issue)
      (fun _ s => Counted 0 s.result) anything := by
  refine .bind .keeps_lift fun generated => ?_
  cases generated with
  | none => exact .keeps_pure
  | some patch =>
    have hnew : Triple (fun s => Counted 0 s.result)
        (editResult fun r => { r with patchesGenerated := r.patchesGenerated + 1 })
        (fun _ s => Counted 1 s.result) anything := by
      refine editResult_triple fun r hr => ?_
      exact congrArg (· + 1) hr
    refine .bind hnew fun _ =>
      .bind (landPatch_triple engine issue.surroundings patch 1) fun (landed, patch) => ?_
    have hcount {r : EvolutionResult} (hr : Counted 1 r) : r.patchesGenerated =
        r.patchesApplied + r.patchesProposed + r.patchesRejected + 1 := hr
    refine .ite (fun _ => editResult_triple fun r hr => ?_) fun _ =>
      .ite (fun _ => editResult_triple fun r hr => ?_) fun _ => editResult_triple fun r hr => ?_
    all_goals
      have := hcount hr
      simp only [Counted]
      omega

open PyM in
theorem handleIssues_triple (engine : EvolutionEngine) (issues : List Issue) :
    Triple (fun s => Counted 0 s.result) (handleIssues engine issues)
      (fun _ s => Counted 0 s.result) anything := by
  induction issues with
  | nil => exact .keeps_pure
  | cons issue issues ih => exact .bind (handleIssue_triple engine issue) fun _ => ih

open PyM in
/-- A cycle that returns has counted every patch. -/
theorem runEvolutionCycle_triple (engine : EvolutionEngine) (issues : Except PyExc (List Issue)) :
    Triple (fun _ => True) (runEvolutionCycle engine issues) (fun r _ => Counted 0 r) anything := by
  refine .bind (Q := fun _ (s : EngineState) => Counted 0 s.result) (.modify fun _ _ => rfl) fun _ => ?_
  have hrest : Triple (fun s => Counted 0 s.result)
      (do
        PyM.modify fun s : EngineState => { s with history := s.history ++ [s.result] }
        let s ← PyM.get
        pure s.result)
      (fun r _ => Counted 0 r) anything := by
    refine .bind (Q := fun _ (s : EngineState) => Counted 0 s.result) (.modify fun _ hs => hs) fun _ => ?_
    refine .bind (Q := fun (s : EngineState) _ => Counted 0 s.result) (.get fun _ hs => hs) fun s => ?_
    exact .pure fun _ hs => hs
  refine .ite (fun _ => ?_) fun _ => ?_
  · refine .bind .keeps_lift fun issues => ?_
    refine .bind (handleIssues_triple engine _) fun _ => ?_
    refine .bind ?_ fun _ => hrest
    exact editResult_triple fun r hr => hr
  · refine .bind ?_ fun _ => hrest
    exact editResult_triple fun r hr => hr

end Counts

/-- A project with an empty module, and a patch for it that does not compile. -/
def emptyModule : String → Option String := fun path => if path = "app.py" then some "" else none

def brokenPatch : EvolutionPatch where
  target := "app.py"
  patchedCode := "1 +"

/-- The tests are cancelled. -/
def cancelledTests : Surroundings where
  tests := .error (.custom "CancelledError" "")
  compile := .error (.custom "PyCompileError" "invalid syntax")

/-- The tests do not import the module. -/
def greenTests : Surroundings where
  tests := .ok (true, "1 passed")
  compile := .error (.custom "PyCompileError" "invalid syntax")

end Noema.Evolution
