import Noema.Lib.Git

/-!
# Git-based self-evolution (`evolution/git_evolution.py`)

`applyAndCommit` is `GitEvolution.apply_and_commit` on a directory: a repository and a branch if
they are missing, the new content written and staged, the tests, and the commit. When the tests are
red, the file is taken back with `git checkout -- file`, that is, from the index, where the new
content is by then. What git and the tests answer is in `Outcome`; commands whose failure the code
ignores may fail.

The directory, its index and its branches are those of `Lib.Git`, over texts.

- `Refuses`: the tests or git turn the change down.
- `applyAndCommit_failed`, `applyAndCommit_passed`: what a call can do, in the two cases. They are
  put together from the branch step (`prepare_cases`) and the rest (`testAndCommit_cases`).
- **`restored_iff`**: a call that returns a failed proposal leaves the directory as it was before
  the file was written if and only if the working tree and the index had the content already.
- `rejected_change_committed`: after the tests turned a change down, the next proposal commits it.
-/

namespace Noema.Evolution

open Noema.Lib Git

/-- The project directory. A reference is a branch, or `none` for a detached HEAD. -/
abbrev Dir := WorkDir (Option String) String String

/-- `EvolutionProposal.status`. -/
inductive Status where
  | pending
  | testing
  | passed
  | failed
  | applied
  | rejected
  deriving DecidableEq, Repr

/-- `EvolutionProposal`. -/
structure EvolutionProposal where
  branch : String
  description : String
  filePath : String
  originalCode : String := ""
  proposedCode : String
  status : Status := .pending
  testsOutput : String := ""
  testsPassed : Bool := false
  deriving DecidableEq, Repr

/-- What a call does not decide: whether git accepts its commands, the branch of a new repository,
the random name of a new branch, and the tests. -/
structure Outcome where
  initOk : Bool := true
  initBranch : String := "master"
  branchName : String
  checkoutOk : Bool := true
  testsOk : Bool
  testsOutput : String := ""
  commitOk : Bool := true
  commitErr : String := ""

/-- What a caller gives. -/
structure Change where
  filePath : String
  newContent : String
  message : String
  branch : Option String := none

/-- `is_git_repo`, and `init_repo` if it is not. -/
def ensureRepo (o : Outcome) (s : Dir) : Dir := if o.initOk then s.init (some o.initBranch) else s

/-- `create_branch`. A failure is only logged, and the name is returned all the same. -/
def createBranch (branchName : Option String) (o : Outcome) (s : Dir) : Dir × String :=
  let branch := branchName.getD o.branchName
  ((if o.checkoutOk then s.checkoutNew (some branch) else none).getD s, branch)

/-- Everything before the file is touched: the directory, and `proposal.branch`. -/
def prepare (o : Outcome) (c : Change) (s : Dir) : Dir × String :=
  let s := ensureRepo o s
  if c.branch.getD "" = "" then createBranch none o s else (s, c.branch.getD "")

/-- `_run_tests` and what follows it, for a change that is staged. -/
def testAndCommit (testBeforeApply : Bool) (o : Outcome) (s : Dir) (proposal : EvolutionProposal) :
    Dir × EvolutionProposal :=
  if testBeforeApply && !o.testsOk then
    (s.checkoutFile proposal.filePath,
      { proposal with status := .failed, testsOutput := o.testsOutput, testsPassed := false })
  else
    let proposal := if testBeforeApply then
      { proposal with status := .testing, testsOutput := o.testsOutput } else proposal
    match if o.commitOk then s.commit else none with
    | none => (s, { proposal with status := .failed, testsOutput := o.commitErr })
    | some s => (s, { proposal with
        status := .passed, testsPassed := if testBeforeApply then true else proposal.testsPassed })

/-- `apply_and_commit`. -/
def applyAndCommit (testBeforeApply : Bool) (o : Outcome) (c : Change) (s : Dir) :
    Dir × EvolutionProposal :=
  let (s, branch) := prepare o c s
  let proposal : EvolutionProposal :=
    { branch, description := c.message, filePath := c.filePath, proposedCode := c.newContent
      originalCode := (s.worktree c.filePath).getD "" }
  testAndCommit testBeforeApply o ((s.write c.filePath c.newContent).add c.filePath) proposal

/-- The tests or git turn the change down. -/
def Refuses (testBeforeApply : Bool) (o : Outcome) (s : Dir) : Prop :=
  (testBeforeApply = true ∧ o.testsOk = false) ∨ o.commitOk = false ∨ s.repo = none

/-- The working tree and the index have the content already. -/
def AlreadyHas (s : Dir) (f content : String) : Prop :=
  s.worktree f = some content ∧ ∀ repo ∈ s.repo, repo.index f = some content

/-- The branch that the proposal names. -/
def branchOf (o : Outcome) (c : Change) : String :=
  if c.branch.getD "" = "" then o.branchName else c.branch.getD ""

/-- The call creates a branch: the caller names none, and git accepts the random name. -/
def Creates (o : Outcome) (c : Change) (repo : Repo (Option String) String String) : Prop :=
  c.branch.getD "" = "" ∧ o.checkoutOk = true ∧ repo.commits (some (branchOf o c)) = []

instance (testBeforeApply : Bool) (o : Outcome) (s : Dir) :
    Decidable (Refuses testBeforeApply o s) :=
  decidable_of_iff ((testBeforeApply = true ∧ o.testsOk = false) ∨ o.commitOk = false ∨
    s.repo.isNone = true) (by rw [Refuses, Option.isNone_iff_eq_none])

instance (o : Outcome) (c : Change) (repo : Repo (Option String) String String) :
    Decidable (Creates o c repo) :=
  decidable_of_iff (c.branch.getD "" = "" ∧ o.checkoutOk = true ∧
    (repo.commits (some (branchOf o c))).isEmpty = true) (by rw [Creates, List.isEmpty_iff])

section Calls

variable {testBeforeApply : Bool} {o : Outcome} {c : Change} {s s' : Dir}

theorem prepare_branch (o : Outcome) (c : Change) (s : Dir) :
    (prepare o c s).2 = branchOf o c := by
  rw [prepare, branchOf]
  split
  · rfl
  · rfl

/-- The branch step creates a branch at HEAD, or does nothing. -/
theorem prepare_cases (o : Outcome) (c : Change) (s : Dir) :
    ((prepare o c s).1 = ensureRepo o s ∧
      ∀ repo, (ensureRepo o s).repo = some repo → ¬ Creates o c repo) ∨
    ∃ repo, (ensureRepo o s).repo = some repo ∧ Creates o c repo ∧
      (prepare o c s).1 =
        { ensureRepo o s with repo := some (repo.startBranch (some (branchOf o c))) } := by
  by_cases hname : c.branch.getD "" = ""
  · have hbranch : branchOf o c = o.branchName := if_pos hname
    have hprepare : (prepare o c s).1 = ((if o.checkoutOk then
        (ensureRepo o s).checkoutNew (some (branchOf o c)) else none).getD (ensureRepo o s)) := by
      rw [hbranch, prepare, if_pos hname]
      rfl
    rw [hprepare]
    cases hif : if o.checkoutOk then (ensureRepo o s).checkoutNew (some (branchOf o c)) else none with
    | none =>
      refine .inl ⟨rfl, fun repo hrepo hcreates => ?_⟩
      obtain ⟨-, hok, hempty⟩ := hcreates
      rw [if_pos hok] at hif
      have hsome := WorkDir.checkoutNew_eq_some_iff.mpr ⟨repo, hrepo, hempty, rfl⟩
      cases hif.symm.trans hsome
    | some s₁ =>
      obtain ⟨hok, hnew⟩ := Option.ite_none_right_eq_some.mp hif
      obtain ⟨repo, hrepo, hempty, rfl⟩ := WorkDir.checkoutNew_eq_some_iff.mp hnew
      exact .inr ⟨repo, hrepo, ⟨hname, hok, hempty⟩, rfl⟩
  · refine .inl ⟨?_, fun repo _ hcreates => hname hcreates.1⟩
    rw [prepare, if_neg hname]

/-- What the tests and git can do with a staged change. -/
theorem testAndCommit_cases (testBeforeApply : Bool) (o : Outcome) (s : Dir)
    (p : EvolutionProposal) :
    (Refuses testBeforeApply o s ∧ (testAndCommit testBeforeApply o s p).2.status = .failed ∧
      ((testAndCommit testBeforeApply o s p).1 = s ∨
        (testAndCommit testBeforeApply o s p).1 = s.checkoutFile p.filePath)) ∨
    (¬ Refuses testBeforeApply o s ∧ (testAndCommit testBeforeApply o s p).2.status = .passed ∧
      s.commit = some (testAndCommit testBeforeApply o s p).1) := by
  rw [testAndCommit]
  -- Red tests take the file back from the index; then there is the commit, which git may refuse.
  split
  · next htests =>
    obtain ⟨htest, hfail⟩ := Bool.and_eq_true_iff.mp htests
    exact .inl ⟨.inl ⟨htest, by simpa using hfail⟩, rfl, .inr rfl⟩
  · next htests =>
    dsimp only
    split
    · next hcommit =>
      refine .inl ⟨.inr ?_, rfl, .inl rfl⟩
      cases hok : o.commitOk
      · exact .inl rfl
      · rw [hok] at hcommit
        exact .inr (Option.map_eq_none_iff.mp hcommit)
    · next s' hcommit =>
      obtain ⟨hok, hcommit⟩ := Option.ite_none_right_eq_some.mp hcommit
      obtain ⟨repo, hrepo, -⟩ := WorkDir.commit_eq_some_iff.mp hcommit
      refine .inr ⟨?_, rfl, hcommit⟩
      rintro (⟨htest, hfail⟩ | hfail | hnone)
      · simp [htest, hfail] at htests
      · simp [hok] at hfail
      · simp [hrepo] at hnone

theorem branch_testAndCommit (p : EvolutionProposal) :
    (testAndCommit testBeforeApply o s p).2.branch = p.branch := by
  rw [testAndCommit]
  split
  · rfl
  · dsimp only
    split <;> split <;> rfl

@[simp] theorem branch_applyAndCommit :
    (applyAndCommit testBeforeApply o c s).2.branch = branchOf o c :=
  (branch_testAndCommit _).trans (prepare_branch o c s)

theorem refuses_staged {f content : String} :
    Refuses testBeforeApply o ((s.write f content).add f) ↔ Refuses testBeforeApply o s := by
  simp [Refuses, WorkDir.add]

/-- A call that fails leaves the directory with the change written and staged. -/
theorem applyAndCommit_failed (h : Refuses testBeforeApply o (prepare o c s).1) :
    (applyAndCommit testBeforeApply o c s).2.status = .failed ∧
      (applyAndCommit testBeforeApply o c s).1 =
        ((prepare o c s).1.write c.filePath c.newContent).add c.filePath := by
  rw [applyAndCommit]
  dsimp only
  rcases testAndCommit_cases testBeforeApply o
    (((prepare o c s).1.write c.filePath c.newContent).add c.filePath) _ with
    ⟨-, hstatus, hdir | hdir⟩ | ⟨hnot, -, -⟩
  · exact ⟨hstatus, hdir⟩
  · exact ⟨hstatus, hdir.trans WorkDir.checkoutFile_add_write⟩
  · exact absurd (refuses_staged.mpr h) hnot

/-- The other calls make one commit, on HEAD. -/
theorem applyAndCommit_passed (h : ¬ Refuses testBeforeApply o (prepare o c s).1) :
    (applyAndCommit testBeforeApply o c s).2.status = .passed ∧
      (((prepare o c s).1.write c.filePath c.newContent).add c.filePath).commit =
        some (applyAndCommit testBeforeApply o c s).1 := by
  rw [applyAndCommit]
  dsimp only
  rcases testAndCommit_cases testBeforeApply o
    (((prepare o c s).1.write c.filePath c.newContent).add c.filePath) _ with
    ⟨hyes, -⟩ | ⟨-, hstatus, hcommit⟩
  · exact absurd (refuses_staged.mp hyes) h
  · exact ⟨hstatus, hcommit⟩

/-! ## Failed proposals -/

theorem refuses_prepare :
    Refuses testBeforeApply o (prepare o c s).1 ↔ Refuses testBeforeApply o (ensureRepo o s) := by
  rcases prepare_cases o c s with ⟨hsame, -⟩ | ⟨repo, hrepo, -, hnew⟩
  · rw [hsame]
  · simp [Refuses, hnew, hrepo]

theorem alreadyHas_prepare {f content : String} :
    AlreadyHas (prepare o c s).1 f content ↔ AlreadyHas (ensureRepo o s) f content := by
  rcases prepare_cases o c s with ⟨hsame, -⟩ | ⟨repo, hrepo, -, hnew⟩
  · rw [hsame]
  · simp [AlreadyHas, hnew, hrepo]

/-- A call that returns a failed proposal leaves the directory as it was before the file was
written, if and only if no proposal can fail there, or the file had the new content already, in
the working tree and in the index. -/
theorem restored_iff (testBeforeApply : Bool) (o : Outcome) (c : Change) (s : Dir) :
    ((applyAndCommit testBeforeApply o c s).2.status = .failed →
      (applyAndCommit testBeforeApply o c s).1 = (prepare o c s).1) ↔
    (Refuses testBeforeApply o (ensureRepo o s) →
      AlreadyHas (ensureRepo o s) c.filePath c.newContent) := by
  rw [← refuses_prepare (c := c), ← alreadyHas_prepare (c := c)]
  by_cases hrefuses : Refuses testBeforeApply o (prepare o c s).1
  · obtain ⟨hstatus, hdir⟩ := applyAndCommit_failed hrefuses
    rw [hdir, WorkDir.add_write_eq_self_iff]
    simp only [hstatus, hrefuses, forall_const]
    exact Iff.rfl
  · obtain ⟨hstatus, -⟩ := applyAndCommit_passed hrefuses
    simp [hstatus, hrefuses]

/-- A directory without files and without a repository. -/
def emptyDir : Dir := ⟨fun _ => none, none⟩

/-- After the tests turned `x = 2` down, `app.py` has it, in the working tree and in the index,
and the next proposal, for another file, puts it into the history. -/
theorem rejected_change_committed :
    let created := (applyAndCommit true { branchName := "evolution/1", testsOk := true }
      { filePath := "app.py", newContent := "x = 1", message := "" } emptyDir).1
    let rejected := applyAndCommit true { branchName := "evolution/2", testsOk := false }
      { filePath := "app.py", newContent := "x = 2", message := "" } created
    let later := applyAndCommit true { branchName := "evolution/3", testsOk := true }
      { filePath := "lib.py", newContent := "y = 1", message := "" } rejected.1
    created.worktree "app.py" = some "x = 1" ∧ rejected.2.status = .failed ∧
      rejected.1.worktree "app.py" = some "x = 2" ∧
      (rejected.1.repo.map fun repo => repo.index "app.py") = some (some "x = 2") ∧
      later.2.status = .passed ∧
      treeOf (later.1.commits (some "evolution/3")) "app.py" = some "x = 2" := by
  decide +kernel

end Calls

end Noema.Evolution
