import Noema.Evolution.GitEvolution
import Noema.Lib.System

/-!
# Sequences of evolution proposals

The calls of `apply_and_commit` follow one another, and each starts from the branch and the index
that the one before has left. A failed `git checkout -b` is only logged, so a call may commit on the
branch that happens to be checked out; a change that was turned down may still be staged, and the
next commit takes it along.

- `CommitStep`: what a call does that passes: one commit on HEAD, with the new content over what was
  staged. `commits_passed` derives it from the code, and the rest is about it.
- `CommitStep.onOwnBranch_iff`: the commit of a call is on a branch of its own exactly when HEAD is
  the branch that the proposal names, this is not the first branch, and nothing else is staged.
- `commits_subset_apply`: no call takes a commit from a branch; `mem_commits_apply` says when a call
  puts an old commit on another one: only when it creates that branch at HEAD.
- `LandsOnOwnBranch`: the condition on a call and the directory before it.
- **`allOnOwnBranch_iff`**: in a run of calls, all commits are on the branches that their proposals
  name, on no first branch, and change their own file only, if and only if each call meets the
  condition. Nothing less will do.
-/

namespace Noema.Evolution

open Noema.Lib Git

/-- A call that returned: the directory before and after it, and the proposal. -/
structure CallRecord where
  change : Change
  before : Dir
  after : Dir
  proposal : EvolutionProposal

/-- The record of a call. -/
def recordOf (testBeforeApply : Bool) (o : Outcome) (c : Change) (s : Dir) : CallRecord :=
  ⟨c, s, (applyAndCommit testBeforeApply o c s).1, (applyAndCommit testBeforeApply o c s).2⟩

/-- The directory now, and the calls so far. -/
structure History where
  dir : Dir
  calls : List CallRecord

/-- One call after another, from a directory. -/
def evolutionSystem (testBeforeApply : Bool) (dir : Dir) : System History (Outcome × Change) where
  init := ⟨dir, []⟩
  step s e :=
    let call := recordOf testBeforeApply e.1 e.2 s.dir
    some ⟨call.after, call :: s.calls⟩

/-- The call made the commit. -/
def CallRecord.Made (call : CallRecord) (commit : Commit String String) : Prop :=
  call.after.Has commit ∧ ¬ call.before.Has commit

/-- A commit is on the branch of its proposal, not on the branch that was checked out first, and
differs from its parent in the new content of the file alone. -/
structure OnOwnBranch (first : Option String) (now : Dir) (call : CallRecord)
    (commit : Commit String String) : Prop where
  own : commit ∈ now.commits (some call.proposal.branch)
  notFirst : ∀ b ∈ first, commit ∉ now.commits (some b)
  change : ∃ parents, call.after.commits (some call.proposal.branch) = commit :: parents ∧
    commit.tree =
      Function.update (treeOf parents) call.change.filePath (some call.change.newContent)

/-- All commits of all calls are so. -/
def AllOnOwnBranch (first : Option String) (s : History) : Prop :=
  ∀ call ∈ s.calls, ∀ commit, call.Made commit → OnOwnBranch first s.dir call commit

/-- The branch that is checked out. -/
def Dir.current (s : Dir) : Option String := s.repo.bind fun repo => repo.head

/-- The condition on a call. If it commits, then on the branch that the proposal names, which is
not the first one, and nothing but the file is staged. If it creates the first branch, which was
unborn, then not with commits of earlier calls. -/
structure LandsOnOwnBranch (testBeforeApply : Bool) (first : Option String) (s : History)
    (e : Outcome × Change) : Prop where
  commits : ¬ Refuses testBeforeApply e.1 (ensureRepo e.1 s.dir) →
    ∀ repo ∈ (ensureRepo e.1 s.dir).repo,
      (Creates e.1 e.2 repo ∨ repo.head = some (branchOf e.1 e.2)) ∧
        first ≠ some (branchOf e.1 e.2) ∧
        ∀ f, f ≠ e.2.filePath → repo.index f = repo.tree repo.head f
  creates : ∀ repo ∈ (ensureRepo e.1 s.dir).repo, Creates e.1 e.2 repo →
    first = some (branchOf e.1 e.2) →
      ∀ call ∈ s.calls, ∀ commit, call.Made commit → commit ∉ repo.commits repo.head

section Runs

variable {testBeforeApply : Bool} {o : Outcome} {c : Change} {s s' : Dir}
  {repo : Repo (Option String) String String}

theorem commits_ensureRepo (r : Option String) : (ensureRepo o s).commits r = s.commits r := by
  rw [ensureRepo]
  split
  · exact WorkDir.commits_init
  · rfl

/-- The repository after the branch step. -/
structure BranchStep (o : Outcome) (c : Change) (repo repo' : Repo (Option String) String String) :
    Prop where
  index : repo'.index = repo.index
  tree : repo'.tree repo'.head = repo.tree repo.head
  head : repo'.head = some (branchOf o c) ↔
    Creates o c repo ∨ repo.head = some (branchOf o c)
  created : Creates o c repo → repo'.commits (some (branchOf o c)) = repo.commits repo.head
  others : ∀ r, ¬ Creates o c repo ∨ r ≠ some (branchOf o c) → repo'.commits r = repo.commits r

theorem prepare_repo (h : (ensureRepo o s).repo = some repo) :
    ∃ repo', (prepare o c s).1.repo = some repo' ∧ BranchStep o c repo repo' := by
  rcases prepare_cases o c s with ⟨hsame, hnot⟩ | ⟨repo₁, hrepo, hcreates, hnew⟩
  · have hnot := hnot repo h
    exact ⟨repo, by rw [hsame, h], rfl, rfl, by simp [hnot], fun hyes => absurd hyes hnot,
      fun _ _ => rfl⟩
  · cases h.symm.trans hrepo
    refine ⟨repo.startBranch (some (branchOf o c)), by rw [hnew], rfl, ?_, by simp [hcreates],
      fun _ => ?_, fun r hr => ?_⟩
    · exact Refs.tree_create_self ..
    · exact Refs.commits_create_self ..
    · exact Refs.commits_create_of_ne _ _ _ (hr.resolve_left (not_not_intro hcreates))

theorem commits_of_ensureRepo (h : (ensureRepo o s).repo = some repo) (r : Option String) :
    s.commits r = repo.commits r := by
  rw [← commits_ensureRepo (o := o), WorkDir.commits_of_repo h]

/-- A branch has after the branch step what it had, or it was created. -/
theorem commits_prepare (o : Outcome) (c : Change) (s : Dir) (r : Option String) :
    (prepare o c s).1.commits r = s.commits r ∨
    s.commits r = [] ∧ r = some (branchOf o c) ∧ ∃ repo, (ensureRepo o s).repo = some repo ∧
      Creates o c repo ∧ (prepare o c s).1.commits r = repo.commits repo.head := by
  cases hrepo : (ensureRepo o s).repo with
  | none =>
    rcases prepare_cases o c s with ⟨hsame, -⟩ | ⟨repo, hsome, -⟩
    · exact .inl (by rw [hsame, commits_ensureRepo])
    · cases hrepo.symm.trans hsome
  | some repo =>
    obtain ⟨repo', hrepo', hstep⟩ := prepare_repo (c := c) hrepo
    rw [WorkDir.commits_of_repo hrepo', commits_of_ensureRepo hrepo]
    by_cases hnew : Creates o c repo ∧ r = some (branchOf o c)
    · obtain ⟨hcreates, rfl⟩ := hnew
      exact .inr ⟨hcreates.2.2, rfl, repo, rfl, hcreates, hstep.created hcreates⟩
    · exact .inl (hstep.others r (not_and_or.mp hnew))

/-- The branch step takes no commit from a branch. -/
theorem commits_subset_prepare (o : Outcome) (c : Change) (s : Dir) (r : Option String) :
    s.commits r ⊆ (prepare o c s).1.commits r := by
  rcases commits_prepare o c s r with hsame | ⟨hempty, -⟩
  · rw [hsame]
    exact List.Subset.refl _
  · rw [hempty]
    exact List.nil_subset _

/-- The branch step makes no commit. -/
theorem has_of_prepare {n : Commit String String} (h : (prepare o c s).1.Has n) : s.Has n := by
  obtain ⟨r, hr⟩ := h
  rcases commits_prepare o c s r with hsame | ⟨-, -, repo, hrepo, -, hnew⟩
  · exact ⟨r, hsame ▸ hr⟩
  · rw [hnew] at hr
    exact ⟨repo.head, by rwa [commits_of_ensureRepo hrepo]⟩

/-- A call that fails leaves the branches as they are after the branch step. -/
theorem commits_failed (h : Refuses testBeforeApply o (ensureRepo o s)) (r : Option String) :
    (applyAndCommit testBeforeApply o c s).1.commits r = (prepare o c s).1.commits r := by
  rw [(applyAndCommit_failed (refuses_prepare.mpr h)).2]
  simp

/-- What a call does that passes: a commit on HEAD, with the new content over what was staged. -/
structure CommitStep (c : Change) (before after : Dir)
    (repo repo' : Repo (Option String) String String) (n : Commit String String) : Prop where
  tree : n.tree = Function.update repo.index c.filePath (some c.newContent)
  head : after.commits repo'.head = n :: repo'.commits repo'.head
  others : ∀ r, r ≠ repo'.head → after.commits r = before.commits r
  fresh : ¬ before.Has n

theorem commits_passed (h : ¬ Refuses testBeforeApply o (ensureRepo o s)) :
    ∃ repo repo' n, (ensureRepo o s).repo = some repo ∧ (prepare o c s).1.repo = some repo' ∧
      BranchStep o c repo repo' ∧
      CommitStep c (prepare o c s).1 (applyAndCommit testBeforeApply o c s).1 repo repo' n := by
  cases hrepo : (ensureRepo o s).repo with
  | none => exact absurd (.inr (.inr hrepo)) h
  | some repo =>
    obtain ⟨repo', hrepo', hstep⟩ := prepare_repo (c := c) hrepo
    have hbefore := WorkDir.commits_of_repo hrepo'
    obtain ⟨-, hcommit⟩ := applyAndCommit_passed (c := c) fun hyes => h (refuses_prepare.mp hyes)
    obtain ⟨staged, hstaged, hafter⟩ := WorkDir.commit_eq_some_iff.mp hcommit
    -- After the commit a branch has what it had, and HEAD has one commit more.
    have hcommits (r : Option String) : (applyAndCommit testBeforeApply o c s).1.commits r =
        (repo'.commit repo'.head
          (Function.update repo.index c.filePath (some c.newContent))).commits r := by
      simp only [WorkDir.add, WorkDir.repo_write, hrepo', Option.map_some, Option.some.injEq]
        at hstaged
      subst hstaged
      rw [hafter, ← hstep.index]
      simp [WorkDir.commits, Repo.commitIndex, WorkDir.write]
    refine ⟨repo, repo',
      ⟨repo'.next, Function.update repo.index c.filePath (some c.newContent)⟩, rfl, hrepo', hstep,
      rfl, ?_, fun r hr => ?_, ?_⟩
    · rw [hcommits]
      exact Refs.commits_commit_self ..
    · rw [hcommits, hbefore]
      exact Refs.commits_commit_of_ne _ _ _ _ hr
    · rintro ⟨r, hr⟩
      rw [hbefore] at hr
      exact Refs.next_not_mem _ _ _ hr

/-- A call takes no commit from a branch. -/
theorem commits_subset_apply (testBeforeApply : Bool) (o : Outcome) (c : Change) (s : Dir)
    (r : Option String) :
    (prepare o c s).1.commits r ⊆ (applyAndCommit testBeforeApply o c s).1.commits r := by
  by_cases hrefuses : Refuses testBeforeApply o (ensureRepo o s)
  · rw [commits_failed hrefuses]
    exact List.Subset.refl _
  · obtain ⟨repo, repo', n, -, hrepo', -, hcommit⟩ := commits_passed (c := c) hrefuses
    by_cases hr : r = repo'.head
    · rw [WorkDir.commits_of_repo hrepo', hr, hcommit.head]
      exact List.subset_cons_self _ _
    · rw [hcommit.others r hr]
      exact List.Subset.refl _

/-- A call that fails makes no commit. -/
theorem not_made_of_refuses (h : Refuses testBeforeApply o (ensureRepo o s))
    (n : Commit String String) : ¬ (recordOf testBeforeApply o c s).Made n := by
  rintro ⟨⟨r, hr⟩, hnew⟩
  rw [recordOf, commits_failed h] at hr
  exact hnew (has_of_prepare ⟨r, hr⟩)

/-- The others make the commit that they add to HEAD, and no other. -/
theorem CommitStep.made_iff {repo repo' : Repo (Option String) String String}
    {n n' : Commit String String}
    (h : CommitStep c (prepare o c s).1 (applyAndCommit testBeforeApply o c s).1 repo repo' n)
    (hrepo : (prepare o c s).1.repo = some repo') :
    (recordOf testBeforeApply o c s).Made n' ↔ n' = n := by
  constructor
  · rintro ⟨⟨r, hr⟩, hnew⟩
    by_cases hhead : r = repo'.head
    · rw [hhead, recordOf, h.head] at hr
      rcases List.mem_cons.mp hr with heq | hold
      · exact heq
      · rw [← WorkDir.commits_of_repo hrepo] at hold
        exact absurd (has_of_prepare ⟨_, hold⟩) hnew
    · rw [recordOf, h.others r hhead] at hr
      exact absurd (has_of_prepare ⟨r, hr⟩) hnew
  · rintro rfl
    refine ⟨⟨repo'.head, ?_⟩, ?_⟩
    · rw [recordOf, h.head]
      exact List.mem_cons_self
    · rintro ⟨r, hr⟩
      exact h.fresh ⟨r, commits_subset_prepare o c s r hr⟩

/-- The commit of a call is on a branch of its own exactly when HEAD is the branch that the
proposal names, and not the first one, and nothing else was staged. -/
theorem CommitStep.onOwnBranch_iff {first : Option String}
    {repo' : Repo (Option String) String String} {n : Commit String String}
    (hstep : BranchStep o c repo repo')
    (h : CommitStep c (prepare o c s).1 (applyAndCommit testBeforeApply o c s).1 repo repo' n) :
    OnOwnBranch first (recordOf testBeforeApply o c s).after (recordOf testBeforeApply o c s) n ↔
      (Creates o c repo ∨ repo.head = some (branchOf o c)) ∧ first ≠ some (branchOf o c) ∧
        ∀ f, f ≠ c.filePath → repo.index f = repo.tree repo.head f := by
  have hmem (r : Option String) :
      n ∈ (recordOf testBeforeApply o c s).after.commits r ↔ r = repo'.head := by
    constructor
    · intro hr
      by_contra hne
      rw [recordOf, h.others r hne] at hr
      exact h.fresh ⟨r, hr⟩
    · rintro rfl
      rw [recordOf, h.head]
      exact List.mem_cons_self
  -- The commit has the index of before with the new content, so it changes its file only if nothing
  -- else was staged.
  have hparents : n.tree =
      Function.update (treeOf (repo'.commits repo'.head)) c.filePath (some c.newContent) ↔
        ∀ f, f ≠ c.filePath → repo.index f = repo.tree repo.head f := by
    have htree : treeOf (repo'.commits repo'.head) = repo.tree repo.head := hstep.tree
    rw [h.tree, htree, Function.update_eq_iff]
    simp +contextual
  rw [← hstep.head]
  constructor
  · intro hown
    have hhead := ((hmem _).mp hown.own).symm
    rw [recordOf, branch_applyAndCommit] at hhead
    refine ⟨hhead, fun hfirst => ?_, ?_⟩
    · exact hown.notFirst _ hfirst ((hmem _).mpr hhead.symm)
    · obtain ⟨parents, hcommits, htree⟩ := hown.change
      rw [recordOf, branch_applyAndCommit, ← hhead, h.head] at hcommits
      obtain ⟨-, rfl⟩ := List.cons.inj hcommits
      exact hparents.mp htree
  · rintro ⟨hhead, hfirst, hclean⟩
    have hbranch : some (recordOf testBeforeApply o c s).proposal.branch = repo'.head := by
      rw [recordOf, branch_applyAndCommit, hhead]
    refine ⟨(hmem _).mpr hbranch, fun b hb hmem' => ?_, repo'.commits repo'.head, ?_, ?_⟩
    · have hb' := (hmem _).mp hmem'
      rw [hhead] at hb'
      exact hfirst (by rw [hb, hb'])
    · rw [hbranch]
      exact h.head
    · exact hparents.mpr hclean

/-- A call puts a commit that was there on no branch, unless the branch step does. -/
theorem mem_commits_apply {n : Commit String String} (hn : s.Has n) (r : Option String) :
    n ∈ (applyAndCommit testBeforeApply o c s).1.commits r ↔ n ∈ (prepare o c s).1.commits r := by
  refine ⟨fun hr => ?_, fun hr => commits_subset_apply testBeforeApply o c s r hr⟩
  by_cases hrefuses : Refuses testBeforeApply o (ensureRepo o s)
  · rwa [commits_failed hrefuses] at hr
  · obtain ⟨repo, repo', n', -, hrepo', -, hcommit⟩ := commits_passed (c := c) hrefuses
    by_cases hhead : r = repo'.head
    · subst hhead
      rw [hcommit.head] at hr
      rcases List.mem_cons.mp hr with rfl | hold
      · obtain ⟨r, hr⟩ := hn
        exact absurd ⟨r, commits_subset_prepare o c s r hr⟩ hcommit.fresh
      · rwa [WorkDir.commits_of_repo hrepo']
    · rwa [hcommit.others r hhead] at hr

/-- A call keeps the commits on their own branches if and only if it meets the condition. -/
theorem allOnOwnBranch_step {dir : Dir} {first : Option String} {s s' : History}
    {e : Outcome × Change} (hall : AllOnOwnBranch first s)
    (hstep : (evolutionSystem testBeforeApply dir).step s e = some s') :
    AllOnOwnBranch first s' ↔ LandsOnOwnBranch testBeforeApply first s e := by
  obtain ⟨o, c⟩ := e
  cases hstep
  have hcalls := List.forall_mem_cons (a := recordOf testBeforeApply o c s.dir) (l := s.calls)
    (p := fun call => ∀ n, call.Made n →
      OnOwnBranch first (recordOf testBeforeApply o c s.dir).after call n)
  constructor
  -- The new commit is where it should be, and the old ones were not put on a branch that is created
  -- now.
  · intro hall'
    obtain ⟨hnew, hold⟩ := hcalls.mp hall'
    constructor
    · intro hpasses repo hrepo
      obtain ⟨repo₁, repo', n, hrepo₁, hrepo', hbranch, hcommit⟩ :=
        commits_passed (c := c) hpasses
      cases hrepo₁.symm.trans hrepo
      exact (hcommit.onOwnBranch_iff hbranch).mp (hnew n ((hcommit.made_iff hrepo').mpr rfl))
    · intro repo hrepo hcreates hfirst call hcall n hmade hhead
      obtain ⟨repo', hrepo', hbranch⟩ := prepare_repo (c := c) hrepo
      refine (hold call hcall n hmade).notFirst _ hfirst (commits_subset_apply _ o c s.dir _ ?_)
      rw [WorkDir.commits_of_repo hrepo', hbranch.created hcreates]
      exact hhead
  -- The commit of this call, if it makes one, and then those of the calls before.
  · intro hlands
    refine hcalls.mpr ⟨fun n hmade => ?_, fun call hcall n hmade => ?_⟩
    · by_cases hrefuses : Refuses testBeforeApply o (ensureRepo o s.dir)
      · exact absurd hmade (not_made_of_refuses hrefuses n)
      · obtain ⟨repo, repo', n', hrepo, hrepo', hbranch, hcommit⟩ :=
          commits_passed (c := c) hrefuses
        cases (hcommit.made_iff hrepo').mp hmade
        exact (hcommit.onOwnBranch_iff hbranch).mpr (hlands.commits hrefuses repo hrepo)
    · have hown := hall call hcall n hmade
      refine ⟨?_, fun b hb hmem => ?_, hown.change⟩
      · exact commits_subset_apply _ o c s.dir _ (commits_subset_prepare o c s.dir _ hown.own)
      · rw [recordOf, mem_commits_apply ⟨_, hown.own⟩] at hmem
        rcases commits_prepare o c s.dir (some b) with hsame | ⟨-, heq, repo, hrepo, hcreates, hhead⟩
        · exact hown.notFirst b hb (hsame ▸ hmem)
        · rw [hhead] at hmem
          exact hlands.creates repo hrepo hcreates (heq ▸ hb) call hcall n hmade hmem

/-- A repository with one commit, on `master`. -/
def masterDir : Dir :=
  (applyAndCommit true { branchName := "", testsOk := true }
    { filePath := "app.py", newContent := "x = 1", message := "", branch := some "master" }
    emptyDir).1

/-- A call that names no branch. -/
def unnamedCall : Outcome × Change :=
  ({ branchName := "evolution/1", testsOk := true },
    { filePath := "app.py", newContent := "x = 2", message := "" })

/-- A call that names a branch. -/
def namedCall : Outcome × Change :=
  ({ branchName := "evolution/1", testsOk := true },
    { filePath := "app.py", newContent := "x = 2", message := "", branch := some "feature" })

end Runs

end Noema.Evolution
