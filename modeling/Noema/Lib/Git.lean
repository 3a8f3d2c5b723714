import Mathlib

/-!
# The three trees of git

A repository has its references, each with the commits that it reaches (the newest first), the
reference in HEAD, and the index; beside it lies the working tree. A reference without commits does
not exist, or is unborn when HEAD has it. References are of any type: `Option` of a branch name,
where `none` is a detached HEAD, or the branch names alone.

- `Refs`: the references, with the invariant that a commit number is not used twice. So two commits
  with one number are one commit, and "this branch has another commit now" can be said of numbers.
- `WorkDir`: a working tree, and the repository in it, if there is one. The commands on it follow
  git: `add` copies a file into the index, `checkoutFile` out of it, `commit` records the index.
- `checkoutFile_add_write`, `add_write_eq_self_iff`: what remains of a write that is staged and
  checked out again.
- `commit_eq_some_iff`, `checkoutNew_eq_some_iff`: when a command succeeds, with all that it
  changes; a caller derives what it needs from these and does not look at the commands again.
-/

namespace Noema.Lib.Git

universe u v w

/-- The content of each path that has a file. -/
abbrev Tree (P : Type u) (C : Type v) := P → Option C

/-- A commit: its number, and the whole tree. -/
structure Commit (P : Type u) (C : Type v) where
  id : Nat
  tree : Tree P C

/-- The tree of the newest of some commits; before the first commit it is empty. -/
def treeOf {P : Type u} {C : Type v} : List (Commit P C) → Tree P C
  | [] => fun _ => none
  | c :: _ => c.tree

/-- A tree overwritten with files, one after the other. -/
def overwrite {P : Type u} {C : Type v} [DecidableEq P] (t : Tree P C) (files : List (P × C)) :
    Tree P C :=
  files.foldl (fun t f => Function.update t f.1 (some f.2)) t

/-- Overwritten with the same files, two trees are the same exactly when they agree elsewhere. -/
theorem overwrite_eq_overwrite_iff {P : Type u} {C : Type v} [DecidableEq P] {t t' : Tree P C}
    {files : List (P × C)} :
    overwrite t files = overwrite t' files ↔ ∀ p, p ∉ files.map Prod.fst → t p = t' p := by
  induction files generalizing t t' with
  | nil => exact funext_iff.trans (by simp [overwrite])
  | cons f files ih =>
    show overwrite (Function.update t f.1 (some f.2)) files =
      overwrite (Function.update t' f.1 (some f.2)) files ↔ _
    rw [ih]
    refine forall_congr' fun p => ?_
    by_cases hp : p = f.1
    · subst hp
      simp
    · simp [hp]

/-- The references. The number of the next commit is above those in use. -/
structure Refs (R : Type w) (P : Type u) (C : Type v) where
  commits : R → List (Commit P C)
  next : Nat
  fresh : ∀ r, ∀ c ∈ commits r, c.id < next

/-- A repository. -/
structure Repo (R : Type w) (P : Type u) (C : Type v) extends Refs R P C where
  head : R
  index : Tree P C

/-- A directory, with or without a repository. -/
structure WorkDir (R : Type w) (P : Type u) (C : Type v) where
  worktree : Tree P C
  repo : Option (Repo R P C)

variable {R : Type w} {P : Type u} {C : Type v} [DecidableEq R]

namespace Refs

/-- No reference has a commit. -/
def empty : Refs R P C := ⟨fun _ => [], 0, fun _ _ h => by cases h⟩

/-- A commit on a reference. -/
def commit (s : Refs R P C) (r : R) (tree : Tree P C) : Refs R P C where
  commits := Function.update s.commits r (⟨s.next, tree⟩ :: s.commits r)
  next := s.next + 1
  fresh r' c hc := by
    by_cases heq : r' = r
    · subst heq
      rw [Function.update_self] at hc
      rcases List.mem_cons.mp hc with rfl | hc
      · exact Nat.lt_succ_self _
      · exact Nat.lt_succ_of_lt (s.fresh r' c hc)
    · rw [Function.update_of_ne heq] at hc
      exact Nat.lt_succ_of_lt (s.fresh r' c hc)

/-- A reference becomes the same as another one. -/
def create (s : Refs R P C) (new old : R) : Refs R P C where
  commits := Function.update s.commits new (s.commits old)
  next := s.next
  fresh r c hc := by
    by_cases heq : r = new
    · subst heq
      rw [Function.update_self] at hc
      exact s.fresh old c hc
    · rw [Function.update_of_ne heq] at hc
      exact s.fresh r c hc

/-- What a reference leads to. -/
def tree (s : Refs R P C) (r : R) : Tree P C := treeOf (s.commits r)

variable (s : Refs R P C) (r r' : R) (t : Tree P C)

@[simp] theorem commits_commit_self :
    (s.commit r t).commits r = ⟨s.next, t⟩ :: s.commits r := by simp [commit]

theorem commits_commit_of_ne (h : r' ≠ r) : (s.commit r t).commits r' = s.commits r' := by
  simp [commit, h]

@[simp] theorem commits_create_self : (s.create r r').commits r = s.commits r' := by simp [create]

theorem commits_create_of_ne {r₁ : R} (h : r₁ ≠ r) :
    (s.create r r').commits r₁ = s.commits r₁ := by simp [create, h]

@[simp] theorem tree_commit_self : (s.commit r t).tree r = t := by simp [tree, treeOf]

@[simp] theorem tree_create_self : (s.create r r').tree r = s.tree r' := by simp [tree]

omit [DecidableEq R] in
/-- The commit that comes next is on no reference yet. -/
theorem next_not_mem : (⟨s.next, t⟩ : Commit P C) ∉ s.commits r :=
  fun h => Nat.lt_irrefl _ (s.fresh r _ h)

end Refs

namespace Repo

/-- A new branch at HEAD, and in HEAD. -/
def startBranch (s : Repo R P C) (b : R) : Repo R P C :=
  { s with toRefs := s.create b s.head, head := b }

@[simp] theorem index_startBranch (s : Repo R P C) (b : R) : (s.startBranch b).index = s.index := rfl

@[simp] theorem head_startBranch (s : Repo R P C) (b : R) : (s.startBranch b).head = b := rfl

/-- A commit of the index. -/
def commitIndex (s : Repo R P C) : Repo R P C := { s with toRefs := s.commit s.head s.index }

end Repo

namespace WorkDir

variable [DecidableEq P]

/-- `git init`, with the branch that HEAD gets. -/
def init (r : R) (s : WorkDir R P C) : WorkDir R P C :=
  match s.repo with
  | some _ => s
  | none => { s with repo := some { Refs.empty with head := r, index := fun _ => none } }

/-- A file is written. -/
def write (f : P) (content : C) (s : WorkDir R P C) : WorkDir R P C :=
  { s with worktree := Function.update s.worktree f (some content) }

/-- `git add f`. -/
def add (f : P) (s : WorkDir R P C) : WorkDir R P C :=
  { s with
    repo := s.repo.map fun r => { r with index := Function.update r.index f (s.worktree f) } }

/-- `git checkout -- f`. A path that is not in the index is an error. -/
def checkoutFile (f : P) (s : WorkDir R P C) : WorkDir R P C :=
  match s.repo.bind fun r => r.index f with
  | none => s
  | some content => s.write f content

/-- `git checkout -b`, which refuses a branch that exists. -/
def checkoutNew (b : R) (s : WorkDir R P C) : Option (WorkDir R P C) :=
  (s.repo.filter fun r => (r.commits b).isEmpty).map fun r =>
    { s with repo := some (r.startBranch b) }

/-- `git commit`. -/
def commit (s : WorkDir R P C) : Option (WorkDir R P C) :=
  s.repo.map fun r => { s with repo := some r.commitIndex }

/-- The commits of a reference. -/
def commits (s : WorkDir R P C) (r : R) : List (Commit P C) :=
  (s.repo.map fun repo => repo.commits r).getD []

/-- Some reference has the commit. -/
def Has (s : WorkDir R P C) (c : Commit P C) : Prop := ∃ r, c ∈ s.commits r

variable {s s' : WorkDir R P C} {f : P} {content : C} {b r : R} {c : Commit P C}

omit [DecidableEq R] [DecidableEq P] in
theorem commits_of_repo {repo : Repo R P C} (h : s.repo = some repo) (r : R) :
    s.commits r = repo.commits r := by
  rw [commits, h]
  rfl

/-! ### Files -/

omit [DecidableEq R] in
@[simp] theorem commits_write : (s.write f content).commits r = s.commits r := rfl

omit [DecidableEq R] in
@[simp] theorem commits_add : (s.add f).commits r = s.commits r := by
  cases h : s.repo <;> simp [commits, add, h]

omit [DecidableEq R] in
@[simp] theorem commits_checkoutFile : (s.checkoutFile f).commits r = s.commits r := by
  rw [checkoutFile]
  split
  · rfl
  · rfl

omit [DecidableEq R] in
@[simp] theorem repo_write : (s.write f content).repo = s.repo := rfl

omit [DecidableEq R] in
/-- What was added is what the index has, so to check it out changes nothing. -/
theorem checkoutFile_add_write :
    ((s.write f content).add f).checkoutFile f = (s.write f content).add f := by
  cases h : s.repo <;> simp [checkoutFile, add, write, h]

omit [DecidableEq R] in
/-- To write and add a file changes nothing exactly when the file and its copy in the index have
the content already. -/
theorem add_write_eq_self_iff :
    (s.write f content).add f = s ↔
      s.worktree f = some content ∧ ∀ repo ∈ s.repo, repo.index f = some content := by
  obtain ⟨worktree, repo⟩ := s
  cases repo with
  | none => simp [add, write, eq_comm]
  | some repo =>
    obtain ⟨refs, head, index⟩ := repo
    simp [add, write, eq_comm]

/-! ### Commits -/

omit [DecidableEq P] in
/-- A commit adds one commit, with what the index has, to the reference in HEAD. -/
theorem commit_eq_some_iff :
    s.commit = some s' ↔ ∃ repo, s.repo = some repo ∧
      s' = { s with repo := some repo.commitIndex } := by
  simp [commit, eq_comm]

omit [DecidableEq P] in
/-- A new branch starts at HEAD and is in HEAD then; no branch may have the name. -/
theorem checkoutNew_eq_some_iff :
    s.checkoutNew b = some s' ↔ ∃ repo, s.repo = some repo ∧ repo.commits b = [] ∧
      s' = { s with repo := some (repo.startBranch b) } := by
  simp only [checkoutNew, Option.map_eq_some_iff, Option.filter_eq_some_iff, List.isEmpty_iff]
  constructor
  · rintro ⟨repo, ⟨hrepo, hempty⟩, rfl⟩
    exact ⟨repo, hrepo, by simpa using hempty, rfl⟩
  · rintro ⟨repo, hrepo, hempty, rfl⟩
    exact ⟨repo, ⟨hrepo, by simpa using hempty⟩, rfl⟩

omit [DecidableEq R] [DecidableEq P] in
theorem commits_init : (s.init b).commits r = s.commits r := by
  rw [init]
  split
  · rfl
  · next h => simp [commits, Refs.empty, h]

end WorkDir

end Noema.Lib.Git
