import Noema.Autonomy.Fixer
import Noema.Lib.Git
import Noema.Lib.PyTriple

/-!
# Fix branches and pull requests (`autonomy/github.py`)

The client sends one request after another: it reads the commit of the base branch, creates a
branch, puts each file with a request of its own, and opens the pull request. `serve` is what GitHub
does with a request; `send` lets any request be turned down as well, for whatever reason (no
permission, a limit, an outage). A `GitHubError` ends the client and leaves what was done.

A branch that exists already is no error for the client: GitHub answers 422, and the branch is taken
over with the files that it has. That is how the second attempt at an incident starts.

- `Answered`: a triple for one request. It was turned down, or served with a postcondition on the
  references; the rules for reading, creating and putting are derived from it, and the loop over the
  files is an induction with them (`triple_writeAll`).
- `submitFixPr_tree`: the tree at the head of a pull request that was opened, whatever was turned
  down before.
- **`fixTree_iff`**: it is the tree of the base branch with the files of the fix if and only if the
  branch did not exist, or it differs from the base branch in files of the fix only.
- `secondAttempt_keeps_first`: a first attempt that wrote a file and failed, and a second one that
  proposes it.
-/

namespace Noema.Autonomy

open Noema.Lib PyM
open Noema.Lib.Git (Refs overwrite overwrite_eq_overwrite_iff)

/-! ## GitHub -/

/-- The repository on GitHub: its branches, the pull requests (head and base), and how many requests
were answered. -/
structure Remote extends Refs String String String where
  pulls : List (String × String)
  requests : Nat

/-- What a client asks. A new reference is for the commit that the base branch has. -/
inductive Request where
  | getRef (branch : String)
  | postRef (branch base : String)
  | getContents (branch path : String)
  | putContents (branch path content : String) (sha : Option String)
  | postPull (head base : String)

/-- An answer: the status, and what a client takes from the body. -/
structure Response where
  status : Nat
  sha : String := ""
  number : Nat := 0
  message : String := ""

/-- What GitHub makes of names and contents, and the requests, by their number, that it turns down
(no permission, a rate limit, a protected branch, a directory at the path, ...). -/
structure GitHub where
  validRef : String → Bool
  blobSha : String → String
  fault : Nat → Option { status : Nat // 300 ≤ status }

/-- A request that is not turned down. -/
def serve (gh : GitHub) (s : Remote) : Request → Response × Remote
  | .getRef branch => (if (s.commits branch).isEmpty then ⟨404, "", 0, ""⟩ else ⟨200, "", 0, ""⟩, s)
  | .postRef branch base =>
    if gh.validRef branch && (s.commits branch).isEmpty then
      (⟨201, "", 0, ""⟩, { s with toRefs := s.create branch base })
    else (⟨422, "", 0, "Reference already exists"⟩, s)
  | .getContents branch path =>
    match s.tree branch path with
    | none => (⟨404, "", 0, ""⟩, s)
    | some content => (⟨200, gh.blobSha content, 0, ""⟩, s)
  -- an update names the blob that it replaces
  | .putContents branch path content sha =>
    if (s.commits branch).isEmpty then (⟨404, "", 0, ""⟩, s)
    else if (s.tree branch path).map gh.blobSha = sha then
      (⟨if sha.isSome then 200 else 201, "", 0, ""⟩,
        { s with
          toRefs := s.commit branch (Function.update (s.tree branch) path (some content)) })
    else (⟨409, "", 0, ""⟩, s)
  | .postPull head base =>
    if (s.commits head).isEmpty then (⟨422, "", 0, ""⟩, s)
    else (⟨201, "", s.pulls.length + 1, ""⟩, { s with pulls := s.pulls ++ [(head, base)] })

/-- A request is answered. -/
def send (gh : GitHub) (r : Request) : PyM Remote Response := fun s =>
  match gh.fault s.requests with
  | some status => (.ok ⟨status, "", 0, ""⟩, { s with requests := s.requests + 1 })
  | none => (.ok (serve gh s r).1, { (serve gh s r).2 with requests := s.requests + 1 })

/-! ## The client -/

/-- `_raise_for_status`. -/
def raiseForStatus (resp : Response) (what : String) : Except PyExc Unit :=
  if resp.status < 300 then .ok ()
  else .error (.custom "GitHubError"
    ("GitHub " ++ what ++ " failed: " ++ toString resp.status ++ " " ++ resp.message))

section Client

variable (gh : GitHub) (baseBranch : String)

/-- `_base_branch_sha`. -/
def baseBranchSha : PyM Remote Unit := do
  let resp ← send gh (.getRef baseBranch)
  PyM.lift (raiseForStatus resp ("resolve base branch '" ++ baseBranch ++ "'"))

/-- `create_branch`. That the reference exists is no error. -/
def createBranch (branch : String) : PyM Remote Unit := do
  baseBranchSha gh baseBranch
  let resp ← send gh (.postRef branch baseBranch)
  PyM.lift (if resp.status = 422 then .ok ()
    else raiseForStatus resp ("create branch '" ++ branch ++ "'"))

/-- `_file_sha`. -/
def fileSha (branch path : String) : PyM Remote (Option String) := do
  let resp ← send gh (.getContents branch path)
  PyM.lift (if resp.status = 404 then .ok none
    else (raiseForStatus resp ("stat '" ++ path ++ "'")).map fun _ => some resp.sha)

/-- `write_file`, on a branch that was created before. -/
def writeFile (branch path content : String) : PyM Remote Unit := do
  let sha ← fileSha gh branch path
  let resp ← send gh (.putContents branch path content (sha.filter fun sha => sha ≠ ""))
  PyM.lift (raiseForStatus resp ("write '" ++ path ++ "'"))

/-- `open_pr`. -/
def openPr (branch : String) : PyM Remote Nat := do
  let resp ← send gh (.postPull branch baseBranch)
  PyM.lift (raiseForStatus resp ("open PR for '" ++ branch ++ "'"))
  return resp.number

/-- The files of a fix, each with a request of its own. -/
def writeAll (branch : String) : List (String × String) → PyM Remote Unit
  | [] => pure ()
  | (path, content) :: files => do
    writeFile gh branch path content
    writeAll branch files

/-- The branch of a pull request: `freshName` has a random part. -/
def branchName (branch : Option String) (freshName : String) : String :=
  if branch.getD "" = "" then freshName else branch.getD ""

/-- `submit_fix_pr`. -/
def submitFixPr (files : List (String × String)) (branch : Option String) (freshName : String) :
    PyM Remote PullRequest := do
  createBranch gh baseBranch (branchName branch freshName)
  writeAll gh (branchName branch freshName) files
  let number ← openPr gh baseBranch (branchName branch freshName)
  return ⟨branchName branch freshName, number, "", files.length⟩

end Client

/-! ## The tree of a fix -/

section Tree

variable {gh : GitHub} {baseBranch branch path content : String}
  {P : Refs String String String → Prop} {refs : Refs String String String}
  {resp : Response} {what : String} {s s' : Remote}

/-- A request was turned down, or served on references with `P`. -/
def Answered (gh : GitHub) (P : Refs String String String → Prop) (r : Request) (resp : Response)
    (refs' : Refs String String String) : Prop :=
  (300 ≤ resp.status ∧ P refs') ∨
    ∃ s, P s.toRefs ∧ resp = (serve gh s r).1 ∧ refs' = (serve gh s r).2.toRefs

theorem triple_send (r : Request) :
    Triple (fun s => P s.toRefs) (send gh r) (fun resp s => Answered gh P r resp s.toRefs)
      anything := by
  intro s hs
  rw [send]
  cases gh.fault s.requests with
  | some status => exact .inl ⟨status.2, hs⟩
  | none => exact .inr ⟨s, hs, rfl, rfl⟩

/-- A request that only reads. -/
theorem Answered.of_read {r : Request} {refs' : Refs String String String}
    (hread : ∀ s, (serve gh s r).2 = s) (h : Answered gh P r resp refs') : P refs' := by
  rcases h with ⟨-, hP⟩ | ⟨s, hP, -, rfl⟩
  · exact hP
  · rwa [hread]

theorem raiseForStatus_eq_ok (h : raiseForStatus resp what = .ok ()) : resp.status < 300 := by
  rw [raiseForStatus] at h
  split at h
  · assumption
  · cases h

theorem serve_getRef : (serve gh s (.getRef branch)).2 = s := rfl

theorem serve_getContents : (serve gh s (.getContents branch path)).2 = s := by
  rw [serve]
  split
  · rfl
  · rfl

/-- A file that was put is on the branch, which was there. -/
theorem serve_putContents {sha : Option String}
    (h : (serve gh s (.putContents branch path content sha)).1.status < 300) :
    s.commits branch ≠ [] ∧ (serve gh s (.putContents branch path content sha)).2.toRefs =
      s.commit branch (Function.update (s.tree branch) path (some content)) := by
  rw [serve] at h ⊢
  by_cases hempty : (s.commits branch).isEmpty
  · simp [hempty] at h
  · rw [if_neg hempty] at h ⊢
    by_cases hsha : (s.tree branch path).map gh.blobSha = sha
    · rw [if_pos hsha]
      exact ⟨by simpa using hempty, rfl⟩
    · simp [hsha] at h

/-- The branch after `create_branch` returned: the base branch under a name that was free, or
nothing has changed. -/
def Created (baseBranch branch : String) (refs refs' : Refs String String String) : Prop :=
  (refs.commits branch = [] ∧ refs' = refs.create branch baseBranch) ∨ refs' = refs

theorem triple_createBranch :
    Triple (fun s => s.toRefs = refs) (createBranch gh baseBranch branch)
      (fun _ s => Created baseBranch branch refs s.toRefs) anything := by
  have hbase : Triple (fun s => s.toRefs = refs) (baseBranchSha gh baseBranch)
      (fun _ s => s.toRefs = refs) anything := by
    refine .bind (triple_send (P := fun r => r = refs) _) fun resp => .lift ?_ fun _ _ _ _ => trivial
    intro _ s _ hsent
    exact Answered.of_read (P := fun r => r = refs) (fun _ => serve_getRef) hsent
  refine .bind hbase fun _ => .bind (triple_send (P := fun r => r = refs) _) fun resp =>
    .lift ?_ fun _ _ _ _ => trivial
  intro _ s hchecked hsent
  rcases hsent with ⟨-, hsame⟩ | ⟨s₀, hs₀, rfl, hs⟩
  · exact .inr hsame
  · rw [hs, serve]
    split
    · next hfree =>
      obtain ⟨-, hempty⟩ := Bool.and_eq_true_iff.mp hfree
      refine .inl ⟨?_, by rw [← hs₀]⟩
      rw [← hs₀]
      exact List.isEmpty_iff.mp hempty
    · exact .inr hs₀

/-- The branch has a tree; `c` says whether it is missing. -/
def OnBranch (branch : String) (t : Git.Tree String String) (c : Prop)
    (refs : Refs String String String) : Prop :=
  refs.tree branch = t ∧ (refs.commits branch = [] ↔ c)

theorem triple_writeFile {t : Git.Tree String String} {c : Prop} :
    Triple (fun s => OnBranch branch t c s.toRefs) (writeFile gh branch path content)
      (fun _ s => OnBranch branch (Function.update t path (some content)) c s.toRefs) anything := by
  have hsha : Triple (fun s => OnBranch branch t c s.toRefs) (fileSha gh branch path)
      (fun _ s => OnBranch branch t c s.toRefs) anything := by
    refine .bind (triple_send _) fun resp => .lift ?_ fun _ _ _ _ => trivial
    intro _ s _ hsent
    exact hsent.of_read fun _ => serve_getContents
  refine .bind hsha fun sha => .bind (triple_send _) fun resp => .lift ?_ fun _ _ _ _ => trivial
  intro _ s hchecked hsent
  rcases hsent with ⟨hfault, -⟩ | ⟨s₀, ⟨htree, hmissing⟩, rfl, hs⟩
  · exact absurd (raiseForStatus_eq_ok hchecked) (Nat.not_lt.mpr hfault)
  · obtain ⟨hthere, hput⟩ := serve_putContents (raiseForStatus_eq_ok hchecked)
    rw [hs, hput]
    refine ⟨by rw [Refs.tree_commit_self, htree], ?_⟩
    rw [Refs.commits_commit_self]
    exact iff_of_false (List.cons_ne_nil _ _) (mt hmissing.mpr hthere)

/-- The files that were written, one after the other. -/
theorem triple_writeAll {t : Git.Tree String String} {c : Prop} (files : List (String × String)) :
    Triple (fun s => OnBranch branch t c s.toRefs) (writeAll gh branch files)
      (fun _ s => OnBranch branch (overwrite t files) c s.toRefs) anything := by
  induction files generalizing t with
  | nil => exact .keeps_pure
  | cons f files ih => exact .bind triple_writeFile fun _ => ih

/-- A pull request needs its branch. -/
theorem triple_openPr {t : Git.Tree String String} {c : Prop} :
    Triple (fun s => OnBranch branch t c s.toRefs) (openPr gh baseBranch branch)
      (fun _ s => s.tree branch = t ∧ ¬ c) anything := by
  refine .bind (triple_send _) fun resp => .bind .lift_eq fun _ => .pure ?_
  rintro s ⟨hsent, hchecked⟩
  rcases hsent with ⟨hfault, -⟩ | ⟨s₀, ⟨htree, hmissing⟩, rfl, hs⟩
  · exact absurd (raiseForStatus_eq_ok hchecked) (Nat.not_lt.mpr hfault)
  · have hstatus := raiseForStatus_eq_ok hchecked
    rw [serve] at hstatus hs
    by_cases hempty : (s₀.commits branch).isEmpty
    · simp [hempty] at hstatus
    · rw [if_neg hempty] at hs
      rw [hs]
      exact ⟨htree, fun hc => hempty (List.isEmpty_iff.mpr (hmissing.mpr hc))⟩

/-- The files and the pull request, on a branch that was created. -/
theorem triple_propose {t : Git.Tree String String} {c : Prop} (files : List (String × String)) :
    Triple (fun s => OnBranch branch t c s.toRefs)
      (do
        writeAll gh branch files
        let number ← openPr gh baseBranch branch
        return (⟨branch, number, "", files.length⟩ : PullRequest))
      (fun pr s => pr.branch = branch ∧ s.tree branch = overwrite t files ∧ ¬ c) anything :=
  .bind (triple_writeAll files) fun _ => .bind triple_openPr fun _ => .pure fun _ hs => ⟨rfl, hs⟩

/-- The tree that the files of a fix are written over: what the branch has already, or else the
tree of the base branch. -/
def startTree (baseBranch branch : String) (s : Remote) : Git.Tree String String :=
  if s.commits branch = [] then s.tree baseBranch else s.tree branch

/-- The head of a pull request that was opened. -/
theorem submitFixPr_tree {files : List (String × String)} {name : Option String}
    {freshName : String} {pr : PullRequest}
    (h : submitFixPr gh baseBranch files name freshName s = (.ok pr, s')) :
    pr.branch = branchName name freshName ∧ s'.tree (branchName name freshName) =
      overwrite (startTree baseBranch (branchName name freshName) s) files := by
  have hspec : Triple (fun s₀ => s₀.toRefs = s.toRefs)
      (submitFixPr gh baseBranch files name freshName)
      (fun pr s' => pr.branch = branchName name freshName ∧ s'.tree (branchName name freshName) =
        overwrite (startTree baseBranch (branchName name freshName) s) files) anything := by
    refine .bind triple_createBranch fun _ s₁ hcreated => ?_
    refine (triple_propose files).post ?_ s₁ ⟨rfl, Iff.rfl⟩
    rintro pr s₂ ⟨hbranch, htree, hthere⟩
    refine ⟨hbranch, htree.trans (congrArg (overwrite · files) ?_)⟩
    rcases hcreated with ⟨hfree, hcreate⟩ | hsame
    · rw [startTree, if_pos hfree, hcreate, Refs.tree_create_self]
    · rw [hsame] at hthere ⊢
      rw [startTree, if_neg hthere]
  exact hspec.run rfl h

/-- **A fix PR contains exactly the fix**, the tree of the base branch overwritten with the files,
if and only if the branch did not exist, or its files were those of the base branch but for the
files of the fix. The condition is on the repository before the call, and the statement holds
whatever requests were turned down on the way to the pull request. -/
theorem fixTree_iff {files : List (String × String)} {name : Option String} {freshName : String}
    {pr : PullRequest} (h : submitFixPr gh baseBranch files name freshName s = (.ok pr, s')) :
    s'.tree pr.branch = overwrite (s.tree baseBranch) files ↔
      s.commits (branchName name freshName) = [] ∨ ∀ path, path ∉ files.map Prod.fst →
        s.tree (branchName name freshName) path = s.tree baseBranch path := by
  obtain ⟨hbranch, htree⟩ := submitFixPr_tree h
  rw [hbranch, htree, overwrite_eq_overwrite_iff, startTree]
  by_cases hfree : s.commits (branchName name freshName) = []
  · simp [hfree]
  · simp [hfree]

end Tree

/-- GitHub, turning down nothing. -/
def steadyGitHub : GitHub where
  validRef _ := true
  blobSha content := "blob " ++ content
  fault _ := none

/-- GitHub, turning down one request. -/
def flakyGitHub : GitHub :=
  { steadyGitHub with fault := fun n => if n = 4 then some ⟨502, by decide⟩ else none }

/-- A repository with one file. -/
def mainRemote : Remote :=
  { Refs.empty.commit "main" (overwrite (fun _ => none) [("app.py", "x = 1")]) with
    pulls := [], requests := 0 }

/-- The branch of an incident. -/
def crashBranch : String := incidentBranchName .ascii ⟨"i1", "Crash", "", "", []⟩

/-- The first fix of an incident. -/
theorem firstFix_tree :
    (submitFixPr steadyGitHub "main" [("app.py", "x = 2")] (some crashBranch) "" mainRemote).2.tree
        crashBranch =
      overwrite (mainRemote.tree "main") [("app.py", "x = 2")] := by
  have hrun : (submitFixPr steadyGitHub "main" [("app.py", "x = 2")] (some crashBranch) ""
      mainRemote).1 = .ok ⟨crashBranch, 1, "", 1⟩ := by decide +kernel
  exact (fixTree_iff (Prod.ext hrun rfl)).mpr (.inl (by rw [← List.isEmpty_iff]; decide +kernel))

/-- A first fix that ends before its pull request. -/
def firstAttempt : Except PyExc PullRequest × Remote :=
  submitFixPr flakyGitHub "main" [("app.py", "x = 2")] (some crashBranch) "" mainRemote

/-- A second fix of the same incident. -/
def secondAttempt : Except PyExc PullRequest × Remote :=
  submitFixPr flakyGitHub "main" [("lib.py", "y = 1")] (some crashBranch) "" firstAttempt.2

/-- The pull request of the second fix has the file of the first one, too. -/
theorem secondAttempt_keeps_first :
    secondAttempt.1 = .ok ⟨crashBranch, 1, "", 1⟩ ∧
      secondAttempt.2.tree crashBranch "app.py" = some "x = 2" ∧
      overwrite (firstAttempt.2.tree "main") [("lib.py", "y = 1")] "app.py" = some "x = 1" := by
  decide +kernel

end Noema.Autonomy
