import Noema.Core.Think
import Noema.Lib.PyTriple

/-!
# The gates of `think` (`core/engine.py`)

Every way to a result leads through `finalizeSolution`; what is left to show is that the judge's
note in the metadata, which its gate reads, is about the last call of the judge and about the
solution in hand (`NoteRight`). A note could be out of date in several ways: an earlier attempt left
it, the judge raised after it had written, or the solution was replaced.

- `verified_of_passed`, `sandboxGate_triple`: what the sandbox gate lets through, by the settings.
- `judgeGate_triple`: the judge gate, on a note that is right.
- `judgeAttempt_triple`, `reflexionLoop_triple`: one attempt leaves a right note, or refuses; the
  loop is an induction on the attempts that remain.
- `finalizeSolution_triple`: what passes both gates.
- **`released_of_think`**: whatever the LLM, the neurosymbolic engine, the judge, the memory and the
  checkpoints do, a solution that a call returns has passed the gates.
- `approved_of_released`: in particular the LLM that judges gave it one half or more, where the
  settings ask for that.

All of these are triples of `Lib.PyTriple`, with a postcondition for the result and nothing for an
exception.
-/

namespace Noema.Core

open Noema.Lib PyJson
open Noema.Neurosymbolic (EventBody)
open Noema.Lib.PyM (Triple anything)
open Noema.Sandbox (allowedImports)

variable {F : Type} {engine : ThinkEngine} {env : Surroundings F} {task : ThinkTask}
  {solution : Artifact}

/-! ## The sandbox gate -/

/-- The AST and the static pass find nothing in a block. -/
def PassesStatic (engine : ThinkEngine) (block : CodeBlock) : Prop :=
  engine.check.parse block.content = .ok none ∧
    engine.check.analyzeCode block.content (allowedImports engine.stdlib sandboxConfig []) =
      .ok []

/-- Every Python block of a solution passes. -/
def Verified (engine : ThinkEngine) (solution : Artifact) : Prop :=
  ∀ block ∈ solution.codeBlocks, isPython engine.unicode block = true → PassesStatic engine block

theorem passesStatic_of_checkBlock {block : CodeBlock} {record : GateFile}
    (h : checkBlock engine block = .ok record) (hvalid : record.valid = true) :
    PassesStatic engine block := by
  rw [checkBlock] at h
  split at h
  · cases h
    cases hvalid
  · obtain ⟨vr, hvr, h⟩ := bind_eq_ok h
    cases h
    obtain ⟨hast, hstatic⟩ := Bool.and_eq_true_iff.mp hvalid
    obtain ⟨parsed, hparse, hvr⟩ := bind_eq_ok (α := Option String) hvr
    cases parsed with
    | some error =>
      cases hvr
      cases hast
    | none =>
      obtain ⟨issues, hissues, hvr⟩ := bind_eq_ok (α := List Noema.Sandbox.StaticIssue) hvr
      cases hvr
      exact ⟨hparse, (List.isEmpty_iff.mp hstatic) ▸ hissues⟩

/-- The verdict of the gate is about every Python block. -/
theorem verified_of_passed {verdict : GateVerdict}
    (h : verifyThinkSolution engine solution = .ok verdict)
    (henabled : engine.settings.verifyThink = true) :
    verdict.enabled = true ∧ (verdict.passed = true → Verified engine solution) := by
  rw [verifyThinkSolution, henabled, Bool.not_true, if_neg Bool.false_ne_true] at h
  split at h
  next hnone =>
    cases h
    refine ⟨rfl, ?_⟩
    intro _ block hblock hpython
    have hmem := List.mem_filter.mpr ⟨hblock, hpython⟩
    rw [hnone] at hmem
    cases hmem
  next =>
    split at h
    · cases h
      exact ⟨rfl, fun hpassed => by cases hpassed⟩
    · obtain ⟨files, hfiles, h⟩ := bind_eq_ok h
      cases h
      refine ⟨rfl, ?_⟩
      intro hpassed block hblock hpython
      obtain ⟨record, hrecord, hcheck⟩ :=
        exists_mem_of_forall₂ (mapM_eq_ok hfiles) (List.mem_filter.mpr ⟨hblock, hpython⟩)
      exact passesStatic_of_checkBlock hcheck (List.all_eq_true.mp hpassed record hrecord)

/-! ## The end of a call -/

section Finalize

variable {P : ThinkRun F → Prop} {log : List (Artifact × Option (JudgeVerdict F))}
  {passed : Option Bool}

/-- What the gates do not change. -/
def Unchanged (log : List (Artifact × Option (JudgeVerdict F))) (passed : Option Bool)
    (s : ThinkRun F) : Prop :=
  s.judged = log ∧ s.metadata.judge.passed = passed

theorem swallow_triple {α : Type} (x : Except PyExc α) :
    Triple P (swallow x) (fun _ => P) anything := by
  refine .tryCatch (E := fun _ => P) (.bind (Q := fun _ => P) ?_ ?_) ?_
  · exact .lift (fun _ _ _ hs => hs) fun _ _ _ hs => hs
  · exact fun _ => .keeps_pure
  · exact fun _ => .keeps_pure

theorem storeProcedure_triple :
    Triple P (storeProcedure env task solution) (fun _ => P) anything := by
  refine .bind .keeps_get fun s => .ite ?_ ?_
  · exact fun _ => swallow_triple _
  · exact fun _ => .keeps_pure

/-- The sandbox gate lets a verdict through that passed, or is not enforced. -/
theorem sandboxGate_triple {verdict : GateVerdict} :
    Triple (Unchanged log passed) (sandboxGate engine verdict)
      (fun _ s => Unchanged log passed s ∧
        (verdict.enabled = true → engine.settings.verifyThinkEnforce = true →
          verdict.passed = true)) anything := by
  refine .ite ?_ ?_
  · intro _
    refine .bind (Q := fun _ => Unchanged log passed) (.modify fun _ hs => hs) ?_
    intro _
    refine .ite ?_ ?_
    · exact fun _ => .raise fun _ _ => trivial
    · intro hgate
      refine .pure fun s hs => ⟨hs, ?_⟩
      intro _ henforce
      rw [henforce, Bool.and_true] at hgate
      simpa using hgate
  · intro hdisabled
    exact .pure fun s hs => ⟨hs, fun henabled => absurd henabled hdisabled⟩

/-- The judge gate lets nothing through that the judge refused, if it is enforced. -/
theorem judgeGate_triple :
    Triple (Unchanged log passed) (judgeGate engine)
      (fun _ s => Unchanged log passed s ∧
        (engine.settings.judgeEnforce = true → passed ≠ some false)) anything := by
  refine .bind (Q := fun s₀ s => Unchanged log passed s ∧ s₀ = s) (.get fun s hs => ⟨hs, rfl⟩) ?_
  intro s₀
  refine .ite ?_ ?_
  · exact fun _ => .raise fun _ _ => trivial
  · rintro hgate
    refine .pure ?_
    rintro s ⟨hs, rfl⟩
    refine ⟨hs, ?_⟩
    intro henforce hrefused
    exact hgate ⟨hs.2.trans hrefused, henforce⟩

/-- What a solution meets that is finalized. -/
structure Gated (engine : ThinkEngine) (solution : Artifact) (passed : Option Bool) : Prop where
  verified : engine.settings.verifyThink = true → engine.settings.verifyThinkEnforce = true →
    Verified engine solution
  judged : engine.settings.judgeEnforce = true → passed ≠ some false

/-- A solution that is finalized has passed both gates. -/
theorem finalizeSolution_triple :
    Triple (Unchanged log passed) (finalizeSolution engine env task solution)
      (fun _ s => s.judged = log ∧ Gated engine solution passed) anything := by
  refine .bind .lift_eq fun verdict => ?_
  refine .of_pure fun hverdict => .bind sandboxGate_triple fun _ => ?_
  refine .of_pure fun hsandbox => .bind judgeGate_triple fun _ => ?_
  refine .of_pure fun hjudge => ?_
  have hgated : Gated engine solution passed := by
    refine ⟨?_, hjudge⟩
    intro hverify henforce
    obtain ⟨henabled, hverified⟩ := verified_of_passed hverdict hverify
    exact hverified (hsandbox henabled henforce)
  refine .bind (swallow_triple _) fun _ => .bind (swallow_triple _) fun _ => ?_
  refine .bind storeProcedure_triple fun _ => .bind .keeps_lift fun _ => ?_
  exact .pure fun s hs => ⟨hs.1, hgated⟩

end Finalize

/-! ## The judge -/

section Judge

variable {P : ThinkRun F → Prop} {contexts : Contexts} {tenantId : String} {n : Nat}

/-- The note of the judge is a refusal. -/
def Refused (s : ThinkRun F) : Prop := s.metadata.judge.passed = some false

/-- The judge gave the verdict to the solution. -/
def VerdictOn (env : Surroundings F) (task : ThinkTask) (solution : Artifact)
    (verdict : JudgeVerdict F) : Prop :=
  ∃ n notes notes', env.judge n solution (task.title ++ ": " ++ task.description) task.tags notes =
    (.ok verdict, notes')

/-- The last call of the judge was on this solution, and gave it the verdict. -/
structure JudgedLast (env : Surroundings F) (task : ThinkTask) (solution : Artifact)
    (verdict : JudgeVerdict F) (s : ThinkRun F) : Prop where
  last : s.judged.head? = some (solution, some verdict)
  given : VerdictOn env task solution verdict

/-- The note of the judge is a refusal, or its last call was on this solution and passed it. -/
def NoteRight (env : Surroundings F) (task : ThinkTask) (solution : Artifact) (s : ThinkRun F) :
    Prop :=
  Refused s ∨ ∃ verdict, JudgedLast env task solution verdict s ∧ verdict.passed = true

theorem evaluate_triple :
    Triple (fun _ => True) (evaluate env task n solution)
      (fun verdict => JudgedLast env task solution verdict) anything := by
  intro s _
  rw [evaluate]
  rcases hrun : env.judge n solution _ task.tags s.metadata.judge with ⟨_ | verdict, notes⟩
  · trivial
  · exact ⟨rfl, n, _, notes, hrun⟩

theorem saveCheckpoint_triple :
    Triple P (saveCheckpoint env task tenantId n) (fun _ => P) anything := by
  refine .ite ?_ ?_
  · exact fun _ => swallow_triple _
  · exact fun _ => .keeps_pure

/-- A verdict that is reflected on is a refusal. -/
theorem reflect_triple {verdict : JudgeVerdict F} :
    Triple Refused (reflect env task tenantId n verdict) (fun _ => Refused) anything := by
  refine .bind .keeps_lift fun errorSummary => ?_
  exact .bind saveCheckpoint_triple fun _ => .keeps_pure

theorem judgeBlock_triple :
    Triple (fun _ => True) (judgeBlock env task tenantId n solution)
      (fun _ => NoteRight env task solution) anything := by
  refine .any_bind fun _ => ?_
  refine .bind evaluate_triple fun verdict => ?_
  refine .bind .keeps_lift fun _ => ?_
  refine .bind (Q := fun _ s => JudgedLast env task solution verdict s ∧
    s.metadata.judge.passed = some verdict.passed) ?_ fun _ => ?_
  · exact .modify fun s hs => ⟨⟨hs.last, hs.given⟩, rfl⟩
  refine .ite ?_ ?_
  · intro hpassed
    exact .pure fun s hs => .inr ⟨verdict, hs.1, hpassed⟩
  · intro hrefused
    refine reflect_triple.imp ?_ (fun _ _ hs => .inl hs) fun _ _ _ => trivial
    intro s hs
    rw [Refused, hs.2, Bool.eq_false_iff.mpr hrefused]

/-- Whatever happens in the block, the note is right. -/
theorem judgeAttempt_triple :
    Triple (fun _ => True) (judgeAttempt env task tenantId n solution)
      (fun _ => NoteRight env task solution) anything := by
  refine .tryCatch judgeBlock_triple fun e => ?_
  refine .bind (Q := fun _ => NoteRight env task solution) ?_ fun _ => .keeps_pure
  exact .modify fun s _ => .inl rfl

theorem solution_of (state : Option (ReflexionState F)) (outcome : JudgeOutcome F) :
    (LoopEnd.of solution n state outcome).solution = solution := by
  cases outcome <;> rfl

variable [PyInterp F]

/-- The loop ends with a solution whose note is right. -/
theorem reflexionLoop_triple (more : Nat) (state : Option (ReflexionState F)) :
    Triple (fun _ => True) (reflexionLoop engine env task tenantId contexts more n state)
      (fun ended => NoteRight env task ended.solution) anything := by
  induction more generalizing n state with
  | zero =>
    refine .any_bind fun solution => ?_
    refine .bind judgeAttempt_triple fun outcome => .pure fun s hs => ?_
    rwa [solution_of]
  | succ more ih =>
    refine .any_bind fun solution => ?_
    refine .bind judgeAttempt_triple fun outcome => ?_
    cases outcome with
    | passed => exact .pure fun s hs => hs
    | retry state =>
      exact (ih (some state)).imp (fun _ _ => trivial) (fun _ _ h => h) fun _ _ h => h
    | crashed => exact .pure fun s hs => hs

omit [PyInterp F] in
theorem proposeAxiom_triple {ended : LoopEnd F} :
    Triple P (proposeAxiom engine env ended) (fun _ => P) anything := by
  refine .bind .keeps_get fun s => .ite ?_ ?_
  · exact fun _ => .keeps_lift
  · exact fun _ => .keeps_pure

theorem judgedSolution_triple :
    Triple (fun _ => True) (judgedSolution engine env task tenantId contexts)
      (fun solution => NoteRight env task solution) anything := by
  refine .bind (reflexionLoop_triple 2 none) fun ended => ?_
  exact .bind proposeAxiom_triple fun _ => .pure fun s hnote => hnote

end Judge

/-! ## A call -/

section Call

variable [PyInterp F] {P : ThinkRun F → Prop} {tenantId : String}

/-- What a solution meets that a call returns: under enforcement, its Python blocks pass, and the
last call of the judge was on it and passed it, unless the neurosymbolic engine or the fallback LLM
made it. -/
structure Released (engine : ThinkEngine) (env : Surroundings F) (task : ThinkTask)
    (solution : Artifact) (s : ThinkRun F) : Prop where
  verified : engine.settings.verifyThink = true → engine.settings.verifyThinkEnforce = true →
    Verified engine solution
  judged : engine.settings.judgeEnforce = true → engine.llm.name ≠ "fallback" →
    solution.origin ≠ .neurosymbolic →
      ∃ verdict, JudgedLast env task solution verdict s ∧ verdict.passed = true

theorem reasonedSolution_triple {contexts : Contexts} :
    Triple (fun _ => True) (reasonedSolution engine env task tenantId contexts)
      (fun solution s => engine.llm.name ≠ "fallback" → NoteRight env task solution s)
      anything := by
  refine .ite ?_ ?_
  · exact fun _ => judgedSolution_triple.post fun _ _ hnote _ => hnote
  · exact fun hname => Triple.any.post fun _ _ _ h => absurd h hname

omit [PyInterp F] in
/-- The end of a call, from the state before it. -/
theorem finish_triple {α : Type} {a : α} {Q : α → ThinkRun F → Prop}
    (h : ∀ s s', P s → s'.judged = s.judged →
      Gated engine solution s.metadata.judge.passed → Q a s') :
    Triple P (do finalizeSolution engine env task solution; pure a) Q anything := by
  intro s hs
  have hend : Triple (Unchanged s.judged s.metadata.judge.passed)
      (finalizeSolution engine env task solution) _ anything := finalizeSolution_triple
  refine (hend.bind fun _ => .pure ?_) s ⟨rfl, rfl⟩
  rintro s' ⟨hlog, hgated⟩
  exact h s s' hs hlog hgated

theorem thinkByChain_triple {resume : Option (List (String × String))} :
    Triple (fun _ => True) (thinkByChain engine env task tenantId resume)
      (Released engine env task) anything := by
  refine .any_bind fun contexts => ?_
  refine .bind reasonedSolution_triple fun solution => finish_triple ?_
  intro s s' hnote hlog hgated
  refine ⟨hgated.verified, ?_⟩
  intro henforce hname _
  obtain ⟨verdict, hlast, hpassed⟩ := (hnote hname).resolve_left (hgated.judged henforce)
  exact ⟨verdict, ⟨hlog ▸ hlast.last, hlast.given⟩, hpassed⟩

theorem origin_of_convert {nsSolution : PyVal F}
    (h : convertNeurosymbolicToSolution nsSolution task = .ok solution) :
    solution.origin = .neurosymbolic := by
  obtain ⟨description, -, h⟩ := bind_eq_ok h
  obtain ⟨summaryVal, -, h⟩ := bind_eq_ok h
  obtain ⟨summary, -, h⟩ := bind_eq_ok h
  obtain ⟨archVal, -, h⟩ := bind_eq_ok h
  obtain ⟨architecture, -, h⟩ := bind_eq_ok h
  obtain ⟨stackVal, -, h⟩ := bind_eq_ok h
  obtain ⟨stack, -, h⟩ := bind_eq_ok h
  obtain ⟨files, -, h⟩ := bind_eq_ok h
  obtain ⟨blocksVal, -, h⟩ := bind_eq_ok h
  obtain ⟨codeBlocks, -, h⟩ := bind_eq_ok h
  cases h
  rfl

/-- What the neurosymbolic path returns. -/
def ReleasedIfSome (engine : ThinkEngine) (env : Surroundings F) (task : ThinkTask)
    (result : Option Artifact) (s : ThinkRun F) : Prop :=
  ∀ solution, result = some solution → Released engine env task solution s

theorem finishNeurosymbolic_triple {nsSolution : PyVal F} {causalAnalysis : List (PyVal F)} :
    Triple (fun _ => True) (finishNeurosymbolic engine env task nsSolution causalAnalysis)
      (ReleasedIfSome engine env task) anything := by
  refine .bind .lift_eq fun solution => .of_pure fun hconvert => ?_
  refine .any_bind fun _ => finish_triple ?_
  intro s s' _ _ hgated solution' h
  cases h
  exact ⟨hgated.verified, fun _ _ hother => absurd (origin_of_convert hconvert) hother⟩

theorem neurosymbolicSolution_triple {think : PyVal F → List (EventBody F) × Option PyExc} :
    Triple (fun _ => True) (neurosymbolicSolution engine env task think)
      (ReleasedIfSome engine env task) anything := by
  refine .any_bind fun completed => ?_
  split
  · exact .pure fun s _ solution h => by cases h
  · exact .pure fun s _ solution h => by cases h
  · exact finishNeurosymbolic_triple

/-- A solution of the neurosymbolic engine has passed the sandbox gate. -/
theorem neurosymbolicPath_triple :
    Triple (fun _ => True) (neurosymbolicPath engine env task) (ReleasedIfSome engine env task)
      anything := by
  rw [neurosymbolicPath]
  split
  · exact .pure fun s _ solution h => by cases h
  · refine .tryCatch (E := anything) neurosymbolicSolution_triple fun e => ?_
    refine .ite (fun _ => .raise fun _ _ => trivial) fun _ => .ite ?_ ?_
    · exact fun _ => .pure fun s _ solution h => by cases h
    · exact fun _ => .raise fun _ _ => trivial

/-- **The gates of `think`.** Whatever the LLM, the neurosymbolic engine, the judge, the memory and
the checkpoints do, a solution that a call returns has passed the gates. -/
theorem released_of_think {callerTenant : String} {timedOut : Option String} {s : ThinkRun F}
    (h : think engine env task callerTenant timedOut {} = (.ok solution, s)) :
    Released engine env task solution s := by
  cases timedOut with
  | some timeout => cases h
  | none =>
    refine Triple.run (P := fun _ => True) (E := anything) ?_ trivial h
    refine .any_bind fun _ => ?_
    refine .any_bind fun _ => ?_
    refine .any_bind fun resume => ?_
    refine .bind neurosymbolicPath_triple fun result => ?_
    cases result with
    | some solution => exact .pure fun s hs => hs solution rfl
    | none => exact thinkByChain_triple.imp (fun _ _ => trivial) (fun _ _ h => h) fun _ _ h => h

/-- With the judge of the engine: the LLM gave the solution at least one half. -/
theorem approved_of_released {complete : Nat → List LLMMessage → Except PyExc String}
    (hjudge : ∀ n solution taskDescription taskTags, env.judge n solution taskDescription taskTags =
      evaluateSolution (complete n) solution.toSolution taskDescription taskTags [])
    {s : ThinkRun F} (h : Released engine env task solution s)
    (henforce : engine.settings.judgeEnforce = true) (hname : engine.llm.name ≠ "fallback")
    (horigin : solution.origin ≠ .neurosymbolic) :
    ∃ (n : Nat) (content : String) (scores : JudgeScore F),
      complete n (judgeMessages solution.toSolution (task.title ++ ": " ++ task.description)
        task.tags []) = .ok content ∧ Approves content scores := by
  obtain ⟨verdict, ⟨-, n, notes, notes', hverdict⟩, hpassed⟩ := h.judged henforce hname horigin
  rw [hjudge] at hverdict
  obtain ⟨content, hcontent, happroves⟩ := evaluateSolution_triple.run trivial hverdict hpassed
  exact ⟨n, content, verdict.scores, hcontent, happroves⟩

end Call

/-! ## A call that returns -/

section Greeting

/-- An engine that enforces both gates; its static pass finds nothing. -/
def strictEngine : ThinkEngine where
  llm := ⟨"openai", "gpt"⟩
  settings := { verifyThinkEnforce := true, judgeEnforce := true }
  tenantId := "default"
  check := ⟨fun _ => .ok none, fun _ _ => .ok []⟩
  stdlib := []
  unicode := .ascii

/-- The LLM that judges: its first call fails, and it likes what it is shown later. -/
def greetingJudge (n : Nat) (_ : List LLMMessage) : Except PyExc String :=
  if n = 1 then .error (.osError "timeout") else .ok "\x7b\"scores\": \x7b\"overall\": 0.75\x7d\x7d"

/-- Reasoning that gives a program, which the judge likes at the second attempt. -/
def greetingSurroundings : Surroundings FloatText where
  initializeEngine := .ok ()
  loadCheckpoint _ _ := .ok none
  neurosymbolic := none
  searchEpisodes _ := .error (.osError "disk")
  knowledgeContext := .ok ""
  graphContext := .ok ""
  ontologyContext := .ok ""
  reason _ := .ok (.dict [("code", .dict [("files", .list [.dict
    [("path", .str "main.py"), ("content", .str "print('hello')")]])])])
  chain _ := []
  startSpan _ := .ok ()
  judge n solution taskDescription taskTags :=
    evaluateSolution (greetingJudge n) solution.toSolution taskDescription taskTags []
  endSpan _ := .ok ()
  chainAtSave _ := []
  saveCheckpoint _ := .error (.osError "disk")
  proposeAxiom _ _ _ := .ok ()
  kernels := .error (.runtimeError "no kernels")
  recordEpisode _ _ := .error (.osError "disk")
  deleteCheckpoint _ := .ok ()
  storeProcedure _ _ _ _ := .ok ()
  memoryStats _ := .ok 0

/-- The task of the call. -/
def greetingTask : ThinkTask := { id := "t", title := "Greet" }

/-- The second attempt is returned, and the LLM gave it one half or more. -/
theorem released_of_think_greeting : ∃ solution s,
    solution.origin = .attempt 2 ∧ solution.codeBlocks.length = 1 ∧
      Released strictEngine greetingSurroundings greetingTask solution s ∧
      ∃ (n : Nat) (content : String) (scores : JudgeScore FloatText),
        greetingJudge n (judgeMessages solution.toSolution
          (greetingTask.title ++ ": " ++ greetingTask.description) greetingTask.tags []) =
            .ok content ∧ Approves content scores := by
  have hrun : ((think strictEngine greetingSurroundings greetingTask "default"
      none {}).1.toOption.map fun solution => (solution.origin, solution.codeBlocks.length)) =
      some (.attempt 2, 1) := by
    decide +kernel
  rcases h : think strictEngine greetingSurroundings greetingTask "default" none {} with
    ⟨_ | solution, s⟩
  · rw [h] at hrun
    cases hrun
  · rw [h] at hrun
    obtain ⟨horigin, hlength⟩ := Prod.mk.inj (Option.some.inj hrun)
    have hreleased := released_of_think h
    have hattempt : solution.origin ≠ .neurosymbolic := by
      rw [horigin]
      exact fun heq => by cases heq
    have hjudge : ∀ n (solution : Artifact) taskDescription taskTags,
        greetingSurroundings.judge n solution taskDescription taskTags =
          evaluateSolution (greetingJudge n) solution.toSolution taskDescription taskTags [] :=
      fun _ _ _ _ => rfl
    exact ⟨solution, s, horigin, hlength, hreleased,
      approved_of_released hjudge hreleased rfl (by decide) hattempt⟩

end Greeting

end Noema.Core
