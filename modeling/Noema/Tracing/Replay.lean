import Noema.Neurosymbolic.ThinkRuns
import Noema.Neurosymbolic.SymbolicSound

/-!
# Replay of reasoning traces

A trace says what the last attempt of a run was and how it was judged. `reproduced` is the verdict
that the static pass and the symbolic engine give on the task and the hypothesis of a trace;
`Reproduces` says that the trace records that verdict.

- `Undoctored`: the fields that the replay does not compare are right. **`matches_reproduces_iff`**:
  a match of `reverify_reasoning_trace` means that the trace reproduces, if and only if they are.
  There is one case for each of the exits of the replay.
- `recorded_think`: the trace of a completed or failed run has recorded the verdict of its last
  verification (`RecordedTrace`). Along a run this is an invariant of the local variables of
  `think`, proved for the loop by induction on the attempts (`refineLoop_traces`).
- `matches_of_verified`: such a trace matches on an engine that is like the one of the run.
- **`replay_faithful_iff`** puts the two together.
- `doctoredTrace_matches`: a trace with a violation that nobody found.
-/

namespace Noema.Tracing

open Noema.Lib PyJson Noema.Neurosymbolic

/-- The checks that need no LLM: the static pass, and the solver with its import. -/
structure Checks (F : Type) [PyInterp F] where
  cc : CodeCheck
  u : Unicode
  z3 : Z3 F
  imp : Z3Import

variable {F : Type} [PyInterp F]

/-! ## What a match means -/

/-- The static verdict, the validity and the violations of a final hypothesis. -/
structure FinalVerdict (F : Type) where
  static : Option (PyVal F)
  valid : Option Bool
  violations : List String

/-- `r == s`, for verdicts that may be missing. -/
def sameStatic : Option (PyVal F) → Option (PyVal F) → Bool
  | none, recorded => recorded.isNone
  | some replayed, recorded => sameDict replayed recorded

section Match

variable (checks : Checks F) (timeouts : Timeouts) (engine : Engine) (trace : ReasoningTrace F)

/-- The verdict on the task and the final hypothesis of a trace; there is none without a
hypothesis. -/
def reproduced : Except PyExc (FinalVerdict F) :=
  match trace.finalHypothesis with
  | none => .ok ⟨none, none, []⟩
  | some hypothesis => do
    let static ← analyzeSolutionStatic checks.cc (.dict hypothesis.items : PyVal F)
    let (valid, violations) ←
      (replaySymbolic checks.u checks.z3 checks.imp timeouts trace.task hypothesis engine).1
    return ⟨some static.asDict, some valid, violations⟩

/-- Every final verdict field of the trace is the one reproduced. -/
def Reproduces : Prop :=
  ∃ v, reproduced checks timeouts engine trace = .ok v ∧
    sameStatic v.static trace.finalStaticVerdict = true ∧
    v.valid = trace.finalSymbolicValid ∧ v.violations = trace.finalViolations

/-- The replay returns with `matches = True`. -/
def Matches : Prop :=
  ∃ v, (reverifyReasoningTrace checks.cc checks.u checks.z3 checks.imp timeouts trace engine).1 =
    .ok v ∧ v.isMatch = true

/-- The fields that the replay does not compare are right: without a hypothesis there is no
verdict, and with one the validity is recorded, and so are the violations if the validity is
the right one. -/
def Undoctored : Prop :=
  match trace.finalHypothesis with
  | none => trace.finalStaticVerdict = none ∧ trace.finalSymbolicValid = none ∧
      trace.finalViolations = []
  | some hypothesis => ∀ static : StaticAnalysisVerdict,
      analyzeSolutionStatic checks.cc (.dict hypothesis.items : PyVal F) = .ok static →
      sameDict static.asDict trace.finalStaticVerdict = true →
      trace.finalSymbolicValid ≠ none ∧ ∀ valid violations,
        (replaySymbolic checks.u checks.z3 checks.imp timeouts trace.task hypothesis engine).1 =
          .ok (valid, violations) →
        trace.finalSymbolicValid = some valid → trace.finalViolations = violations

end Match

variable {checks : Checks F} {timeouts : Timeouts} {engine : Engine} {trace : ReasoningTrace F}

/-- Without a hypothesis there is nothing to compare. -/
theorem matches_none (h : trace.finalHypothesis = none) :
    Matches checks timeouts engine trace := by
  simp [Matches, reverifyReasoningTrace, PyM.bind_apply, h]

/-- With a hypothesis and a recorded validity, the static verdict and the validity are
compared. -/
theorem matches_some_iff {hypothesis : Solution F} {recorded : Bool}
    (hhyp : trace.finalHypothesis = some hypothesis)
    (hvalid : trace.finalSymbolicValid = some recorded) :
    Matches checks timeouts engine trace ↔ ∃ static verdict,
      analyzeSolutionStatic checks.cc (.dict hypothesis.items : PyVal F) = .ok static ∧
      sameDict static.asDict trace.finalStaticVerdict = true ∧
      (replaySymbolic checks.u checks.z3 checks.imp timeouts trace.task hypothesis engine).1 =
        .ok verdict ∧ verdict.1 = recorded := by
  rcases hstatic : analyzeSolutionStatic checks.cc (.dict hypothesis.items : PyVal F) with e | static
  · simp [Matches, reverifyReasoningTrace, PyM.bind_apply, hhyp, hvalid, hstatic]
  · rcases hrun : replaySymbolic checks.u checks.z3 checks.imp timeouts trace.task hypothesis engine
      with ⟨e | verdict, engine'⟩
    · simp [Matches, reverifyReasoningTrace, PyM.bind_apply, hhyp, hvalid, hstatic, hrun]
    · simp [Matches, reverifyReasoningTrace, PyM.bind_apply, hhyp, hvalid, hstatic, hrun]

/-- Without a recorded validity only the static verdict is compared. -/
theorem matches_invalid_iff {hypothesis : Solution F}
    (hhyp : trace.finalHypothesis = some hypothesis) (hvalid : trace.finalSymbolicValid = none) :
    Matches checks timeouts engine trace ↔ ∃ static,
      analyzeSolutionStatic checks.cc (.dict hypothesis.items : PyVal F) = .ok static ∧
      sameDict static.asDict trace.finalStaticVerdict = true := by
  rcases hstatic : analyzeSolutionStatic checks.cc (.dict hypothesis.items : PyVal F) with e | static
  · simp [Matches, reverifyReasoningTrace, PyM.bind_apply, hhyp, hvalid, hstatic]
  · simp [Matches, reverifyReasoningTrace, PyM.bind_apply, hhyp, hvalid, hstatic]

/-- A match means that the trace reproduces if and only if the fields that are not compared are
right. -/
theorem matches_reproduces_iff :
    (Matches checks timeouts engine trace → Reproduces checks timeouts engine trace) ↔
      Undoctored checks timeouts engine trace := by
  rw [Undoctored]
  rcases hhyp : trace.finalHypothesis with _ | hypothesis
  · have hreproduced : reproduced checks timeouts engine trace = .ok ⟨none, none, []⟩ := by
      rw [reproduced, hhyp]
    constructor
    · intro h
      obtain ⟨v, hv, hstatic, hvalid, hviolations⟩ := h (matches_none hhyp)
      rw [hreproduced] at hv
      cases hv
      exact ⟨Option.isNone_iff_eq_none.mp hstatic, hvalid.symm, hviolations.symm⟩
    · rintro ⟨hstatic, hvalid, hviolations⟩ -
      exact ⟨_, hreproduced, by rw [hstatic]; rfl, hvalid.symm, hviolations.symm⟩
  · dsimp only
    rcases hvalid : trace.finalSymbolicValid with _ | recorded
    · rw [matches_invalid_iff hhyp hvalid]
      constructor
      · intro h static hstatic hsame
        obtain ⟨v, hv, -, hvvalid, -⟩ := h ⟨static, hstatic, hsame⟩
        -- the reproduced validity is always there
        rw [reproduced, hhyp] at hv
        simp only [hstatic, ok_bind] at hv
        rcases hrun : (replaySymbolic checks.u checks.z3 checks.imp timeouts trace.task hypothesis
          engine).1 with e | verdict
        · rw [hrun] at hv
          cases hv
        · rw [hrun] at hv
          cases hv
          rw [hvalid] at hvvalid
          cases hvvalid
      · rintro h ⟨static, hstatic, hsame⟩
        exact absurd rfl (h static hstatic hsame).1
    · rw [matches_some_iff hhyp hvalid]
      constructor
      · intro h static hstatic hsame
        refine ⟨nofun, fun valid violations hrun hrecorded => ?_⟩
        cases hrecorded
        obtain ⟨v, hv, -, -, hviolations⟩ :=
          h ⟨static, (recorded, violations), hstatic, hsame, hrun, rfl⟩
        rw [reproduced, hhyp] at hv
        simp only [hstatic, hrun, ok_bind] at hv
        cases hv
        exact hviolations.symm
      · rintro h ⟨static, ⟨valid, violations⟩, hstatic, hsame, hrun, rfl⟩
        refine ⟨⟨some static.asDict, some valid, violations⟩, ?_, hsame, hvalid.symm, ?_⟩
        · rw [reproduced, hhyp]
          simp only [hstatic, hrun, ok_bind]
          rfl
        · exact ((h static hstatic hsame).2 valid violations hrun rfl).symm

/-! ## What a run records -/

section Run

omit [PyInterp F]

variable {cfg : Config} {env : Collaborators F} {task : TaskInput F}

/-- The verdict was given on a hypothesis with `P`, in some attempt of the run. -/
structure Verified (P : PyVal F → Prop) (env : Collaborators F) (graph : TaskGraph F)
    (hypothesis : Option (Solution F)) (v : FinalVerdict F) : Prop where
  given : ∃ attempt h d static verdict, P h ∧ env.toDict h = .ok d ∧ env.static h = .ok static ∧
    env.verify attempt h graph = .ok verdict ∧ hypothesis = some d ∧
    v = ⟨some static.asDict, some verdict.1, verdict.2⟩

/-- The verdict that a run has recorded so far. -/
def lastVerdict (s : ThinkState F) : FinalVerdict F :=
  ⟨s.finalStaticVerdict, s.finalSymbolicValid, s.violations⟩

/-- What was recorded did not change, and nothing was committed. -/
structure SameRecord (s s' : ThinkState F) : Prop where
  hypothesis : s'.finalHypothesis = s.finalHypothesis
  verdict : lastVerdict s' = lastVerdict s
  traces : ∀ t, .commit t ∈ s'.log → .commit t ∈ s.log

instance : Std.Refl (SameRecord (F := F)) where
  refl _ := ⟨rfl, rfl, fun _ => id⟩

instance : IsTrans (ThinkState F) SameRecord where
  trans _ _ _ h h' := ⟨h'.hypothesis.trans h.hypothesis, h'.verdict.trans h.verdict,
    fun t ht => h.traces t (h'.traces t ht)⟩

theorem sameRecord_emit (body : EventBody F) : (emit env body).Keeps SameRecord :=
  fun _ => ⟨rfl, rfl, fun t ht => by simpa [emit] using ht⟩

theorem sameRecord_count (f : Metrics → Metrics) :
    (count f : PyM (ThinkState F) Unit).Keeps SameRecord :=
  fun _ => ⟨rfl, rfl, fun _ => id⟩

theorem sameRecord_recordOutcome (hypothesis : PyVal F) (isSuccessful : Bool)
    (violations : List String) :
    (recordOutcome cfg hypothesis isSuccessful violations).Keeps SameRecord :=
  .ite (.bind (.lift _) fun _ => .modify fun _ => ⟨rfl, rfl, fun _ => id⟩) (.pure _)

theorem sameRecord_causalStage : (causalStage cfg env task).Keeps SameRecord :=
  .ite (.bind (sameRecord_emit _) fun _ => .bind (.lift _) fun _ =>
    .bind (sameRecord_emit _) fun _ => .pure _) (.pure _)

theorem sameRecord_refineRound (attempt : Nat) (hypothesis : PyVal F) :
    (refineRound env attempt hypothesis).Keeps SameRecord :=
  .bind (sameRecord_emit _) fun _ => .bind .get fun _ => .bind (.lift _) fun _ =>
    .bind (sameRecord_count _) fun _ => .bind (sameRecord_emit _) fun _ => .pure _

/-- A verified attempt is recorded. -/
theorem verified_verifyRound {P : PyVal F → Prop} {graph : TaskGraph F} {attempt : Nat}
    {hypothesis : PyVal F} {s s' : ThinkState F} {isValid : Bool} (hP : P hypothesis)
    (hrun : verifyRound env graph attempt hypothesis s = (.ok isValid, s')) :
    Verified P env graph s'.finalHypothesis (lastVerdict s') := by
  unfold verifyRound at hrun
  rcases hstatic : env.static hypothesis with e | static
  · simp [PyM.bind_apply, hstatic] at hrun
  rcases hverify : env.verify attempt hypothesis graph with e | verdict
  · simp [PyM.bind_apply, emit, hstatic, hverify] at hrun
  rcases hdict : env.toDict hypothesis with e | d
  · simp [PyM.bind_apply, emit, hstatic, hverify, hdict] at hrun
  simp only [PyM.bind_apply, emit, hstatic, hverify, hdict, PyM.lift_apply, PyM.modify_apply,
    PyM.pure_apply, Prod.mk.injEq] at hrun
  obtain ⟨-, rfl⟩ := hrun
  exact ⟨attempt, hypothesis, d, static, verdict, hP, hdict, hstatic, hverify, rfl, rfl⟩

/-- The trace is one of an error, or records a verdict that was given in the run. -/
def RecordedTrace (P : PyVal F → Prop) (env : Collaborators F) (task : TaskInput F)
    (graph : TaskGraph F) (t : ReasoningTrace F) : Prop :=
  t.outcome = "error" ∨ t.task = task.toTask ∧
    Verified P env graph t.finalHypothesis
      ⟨t.finalStaticVerdict, t.finalSymbolicValid, t.finalViolations⟩

/-- The traces committed between the two states have `Q`. -/
def NewTraces (Q : ReasoningTrace F → Prop) (s s' : ThinkState F) : Prop :=
  ∀ t, .commit t ∈ s'.log → .commit t ∈ s.log ∨ Q t

instance (Q : ReasoningTrace F → Prop) : IsTrans (ThinkState F) (NewTraces Q) where
  trans _ _ _ h h' t ht := (h' t ht).elim (h t) .inr

theorem NewTraces.of_quiet {Q : ReasoningTrace F → Prop} {s s' : ThinkState F}
    (h : Quiet s s') : NewTraces Q s s' := by
  obtain ⟨acts, hlog, hquiet⟩ := h.log
  intro t ht
  rw [hlog] at ht
  rcases List.mem_append.mp ht with ht | ht
  · exact .inl ht
  · exact absurd (hquiet _ ht) Bool.false_ne_true

theorem NewTraces.of_sameRecord {Q : ReasoningTrace F → Prop} {s s' : ThinkState F}
    (h : SameRecord s s') : NewTraces Q s s' :=
  fun t ht => .inl (h.traces t ht)

/-- A step that records nothing, and then the rest. -/
theorem NewTraces.bind {Q : ReasoningTrace F → Prop} {α β : Type} {x : PyM (ThinkState F) α}
    {f : α → PyM (ThinkState F) β} {s : ThinkState F} (hx : x.Keeps SameRecord)
    (hf : ∀ a s', SameRecord s s' → NewTraces Q s' (f a s').2) :
    NewTraces Q s ((x >>= f) s).2 := by
  have hfirst := hx s
  rw [PyM.bind_apply]
  rcases hrun : x s with ⟨_ | a, s'⟩ <;> rw [hrun] at hfirst
  · exact .of_sameRecord hfirst
  · exact IsTrans.trans _ _ _ (NewTraces.of_sameRecord hfirst) (hf a s' hfirst)

/-- The trace that is written has what the run has recorded. -/
theorem newTraces_commitTrace {Q : ReasoningTrace F → Prop} {name : String} {attempts : Nat}
    {error : String} {s : ThinkState F}
    (hQ : ∀ t : ReasoningTrace F, t.outcome = name → t.task = task.toTask →
      t.finalHypothesis = s.finalHypothesis →
      ⟨t.finalStaticVerdict, t.finalSymbolicValid, t.finalViolations⟩ = lastVerdict s → Q t) :
    NewTraces Q s (commitTrace cfg env task name attempts error s).2 := by
  rw [commitTrace]
  split
  · exact fun t ht => .inl ht
  · rw [PyM.bind_apply, PyM.lift_apply]
    rcases env.commit name with e | _
    · exact fun t ht => .inl ht
    · intro t ht
      rcases List.mem_append.mp ht with ht | ht
      · exact .inl ht
      · cases List.mem_singleton.mp ht
        exact .inr (hQ _ rfl rfl rfl rfl)

variable {P : PyVal F → Prop} {graph : TaskGraph F}

/-- The trace of a run that has recorded a verdict. -/
theorem newTraces_commit_verified {name : String} {attempts : Nat} {s s' : ThinkState F}
    (h : Verified P env graph s.finalHypothesis (lastVerdict s)) (hsame : SameRecord s s') :
    NewTraces (RecordedTrace P env task graph) s'
      (commitTrace cfg env task name attempts "" s').2 := by
  refine newTraces_commitTrace fun t _ htask hhyp hverdict => .inr ⟨htask, ?_⟩
  rw [hverdict, hhyp, hsame.hypothesis, hsame.verdict]
  exact h

theorem newTraces_complete {attempt : Nat} {hypothesis : PyVal F} {s : ThinkState F}
    (h : Verified P env graph s.finalHypothesis (lastVerdict s)) :
    NewTraces (RecordedTrace P env task graph) s
      (complete cfg env task attempt hypothesis s).2 := by
  refine .bind (sameRecord_count _) ?_
  intro _ s₁ h₁
  refine .bind (sameRecord_recordOutcome _ _ _) ?_
  intro _ s₂ h₂
  refine .bind sameRecord_causalStage ?_
  intro _ s₃ h₃
  refine .bind .get ?_
  intro _ s₄ h₄
  refine .bind (sameRecord_emit _) ?_
  intro _ s₅ h₅
  exact newTraces_commit_verified h (IsTrans.trans _ _ _ h₁ (IsTrans.trans _ _ _ h₂
    (IsTrans.trans _ _ _ h₃ (IsTrans.trans _ _ _ h₄ h₅))))

theorem newTraces_fail {hypothesis : PyVal F} {s : ThinkState F}
    (h : Verified P env graph s.finalHypothesis (lastVerdict s)) :
    NewTraces (RecordedTrace P env task graph) s (fail cfg env task hypothesis s).2 := by
  refine .bind (sameRecord_count _) ?_
  intro _ s₁ h₁
  refine .bind .get ?_
  intro _ s₂ h₂
  refine .bind (sameRecord_recordOutcome _ _ _) ?_
  intro _ s₃ h₃
  refine .bind (sameRecord_emit _) ?_
  intro _ s₄ h₄
  exact newTraces_commit_verified h (IsTrans.trans _ _ _ h₁ (IsTrans.trans _ _ _ h₂
    (IsTrans.trans _ _ _ h₃ h₄)))

/-- The loop: every attempt is recorded anew, so the state has a verdict as soon as one attempt
was made. -/
theorem refineLoop_traces
    (hP : ∀ n h violations h', env.refine n h violations = .ok h' → P h') (remaining attempt : Nat)
    (hypothesis : PyVal F) (s : ThinkState F) (hhyp : P hypothesis)
    (hlast : remaining = 0 → Verified P env graph s.finalHypothesis (lastVerdict s)) :
    NewTraces (RecordedTrace P env task graph) s
        (refineLoop cfg env task graph remaining attempt hypothesis s).2 ∧
      ∀ h s', refineLoop cfg env task graph remaining attempt hypothesis s = (.ok (some h), s') →
        Verified P env graph s'.finalHypothesis (lastVerdict s') := by
  induction remaining generalizing attempt hypothesis s with
  | zero =>
    refine ⟨fun t ht => .inl ht, fun h s' hrun => ?_⟩
    cases hrun
    exact hlast rfl
  | succ remaining ih =>
    have hquiet : Quiet s (verifyRound env graph attempt hypothesis s).2 :=
      keeps_quiet_verifyRound graph attempt hypothesis s
    rw [refineLoop, PyM.bind_apply]
    rcases hverify : verifyRound env graph attempt hypothesis s with ⟨e | isValid, s₁⟩
    · rw [hverify] at hquiet
      exact ⟨.of_quiet hquiet, fun _ _ hrun => by cases hrun⟩
    rw [hverify] at hquiet
    have hverified : Verified P env graph s₁.finalHypothesis (lastVerdict s₁) :=
      verified_verifyRound hhyp hverify
    have hfirst : NewTraces (RecordedTrace P env task graph) s s₁ := .of_quiet hquiet
    cases isValid with
    -- the hypothesis was verified in this round, and `complete` commits it
    | true =>
      have hcomplete : NewTraces (RecordedTrace P env task graph) s₁
          (complete cfg env task attempt hypothesis s₁).2 := newTraces_complete hverified
      simp only [if_true]
      rw [PyM.bind_apply]
      rcases hrun : complete cfg env task attempt hypothesis s₁ with ⟨e | _, s₂⟩
      · rw [hrun] at hcomplete
        exact ⟨IsTrans.trans _ _ _ hfirst hcomplete, fun _ _ hrun => by cases hrun⟩
      · rw [hrun] at hcomplete
        exact ⟨IsTrans.trans _ _ _ hfirst hcomplete, fun _ _ hrun => by cases hrun⟩
    | false =>
      simp only [Bool.false_eq_true, if_false]
      split
      -- the refinement leaves the hypothesis and the verdict of the round on record
      · have hsame : SameRecord s₁ (refineRound env attempt hypothesis s₁).2 :=
          sameRecord_refineRound attempt hypothesis s₁
        have hresult : (refineRound env attempt hypothesis s₁).1 = _ :=
          refineRound_result attempt hypothesis s₁
        rw [PyM.bind_apply]
        rcases hrun : refineRound env attempt hypothesis s₁ with ⟨e | hypothesis', s₂⟩
        · rw [hrun] at hsame
          exact ⟨IsTrans.trans _ _ _ hfirst (NewTraces.of_sameRecord hsame), fun _ _ hrun => by cases hrun⟩
        · rw [hrun] at hsame hresult
          have hverified₂ : Verified P env graph s₂.finalHypothesis (lastVerdict s₂) := by
            rw [hsame.hypothesis, hsame.verdict]
            exact hverified
          obtain ⟨htraces, hlast'⟩ := ih (attempt + 1) hypothesis' s₂ (hP _ _ _ _ hresult.symm)
            fun _ => hverified₂
          exact ⟨IsTrans.trans _ _ _ (IsTrans.trans _ _ _ hfirst (NewTraces.of_sameRecord hsame))
            htraces, hlast'⟩
      · obtain ⟨htraces, hresult⟩ := ih (attempt + 1) hypothesis s₁ hhyp fun _ => hverified
        exact ⟨IsTrans.trans _ _ _ hfirst htraces, hresult⟩

/-- The traces of the body: they have the verdict on a hypothesis of the LLM. -/
theorem newTraces_thinkBody (hgenerate : ∀ h, env.generate task.toTask = .ok h → P h)
    (hrefine : ∀ n h violations h', env.refine n h violations = .ok h' → P h')
    (s : ThinkState F) :
    NewTraces (fun t => ∃ graph, env.parse task.toTask = .ok graph ∧
      RecordedTrace P env task graph t) s (thinkBody cfg env task s).2 := by
  have hquiet : Quiet s (start env task s).2 := keeps_quiet_start s
  have hresult : (start env task s).1 = _ := start_result s
  rw [thinkBody, PyM.bind_apply]
  rcases hrun : start env task s with ⟨e | ⟨graph, hypothesis⟩, s₁⟩
  · rw [hrun] at hquiet
    exact .of_quiet hquiet
  rw [hrun] at hquiet hresult
  obtain ⟨hparse, hhyp⟩ : env.parse task.toTask = .ok graph ∧ P hypothesis := by
    unfold firstHypothesis at hresult
    rcases hparse : env.parse task.toTask with e | graph'
    · simp [hparse] at hresult
    rcases hgen : env.generate task.toTask with e | h
    · simp [hparse, hgen] at hresult
    rcases hkeys : pyKeys h with e | keys
    · simp [hparse, hgen, hkeys] at hresult
    simp only [hparse, hgen, hkeys, ok_bind, pure, Except.pure, Except.ok.injEq,
      Prod.mk.injEq] at hresult
    obtain ⟨rfl, rfl⟩ := hresult
    exact ⟨rfl, hgenerate _ hgen⟩
  have hweaken : ∀ {s s' : ThinkState F}, NewTraces (RecordedTrace P env task graph) s s' →
      NewTraces (fun t => ∃ graph, env.parse task.toTask = .ok graph ∧
        RecordedTrace P env task graph t) s s' :=
    fun h t ht => (h t ht).imp_right fun ht => ⟨graph, hparse, ht⟩
  refine IsTrans.trans _ _ _ (NewTraces.of_quiet hquiet) (hweaken ?_)
  -- at least one attempt is made
  obtain ⟨htraces, hlast⟩ : NewTraces (RecordedTrace P env task graph) s₁
      (refineLoop cfg env task graph cfg.maxRefinementAttempts 0 hypothesis s₁).2 ∧ _ :=
    refineLoop_traces hrefine cfg.maxRefinementAttempts 0 hypothesis s₁ hhyp fun hzero =>
      absurd cfg.attempts_pos (by omega)
  dsimp only
  rw [PyM.bind_apply]
  rcases hloop : refineLoop cfg env task graph cfg.maxRefinementAttempts 0 hypothesis s₁ with
    ⟨e | _ | h, s₂⟩
  · rw [hloop] at htraces
    exact htraces
  · rw [hloop] at htraces
    exact htraces
  · rw [hloop] at htraces
    exact IsTrans.trans _ _ _ htraces (newTraces_fail (hlast h s₂ hloop))

theorem newTraces_handleError {exc : PyExc} {s : ThinkState F} :
    NewTraces (fun t => t.outcome = "error") s (handleError cfg env task exc s).2 := by
  refine .bind (sameRecord_count _) ?_
  intro _ s₁ _
  refine .bind (sameRecord_emit _) ?_
  intro _ s₂ _
  refine .bind .get ?_
  intro s₀ s₃ _
  have hcommit : NewTraces (fun t => t.outcome = "error") s₃
      (commitTrace cfg env task "error" (max s₀.traceRounds.length 1)
        (exc.typeName ++ ": " ++ exc.msg) s₃).2 := newTraces_commitTrace fun _ h _ _ _ => h
  rw [PyM.bind_apply]
  rcases hrun : commitTrace cfg env task "error" (max s₀.traceRounds.length 1)
    (exc.typeName ++ ": " ++ exc.msg) s₃ with ⟨_ | _, s₄⟩ <;> rw [hrun] at hcommit <;> exact hcommit

/-- The trace that a run commits with the outcome completed or failed has the verdict on the
last hypothesis that was verified. -/
theorem recorded_think (hgenerate : ∀ h, env.generate task.toTask = .ok h → P h)
    (hrefine : ∀ n h violations h', env.refine n h violations = .ok h' → P h')
    {s : ThinkState F} (hlog : s.log = []) {t : ReasoningTrace F}
    (ht : .commit t ∈ (think cfg env task s).2.log)
    (houtcome : t.outcome = "completed" ∨ t.outcome = "failed") :
    ∃ graph, env.parse task.toTask = .ok graph ∧ t.task = task.toTask ∧
      Verified P env graph t.finalHypothesis
        ⟨t.finalStaticVerdict, t.finalSymbolicValid, t.finalViolations⟩ := by
  have hbody : NewTraces _ s (thinkBody cfg env task s).2 := newTraces_thinkBody hgenerate hrefine s
  have hnot : t.outcome ≠ "error" := by
    rcases houtcome with h | h <;> rw [h] <;> decide
  have hfrom : .commit t ∈ (thinkBody cfg env task s).2.log := by
    rw [think, PyM.tryCatch] at ht
    rcases hrun : thinkBody cfg env task s with ⟨e | _, s₁⟩
    · rw [hrun] at ht
      exact (newTraces_handleError t ht).resolve_right hnot
    · rw [hrun] at ht
      exact ht
  rcases hbody t hfrom with hmem | ⟨graph, hparse, herror | h⟩
  · rw [hlog] at hmem
    cases hmem
  · exact absurd herror hnot
  · exact ⟨graph, hparse, h⟩

end Run

/-! ## Replaying the trace of a run -/

/-- The two engines judge alike: they have the same limit, and z3 and a solver are there in
both or in neither. -/
structure Alike (e e' : Engine) : Prop where
  maxConstraints : e.maxConstraints = e'.maxConstraints
  degraded : e.degraded = e'.degraded
  solvers : e.solverPool = [] ↔ e'.solverPool = []

/-- What is done with a solver does not depend on which one of the pool it is, nor on what it
was used for before. -/
theorem withSolver_alike {α : Type} {e e' : Engine} (h : Alike e e') (body : PyM Smt.Solver α) :
    (withSolver timeouts body e).1 = (withSolver timeouts body e').1 := by
  rw [withSolver, withSolver]
  rcases hpool : e.solverPool with _ | ⟨solver, rest⟩
  · rw [h.solvers.mp hpool]
  · rcases hpool' : e'.solverPool with _ | ⟨solver', rest'⟩
    · rw [h.solvers.mpr hpool'] at hpool
      cases hpool
    · by_cases hpool : timeouts.pool = true
      · simp [hpool]
      · simp only [hpool, Bool.false_eq_true, if_false]
        rfl

theorem verifySolution_alike {e e' : Engine} (h : Alike e e') {u : Unicode} {z3 : Z3 F}
    (solution : Solution F) (graph : Option (TaskGraph F)) :
    (verifySolution u z3 timeouts solution graph e).1 =
      (verifySolution u z3 timeouts solution graph e').1 := by
  rcases graph with _ | graph
  · rfl
  have hsolver : (withSolver timeouts (verifyWith u z3 timeouts solution graph) e).1 =
      (withSolver timeouts (verifyWith u z3 timeouts solution graph) e').1 :=
    withSolver_alike h _
  rw [verifySolution, PyM.bind_ok (PyM.get_apply e), PyM.bind_ok (PyM.get_apply e'), h.degraded]
  split
  · rfl
  · rw [PyM.tryCatch, PyM.tryCatch]
    rcases hrun : withSolver timeouts (verifyWith u z3 timeouts solution graph) e with ⟨exc | v, s⟩
    · rcases hrun' : withSolver timeouts (verifyWith u z3 timeouts solution graph) e' with ⟨_, s'⟩
      rw [hrun, hrun'] at hsolver
      cases hsolver
      dsimp only
      split <;> rfl
    · rcases hrun' : withSolver timeouts (verifyWith u z3 timeouts solution graph) e' with ⟨_, s'⟩
      rw [hrun, hrun'] at hsolver
      cases hsolver
      rfl

/-- The value, as a dict. -/
def asSolution : PyVal F → Option (Solution F)
  | .dict d => if h : (d.map Prod.fst).Nodup then some ⟨d, h⟩ else none
  | _ => none

omit [PyInterp F] in
theorem eq_dict_of_asSolution {h : PyVal F} {d : Solution F} (hd : asSolution h = some d) :
    h = .dict d.items := by
  rcases h with _ | _ | _ | _ | _ | _ | d' | _ <;> simp only [asSolution, reduceCtorEq] at hd
  split at hd
  · cases hd
    rfl
  · cases hd

theorem pyEq_asDict (v : StaticAnalysisVerdict) :
    (v.asDict : PyVal F).pyEq v.asDict = true := by
  have hissues : pyEqItems (v.issues.map (PyVal.str (F := F))) (v.issues.map .str) = true := by
    induction v.issues with
    | nil => rfl
    | cons issue issues ih => simp [pyEqItems, PyVal.pyEq, ih]
  simp [StaticAnalysisVerdict.asDict, PyVal.pyEq, pyEqPairs, hissues, List.lookup]

/-- A run whose deterministic steps are the checks, with the symbolic engine of each attempt.
The LLM, the causal analysis and the trace writer are given, and so is what happens to a value
that is not a dict. -/
def Checks.collaborators (checks : Checks F) (engines : Nat → Engine) (rest : Collaborators F) :
    Collaborators F :=
  { rest with
    parse := parseTask checks.u checks.z3 checks.imp (engines 0).maxConstraints
    static := analyzeSolutionStatic checks.cc
    verify := fun attempt h graph =>
      match asSolution h with
      | some d => (verifySolution checks.u checks.z3 noTimeouts d (some graph) (engines attempt)).1
      | none => rest.verify attempt h graph
    toDict := fun h =>
      match asSolution h with
      | some d => .ok d
      | none => rest.toDict h }

/-- The LLM answers with dicts. -/
def AnswersDicts (env : Collaborators F) : Prop :=
  (∀ task h, env.generate task = .ok h → (asSolution h).isSome = true) ∧
    ∀ n h violations h', env.refine n h violations = .ok h' → (asSolution h').isSome = true

/-- A recorded verdict on a dict is reproduced by an engine like the one of the run. -/
theorem matches_of_verified {engines : Nat → Engine} {rest : Collaborators F}
    {graph : TaskGraph F} (halike : ∀ n, Alike (engines n) engine)
    (hparse : parseTask checks.u checks.z3 checks.imp (engines 0).maxConstraints trace.task =
      .ok graph)
    (hverified : Verified (fun h => (asSolution h).isSome = true)
      (checks.collaborators engines rest) graph trace.finalHypothesis
      ⟨trace.finalStaticVerdict, trace.finalSymbolicValid, trace.finalViolations⟩) :
    Matches checks noTimeouts engine trace := by
  obtain ⟨attempt, h, d, static, verdict, hdict, htoDict, hstatic, hverify, hhyp, hrecorded⟩ :=
    hverified
  obtain ⟨d', hd'⟩ := Option.isSome_iff_exists.mp hdict
  simp only [Checks.collaborators, hd'] at htoDict hstatic hverify
  cases htoDict
  cases eq_dict_of_asSolution hd'
  simp only [FinalVerdict.mk.injEq] at hrecorded
  obtain ⟨hrecStatic, hrecValid, -⟩ := hrecorded
  refine (matches_some_iff hhyp hrecValid).mpr ⟨static, verdict, hstatic, ?_, ?_, rfl⟩
  · rw [hrecStatic]
    exact pyEq_asDict static
  · rw [replaySymbolic, PyM.bind_ok (PyM.get_apply engine), ← (halike 0).maxConstraints, hparse,
      PyM.bind_ok (PyM.lift_apply _ _), ← verifySolution_alike (halike attempt), hverify]

/-- **Replay.** A match means that every final verdict field of the trace is the one reproduced
if and only if the fields that the replay does not compare are right. The trace of a completed
or failed run matches, if the LLM has answered with dicts. -/
theorem replay_faithful_iff (checks : Checks F) :
    (∀ timeouts engine trace,
      (Matches checks timeouts engine trace → Reproduces checks timeouts engine trace) ↔
        Undoctored checks timeouts engine trace) ∧
    ∀ (cfg : Config) (rest : Collaborators F) (task : TaskInput F) (engines : Nat → Engine)
      (engine : Engine) (s : ThinkState F), s.log = [] → (∀ n, Alike (engines n) engine) →
      AnswersDicts rest → ∀ t,
      .commit t ∈ (think cfg (checks.collaborators engines rest) task s).2.log →
      t.outcome = "completed" ∨ t.outcome = "failed" → Matches checks noTimeouts engine t := by
  constructor
  · intro timeouts engine trace
    exact matches_reproduces_iff
  · rintro cfg rest task engines engine s hlog halike ⟨hgenerate, hrefine⟩ t ht houtcome
    have hgenerate' : ∀ h, (checks.collaborators engines rest).generate task.toTask = .ok h →
        (asSolution h).isSome = true := hgenerate task.toTask
    obtain ⟨graph, hparse, htask, hverified⟩ :=
      recorded_think hgenerate' hrefine hlog ht houtcome
    rw [← htask] at hparse
    exact matches_of_verified halike hparse hverified

/-- No text is code. -/
def noCode : CodeCheck where
  isPythonCode _ := .ok false
  analyzeCode _ := .ok []

/-- The checks with an exact solver. -/
noncomputable def exactChecks : Checks FloatText := ⟨noCode, .ascii, Z3.exact, .available⟩

/-- A run whose first hypothesis is accepted commits its trace. -/
theorem commits_of_accepts {F : Type} {cfg : Config} {env : Collaborators F} {task : TaskInput F}
    {graph : TaskGraph F} {d : Solution F} {static : StaticAnalysisVerdict}
    {violations : List String} (hparse : env.parse task.toTask = .ok graph)
    (hgenerate : env.generate task.toTask = .ok (.dict d.items))
    (hstatic : env.static (.dict d.items) = .ok static)
    (hverify : env.verify 0 (.dict d.items) graph = .ok (true, violations))
    (htoDict : env.toDict (.dict d.items) = .ok d) (hcommit : env.commit "completed" = .ok ())
    (htrace : cfg.traceDir ≠ "") (hcausal : cfg.enableCausal = false) (s : ThinkState F) :
    ∃ t, .commit t ∈ (think cfg env task s).2.log ∧ t.outcome = "completed" ∧
      t.finalHypothesis = some d := by
  obtain ⟨attempts, hattempts⟩ := Nat.exists_eq_add_of_le' cfg.attempts_pos
  cases hevolution : cfg.enableEvolution <;>
    simp [think, thinkBody, start, refineLoop, verifyRound, complete, causalStage, commitTrace,
      recordOutcome, count, emit, pyKeys, PyM.bind_apply, PyM.tryCatch, hattempts, hparse, hgenerate,
      hstatic, hverify, htoDict, hcommit, htrace, hcausal, hevolution]

/-- A task with a bound for `y`. -/
def boundTask : TaskInput FloatText where
  requirements := [[("name", .str "y"), ("max", .int 5)]]
  constraints := []
  goals := []

/-- The LLM answers `{"x": 100, "y": 1}`. -/
def answersMixed : Collaborators FloatText :=
  { acceptAtOnce (.ok ()) with generate := fun _ => .ok (.dict mixedSolution.items) }

noncomputable def boundGraph : {g : TaskGraph FloatText //
    parseTask .ascii Z3.exact .available readyEngine.maxConstraints boundTask.toTask = .ok g ∧
      g.requirements = [⟨"y", .and [.le ⟨"y", .int⟩ 5], ⟨"y", .int⟩⟩] ∧ g.constraints = [] ∧
      g.vars = [("y", ⟨"y", .int⟩)]} :=
  graphOf (by decide +kernel)

theorem answersDicts_answersMixed : AnswersDicts answersMixed := by
  constructor
  · rintro task h hh
    cases hh
    rfl
  · rintro n h violations h' hh
    cases hh
    rfl

/-- The hypothesis `{"x": 100, "y": 1}` meets the bound, and its trace matches. -/
theorem matches_boundTask :
    ∃ t, .commit t ∈ (think tracingConfig (exactChecks.collaborators (fun _ => readyEngine)
        answersMixed) boundTask {}).2.log ∧ t.finalHypothesis = some mixedSolution ∧
      Matches exactChecks noTimeouts readyEngine t := by
  obtain ⟨graph, hparse, hreqs, -, hvars⟩ := boundGraph
  have hverify := accepts_mixedSolution hreqs hvars
  obtain ⟨t, ht, houtcome, hhypothesis⟩ := @commits_of_accepts _ tracingConfig
    (exactChecks.collaborators (fun _ => readyEngine) answersMixed) boundTask graph mixedSolution {} []
    hparse rfl rfl hverify rfl rfl (by decide) rfl {}
  exact ⟨t, ht, hhypothesis, (replay_faithful_iff exactChecks).2 tracingConfig answersMixed boundTask
    (fun _ => readyEngine) readyEngine {} rfl (fun _ => ⟨rfl, rfl, Iff.rfl⟩)
    answersDicts_answersMixed t ht (.inl houtcome)⟩

/-- The trace of an accepted hypothesis `{}`, with a violation that nobody found. -/
def doctoredTrace : ReasoningTrace FloatText where
  runId := "r0"
  correlationId := "c0"
  task := emptyTask.toTask
  rounds := []
  outcome := "completed"
  attempts := 1
  finalHypothesis := some ⟨[], List.nodup_nil⟩
  finalStaticVerdict := some (StaticAnalysisVerdict.asDict {})
  finalSymbolicValid := some true
  finalViolations := ["requirement_x_violated: value=1"]
  error := ""

/-- The doctored trace matches, and does not reproduce. -/
theorem doctoredTrace_matches :
    Matches exactChecks noTimeouts readyEngine doctoredTrace ∧
      ¬ Reproduces exactChecks noTimeouts readyEngine doctoredTrace := by
  constructor
  · exact ⟨_, rfl, rfl⟩
  · rintro ⟨v, hv, -, -, hviolations⟩
    cases hv
    cases hviolations

end Noema.Tracing
