import Noema.Neurosymbolic.Engine

/-!
# Whole runs of `think`

A run is quiet (`Quiet`) until its outcome is known: it keeps the task counters and yields events
that are not terminal. `outcome` is that outcome as a function of the collaborators, and
`thinkBody_cases` says how the run goes on from there. It rests on `refineLoop_cases`, an induction
on the attempts that are left.

- `Concluded`: what a run does after its outcome is known: the task is counted, one terminal event
  is yielded, and only traces follow. `complete_cases` and `fail_cases` say how far it gets before
  something raises.
- `handleError_spec`: the handler counts a failed task and yields an error event, also when the task
  was counted before.
- **`wellEnded_iff`**: a run ends with exactly one terminal event and counts exactly one task if and
  only if nothing raises once the outcome is known (`Undisturbed`). `unwritable_not_wellEnded` is a
  run whose trace cannot be written.
- `Ordered`, `ordered_think`: in every run no trace is committed before its terminal event.
- **`received_uncommitted`**: so a consumer that stops at the terminal event sees no trace
  committed: the commit stands after the `yield`, and the generator is never resumed.
-/

namespace Noema.Neurosymbolic

open Noema.Lib PyJson Noema.Tracing

variable {F : Type}

/-! ## Quiet steps -/

/-- An event that is not terminal. -/
def Action.isQuiet : Action F → Bool
  | .event e => !e.body.isTerminal
  | .commit _ => false

/-- Between the two states no task was counted, and only events that are not terminal were
yielded. -/
structure Quiet (s s' : ThinkState F) : Prop where
  processed : s'.metrics.tasksProcessed = s.metrics.tasksProcessed
  successful : s'.metrics.tasksSuccessful = s.metrics.tasksSuccessful
  failed : s'.metrics.tasksFailed = s.metrics.tasksFailed
  log : ∃ acts, s'.log = s.log ++ acts ∧ ∀ a ∈ acts, a.isQuiet = true

instance : Std.Refl (Quiet (F := F)) where
  refl s := ⟨rfl, rfl, rfl, [], by simp, by simp⟩

instance : IsTrans (ThinkState F) Quiet where
  trans s s' s'' h h' := by
    obtain ⟨acts, hlog, hquiet⟩ := h.log
    obtain ⟨acts', hlog', hquiet'⟩ := h'.log
    refine ⟨h'.processed.trans h.processed, h'.successful.trans h.successful,
      h'.failed.trans h.failed, acts ++ acts', ?_, ?_⟩
    · rw [hlog', hlog, List.append_assoc]
    · intro a ha
      exact (List.mem_append.mp ha).elim (hquiet a) (hquiet' a)

/-- An update of the local variables is quiet. -/
theorem keeps_quiet_modify {f : ThinkState F → ThinkState F}
    (hmetrics : ∀ s, (f s).metrics = s.metrics) (hlog : ∀ s, (f s).log = s.log) :
    (PyM.modify f).Keeps Quiet :=
  fun s => ⟨by rw [PyM.modify_apply, hmetrics], by rw [PyM.modify_apply, hmetrics],
    by rw [PyM.modify_apply, hmetrics], [], by rw [PyM.modify_apply, hlog, List.append_nil],
    by simp⟩

section Run

variable {cfg : Config} {env : Collaborators F} {task : TaskInput F}

theorem keeps_quiet_emit {body : EventBody F} (h : body.isTerminal = false) :
    (emit env body).Keeps Quiet :=
  fun s => ⟨rfl, rfl, rfl, [.event ⟨env.correlationId, body⟩], rfl, by simp [Action.isQuiet, h]⟩

theorem keeps_quiet_count {f : Metrics → Metrics}
    (h : ∀ m, (f m).tasksProcessed = m.tasksProcessed ∧
      (f m).tasksSuccessful = m.tasksSuccessful ∧ (f m).tasksFailed = m.tasksFailed) :
    (count f : PyM (ThinkState F) Unit).Keeps Quiet :=
  fun s => ⟨(h s.metrics).1, (h s.metrics).2.1, (h s.metrics).2.2, [],
    (List.append_nil s.log).symm, by simp⟩

theorem keeps_quiet_start : (start env task).Keeps Quiet :=
  .bind (keeps_quiet_emit rfl) fun _ => .bind (.lift _) fun _ => .bind (keeps_quiet_emit rfl)
    fun _ => .bind (keeps_quiet_emit rfl) fun _ => .bind (.lift _) fun _ =>
    .bind (keeps_quiet_count fun _ => ⟨rfl, rfl, rfl⟩) fun _ => .bind (.lift _) fun _ =>
    .bind (keeps_quiet_emit rfl) fun _ => .pure _

theorem keeps_quiet_verifyRound (graph : TaskGraph F) (attempt : Nat) (hypothesis : PyVal F) :
    (verifyRound env graph attempt hypothesis).Keeps Quiet :=
  .bind (.lift _) fun _ => .bind (keeps_quiet_modify (fun _ => rfl) fun _ => rfl) fun _ =>
    .bind (keeps_quiet_emit rfl) fun _ => .bind (.lift _) fun _ =>
    .bind (keeps_quiet_modify (fun _ => rfl) fun _ => rfl) fun _ => .bind (.lift _) fun _ =>
    .bind (keeps_quiet_modify (fun _ => rfl) fun _ => rfl) fun _ =>
    .bind (keeps_quiet_emit rfl) fun _ => .pure _

theorem keeps_quiet_refineRound (attempt : Nat) (hypothesis : PyVal F) :
    (refineRound env attempt hypothesis).Keeps Quiet :=
  .bind (keeps_quiet_emit rfl) fun _ => .bind .get fun _ => .bind (.lift _) fun _ =>
    .bind (keeps_quiet_count fun _ => ⟨rfl, rfl, rfl⟩) fun _ =>
    .bind (keeps_quiet_emit rfl) fun _ => .pure _

theorem keeps_quiet_recordOutcome (hypothesis : PyVal F) (isSuccessful : Bool)
    (violations : List String) : (recordOutcome cfg hypothesis isSuccessful violations).Keeps Quiet :=
  .ite (.bind (.lift _) fun _ => keeps_quiet_modify (fun _ => rfl) fun _ => rfl) (.pure _)

theorem keeps_quiet_causalStage : (causalStage cfg env task).Keeps Quiet :=
  .ite (.bind (keeps_quiet_emit rfl) fun _ => .bind (.lift _) fun _ =>
    .bind (keeps_quiet_emit rfl) fun _ => .pure _) (.pure _)

/-! ## The outcome of a run -/

/-- How the search for a hypothesis ends. -/
inductive SearchEnd (F : Type) where
  | accepted (attempt : Nat) (hypothesis : PyVal F)
  | exhausted (hypothesis : PyVal F)

/-- The verdict of one attempt. -/
def attemptVerdict (env : Collaborators F) (graph : TaskGraph F) (attempt : Nat)
    (hypothesis : PyVal F) : Except PyExc Verdict := do
  let _ ← env.static hypothesis
  let verdict ← env.verify attempt hypothesis graph
  let _ ← env.toDict hypothesis
  return verdict

/-- The attempts, as the collaborators answer. -/
def search (cfg : Config) (env : Collaborators F) (graph : TaskGraph F) :
    Nat → Nat → PyVal F → Except PyExc (SearchEnd F)
  | 0, _, hypothesis => .ok (.exhausted hypothesis)
  | remaining + 1, attempt, hypothesis => do
    let (isValid, violations) ← attemptVerdict env graph attempt hypothesis
    if isValid then return .accepted attempt hypothesis
    else if attempt + 1 < cfg.maxRefinementAttempts then
      let hypothesis ← env.refine attempt hypothesis violations
      search cfg env graph remaining (attempt + 1) hypothesis
    else search cfg env graph remaining (attempt + 1) hypothesis

/-- The graph and the first hypothesis. -/
def firstHypothesis (env : Collaborators F) (task : TaskInput F) :
    Except PyExc (TaskGraph F × PyVal F) := do
  let graph ← env.parse task.toTask
  let hypothesis ← env.generate task.toTask
  let _ ← pyKeys hypothesis
  return (graph, hypothesis)

/-- The outcome of a run, before it is recorded and reported. -/
def outcome (cfg : Config) (env : Collaborators F) (task : TaskInput F) :
    Except PyExc (SearchEnd F) := do
  let (graph, hypothesis) ← firstHypothesis env task
  search cfg env graph cfg.maxRefinementAttempts 0 hypothesis

theorem verifyRound_result (graph : TaskGraph F) (attempt : Nat) (hypothesis : PyVal F)
    (s : ThinkState F) :
    (verifyRound env graph attempt hypothesis s).1 =
      (attemptVerdict env graph attempt hypothesis).map Prod.fst := by
  unfold verifyRound attemptVerdict
  rcases hstatic : env.static hypothesis with e | static
  · simp [PyM.bind_apply, Except.map]
  · rcases hverify : env.verify attempt hypothesis graph with e | ⟨isValid, violations⟩
    · simp [PyM.bind_apply, Except.map, emit]
    · rcases hdict : env.toDict hypothesis with e | d
      · simp [PyM.bind_apply, Except.map, emit]
      · simp only [PyM.bind_apply, PyM.lift_apply, PyM.modify_apply, emit, ok_bind, PyM.pure_apply]
        rfl

theorem verifyRound_violations {graph : TaskGraph F} {attempt : Nat} {hypothesis : PyVal F}
    {verdict : Verdict} (h : attemptVerdict env graph attempt hypothesis = .ok verdict)
    (s : ThinkState F) :
    (verifyRound env graph attempt hypothesis s).2.violations = verdict.2 := by
  unfold attemptVerdict at h
  rcases hstatic : env.static hypothesis with e | static
  · simp [hstatic] at h
  · rcases hverify : env.verify attempt hypothesis graph with e | verdict'
    · simp [hstatic, hverify] at h
    · rcases hdict : env.toDict hypothesis with e | d
      · simp [hstatic, hverify, hdict] at h
      · simp only [hstatic, hverify, hdict, ok_bind, pure, Except.pure, Except.ok.injEq] at h
        subst h
        simp [verifyRound, PyM.bind_apply, emit, hstatic, hverify, hdict]

theorem refineRound_result (attempt : Nat) (hypothesis : PyVal F) (s : ThinkState F) :
    (refineRound env attempt hypothesis s).1 = env.refine attempt hypothesis s.violations := by
  unfold refineRound
  rcases hrefine : env.refine attempt hypothesis s.violations with e | h
  · simp [PyM.bind_apply, emit, hrefine]
  · simp [PyM.bind_apply, emit, count, hrefine]

/-- The loop is quiet until the search ends, and ends as the search does. The search is a function
of the collaborators alone, so what the engine has counted or recorded before does not decide the
outcome. -/
theorem refineLoop_cases (graph : TaskGraph F) (remaining attempt : Nat) (hypothesis : PyVal F)
    (s : ThinkState F) :
    ∃ s', Quiet s s' ∧ refineLoop cfg env task graph remaining attempt hypothesis s =
      match search cfg env graph remaining attempt hypothesis with
      | .error e => (.error e, s')
      | .ok (.accepted attempt hypothesis) =>
        (complete cfg env task attempt hypothesis >>= fun _ => pure none) s'
      | .ok (.exhausted hypothesis) => (.ok (some hypothesis), s') := by
  induction remaining generalizing attempt hypothesis s with
  | zero => exact ⟨s, refl s, rfl⟩
  | succ remaining ih =>
    have hquiet : Quiet s (verifyRound env graph attempt hypothesis s).2 :=
      keeps_quiet_verifyRound graph attempt hypothesis s
    have hresult : (verifyRound env graph attempt hypothesis s).1 = _ :=
      verifyRound_result graph attempt hypothesis s
    rw [refineLoop, search, PyM.bind_apply]
    rcases hverdict : attemptVerdict env graph attempt hypothesis with e | ⟨isValid, violations⟩
    · rw [hverdict] at hresult
      rcases hrun : verifyRound env graph attempt hypothesis s with ⟨_, s₁⟩
      rw [hrun] at hresult hquiet
      cases hresult
      exact ⟨s₁, hquiet, rfl⟩
    · have hviolations := verifyRound_violations hverdict s
      rw [hverdict] at hresult
      rcases hrun : verifyRound env graph attempt hypothesis s with ⟨_, s₁⟩
      rw [hrun] at hresult hquiet hviolations
      cases hresult
      simp only [ok_bind]
      -- the verdict decides between the end of the loop and one more round
      cases isValid with
      | true => exact ⟨s₁, hquiet, rfl⟩
      | false =>
        simp only [Bool.false_eq_true, if_false]
        -- the last round is not followed by a refinement
        by_cases hmore : attempt + 1 < cfg.maxRefinementAttempts
        · simp only [if_pos hmore]
          have hquiet' : Quiet s₁ (refineRound env attempt hypothesis s₁).2 :=
            keeps_quiet_refineRound attempt hypothesis s₁
          have hresult' : (refineRound env attempt hypothesis s₁).1 = _ :=
            refineRound_result attempt hypothesis s₁
          rw [hviolations] at hresult'
          rw [PyM.bind_apply]
          rcases hrefine : env.refine attempt hypothesis violations with e | hypothesis'
          · rw [hrefine] at hresult'
            rcases hrun' : refineRound env attempt hypothesis s₁ with ⟨_, s₂⟩
            rw [hrun'] at hresult' hquiet'
            cases hresult'
            exact ⟨s₂, IsTrans.trans _ _ _ hquiet hquiet', rfl⟩
          · rw [hrefine] at hresult'
            rcases hrun' : refineRound env attempt hypothesis s₁ with ⟨_, s₂⟩
            rw [hrun'] at hresult' hquiet'
            cases hresult'
            obtain ⟨s', hs', heq⟩ := ih (attempt + 1) hypothesis' s₂
            exact ⟨s', IsTrans.trans _ _ _ (IsTrans.trans _ _ _ hquiet hquiet') hs', heq⟩
        · simp only [if_neg hmore]
          obtain ⟨s', hs', heq⟩ := ih (attempt + 1) hypothesis s₁
          exact ⟨s', IsTrans.trans _ _ _ hquiet hs', heq⟩

theorem start_result (s : ThinkState F) :
    (start env task s).1 = firstHypothesis env task := by
  unfold start firstHypothesis
  rcases hparse : env.parse task.toTask with e | graph
  · simp [PyM.bind_apply, emit]
  · rcases hgenerate : env.generate task.toTask with e | hypothesis
    · simp [PyM.bind_apply, emit]
    · rcases hkeys : pyKeys hypothesis with e | keys
      · simp [PyM.bind_apply, emit, count, hkeys]
      · simp only [PyM.bind_apply, PyM.lift_apply, PyM.modify_apply, emit, count, ok_bind, hkeys,
          PyM.pure_apply]
        rfl

/-- The run is quiet until its outcome is known, and goes on from there. -/
theorem thinkBody_cases (s : ThinkState F) :
    ∃ s', Quiet s s' ∧ thinkBody cfg env task s =
      match outcome cfg env task with
      | .error e => (.error e, s')
      | .ok (.accepted attempt hypothesis) => complete cfg env task attempt hypothesis s'
      | .ok (.exhausted hypothesis) => fail cfg env task hypothesis s' := by
  have hquiet : Quiet s (start env task s).2 := keeps_quiet_start s
  have hresult : (start env task s).1 = _ := start_result s
  rw [thinkBody, outcome, PyM.bind_apply]
  rcases hfirst : firstHypothesis env task with e | ⟨graph, hypothesis⟩
  · rw [hfirst] at hresult
    rcases hrun : start env task s with ⟨_, s₁⟩
    rw [hrun] at hresult hquiet
    cases hresult
    exact ⟨s₁, hquiet, rfl⟩
  · rw [hfirst] at hresult
    rcases hrun : start env task s with ⟨_, s₁⟩
    rw [hrun] at hresult hquiet
    cases hresult
    obtain ⟨s', hs', heq⟩ : ∃ s', Quiet s₁ s' ∧
        refineLoop cfg env task graph cfg.maxRefinementAttempts 0 hypothesis s₁ = _ :=
      refineLoop_cases graph cfg.maxRefinementAttempts 0 hypothesis s₁
    refine ⟨s', IsTrans.trans _ _ _ hquiet hs', ?_⟩
    simp only [ok_bind]
    rw [PyM.bind_apply, heq]
    rcases search cfg env graph cfg.maxRefinementAttempts 0 hypothesis with
      e | ⟨attempt, h⟩ | h
    · rfl
    · -- the `return` after the commit
      simp only [PyM.bind_apply]
      rcases complete cfg env task attempt h s' with ⟨_ | _, _⟩ <;> rfl
    · rfl

/-! ## After the outcome -/

/-- What recording an outcome may raise. -/
def records (cfg : Config) (hypothesis : PyVal F) : Except PyExc Unit :=
  if cfg.enableEvolution then (pyKeys hypothesis).map fun _ => () else .ok ()

/-- What the causal analysis of an accepted hypothesis may raise. -/
def analyses (cfg : Config) (env : Collaborators F) (task : TaskInput F) : Except PyExc Unit :=
  if cfg.enableCausal then (runCausalAnalysis env task).map fun _ => () else .ok ()

/-- What writing the trace of an outcome may raise. -/
def commits (cfg : Config) (env : Collaborators F) (outcome : String) : Except PyExc Unit :=
  if cfg.traceDir = "" then .ok () else env.commit outcome

/-- What the run still does once its outcome is known. -/
def aftermath (cfg : Config) (env : Collaborators F) (task : TaskInput F) :
    SearchEnd F → Except PyExc Unit
  | .accepted _ hypothesis => do
    records cfg hypothesis
    analyses cfg env task
    commits cfg env "completed"
  | .exhausted hypothesis => do
    records cfg hypothesis
    commits cfg env "failed"

theorem recordOutcome_result (hypothesis : PyVal F) (isSuccessful : Bool)
    (violations : List String) (s : ThinkState F) :
    (recordOutcome cfg hypothesis isSuccessful violations s).1 = records cfg hypothesis := by
  unfold recordOutcome records
  split
  · rcases pyKeys hypothesis with e | keys <;> rfl
  · rfl

theorem causalStage_result (s : ThinkState F) :
    (causalStage cfg env task s).1.map (fun _ => ()) = analyses cfg env task := by
  unfold causalStage analyses
  split
  · rcases hrun : runCausalAnalysis env task with e | analysis
    · simp [PyM.bind_apply, emit, Except.map]
    · simp [PyM.bind_apply, emit, Except.map]
  · rfl

/-- A trace that was committed. -/
def Action.isCommit : Action F → Bool
  | .event _ => false
  | .commit _ => true

/-- Writing a trace adds nothing but the trace. -/
theorem commitTrace_cases (name : String) (attempts : Nat) (error : String) (s : ThinkState F) :
    ∃ s', commitTrace cfg env task name attempts error s = (commits cfg env name, s') ∧
      s'.metrics = s.metrics ∧ ∃ acts, s'.log = s.log ++ acts ∧ ∀ a ∈ acts, a.isCommit = true := by
  unfold commitTrace commits
  split
  · exact ⟨s, rfl, rfl, [], by simp, by simp⟩
  · rw [PyM.bind_apply, PyM.lift_apply]
    rcases env.commit name with e | _
    · exact ⟨s, rfl, rfl, [], by simp, by simp⟩
    · exact ⟨_, rfl, rfl, [_], rfl, by simp [Action.isCommit]⟩

/-- A completed event. -/
def EventBody.isCompleted : EventBody F → Bool
  | .completed .. => true
  | _ => false

/-- A failed event. -/
def EventBody.isFailed : EventBody F → Bool
  | .failed .. => true
  | _ => false

/-- Between the two states the task was counted as `m` says and an event of the given kind was
yielded, with only a trace committed after it; it is missing only if something raised. -/
structure Concluded (m : Metrics → Metrics) (kind : EventBody F → Bool)
    (result : Except PyExc Unit) (s s' : ThinkState F) : Prop where
  processed : s'.metrics.tasksProcessed = (m s.metrics).tasksProcessed
  successful : s'.metrics.tasksSuccessful = (m s.metrics).tasksSuccessful
  failed : s'.metrics.tasksFailed = (m s.metrics).tasksFailed
  log : ∃ quiet, (∀ a ∈ quiet, a.isQuiet = true) ∧
    (result ≠ .ok () ∧ s'.log = s.log ++ quiet ∨
      ∃ e traces, s'.log = s.log ++ quiet ++ .event e :: traces ∧ kind e.body = true ∧
        ∀ a ∈ traces, a.isCommit = true)

/-- Something raised after the count, before the terminal event. -/
theorem Concluded.of_quiet {m : Metrics → Metrics} {kind : EventBody F → Bool} {e : PyExc}
    {s s' : ThinkState F} (h : Quiet { s with metrics := m s.metrics } s') :
    Concluded m kind (.error e) s s' := by
  obtain ⟨quiet, hlog, hquiet⟩ := h.log
  exact ⟨h.processed, h.successful, h.failed, quiet, hquiet, .inl ⟨nofun, hlog⟩⟩

/-- The terminal event and the trace, after a quiet part. -/
theorem Concluded.of_emit {m : Metrics → Metrics} {kind : EventBody F → Bool}
    {result : Except PyExc Unit} {body : EventBody F} {name : String} {attempts : Nat}
    {s s₁ : ThinkState F} (h : Quiet { s with metrics := m s.metrics } s₁)
    (hkind : kind body = true) (hresult : commits cfg env name = result) :
    ∃ s', (emit env body >>= fun _ => commitTrace cfg env task name attempts "") s₁ = (result, s') ∧
      Concluded m kind result s s' := by
  rw [emit, PyM.bind_ok (PyM.modify_apply _ _)]
  let s₂ : ThinkState F := { s₁ with log := s₁.log ++ [.event ⟨env.correlationId, body⟩] }
  obtain ⟨s', hrun, hmetrics, traces, hlog, htraces⟩ :
      ∃ s', commitTrace cfg env task name attempts "" s₂ = (commits cfg env name, s') ∧ _ :=
    commitTrace_cases name attempts "" s₂
  rw [hresult] at hrun
  obtain ⟨quiet, hquiet, hall⟩ := h.log
  refine ⟨s', hrun, ?_, ?_, ?_, quiet, hall,
    .inr ⟨⟨env.correlationId, body⟩, traces, ?_, hkind, htraces⟩⟩
  · rw [hmetrics, h.processed]
  · rw [hmetrics, h.successful]
  · rw [hmetrics, h.failed]
  · rw [hlog]
    show s₁.log ++ [_] ++ traces = _
    rw [hquiet]
    simp

theorem complete_cases (attempt : Nat) (hypothesis : PyVal F) (s : ThinkState F) :
    ∃ s', complete cfg env task attempt hypothesis s =
        (aftermath cfg env task (.accepted attempt hypothesis), s') ∧
      Concluded Metrics.success EventBody.isCompleted
        (aftermath cfg env task (.accepted attempt hypothesis)) s s' := by
  let s₀ : ThinkState F := { s with metrics := s.metrics.success }
  have hquiet₁ : Quiet s₀ (recordOutcome cfg hypothesis true [] s₀).2 :=
    keeps_quiet_recordOutcome hypothesis true [] s₀
  have hrecord : (recordOutcome cfg hypothesis true [] s₀).1 = _ :=
    recordOutcome_result hypothesis true [] s₀
  rw [complete, aftermath, count, PyM.bind_ok (PyM.modify_apply _ _), ← hrecord, PyM.bind_apply]
  rcases hrun₁ : recordOutcome cfg hypothesis true [] s₀ with ⟨e | _, s₁⟩
  · rw [hrun₁] at hquiet₁
    exact ⟨s₁, rfl, .of_quiet hquiet₁⟩
  rw [hrun₁] at hquiet₁
  have hquiet₂ : Quiet s₁ (causalStage cfg env task s₁).2 := keeps_quiet_causalStage s₁
  have hcausal : (causalStage cfg env task s₁).1.map (fun _ => ()) = _ := causalStage_result s₁
  simp only [ok_bind]
  rw [← hcausal, PyM.bind_apply]
  rcases hrun₂ : causalStage cfg env task s₁ with ⟨e | analysis, s₂⟩
  · rw [hrun₂] at hquiet₂
    exact ⟨s₂, rfl, .of_quiet (IsTrans.trans _ _ _ hquiet₁ hquiet₂)⟩
  rw [hrun₂] at hquiet₂
  simp only [Except.map, ok_bind]
  rw [PyM.bind_ok (PyM.get_apply s₂)]
  exact Concluded.of_emit (IsTrans.trans _ _ _ hquiet₁ hquiet₂) rfl rfl

theorem fail_cases (hypothesis : PyVal F) (s : ThinkState F) :
    ∃ s', fail cfg env task hypothesis s =
        (aftermath cfg env task (.exhausted hypothesis), s') ∧
      Concluded Metrics.failure EventBody.isFailed
        (aftermath cfg env task (.exhausted hypothesis)) s s' := by
  let s₀ : ThinkState F := { s with metrics := s.metrics.failure }
  have hquiet₁ : Quiet s₀ (recordOutcome cfg hypothesis false s₀.violations s₀).2 :=
    keeps_quiet_recordOutcome hypothesis false s₀.violations s₀
  have hrecord : (recordOutcome cfg hypothesis false s₀.violations s₀).1 = _ :=
    recordOutcome_result hypothesis false s₀.violations s₀
  rw [fail, aftermath, count, PyM.bind_ok (PyM.modify_apply _ _), PyM.bind_ok (PyM.get_apply _),
    ← hrecord, PyM.bind_apply]
  rcases hrun₁ : recordOutcome cfg hypothesis false s₀.violations s₀ with ⟨e | _, s₁⟩
  · rw [hrun₁] at hquiet₁
    exact ⟨s₁, rfl, .of_quiet hquiet₁⟩
  rw [hrun₁] at hquiet₁
  simp only [ok_bind]
  exact Concluded.of_emit hquiet₁ rfl rfl

/-! ## How a run ends -/

/-- The events of a log. -/
def eventsOf (log : List (Action F)) : List (Event F) :=
  log.filterMap fun
    | .event e => some e
    | .commit _ => none

theorem eventsOf_append (log log' : List (Action F)) :
    eventsOf (log ++ log') = eventsOf log ++ eventsOf log' :=
  List.filterMap_append

theorem eventsOf_traces {traces : List (Action F)} (h : ∀ a ∈ traces, a.isCommit = true) :
    eventsOf traces = [] := by
  refine List.filterMap_eq_nil_iff.mpr ?_
  intro a ha
  cases a with
  | event e => exact absurd (h _ ha) Bool.false_ne_true
  | commit t => rfl

theorem eventsOf_quiet {acts : List (Action F)} (h : ∀ a ∈ acts, a.isQuiet = true) :
    ∀ e ∈ eventsOf acts, e.body.isTerminal = false := by
  intro e he
  obtain ⟨a, ha, hae⟩ := List.mem_filterMap.mp he
  cases a with
  | event e' =>
    cases hae
    simpa [Action.isQuiet] using h _ ha
  | commit t => cases hae

/-- Between the two states: the last event is terminal and the only one that is, and exactly
one task was counted, as successful if and only if the last event is a completed one. -/
structure WellEnded (s s' : ThinkState F) : Prop where
  processed : s'.metrics.tasksProcessed = s.metrics.tasksProcessed + 1
  counted : s'.metrics.tasksSuccessful + s'.metrics.tasksFailed =
    s.metrics.tasksSuccessful + s.metrics.tasksFailed + 1
  events : ∃ pre last, eventsOf s'.log = eventsOf s.log ++ pre ++ [last] ∧
    (∀ e ∈ pre, e.body.isTerminal = false) ∧ last.body.isTerminal = true ∧
    (s.metrics.tasksSuccessful < s'.metrics.tasksSuccessful ↔ last.body.isCompleted = true)

/-- The events of a run with quiet parts, one terminal event and traces after it. -/
theorem events_shape {log log' quiet quiet' traces : List (Action F)} {e : Event F}
    (hlog : log' = log ++ quiet ++ quiet' ++ .event e :: traces)
    (hquiet : ∀ a ∈ quiet, a.isQuiet = true) (hquiet' : ∀ a ∈ quiet', a.isQuiet = true)
    (htraces : ∀ a ∈ traces, a.isCommit = true) :
    ∃ pre, eventsOf log' = eventsOf log ++ pre ++ [e] ∧
      ∀ e ∈ pre, e.body.isTerminal = false := by
  refine ⟨eventsOf (quiet ++ quiet'), ?_, eventsOf_quiet fun a ha => ?_⟩
  · have hlast : eventsOf (.event e :: traces) = [e] := by
      show e :: eventsOf traces = [e]
      rw [eventsOf_traces htraces]
    rw [hlog, eventsOf_append, hlast, List.append_assoc log, eventsOf_append]
  · exact (List.mem_append.mp ha).elim (hquiet a) (hquiet' a)

/-- The handler counts a failed task and yields an error event, whatever happens to the
trace. -/
theorem handleError_spec (exc : PyExc) (s : ThinkState F) :
    (handleError cfg env task exc s).2.metrics = s.metrics.failure ∧
      ∃ traces, (handleError cfg env task exc s).2.log =
          s.log ++ .event ⟨env.correlationId, .error exc.msg exc.typeName⟩ :: traces ∧
        ∀ a ∈ traces, a.isCommit = true := by
  let s₁ : ThinkState F := { s with
    metrics := s.metrics.failure
    log := s.log ++ [.event ⟨env.correlationId, .error exc.msg exc.typeName⟩] }
  let attempts := max s₁.traceRounds.length 1
  let error := exc.typeName ++ ": " ++ exc.msg
  obtain ⟨s', hrun, hmetrics, traces, hlog, htraces⟩ :
      ∃ s', commitTrace cfg env task "error" attempts error s₁ = (commits cfg env "error", s') ∧ _ :=
    commitTrace_cases "error" attempts error s₁
  have hfinal : (handleError cfg env task exc s).2 = s' := by
    rw [handleError, count, PyM.bind_ok (PyM.modify_apply _ _), emit,
      PyM.bind_ok (PyM.modify_apply _ _), PyM.bind_ok (PyM.get_apply _), PyM.bind_apply, hrun]
    rcases commits cfg env "error" <;> rfl
  rw [hfinal]
  refine ⟨hmetrics, traces, ?_, htraces⟩
  rw [hlog]
  show s.log ++ [_] ++ traces = _
  rw [List.append_assoc]
  rfl

/-- Nothing raises once the outcome of the run is known: the outcome can be recorded, the
causal analysis of an accepted hypothesis does not raise, and the trace can be written. -/
def Undisturbed (cfg : Config) (env : Collaborators F) (task : TaskInput F) : Prop :=
  ∀ o, outcome cfg env task = .ok o → aftermath cfg env task o = .ok ()

/-- A run that was concluded without an exception is well ended. -/
theorem Concluded.wellEnded {m : Metrics → Metrics} {kind : EventBody F → Bool}
    {s s₁ s₂ : ThinkState F} (won : Bool) (hquiet : Quiet s s₁) (h : Concluded m kind (.ok ()) s₁ s₂)
    (hm : ∀ c : Metrics, (m c).tasksProcessed = c.tasksProcessed + 1 ∧
      (m c).tasksSuccessful = c.tasksSuccessful + (if won then 1 else 0) ∧
      (m c).tasksFailed = c.tasksFailed + (if won then 0 else 1))
    (hkind : ∀ b : EventBody F, kind b = true → b.isTerminal = true ∧ b.isCompleted = won) :
    WellEnded s s₂ := by
  obtain ⟨hprocessed, hsuccessful, hfailed⟩ := hm s₁.metrics
  have hcounts : s₂.metrics.tasksSuccessful = s.metrics.tasksSuccessful + (if won then 1 else 0) ∧
      s₂.metrics.tasksFailed = s.metrics.tasksFailed + (if won then 0 else 1) :=
    ⟨by rw [h.successful, hsuccessful, hquiet.successful], by rw [h.failed, hfailed, hquiet.failed]⟩
  obtain ⟨first, hfirst, hfirstQuiet⟩ := hquiet.log
  obtain ⟨second, hsecondQuiet, ⟨hne, -⟩ | ⟨e, traces, hlog, he, htraces⟩⟩ := h.log
  · exact absurd rfl hne
  have hshape : s₂.log = s.log ++ first ++ second ++ .event e :: traces := by rw [hlog, hfirst]
  obtain ⟨pre, hevents, hpre⟩ := events_shape hshape hfirstQuiet hsecondQuiet htraces
  obtain ⟨hterminal, hcompleted⟩ := hkind e.body he
  refine ⟨?_, ?_, pre, e, hevents, hpre, hterminal, ?_⟩
  · rw [h.processed, hprocessed, hquiet.processed]
  · rw [hcounts.1, hcounts.2]
    cases won <;> simp <;> omega
  · rw [hcounts.1, hcompleted]
    cases won <;> simp

/-- A run that raises before its outcome is known is well ended by the handler. -/
theorem wellEnded_handleError {exc : PyExc} {s s₁ : ThinkState F} (hquiet : Quiet s s₁) :
    WellEnded s (handleError cfg env task exc s₁).2 := by
  obtain ⟨hmetrics, traces, hlog, htraces⟩ : (handleError cfg env task exc s₁).2.metrics = _ ∧ _ :=
    handleError_spec exc s₁
  obtain ⟨first, hfirst, hfirstQuiet⟩ := hquiet.log
  have hshape : (handleError cfg env task exc s₁).2.log = s.log ++ first ++ [] ++
      .event ⟨env.correlationId, .error exc.msg exc.typeName⟩ :: traces := by
    rw [hlog, hfirst, List.append_nil]
  obtain ⟨pre, hevents, hpre⟩ := events_shape hshape hfirstQuiet (by simp) htraces
  refine ⟨?_, ?_, pre, _, hevents, hpre, rfl, ?_⟩
  · rw [hmetrics, ← hquiet.processed]
    rfl
  · rw [hmetrics, ← hquiet.successful, ← hquiet.failed]
    show s₁.metrics.tasksSuccessful + (s₁.metrics.tasksFailed + 1) = _
    omega
  · rw [hmetrics, ← hquiet.successful]
    simp [Metrics.failure, EventBody.isCompleted]

/-- A run that raises after it was counted is counted twice. -/
theorem not_wellEnded_handleError {m : Metrics → Metrics} {kind : EventBody F → Bool}
    {exc : PyExc} {result : Except PyExc Unit} {s s₁ s₂ : ThinkState F} (hquiet : Quiet s s₁)
    (h : Concluded m kind result s₁ s₂)
    (hm : ∀ c : Metrics, (m c).tasksProcessed = c.tasksProcessed + 1) :
    ¬ WellEnded s (handleError cfg env task exc s₂).2 := by
  intro hended
  have hmetrics : (handleError cfg env task exc s₂).2.metrics = _ := (handleError_spec exc s₂).1
  have hprocessed := hended.processed
  rw [hmetrics] at hprocessed
  have htwice : s₂.metrics.failure.tasksProcessed = s.metrics.tasksProcessed + 1 + 1 := by
    show s₂.metrics.tasksProcessed + 1 = _
    rw [h.processed, hm, hquiet.processed]
  omega

/-- Once the outcome is known, the run is well ended if and only if nothing raises any more. -/
theorem Concluded.ends_iff {m : Metrics → Metrics} {kind : EventBody F → Bool} {o : SearchEnd F}
    {s s₁ s₂ : ThinkState F} (won : Bool) (houtcome : outcome cfg env task = .ok o)
    (hrun : thinkBody cfg env task s = (aftermath cfg env task o, s₂)) (hquiet : Quiet s s₁)
    (h : Concluded m kind (aftermath cfg env task o) s₁ s₂)
    (hm : ∀ c : Metrics, (m c).tasksProcessed = c.tasksProcessed + 1 ∧
      (m c).tasksSuccessful = c.tasksSuccessful + (if won then 1 else 0) ∧
      (m c).tasksFailed = c.tasksFailed + (if won then 0 else 1))
    (hkind : ∀ b : EventBody F, kind b = true → b.isTerminal = true ∧ b.isCompleted = won) :
    WellEnded s (think cfg env task s).2 ↔ Undisturbed cfg env task := by
  have hundisturbed : Undisturbed cfg env task ↔ aftermath cfg env task o = .ok () := by
    refine ⟨fun h => h o houtcome, fun h o' ho' => ?_⟩
    rw [houtcome] at ho'
    cases ho'
    exact h
  rw [hundisturbed, think, PyM.tryCatch, hrun]
  rcases hafter : aftermath cfg env task o with exc | _
  -- the handler counts the task once more
  · exact iff_of_false (not_wellEnded_handleError hquiet h fun c => (hm c).1) nofun
  · rw [hafter] at h
    exact iff_of_true (h.wellEnded won hquiet hm hkind) rfl

/-- **How a run ends.** A run that is consumed to its end yields exactly one terminal event,
as its last one, and counts exactly one task, as successful if and only if that event is a
completed one: if and only if nothing raises once the outcome of the run is known. -/
theorem wellEnded_iff (cfg : Config) (env : Collaborators F) (task : TaskInput F)
    (s : ThinkState F) :
    WellEnded s (think cfg env task s).2 ↔ Undisturbed cfg env task := by
  obtain ⟨s₁, hquiet, hbody⟩ : ∃ s₁, Quiet s s₁ ∧ thinkBody cfg env task s = _ :=
    thinkBody_cases s
  rcases houtcome : outcome cfg env task with exc | ⟨attempt, hypothesis⟩ | hypothesis
  -- an exception before the outcome is known goes to the handler, which ends the run well
  · rw [think, PyM.tryCatch, hbody, houtcome]
    refine iff_of_true (wellEnded_handleError hquiet) ?_
    intro o ho
    rw [houtcome] at ho
    cases ho
  · obtain ⟨s₂, hrun, hconcluded⟩ : ∃ s₂, complete cfg env task attempt hypothesis s₁ = _ ∧ _ :=
      complete_cases attempt hypothesis s₁
    rw [houtcome] at hbody
    refine hconcluded.ends_iff true houtcome (hbody.trans hrun) hquiet (fun _ => ⟨rfl, rfl, rfl⟩) ?_
    intro b hb
    cases b <;> simp_all [EventBody.isCompleted, EventBody.isTerminal]
  · obtain ⟨s₂, hrun, hconcluded⟩ : ∃ s₂, fail cfg env task hypothesis s₁ = _ ∧ _ :=
      fail_cases hypothesis s₁
    rw [houtcome] at hbody
    refine hconcluded.ends_iff false houtcome (hbody.trans hrun) hquiet (fun _ => ⟨rfl, rfl, rfl⟩) ?_
    intro b hb
    cases b <;> simp_all [EventBody.isFailed, EventBody.isCompleted, EventBody.isTerminal]

/-- An engine with the trace directory `traces`, evolution on and causal analysis off. -/
def tracingConfig : Config where
  maxRefinementAttempts := 1
  enableEvolution := true
  enableCausal := false
  traceDir := "traces"
  attempts_pos := by decide

/-- The task with nothing in it. -/
def emptyTask : TaskInput FloatText where
  requirements := []
  constraints := []
  goals := []

/-- The LLM always answers `{}`, which is accepted at once; writing the trace ends as given. -/
def acceptAtOnce (commit : Except PyExc Unit) : Collaborators FloatText where
  parse _ := .ok ⟨[], [], .list [], []⟩
  generate _ := .ok (.dict [])
  refine _ _ _ := .ok (.dict [])
  static _ := .ok {}
  verify _ _ _ := .ok (true, [])
  toDict _ := .ok ⟨[], List.nodup_nil⟩
  counterfactuals _ := .ok []
  commit _ := commit
  correlationId := "c0"
  runId := id

/-- The trace directory cannot be written: the task is counted as successful and as failed,
and the completed event is followed by an error event. -/
theorem unwritable_not_wellEnded :
    let s := (think tracingConfig (acceptAtOnce (.error (.osError "No space left on device")))
      emptyTask {}).2
    ¬ WellEnded {} s ∧ s.metrics.tasksProcessed = 2 ∧
      ((eventsOf s.log).filter fun e => e.body.isTerminal).length = 2 := by
  refine ⟨?_, rfl, rfl⟩
  intro h
  exact absurd h.processed (by decide)

/-! ## What the consumer has seen -/

/-- The consumer stops at the event. -/
def EventBody.stops (b : EventBody F) : Bool := b.isCompleted || b.isFailed

/-- The log of a run: quiet actions and then a terminal event, either one at which the consumer
stops or the error event, which only a trace can follow. -/
def Ordered (acts : List (Action F)) : Prop :=
  ∃ quiet e tail, acts = quiet ++ .event e :: tail ∧ (∀ a ∈ quiet, a.isQuiet = true) ∧
    (e.body.stops = true ∨ e.body.stops = false ∧ ∀ a ∈ tail, a.isCommit = true)

theorem ordered_handleError {exc : PyExc} {s s₁ : ThinkState F} (hquiet : Quiet s s₁) :
    ∃ acts, (handleError cfg env task exc s₁).2.log = s.log ++ acts ∧ Ordered acts := by
  obtain ⟨-, traces, hlog, htraces⟩ : (handleError cfg env task exc s₁).2.metrics = _ ∧ _ :=
    handleError_spec exc s₁
  obtain ⟨first, hfirst, hfirstQuiet⟩ := hquiet.log
  refine ⟨_, ?_, first, ⟨env.correlationId, .error exc.msg exc.typeName⟩, traces, rfl,
    hfirstQuiet, .inr ⟨rfl, htraces⟩⟩
  rw [hlog, hfirst, List.append_assoc]

variable (cfg env task) in
/-- The run as far as `Concluded` describes it, followed by the handler if something raised. -/
theorem ordered_concluded {m : Metrics → Metrics} {kind : EventBody F → Bool}
    {result : Except PyExc Unit} {s s₁ s₂ : ThinkState F} (hquiet : Quiet s s₁)
    (h : Concluded m kind result s₁ s₂) (hkind : ∀ b, kind b = true → b.stops = true) :
    ∃ acts, (PyM.tryCatch (fun _ => (result, s₂)) (handleError cfg env task) s₁).2.log =
      s.log ++ acts ∧ Ordered acts := by
  obtain ⟨first, hfirst, hfirstQuiet⟩ := hquiet.log
  obtain ⟨second, hsecondQuiet, hlog⟩ := h.log
  have hquietAll : ∀ a ∈ first ++ second, a.isQuiet = true := fun a ha =>
    (List.mem_append.mp ha).elim (hfirstQuiet a) (hsecondQuiet a)
  rcases result with exc | _
  · obtain ⟨-, traces', hlog', htraces'⟩ : (handleError cfg env task exc s₂).2.metrics = _ ∧ _ :=
      handleError_spec exc s₂
    -- whether the exception came before the terminal event or after it
    rcases hlog with ⟨-, hlog⟩ | ⟨e, traces, hlog, he, -⟩
    · refine ⟨_, ?_, first ++ second, ⟨env.correlationId, .error exc.msg exc.typeName⟩, traces',
        rfl, hquietAll, .inr ⟨rfl, htraces'⟩⟩
      dsimp only [PyM.tryCatch]
      rw [hlog', hlog, hfirst, List.append_assoc, List.append_assoc, List.append_assoc]
    · let error : Event F := ⟨env.correlationId, .error exc.msg exc.typeName⟩
      refine ⟨_, ?_, first ++ second, e, traces ++ .event error :: traces', rfl, hquietAll,
        .inl (hkind _ he)⟩
      dsimp only [PyM.tryCatch]
      rw [hlog', hlog, hfirst]
      simp only [List.append_assoc, List.cons_append, error]
  · rcases hlog with ⟨hne, -⟩ | ⟨e, traces, hlog, he, -⟩
    · exact absurd rfl hne
    · refine ⟨_, ?_, first ++ second, e, traces, rfl, hquietAll, .inl (hkind _ he)⟩
      dsimp only [PyM.tryCatch]
      rw [hlog, hfirst]
      simp only [List.append_assoc]

theorem ordered_think (s : ThinkState F) :
    ∃ acts, (think cfg env task s).2.log = s.log ++ acts ∧ Ordered acts := by
  obtain ⟨s₁, hquiet, hbody⟩ : ∃ s₁, Quiet s s₁ ∧ thinkBody cfg env task s = _ :=
    thinkBody_cases s
  rw [think, PyM.tryCatch, hbody]
  rcases outcome cfg env task with exc | ⟨attempt, hypothesis⟩ | hypothesis
  · exact ordered_handleError hquiet
  · obtain ⟨s₂, hrun, hconcluded⟩ : ∃ s₂, complete cfg env task attempt hypothesis s₁ = _ ∧ _ :=
      complete_cases attempt hypothesis s₁
    dsimp only
    rw [hrun]
    exact ordered_concluded cfg env task hquiet hconcluded fun b hb => by simp [EventBody.stops, hb]
  · obtain ⟨s₂, hrun, hconcluded⟩ : ∃ s₂, fail cfg env task hypothesis s₁ = _ ∧ _ :=
      fail_cases hypothesis s₁
    dsimp only
    rw [hrun]
    exact ordered_concluded cfg env task hquiet hconcluded fun b hb => by simp [EventBody.stops, hb]

end Run

theorem received_event (e : Event F) (rest : List (Action F)) :
    received (.event e :: rest) =
      if e.body.stops then [.event e] else .event e :: received rest := by
  rw [received]
  cases e.body <;> rfl

theorem quiet_not_stops {e : Event F} (h : (Action.event e).isQuiet = true) :
    e.body.stops = false := by
  rcases e with ⟨_, b⟩
  cases b <;> simp_all [Action.isQuiet, EventBody.isTerminal, EventBody.stops,
    EventBody.isCompleted, EventBody.isFailed]

theorem received_quiet {quiet : List (Action F)} (h : ∀ a ∈ quiet, a.isQuiet = true)
    (rest : List (Action F)) : received (quiet ++ rest) = quiet ++ received rest := by
  induction quiet with
  | nil => rfl
  | cons a quiet ih =>
    have ha : a.isQuiet = true := h a List.mem_cons_self
    have ih := ih fun a ha => h a (List.mem_cons_of_mem _ ha)
    cases a with
    | commit t => cases ha
    | event e =>
      rw [List.cons_append, received_event, quiet_not_stops ha, ih]
      rfl

theorem received_traces {traces : List (Action F)} (h : ∀ a ∈ traces, a.isCommit = true) :
    received traces = traces := by
  induction traces with
  | nil => rfl
  | cons a traces ih =>
    cases a with
    | event e => exact absurd (h _ List.mem_cons_self) Bool.false_ne_true
    | commit t => rw [received, ih fun a ha => h a (List.mem_cons_of_mem _ ha)]

/-- **No trace before the terminal event.** When the consumer has received a completed or a
failed event, at which it stops, no trace at all has been committed. -/
theorem received_uncommitted (cfg : Config) (env : Collaborators F) (task : TaskInput F)
    {s : ThinkState F} (hlog : s.log = []) {e : Event F}
    (he : .event e ∈ received (think cfg env task s).2.log) (hstops : e.body.stops = true) :
    (received (think cfg env task s).2.log).countP Action.isCommit = 0 := by
  obtain ⟨acts, hacts, quiet, last, tail, rfl, hquiet, hlast⟩ :
      ∃ acts, (think cfg env task s).2.log = s.log ++ acts ∧ Ordered acts := ordered_think s
  rw [hacts, hlog, List.nil_append, received_quiet hquiet, received_event] at he ⊢
  rw [List.countP_eq_zero]
  rcases hlast with hlast | ⟨hlast, htail⟩
  -- the consumer stops at the terminal event, before its trace is committed
  · rw [if_pos hlast]
    intro a ha
    rcases List.mem_append.mp ha with ha | ha
    · cases a with
      | event e => simp [Action.isCommit]
      | commit t => exact absurd (hquiet _ ha) Bool.false_ne_true
    · rw [List.mem_singleton.mp ha]
      simp [Action.isCommit]
  · -- the error event is the last one, so the consumer has received neither kind of event
    rw [hlast, if_neg Bool.false_ne_true, received_traces htail] at he
    exfalso
    rcases List.mem_append.mp he with he | he
    · rw [quiet_not_stops (hquiet _ he)] at hstops
      cases hstops
    · rcases List.mem_cons.mp he with he | he
      · cases he
        rw [hlast] at hstops
        cases hstops
      · exact absurd (htail _ he) Bool.false_ne_true

/-- The accepted hypothesis of a run whose trace can be written. -/
theorem accepted_uncommitted :
    ∃ e, .event e ∈ received (think tracingConfig (acceptAtOnce (.ok ())) emptyTask {}).2.log ∧
      e.body.stops = true ∧
      (received (think tracingConfig (acceptAtOnce (.ok ())) emptyTask {}).2.log).countP
        Action.isCommit = 0 :=
  have he := List.mem_of_getElem? (i := 6) rfl
  ⟨⟨"c0", .completed (.dict []) 1 {} []⟩, he, rfl, received_uncommitted _ _ _ rfl he rfl⟩

/-- The completed event is received, and the trace that the run would commit after it is not
among what was done by then. -/
theorem received_completed_without_trace :
    let log := (think tracingConfig (acceptAtOnce (.ok ())) emptyTask {}).2.log
    (eventsOf (received log)).any (fun e => e.body.isCompleted) = true ∧
      (received log).countP Action.isCommit = 0 ∧ log.countP Action.isCommit = 1 :=
  ⟨rfl, rfl, rfl⟩

end Noema.Neurosymbolic
