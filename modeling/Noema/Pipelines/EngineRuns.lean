import Noema.Lib.System
import Noema.Pipelines.Engine

/-!
# Runs of pipelines (`pipelines/engine.py`)

A `PipelineResult` has the step objects of the pipeline, which the next `execute` changes, and the
context of the run, which may be a dict that the caller passed. A state has the pipelines, the dicts
and the results so far; calls make pipelines, steps and dicts, and execute.

- `State.Independent`: every result shows what it showed when it was returned, and that agrees with
  the result of a freshly built copy of the pipeline.
- `StepFields.Clear`: a step carries no result that the run leaves in place, and no such error.
  `stepsAfter_agrees_iff`: the steps agree with those of a fresh copy exactly then.
- `Spares`: a run writes to the steps and to the dict of an earlier result only what they show
  already (`view_execute_iff`).
- `State.Harmless`: both conditions, on the state before the run. `independent_step_iff` is the step
  lemma, in both directions.
- **`independent_iff`**: in a sequence of calls the results are independent all along if and only if
  every run is harmless.
- `rebuild_not_independent`: a second run after a failed one. The first result then reports a
  completed step, and the second one the error of the first.

Results are compared by statuses, results, errors, success and the final output; durations come from
the clock.
-/

namespace Noema.Pipelines

open Noema.Lib PyJson

variable {F : Type}

/-- A `PipelineResult` (engine.py:46) refers to the first steps of a pipeline and to a dict. -/
structure PipelineResult where
  pipeline : Nat
  count : Nat
  finalOutput : Nat
  success : Bool

/-- What a result shows. -/
structure View (F : Type) where
  steps : List (StepFields F)
  finalOutput : Context F
  success : Bool

/-- A result that was returned, what it showed then, and what the result of a freshly built copy
of the pipeline shows for the same inputs. -/
structure Returned (F : Type) where
  result : PipelineResult
  shown : View F
  fresh : View F

/-- The pipelines, the dicts that serve as contexts, and the results so far. -/
structure State (F : Type) where
  pipelines : List (List (PipelineStep F)) := []
  contexts : List (Context F) := []
  returned : List (Returned F) := []

inductive Call (F : Type) where
  | newPipeline
  | addStep (i : Nat) (spec : StepSpec)
  | newContext (c : Context F)
  | execute (i : Nat) (initialContext : Option Nat) (inp : RunInput F)

namespace State

/-- What a result shows now. -/
def view (s : State F) (r : PipelineResult) : View F where
  steps := ((s.pipelines[r.pipeline]?.getD []).take r.count).map PipelineStep.fields
  finalOutput := s.contexts[r.finalOutput]?.getD []
  success := r.success

/-- The content of `initial_context or {}`; `none` when there is no such dict. -/
def content (s : State F) : Option Nat → Option (Context F)
  | none => some []
  | some k => s.contexts[k]?

end State

/-- The pipeline as `add_step` built it. -/
def rebuilt (steps : List (PipelineStep F)) : List (PipelineStep F) :=
  steps.map fun step => { spec := step.spec }

/-- The pipelines and the dicts after a run; a dict that is not empty is used itself, else a new
one. -/
def State.afterRun (s : State F) (i : Nat) (steps : List (PipelineStep F))
    (initialContext : Option Nat) (c : Context F) (inp : RunInput F) : State F :=
  let run := execute inp steps c
  { s with
    pipelines := s.pipelines.set i run.steps
    contexts := if c = [] then s.contexts ++ [run.context]
      else s.contexts.set (initialContext.getD s.contexts.length) run.context }

/-- The result that a run returns. -/
def State.resultOf (s : State F) (i : Nat) (steps : List (PipelineStep F))
    (initialContext : Option Nat) (c : Context F) (inp : RunInput F) : PipelineResult where
  pipeline := i
  count := (execute inp steps c).steps.length
  finalOutput := if c = [] then s.contexts.length else initialContext.getD s.contexts.length
  success := (execute inp steps c).success

/-- What is recorded of the result. -/
def State.record (s : State F) (i : Nat) (steps : List (PipelineStep F))
    (initialContext : Option Nat) (c : Context F) (inp : RunInput F) : Returned F :=
  let result := s.resultOf i steps initialContext c inp
  let fresh := execute inp (rebuilt steps) c
  { result := result
    shown := (s.afterRun i steps initialContext c inp).view result
    fresh := ⟨fresh.steps.map PipelineStep.fields, fresh.context, fresh.success⟩ }

/-- `execute` in a state; it returns nothing when an exception leaves it. -/
def State.execute (s : State F) (i : Nat) (steps : List (PipelineStep F))
    (initialContext : Option Nat) (c : Context F) (inp : RunInput F) : State F :=
  let s' := s.afterRun i steps initialContext c inp
  if (Pipelines.execute inp steps c).raised then s'
  else { s' with returned := s.returned ++ [s.record i steps initialContext c inp] }

/-- The calls on pipelines; one that refers to nothing does not happen. -/
def pipelines (F : Type) : System (State F) (Call F) where
  init := {}
  step s
    | .newPipeline => some { s with pipelines := s.pipelines ++ [[]] }
    | .addStep i spec => s.pipelines[i]?.map fun steps =>
      { s with pipelines := s.pipelines.set i (steps ++ [{ spec := spec }]) }
    | .newContext c => some { s with contexts := s.contexts ++ [c] }
    | .execute i initialContext inp =>
      match s.pipelines[i]?, s.content initialContext with
      | some steps, some c => some (s.execute i steps initialContext c inp)
      | _, _ => none

/-! ## Independence -/

/-- The status, the result and the error of a step. -/
def StepFields.core (f : StepFields F) : StepStatus × PyVal F × Option String :=
  (f.status, f.result, f.error)

/-- The same statuses, results, errors and success. -/
def View.Agrees (v w : View F) : Prop :=
  v.steps.map StepFields.core = w.steps.map StepFields.core ∧ v.success = w.success

/-- Every result shows what it showed when it was returned, and that agrees with the result of a
freshly built copy. -/
def State.Independent (s : State F) : Prop :=
  ∀ r ∈ s.returned, s.view r.result = r.shown ∧ r.shown.Agrees r.fresh

/-- The attempt that writes a result succeeds. -/
def StepTrace.completes : StepTrace F → Bool
  | .ran ⟨_, .returned _, _⟩ => true
  | _ => false

/-- The errors of the failed attempts. -/
def StepTrace.errors : StepTrace F → List String
  | .ran t => t.errors
  | _ => []

/-- The step carries no result that the run leaves in place, and no such error. -/
def StepFields.Clear (f : StepFields F) (t : StepTrace F) : Prop :=
  (t.completes = false → f.result = .dict []) ∧ (t.errors = [] → f.error = none)

/-- A run writes to the steps and the dict of a result only what they show already. -/
def Spares (i : Nat) (steps : List (PipelineStep F)) (initialContext : Option Nat) (c : Context F)
    (inp : RunInput F) (r : PipelineResult) : Prop :=
  let run := runTrace inp 0 (steps.map PipelineStep.spec) (dictInsert "task" inp.task c)
  (r.pipeline = i → ∀ p ∈ (steps.zip run.steps).zipIdx, p.2 < r.count →
    p.1.1.fields.after inp p.2 p.1.2 = p.1.1.fields) ∧
  (c ≠ [] → initialContext = some r.finalOutput → run.context = c)

/-- A run that leaves nothing of an earlier run in place, and spares the earlier results. -/
def State.Harmless (s : State F) : Call F → Prop
  | .execute i initialContext inp => ∀ steps c, s.pipelines[i]? = some steps →
    s.content initialContext = some c →
    let run := runTrace inp 0 (steps.map PipelineStep.spec) (dictInsert "task" inp.task c)
    (run.raised = false → ∀ p ∈ steps.zip run.steps, p.1.fields.Clear p.2) ∧
      ∀ r ∈ s.returned, Spares i steps initialContext c inp r.result
  | _ => True

/-! ## What a run writes -/

section Writes

variable (inp : RunInput F)

theorem core_after_iff (j : Nat) (f : StepFields F) {t : StepTrace F}
    (h : t.raised inp j = false) :
    (f.after inp j t).core = (({} : StepFields F).after inp j t).core ↔ f.Clear t := by
  cases t with
  | conditionRaised => cases h
  | skipped => simp [StepFields.after, StepFields.core, StepFields.Clear, StepTrace.completes,
      StepTrace.errors]
  | ran t =>
    obtain ⟨errors, ending, c⟩ := t
    have herror : errors.getLast?.or f.error = errors.getLast?.or none ↔
        (errors = [] → f.error = none) := by
      cases errors <;> simp [List.getLast?_cons]
    cases ending with
    | returned result =>
      simpa [StepFields.after, StepFields.afterAttempts, StepFields.core, StepFields.Clear,
        StepTrace.completes, StepTrace.errors, Ending.isInterrupted] using herror
    | exhausted =>
      simpa [StepFields.after, StepFields.afterAttempts, StepFields.core, StepFields.Clear,
        StepTrace.completes, StepTrace.errors, Ending.isInterrupted] using fun _ => herror
    | interrupted => cases h

/-- The steps that a run leaves agree with those of a fresh copy if and only if none carried
anything that it leaves in place. -/
theorem stepsAfter_agrees_iff (j : Nat) (steps : List (PipelineStep F)) (c : Context F)
    (h : (runTrace inp j (steps.map PipelineStep.spec) c).raised = false) :
    (stepsAfter inp j steps (runTrace inp j (steps.map PipelineStep.spec) c).steps).map
        (StepFields.core ∘ PipelineStep.fields) =
      (stepsAfter inp j (rebuilt steps)
        (runTrace inp j (steps.map PipelineStep.spec) c).steps).map
          (StepFields.core ∘ PipelineStep.fields) ↔
      ∀ p ∈ steps.zip (runTrace inp j (steps.map PipelineStep.spec) c).steps,
        p.1.fields.Clear p.2 := by
  induction steps generalizing j c with
  | nil => simp [rebuilt, stepsAfter]
  | cons step steps ih =>
    rw [List.map_cons, runTrace] at h ⊢
    dsimp only at h ⊢
    cases hraised : (stepTrace inp j step.spec c).raised inp j with
    | true => simp [hraised] at h
    | false =>
      simp only [hraised, Bool.false_eq_true, if_false] at h ⊢
      rw [List.zip_cons_cons, List.forall_mem_cons, ← ih _ _ h, ← core_after_iff inp j _ hraised]
      simp [rebuilt, stepsAfter]

theorem length_stepsAfter (j : Nat) (steps : List (PipelineStep F)) (ts : List (StepTrace F)) :
    (stepsAfter inp j steps ts).length = steps.length := by
  induction steps generalizing j ts with
  | nil => cases ts <;> rfl
  | cons step steps ih =>
    cases ts with
    | nil => rfl
    | cons t ts => simp [stepsAfter, ih]

/-- The first `n` steps show the same if and only if the run writes what they show already. -/
theorem take_stepsAfter_iff (j n : Nat) (steps : List (PipelineStep F))
    (ts : List (StepTrace F)) :
    ((stepsAfter inp j steps ts).take n).map PipelineStep.fields =
        (steps.take n).map PipelineStep.fields ↔
      ∀ p ∈ (steps.zip ts).zipIdx j, p.2 < j + n →
        p.1.1.fields.after inp p.2 p.1.2 = p.1.1.fields := by
  induction steps generalizing j n ts with
  | nil => cases ts <;> simp [stepsAfter]
  | cons step steps ih =>
    cases ts with
    | nil => simp [stepsAfter]
    | cons t ts =>
      cases n with
      | zero =>
        refine iff_of_true rfl fun p hp hlt => ?_
        exact absurd hlt (by simpa using List.le_snd_of_mem_zipIdx hp)
      | succ n =>
        rw [stepsAfter, List.take_succ_cons, List.take_succ_cons, List.map_cons, List.map_cons,
          List.cons.injEq, ih, List.zip_cons_cons, List.zipIdx_cons, List.forall_mem_cons]
        simp [Nat.add_assoc, Nat.add_comm 1]

end Writes

/-! ## The step of the system -/

/-- The result refers to a pipeline, steps and a dict that exist. -/
def State.Has (s : State F) (r : PipelineResult) : Prop :=
  r.pipeline < s.pipelines.length ∧ r.count ≤ (s.pipelines[r.pipeline]?.getD []).length ∧
    r.finalOutput < s.contexts.length

def State.Valid (s : State F) : Prop := ∀ r ∈ s.returned, s.Has r.result

section Execute

variable {s : State F} {i : Nat} {steps : List (PipelineStep F)} {initialContext : Option Nat}
  {c : Context F} (inp : RunInput F)

theorem view_execute (r : PipelineResult) :
    (s.execute i steps initialContext c inp).view r =
      (s.afterRun i steps initialContext c inp).view r := by
  rw [State.execute]
  split <;> rfl

theorem afterRun_pipelines :
    (s.afterRun i steps initialContext c inp).pipelines = s.pipelines.set i (stepsAfter inp 0 steps
      (runTrace inp 0 (steps.map PipelineStep.spec) (dictInsert "task" inp.task c)).steps) := by
  rw [← (runSteps_eq inp 0 steps _ true).1]
  rfl

theorem afterRun_contexts :
    (s.afterRun i steps initialContext c inp).contexts =
      let context := (runTrace inp 0 (steps.map PipelineStep.spec)
        (dictInsert "task" inp.task c)).context
      if c = [] then s.contexts ++ [context]
      else s.contexts.set (initialContext.getD s.contexts.length) context := by
  rw [← (runSteps_eq inp 0 steps _ true).2.1]
  rfl

/-- The dict of an earlier result has what it had, if and only if it was not passed or the run
leaves it as it was. -/
theorem finalOutput_afterRun_iff (hc : s.content initialContext = some c) {k : Nat}
    (hk : k < s.contexts.length) :
    (s.afterRun i steps initialContext c inp).contexts[k]?.getD [] = s.contexts[k]?.getD [] ↔
      (c ≠ [] → initialContext = some k → (runTrace inp 0 (steps.map PipelineStep.spec)
        (dictInsert "task" inp.task c)).context = c) := by
  rw [afterRun_contexts]
  dsimp only
  by_cases hnil : c = []
  · rw [if_pos hnil, List.getElem?_append_left hk]
    exact iff_of_true rfl fun h => absurd hnil h
  · cases initialContext with
    | none => exact absurd (Option.some.inj hc).symm hnil
    | some k' =>
      have hk' : s.contexts[k']? = some c := hc
      rw [if_neg hnil, Option.getD_some]
      by_cases heq : k' = k
      · subst heq
        rw [List.getElem?_set_self hk, hk', Option.getD_some, Option.getD_some]
        exact ⟨fun h _ _ => h, fun h => h hnil rfl⟩
      · rw [List.getElem?_set_ne heq]
        exact iff_of_true rfl fun _ h => absurd (Option.some.inj h) heq

/-- What an earlier result shows after a run is what it showed, if and only if the run writes to
its steps and its dict only what they show already. -/
theorem view_execute_iff (hsteps : s.pipelines[i]? = some steps)
    (hc : s.content initialContext = some c) {r : PipelineResult}
    (hr : r.finalOutput < s.contexts.length) :
    (s.execute i steps initialContext c inp).view r = s.view r ↔
      Spares i steps initialContext c inp r := by
  have hfinal := @finalOutput_afterRun_iff _ s i steps initialContext c inp hc _ hr
  rw [view_execute, Spares, ← hfinal, State.view, State.view, View.mk.injEq, and_iff_left rfl,
    and_congr_left_iff]
  intro _
  rw [afterRun_pipelines]
  -- a run of another pipeline writes to no step of the result
  by_cases hi : r.pipeline = i
  · subst hi
    rw [List.getElem?_set_self (List.getElem?_eq_some_iff.mp hsteps).1, hsteps, Option.getD_some,
      Option.getD_some, take_stepsAfter_iff]
    simp
  · rw [List.getElem?_set_ne (Ne.symm hi)]
    exact iff_of_true rfl fun h => absurd h hi

theorem has_afterRun (hsteps : s.pipelines[i]? = some steps) {r : PipelineResult} (h : s.Has r) :
    (s.afterRun i steps initialContext c inp).Has r := by
  obtain ⟨hpipeline, hcount, hdict⟩ := h
  refine ⟨?_, ?_, ?_⟩
  · rw [afterRun_pipelines, List.length_set]
    exact hpipeline
  · rw [afterRun_pipelines]
    by_cases hi : r.pipeline = i
    · subst hi
      rw [hsteps, Option.getD_some] at hcount
      rw [List.getElem?_set_self hpipeline, Option.getD_some, length_stepsAfter]
      exact hcount
    · rw [List.getElem?_set_ne (Ne.symm hi)]
      exact hcount
  · rw [afterRun_contexts]
    dsimp only
    split
    · rw [List.length_append]
      exact Nat.lt_add_right _ hdict
    · rw [List.length_set]
      exact hdict

theorem has_resultOf (hsteps : s.pipelines[i]? = some steps)
    (hc : s.content initialContext = some c) :
    (s.afterRun i steps initialContext c inp).Has (s.resultOf i steps initialContext c inp) := by
  have hi := (List.getElem?_eq_some_iff.mp hsteps).1
  refine ⟨?_, ?_, ?_⟩
  · rw [afterRun_pipelines, List.length_set]
    exact hi
  · show _ ≤ ((s.pipelines.set i (execute inp steps c).steps)[i]?.getD []).length
    rw [List.getElem?_set_self hi]
    exact Nat.le_refl _
  · rw [afterRun_contexts]
    dsimp only [State.resultOf]
    by_cases hnil : c = []
    · simp [hnil]
    · rw [if_neg hnil, if_neg hnil, List.length_set]
      cases initialContext with
      | none => exact absurd (Option.some.inj hc).symm hnil
      | some k => exact (List.getElem?_eq_some_iff.mp hc).1

/-- What the result of a run shows when it is returned. -/
theorem view_resultOf (hsteps : s.pipelines[i]? = some steps) :
    ((s.afterRun i steps initialContext c inp).view
        (s.resultOf i steps initialContext c inp)).steps =
      (execute inp steps c).steps.map PipelineStep.fields := by
  show (((s.pipelines.set i (execute inp steps c).steps)[i]?.getD []).take
    (execute inp steps c).steps.length).map PipelineStep.fields = _
  rw [List.getElem?_set_self (List.getElem?_eq_some_iff.mp hsteps).1, Option.getD_some,
    List.take_length]

/-- The result that a run returns shows what a freshly built copy gives, if and only if no step
carried anything that the run leaves in place. -/
theorem record_agrees_iff (hsteps : s.pipelines[i]? = some steps)
    (h : (runTrace inp 0 (steps.map PipelineStep.spec) (dictInsert "task" inp.task c)).raised =
      false) :
    (s.record i steps initialContext c inp).shown.Agrees
        (s.record i steps initialContext c inp).fresh ↔
      ∀ p ∈ steps.zip (runTrace inp 0 (steps.map PipelineStep.spec)
        (dictInsert "task" inp.task c)).steps, p.1.fields.Clear p.2 := by
  have hspec : (rebuilt steps).map PipelineStep.spec = steps.map PipelineStep.spec := by
    simp [rebuilt]
  obtain ⟨hrun, -, hraised, hsuccess⟩ := runSteps_eq inp 0 steps (dictInsert "task" inp.task c) true
  obtain ⟨hrun', -, hraised', hsuccess'⟩ :=
    runSteps_eq inp 0 (rebuilt steps) (dictInsert "task" inp.task c) true
  rw [hspec] at hrun' hraised' hsuccess'
  have hshown := @view_resultOf _ s i steps initialContext c inp hsteps
  show (((s.afterRun i steps initialContext c inp).view
      (s.resultOf i steps initialContext c inp)).steps.map StepFields.core =
    ((execute inp (rebuilt steps) c).steps.map PipelineStep.fields).map StepFields.core ∧
      (execute inp steps c).success = (execute inp (rebuilt steps) c).success) ↔ _
  rw [hshown, execute, execute, hrun, hrun', hsuccess (hraised.trans h),
    hsuccess' (hraised'.trans h), and_iff_left rfl, List.map_map, List.map_map,
    stepsAfter_agrees_iff inp 0 steps _ h]

theorem valid_execute (hvalid : s.Valid) (hsteps : s.pipelines[i]? = some steps)
    (hc : s.content initialContext = some c) :
    (s.execute i steps initialContext c inp).Valid := by
  have hold : ∀ r ∈ s.returned, (s.afterRun i steps initialContext c inp).Has r.result :=
    fun r hr => has_afterRun inp hsteps (hvalid r hr)
  rw [State.execute]
  split
  · exact hold
  · exact List.forall_mem_append.mpr ⟨hold, List.forall_mem_singleton.mpr (has_resultOf inp hsteps hc)⟩

/-- A run keeps the results independent if and only if it is harmless. -/
theorem independent_execute_iff (hvalid : s.Valid) (hsteps : s.pipelines[i]? = some steps)
    (hc : s.content initialContext = some c) (hind : s.Independent) :
    (s.execute i steps initialContext c inp).Independent ↔
      s.Harmless (.execute i initialContext inp) := by
  have hraised := (runSteps_eq inp 0 steps (dictInsert "task" inp.task c) true).2.2.1
  -- the results that were there
  have hold : (∀ r ∈ s.returned, (s.execute i steps initialContext c inp).view r.result = r.shown ∧
      r.shown.Agrees r.fresh) ↔ ∀ r ∈ s.returned, Spares i steps initialContext c inp r.result := by
    refine forall₂_congr fun r hr => ?_
    obtain ⟨hshown, hagrees⟩ := hind r hr
    rw [← hshown, view_execute_iff inp hsteps hc (hvalid r hr).2.2, and_iff_left (hshown ▸ hagrees)]
  have hharmless : s.Harmless (.execute i initialContext inp) ↔
      ((runTrace inp 0 (steps.map PipelineStep.spec) (dictInsert "task" inp.task c)).raised =
        false → ∀ p ∈ steps.zip (runTrace inp 0 (steps.map PipelineStep.spec)
          (dictInsert "task" inp.task c)).steps, p.1.fields.Clear p.2) ∧
      ∀ r ∈ s.returned, Spares i steps initialContext c inp r.result := by
    constructor
    · exact fun h => h steps c hsteps hc
    · intro h steps' c' hsteps' hc'
      cases hsteps.symm.trans hsteps'
      cases hc.symm.trans hc'
      exact h
  rw [hharmless, ← hold]
  cases h : (runTrace inp 0 (steps.map PipelineStep.spec) (dictInsert "task" inp.task c)).raised with
  | true =>
    have hreturned : (s.execute i steps initialContext c inp).returned = s.returned := by
      rw [State.execute, execute, hraised, h]
      rfl
    rw [State.Independent, hreturned, and_iff_right fun h => nomatch h]
  | false =>
    have hreturned : (s.execute i steps initialContext c inp).returned =
        s.returned ++ [s.record i steps initialContext c inp] := by
      rw [State.execute, execute, hraised, h]
      rfl
    rw [State.Independent, hreturned, List.forall_mem_append, List.forall_mem_singleton, and_comm]
    refine and_congr_left fun _ => ?_
    have hshown : (s.afterRun i steps initialContext c inp).view
        (s.record i steps initialContext c inp).result =
          (s.record i steps initialContext c inp).shown := rfl
    rw [view_execute, and_iff_right hshown, record_agrees_iff inp hsteps h,
      forall_prop_of_true rfl]

end Execute

/-! ## Runs -/

/-- A result shows the same when pipelines, steps or dicts come after those it refers to. -/
theorem view_addStep {s : State F} {i : Nat} {steps : List (PipelineStep F)} (spec : StepSpec)
    (hsteps : s.pipelines[i]? = some steps) {r : PipelineResult} (h : s.Has r) :
    ({ s with pipelines := s.pipelines.set i (steps ++ [{ spec := spec }]) } : State F).view r =
      s.view r := by
  by_cases hi : r.pipeline = i
  · subst hi
    have hcount := h.2.1
    rw [hsteps, Option.getD_some] at hcount
    rw [State.view, State.view, List.getElem?_set_self h.1, hsteps, Option.getD_some,
      Option.getD_some, List.take_append_of_le_length hcount]
  · simp [State.view, List.getElem?_set_ne (Ne.symm hi)]

theorem has_addStep {s : State F} {i : Nat} {steps : List (PipelineStep F)} (spec : StepSpec)
    (hsteps : s.pipelines[i]? = some steps) {r : PipelineResult} (h : s.Has r) :
    ({ s with pipelines := s.pipelines.set i (steps ++ [{ spec := spec }]) } : State F).Has r := by
  obtain ⟨hpipeline, hcount, hdict⟩ := h
  refine ⟨by simpa using hpipeline, ?_, hdict⟩
  by_cases hi : r.pipeline = i
  · subst hi
    rw [hsteps, Option.getD_some] at hcount
    simpa [hpipeline] using Nat.le_succ_of_le hcount
  · simpa [List.getElem?_set_ne (Ne.symm hi)] using hcount

/-- A call keeps the results independent if and only if it is harmless. -/
theorem independent_step_iff {s : State F} {call : Call F} {s' : State F} (hvalid : s.Valid)
    (hstep : (pipelines F).step s call = some s') :
    s'.Valid ∧ (s.Independent → (s'.Independent ↔ s.Harmless call)) := by
  -- a call that makes no result and leaves what each shows
  have hkeeps : ∀ {s' : State F}, s'.returned = s.returned →
      (∀ r, s.Has r → s'.Has r ∧ s'.view r = s.view r) →
      s'.Valid ∧ (s.Independent → (s'.Independent ↔ True)) := by
    intro s' hreturned hsame
    rw [State.Valid, State.Independent, State.Independent, hreturned, iff_true]
    refine ⟨fun r hr => (hsame _ (hvalid r hr)).1, fun hind r hr => ?_⟩
    rw [(hsame _ (hvalid r hr)).2]
    exact hind r hr
  cases call with
  | newPipeline =>
    cases hstep
    refine hkeeps rfl fun r hr => ?_
    have hget : (s.pipelines ++ [[]])[r.pipeline]? = s.pipelines[r.pipeline]? :=
      List.getElem?_append_left hr.1
    exact ⟨⟨by simpa using Nat.lt_succ_of_lt hr.1, by rw [hget]; exact hr.2.1, hr.2.2⟩,
      by rw [State.view, hget, State.view]⟩
  | addStep i spec =>
    obtain ⟨steps, hsteps, rfl⟩ := Option.map_eq_some_iff.mp hstep
    exact hkeeps rfl fun r hr => ⟨has_addStep spec hsteps hr, view_addStep spec hsteps hr⟩
  | newContext c =>
    cases hstep
    refine hkeeps rfl fun r hr => ⟨⟨hr.1, hr.2.1, by simpa using Nat.lt_succ_of_lt hr.2.2⟩, ?_⟩
    rw [State.view, State.view, List.getElem?_append_left hr.2.2]
  | execute i initialContext inp =>
    rw [pipelines] at hstep
    dsimp only at hstep
    split at hstep
    next steps c hsteps hc =>
      cases hstep
      exact ⟨valid_execute inp hvalid hsteps hc,
        independent_execute_iff inp hvalid hsteps hc⟩
    next => cases hstep

/-- In a run of calls every result has the statuses, results, errors and success of a freshly
built copy and keeps showing what it showed, if and only if every `execute` is harmless. -/
theorem independent_iff {calls : List (State F × Call F)} {s : State F}
    (run : (pipelines F).Run calls s) :
    System.Always State.Independent calls s ↔ System.Meets State.Harmless calls :=
  run.always_iff (I := State.Valid) (fun _ h => absurd h List.not_mem_nil)
    (fun _ _ _ hvalid hstep => (independent_step_iff hvalid hstep).1)
    (fun _ h => absurd h List.not_mem_nil)
    fun _ _ _ hvalid hind hstep => (independent_step_iff hvalid hstep).2 hind

/-- A pipeline with one function, and a run in which it raises. -/
def failedBuild : List (Call FloatText) :=
  [.newPipeline, .addStep 0 { name := "build", hasFunc := true },
    .execute 0 none { task := .str "api", call := fun _ _ c => (.raises "no space left", c) }]

/-- A second run, in which it succeeds. -/
def rebuild : List (Call FloatText) :=
  failedBuild ++
    [.execute 0 none { task := .str "api", call := fun _ _ c => (.returns (.dict []), c) }]

/-- For each result the statuses that it shows now, and those that it showed when it was
returned. -/
def State.statuses (s : State F) : List (List StepStatus × List StepStatus) :=
  s.returned.map fun r =>
    ((s.view r.result).steps.map StepFields.status, r.shown.steps.map StepFields.status)

/-- For each result the errors that it showed when it was returned, and those of a freshly built
copy. -/
def State.errors (s : State F) : List (List (Option String) × List (Option String)) :=
  s.returned.map fun r =>
    (r.shown.steps.map StepFields.error, r.fresh.steps.map StepFields.error)

/-- Results that show another status than when they were returned are not independent. -/
theorem not_independent_of_statuses {s : State F}
    (h : s.statuses.map Prod.fst ≠ s.statuses.map Prod.snd) : ¬ s.Independent := by
  intro hind
  refine h ?_
  rw [State.statuses, List.map_map, List.map_map]
  exact List.map_congr_left fun r hr => by simp [(hind r hr).1]

/-- A run of the function in which it succeeds. -/
def succeeds : RunInput FloatText where
  task := .str "api"
  call _ _ c := (.returns (.dict []), c)

/-- Two runs of a pipeline that both succeed are harmless, and their results independent; the second
run after a failed one is not harmless. -/
theorem independent_iff_twoRuns :
    (∃ calls s, (pipelines FloatText).Run calls s ∧ calls.map Prod.snd =
        [.execute 0 none succeeds, .execute 0 none succeeds,
          .addStep 0 { name := "build", hasFunc := true }, .newPipeline] ∧
      System.Always State.Independent calls s) ∧
    ∃ calls s, (pipelines FloatText).exec {} rebuild = some s ∧ (pipelines FloatText).Run calls s ∧
      ¬ System.Meets State.Harmless calls := by
  constructor
  · have hbuilt : (pipelines FloatText).Run [(_, .addStep 0 { name := "build", hasFunc := true }),
        (_, .newPipeline)] _ := .next (.next .start rfl) rfl
    have hrun : (pipelines FloatText).Run [(_, .execute 0 none succeeds),
        (_, .execute 0 none succeeds), _, _] _ := .next (.next hbuilt rfl) rfl
    refine ⟨_, _, hrun, rfl, (independent_iff hrun).mpr ?_⟩
    simp only [System.Meets, List.forall_mem_cons]
    refine ⟨?_, ?_, trivial, trivial, fun p hp => by cases hp⟩
    · -- the second run writes what the first one wrote
      intro steps c hsteps hc
      cases hsteps
      cases hc
      refine ⟨fun _ p hp => ?_, fun r hr => ?_⟩
      · cases List.mem_singleton.mp hp
        exact ⟨fun h => (by cases h), fun _ => rfl⟩
      · cases List.mem_singleton.mp hr
        refine ⟨fun _ p hp _ => ?_, fun hne => absurd rfl hne⟩
        cases List.mem_singleton.mp hp
        rfl
    · -- the first run finds steps that carry nothing, and no results
      intro steps c hsteps hc
      cases hsteps
      cases hc
      refine ⟨fun _ p hp => ?_, fun r hr => by cases hr⟩
      cases List.mem_singleton.mp hp
      exact ⟨fun _ => rfl, fun _ => rfl⟩
  · have hexec : ((pipelines FloatText).exec {} rebuild).map State.statuses =
        some [([.completed], [.failed]), ([.completed], [.completed])] := by
      decide +kernel
    obtain ⟨s, hs, hstatuses⟩ := Option.map_eq_some_iff.mp hexec
    obtain ⟨calls, run⟩ := System.reachable_of_exec rebuild hs
    refine ⟨calls, s, hs, run, fun hmeets => ?_⟩
    refine not_independent_of_statuses ?_ ((independent_iff run).mpr hmeets).1
    rw [hstatuses]
    decide

/-- After the second run the first result reports a completed step, and the second the error of
the first. -/
theorem rebuild_not_independent : ∃ s, (pipelines FloatText).Reachable s ∧
    s.statuses = [([.completed], [.failed]), ([.completed], [.completed])] ∧
    s.errors = [([some "no space left"], [some "no space left"]), ([some "no space left"], [none])] ∧
    ¬ s.Independent := by
  have hexec : ((pipelines FloatText).exec {} rebuild).map State.statuses =
      some [([.completed], [.failed]), ([.completed], [.completed])] := by
    decide +kernel
  have hexec' : ((pipelines FloatText).exec {} rebuild).map State.errors =
      some [([some "no space left"], [some "no space left"]),
        ([some "no space left"], [none])] := by
    decide +kernel
  obtain ⟨s, hs, hstatuses⟩ := Option.map_eq_some_iff.mp hexec
  rw [hs, Option.map_some] at hexec'
  have herrors := Option.some.inj hexec'
  refine ⟨s, System.reachable_of_exec rebuild hs, hstatuses, herrors,
    not_independent_of_statuses ?_⟩
  rw [hstatuses]
  decide

end Noema.Pipelines
