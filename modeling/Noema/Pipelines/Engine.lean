import Noema.Lib.PyInterp

/-!
# Pipelines (`pipelines/engine.py`)

`Pipeline.execute` runs the steps of a pipeline one after another. The step objects carry the
status, the result, the error and the duration of a run, and the list of steps of a `PipelineResult`
has the same objects. What the surroundings do in a run is a `RunInput`: the conditions, the kernels
and functions, the clock and the hooks, each of which may depend on the context.

- `attemptStep`, `attempts`, `runStep`, `runSteps`: the loops of `execute` as the source has them. A
  failed attempt writes its error into the step, and only the last one its status; an exception that
  is no `Exception` leaves `execute`.
- `StepTrace`, `runTrace`: what a run does with a step by its attempts only, whatever the object
  carries: the errors in their order, and how the attempts end.
- `StepFields.after`: what is written into the fields of a step by a run with this trace; fields
  that are not written keep what they had.
- `runStep_eq` and **`runSteps_eq`** connect the two: a run writes what its trace says, and its
  success is that no step fails.

The trace depends on the specification of the steps and on the context, so two runs of one pipeline
can be compared by their traces.
-/

namespace Noema.Pipelines

open Noema.Lib PyJson

/-- `StepStatus` (engine.py:18). -/
inductive StepStatus where
  | pending
  | running
  | completed
  | failed
  | skipped
  deriving DecidableEq, Repr

/-- The fields of a `PipelineStep` (engine.py:27) that `add_step` sets and `execute` reads; a
kernel name that is `None` is empty, and the timeout is as an f-string writes it. -/
structure StepSpec where
  name : String
  kernelName : String := ""
  hasFunc : Bool := false
  hasCondition : Bool := false
  retryCount : Int := 0
  timeoutSeconds : String := "30.0"

/-- The fields of a `PipelineStep` that `execute` changes. -/
structure StepFields (F : Type) where
  status : StepStatus := .pending
  result : PyVal F := .dict []
  error : Option String := none
  durationMs : ℚ := 0

/-- A `PipelineStep`. -/
structure PipelineStep (F : Type) where
  spec : StepSpec
  fields : StepFields F := {}

/-- The context of a run. -/
abbrev Context (F : Type) := List (String × PyVal F)

/-- How an awaited kernel or function ends; an exception that is no `Exception`, such as a
cancellation, leaves `execute`. -/
inductive Outcome (F : Type) where
  | returns (result : PyVal F)
  | timeout
  | raises (message : String)
  | interrupted

/-- What the surroundings do in a run: `call` is the kernel or function of a step in an attempt,
which may change the context too, and a condition may raise (`none`). -/
structure RunInput (F : Type) where
  task : PyVal F
  noema : Bool := false
  kernel : String → Bool := fun _ => false
  condition : Nat → Context F → Option Bool := fun _ _ => some true
  call : Nat → Nat → Context F → Outcome F × Context F
  durationMs : Nat → ℚ := fun _ => 0
  hookRaises : Nat → Bool := fun _ => false

/-- A step after a run of it; `raised` when an exception left `execute`. -/
structure StepEnd (F : Type) where
  fields : StepFields F
  context : Context F
  raised : Bool

/-- The steps after a run of them. -/
structure RunEnd (F : Type) where
  steps : List (PipelineStep F)
  context : Context F
  success : Bool
  raised : Bool

section Code

variable {F : Type} (inp : RunInput F)

/-- The body of the `try` of an attempt. -/
def attemptStep (j : Nat) (s : StepSpec) (attempt : Nat) (c : Context F) :
    Outcome F × Context F :=
  if s.kernelName ≠ "" ∧ inp.noema then
    if inp.kernel s.kernelName then inp.call j attempt c
    else (.returns (.dict [("error", .str ("Kernel '" ++ s.kernelName ++ "' not found"))]), c)
  else if s.hasFunc then inp.call j attempt c
  else (.returns (.dict [("status", .str "noop")]), c)

/-- The loop over the attempts, of which `left` are left. -/
def attempts (j : Nat) (s : StepSpec) : Nat → Nat → StepFields F → Context F → StepEnd F
  | 0, _, f, c => ⟨f, c, false⟩
  | left + 1, attempt, f, c =>
    let again (error : String) (c : Context F) : StepEnd F :=
      let f := { f with error := some error }
      attempts j s left (attempt + 1)
        (if (attempt : Int) < s.retryCount then f else { f with status := .failed }) c
    match attemptStep inp j s attempt c with
    | (.returns result, c) =>
      ⟨{ f with result := result, status := .completed }, dictInsert s.name result c, false⟩
    | (.timeout, c) => again ("Timeout after " ++ s.timeoutSeconds ++ "s") c
    | (.raises message, c) => again message c
    | (.interrupted, c) => ⟨f, c, true⟩

/-- The body of the loop of `execute` over the steps. -/
def runStep (j : Nat) (step : PipelineStep F) (c : Context F) : StepEnd F :=
  let { spec := s, fields := f } := step
  match if s.hasCondition then inp.condition j c else some true with
  | none => ⟨f, c, true⟩
  | some false => ⟨{ f with status := .skipped }, c, false⟩
  | some true =>
    let e := attempts inp j s (s.retryCount + 1).toNat 0 { f with status := .running } c
    if e.raised then e
    else ⟨{ e.fields with durationMs := inp.durationMs j }, e.context, inp.hookRaises j⟩

/-- The loop of `execute` over the steps, numbered from `j` on. -/
def runSteps : Nat → List (PipelineStep F) → Context F → Bool → RunEnd F
  | _, [], c, success => ⟨[], c, success, false⟩
  | j, step :: rest, c, success =>
    let e := runStep inp j step c
    let step := { step with fields := e.fields }
    if e.raised then ⟨step :: rest, e.context, success, true⟩
    else
      let run := runSteps (j + 1) rest e.context (success && decide (e.fields.status ≠ .failed))
      { run with steps := step :: run.steps }

/-- `execute` (engine.py:114) on a context. -/
def execute (steps : List (PipelineStep F)) (c : Context F) : RunEnd F :=
  runSteps inp 0 steps (dictInsert "task" inp.task c) true

end Code

/-! ## A run by its attempts -/

/-- How the attempts of a step end. -/
inductive Ending (F : Type) where
  | returned (result : PyVal F)
  | exhausted
  | interrupted

def Ending.isInterrupted {F : Type} : Ending F → Bool
  | .interrupted => true
  | _ => false

/-- The attempts of a step: the errors of those that failed, and how they end. -/
structure Trace (F : Type) where
  errors : List String
  ending : Ending F
  context : Context F

/-- What a run does with a step. -/
inductive StepTrace (F : Type) where
  | conditionRaised
  | skipped
  | ran (trace : Trace F)

section Traces

variable {F : Type} (inp : RunInput F)

/-- The attempts of a step, of which `left` are left. -/
def trace (j : Nat) (s : StepSpec) : Nat → Nat → Context F → Trace F
  | 0, _, c => ⟨[], .exhausted, c⟩
  | left + 1, attempt, c =>
    let failed (error : String) (c : Context F) : Trace F :=
      let rest := trace j s left (attempt + 1) c
      { rest with errors := error :: rest.errors }
    match attemptStep inp j s attempt c with
    | (.returns result, c) => ⟨[], .returned result, dictInsert s.name result c⟩
    | (.timeout, c) => failed ("Timeout after " ++ s.timeoutSeconds ++ "s") c
    | (.raises message, c) => failed message c
    | (.interrupted, c) => ⟨[], .interrupted, c⟩

/-- What a run that comes to the step with a context does with it. -/
def stepTrace (j : Nat) (s : StepSpec) (c : Context F) : StepTrace F :=
  match if s.hasCondition then inp.condition j c else some true with
  | none => .conditionRaised
  | some false => .skipped
  | some true => .ran (trace inp j s (s.retryCount + 1).toNat 0 c)

/-- Whether the step ends the run. -/
def StepTrace.raised (j : Nat) : StepTrace F → Bool
  | .conditionRaised => true
  | .skipped => false
  | .ran t => t.ending.isInterrupted || inp.hookRaises j

/-- The context after the step. -/
def StepTrace.contextAfter (c : Context F) : StepTrace F → Context F
  | .ran t => t.context
  | _ => c

/-- Whether the step fails. -/
def StepTrace.failed : StepTrace F → Bool
  | .ran ⟨errors, .exhausted, _⟩ => decide (errors ≠ [])
  | _ => false

/-- What the attempts write into the fields of the step. -/
def StepFields.afterAttempts (f : StepFields F) (t : Trace F) : StepFields F :=
  { f with
    status := match t.ending with
      | .returned _ => .completed
      | .exhausted => if t.errors = [] then f.status else .failed
      | .interrupted => f.status
    result := match t.ending with
      | .returned result => result
      | _ => f.result
    error := t.errors.getLast?.or f.error }

/-- What a run writes into the fields of the step. -/
def StepFields.after (j : Nat) (f : StepFields F) : StepTrace F → StepFields F
  | .conditionRaised => f
  | .skipped => { f with status := .skipped }
  | .ran t =>
    let f := ({ f with status := .running } : StepFields F).afterAttempts t
    if t.ending.isInterrupted then f else { f with durationMs := inp.durationMs j }

/-- What a run does with the steps that it comes to, and the context at its end. -/
structure RunTrace (F : Type) where
  steps : List (StepTrace F)
  context : Context F
  raised : Bool

/-- The run over the steps, numbered from `j` on. -/
def runTrace : Nat → List StepSpec → Context F → RunTrace F
  | _, [], c => ⟨[], c, false⟩
  | j, s :: rest, c =>
    let t := stepTrace inp j s c
    if t.raised inp j then ⟨[t], t.contextAfter c, true⟩
    else
      let run := runTrace (j + 1) rest (t.contextAfter c)
      { run with steps := t :: run.steps }

/-- The steps after a run, numbered from `j` on. -/
def stepsAfter : Nat → List (PipelineStep F) → List (StepTrace F) → List (PipelineStep F)
  | j, step :: rest, t :: ts =>
    { step with fields := step.fields.after inp j t } :: stepsAfter (j + 1) rest ts
  | _, steps, _ => steps

/-! ### The code and the traces -/

theorem errors_ne_nil {j : Nat} {s : StepSpec} {left attempt : Nat} {c : Context F}
    (h : (trace inp j s (left + 1) attempt c).ending = .exhausted) :
    (trace inp j s (left + 1) attempt c).errors ≠ [] := by
  rw [trace] at h ⊢
  generalize attemptStep inp j s attempt c = o at h ⊢
  obtain ⟨outcome, c'⟩ := o
  cases outcome with
  | returns result => cases h
  | timeout => exact List.cons_ne_nil _ _
  | raises message => exact List.cons_ne_nil _ _
  | interrupted => cases h

/-- One more failed attempt before the others. -/
theorem afterAttempts_failed (f : StepFields F) (error : String) (t : Trace F)
    (ht : t.ending = .exhausted → t.errors ≠ []) :
    ({ f with error := some error } : StepFields F).afterAttempts t =
      f.afterAttempts { t with errors := error :: t.errors } := by
  obtain ⟨errors, ending, c⟩ := t
  have herror : errors.getLast?.or (some error) = (error :: errors).getLast?.or f.error := by
    cases errors <;> simp [List.getLast?_cons]
  cases ending with
  | exhausted => simp [StepFields.afterAttempts, herror, ht rfl]
  | returned result => simp [StepFields.afterAttempts, herror]
  | interrupted => simp [StepFields.afterAttempts, herror]

/-- The loop over the attempts writes what their trace says. -/
theorem attempts_eq (j : Nat) (s : StepSpec) {left attempt : Nat}
    (hleft : left ≠ 0 → (attempt : Int) + left = s.retryCount + 1) (f : StepFields F)
    (c : Context F) :
    attempts inp j s left attempt f c =
      ⟨f.afterAttempts (trace inp j s left attempt c), (trace inp j s left attempt c).context,
        (trace inp j s left attempt c).ending.isInterrupted⟩ := by
  induction left generalizing attempt f c with
  | zero => simp [attempts, trace, StepFields.afterAttempts, Ending.isInterrupted]
  | succ left ih =>
    have hcount := hleft (Nat.succ_ne_zero left)
    -- a failed attempt: the last one marks the step, and the others are as if it had the error
    have hagain : ∀ (error : String) (c : Context F),
        attempts inp j s left (attempt + 1)
          (if (attempt : Int) < s.retryCount then { f with error := some error }
            else { f with error := some error, status := .failed }) c =
        ⟨f.afterAttempts { trace inp j s left (attempt + 1) c with
            errors := error :: (trace inp j s left (attempt + 1) c).errors },
          (trace inp j s left (attempt + 1) c).context,
          (trace inp j s left (attempt + 1) c).ending.isInterrupted⟩ := by
      intro error c
      rw [ih (by omega)]
      cases left with
      | zero =>
        rw [if_neg (by omega)]
        simp [trace, StepFields.afterAttempts]
      | succ left =>
        rw [if_pos (by omega), afterAttempts_failed _ _ _ (errors_ne_nil inp)]
    rw [attempts, trace]
    rcases attemptStep inp j s attempt c with ⟨_ | _ | _ | _, c'⟩
    · simp [StepFields.afterAttempts, Ending.isInterrupted]
    · exact hagain _ c'
    · exact hagain _ c'
    · simp [StepFields.afterAttempts, Ending.isInterrupted]

theorem runStep_eq (j : Nat) (step : PipelineStep F) (c : Context F) :
    runStep inp j step c =
      ⟨step.fields.after inp j (stepTrace inp j step.spec c),
        (stepTrace inp j step.spec c).contextAfter c, (stepTrace inp j step.spec c).raised inp j⟩ := by
  obtain ⟨s, f⟩ := step
  rw [runStep, stepTrace]
  dsimp only
  rcases (if s.hasCondition = true then inp.condition j c else some true) with _ | _ | _
  · rfl
  · rfl
  · dsimp only
    rw [attempts_eq inp j s (by omega)]
    dsimp only
    cases hend : (trace inp j s (s.retryCount + 1).toNat 0 c).ending.isInterrupted <;>
      simp [StepFields.after, StepTrace.contextAfter, StepTrace.raised, hend]

/-- The status does not depend on what the step carried. -/
theorem failed_after (j : Nat) (f : StepFields F) {t : StepTrace F}
    (h : t.raised inp j = false) : (f.after inp j t).status = .failed ↔ t.failed = true := by
  cases t with
  | conditionRaised => cases h
  | skipped => simp [StepFields.after, StepTrace.failed]
  | ran t =>
    obtain ⟨errors, ending, c⟩ := t
    cases ending with
    | returned result =>
      simp [StepFields.after, StepFields.afterAttempts, StepTrace.failed, Ending.isInterrupted]
    | exhausted =>
      cases errors <;>
        simp [StepFields.after, StepFields.afterAttempts, StepTrace.failed, Ending.isInterrupted]
    | interrupted => cases h

/-- A run writes what its trace says, and its success is that no step fails. -/
theorem runSteps_eq (j : Nat) (steps : List (PipelineStep F)) (c : Context F) (success : Bool) :
    (runSteps inp j steps c success).steps =
        stepsAfter inp j steps (runTrace inp j (steps.map PipelineStep.spec) c).steps ∧
      (runSteps inp j steps c success).context =
        (runTrace inp j (steps.map PipelineStep.spec) c).context ∧
      (runSteps inp j steps c success).raised =
        (runTrace inp j (steps.map PipelineStep.spec) c).raised ∧
      ((runSteps inp j steps c success).raised = false → (runSteps inp j steps c success).success =
        (success && (runTrace inp j (steps.map PipelineStep.spec) c).steps.all (!·.failed))) := by
  induction steps generalizing j c success with
  | nil => exact ⟨rfl, rfl, rfl, fun _ => (Bool.and_true success).symm⟩
  | cons step rest ih =>
    rw [runSteps, runStep_eq, List.map_cons, runTrace]
    dsimp only
    -- an exception that leaves a step leaves the others as they were
    cases hraised : (stepTrace inp j step.spec c).raised inp j with
    | true =>
      refine ⟨?_, rfl, rfl, fun h => absurd h (by simp)⟩
      cases rest <;> rfl
    | false =>
      simp only [Bool.false_eq_true, if_false]
      obtain ⟨hsteps, hcontext, hraised', hsuccess⟩ := ih (j + 1)
        ((stepTrace inp j step.spec c).contextAfter c) (success && decide
          ((step.fields.after inp j (stepTrace inp j step.spec c)).status ≠ .failed))
      refine ⟨?_, hcontext, hraised', fun h => ?_⟩
      · rw [hsteps]
        rfl
      · rw [hsuccess h, List.all_cons, Bool.and_assoc]
        congr 2
        rw [Bool.eq_iff_iff, decide_eq_true_iff, Bool.not_eq_true', ← Bool.not_eq_true,
          not_iff_not]
        exact failed_after inp j step.fields hraised

end Traces

end Noema.Pipelines
