import Noema.Lib.PyRuntime

/-!
# Self-healing (`healer/engine.py`)

`execute_with_healing` calls a function until it succeeds, for each action of its strategy as often
as the strategy says. Between two attempts it waits, for a time that doubles with every attempt. The
wait is computed and made in the handler of the exception (engine.py:144), so what it raises leaves
the call, with neither a success nor a failure counted.

The local variables and the calls that were made are the state of a computation (`Healing`), so that
what has been done stays when something raises. A call of the function may return, raise or time
out, depending on how often it was called before.

- `tryAttempt_cases`: the four ways an attempt can end: it succeeds; it raises, and the action does
  not retry; it raises and waits; it raises, and the wait raises.
- `retries_cases`: how the attempts of an action that retries end, by induction on their number.
  `applyActions_cases` goes on from there over the actions.
- `backoff_eq_ok_iff`: a wait raises when the backoff is not a number, and from the attempt 1024 on,
  where `2**attempt` is no float.
- **`accounted_iff`**: a call is accounted for if and only if its first action does not go on
  retrying over a wait that raises (`Patient`).
- `overflow_unaccounted`: a strategy that retries 1025 times.

How long a wait takes is not modelled.
-/

namespace Noema.Healer

open Noema.Lib

/-! ## Waiting -/

/-- A `float`. -/
inductive Double where
  | nan
  | infinite (negative : Bool)
  | finite (q : ℚ) (bounded : |q| < 2 ^ 1024)

namespace Double

/-- The product with a power of two. It is exact, unless it leaves the format. -/
def shift (attempt : Nat) : Double → Double
  | .nan => .nan
  | .infinite negative => .infinite negative
  | .finite q _ =>
    if h : |q * 2 ^ attempt| < 2 ^ 1024 then .finite (q * 2 ^ attempt) h else .infinite (q < 0)

/-- `x * (2**attempt)`. The power is converted to a float, which may overflow. -/
def scale (x : Double) (attempt : Nat) : Except PyExc Double :=
  if 1024 ≤ attempt then .error (.overflowError "int too large to convert to float")
  else .ok (x.shift attempt)

/-- `x < y`. -/
def lt : Double → Double → Bool
  | .finite p _, .finite q _ => p < q
  | .finite .., .infinite negative => !negative
  | .infinite negative, .finite .. => negative
  | .infinite negative, .infinite negative' => negative && !negative'
  | .nan, _ | _, .nan => false

/-- `min(x, y)`: the second one only if it is less. -/
def min (x y : Double) : Double := if y.lt x then y else x

end Double

/-- `await asyncio.sleep(delay)`, as far as it comes back: time is not modelled, and a delay of plus
infinity, after which the event loop never wakes the coroutine, counts as one that is over. So what
is said of a call with such a delay (`backoff_base` and `backoff_max` both infinite, or overflowing
to it) is said of its bookkeeping if the wait were to end. -/
def sleep : Double → Except PyExc Unit
  | .nan => .error (.valueError "Invalid delay: NaN (not a number)")
  | .infinite _ | .finite .. => .ok ()

/-! ## The healer -/

/-- `HealingAction`. -/
inductive HealingAction where
  | retry
  | retryWithContext
  | fallback
  | rollback
  | skip
  | escalate
  deriving DecidableEq

/-- `action.value`. -/
def HealingAction.value : HealingAction → String
  | .retry => "retry"
  | .retryWithContext => "retry_with_context"
  | .fallback => "fallback"
  | .rollback => "rollback"
  | .skip => "skip"
  | .escalate => "escalate"

/-- `action in (HealingAction.RETRY, HealingAction.RETRY_WITH_CONTEXT)`. -/
def HealingAction.retries : HealingAction → Bool
  | .retry | .retryWithContext => true
  | .fallback | .rollback | .skip | .escalate => false

/-- `HealingResult`, without its id and its time. -/
structure HealingResult where
  originalError : String
  actionTaken : String
  succeeded : Bool
  recoveryTimeMs : ℚ := 0
  details : String := ""

/-- `HealingStrategy`, as far as a call reads it. -/
structure HealingStrategy where
  maxRetries : Nat := 3
  backoffBase : Double := .finite 1 (by decide +kernel)
  backoffMax : Double := .finite 30 (by decide +kernel)
  actions : List HealingAction := [.retry, .retryWithContext, .fallback]

/-- What a healer keeps. -/
structure SelfHealer where
  history : List HealingResult := []
  successCount : Nat := 0
  failureCount : Nat := 0
  strategiesApplied : List (String × Nat) := []

/-- `_healing_context`. -/
structure HealingContext where
  previousError : String
  attempt : Nat
  retryCount : Nat

/-- A call of `execute_with_healing`: what the function does each time it is called, which may be
that it times out, how long that takes, and the arguments. `None` is `none`. -/
structure HealedCall (V : Type) where
  func : Nat → Except PyExc (Option V)
  elapsedMs : Nat → ℚ := fun _ => 0
  supportsContext : Bool := false
  fallback : Option V := none
  onHeal : Option (HealingResult → Except PyExc Unit) := none

/-- The healer during a call, the local variables, and the contexts that the function was called
with. -/
structure Healing where
  healer : SelfHealer
  lastError : Option PyExc := none
  healingContext : Option HealingContext := none
  calls : List (Option HealingContext) := []

/-- `d[key] = d.get(key, 0) + 1`. -/
def increment (key : String) : List (String × Nat) → List (String × Nat)
  | [] => [(key, 1)]
  | (k, n) :: counts => if k = key then (k, n + 1) :: counts else (k, n) :: increment key counts

namespace Healing

variable (s : Healing)

/-- The function is called. -/
def called (context : Option HealingContext) : Healing := { s with calls := s.calls ++ [context] }

/-- `self._success_count += 1`. -/
def countSuccess : Healing :=
  { s with healer := { s.healer with successCount := s.healer.successCount + 1 } }

/-- `self._failure_count += 1`. -/
def countFailure : Healing :=
  { s with healer := { s.healer with failureCount := s.healer.failureCount + 1 } }

/-- `self.history.append(hr)`. -/
def append (hr : HealingResult) : Healing :=
  { s with healer := { s.healer with history := s.healer.history ++ [hr] } }

/-- An attempt for an action has raised. -/
def failed (action : HealingAction) (e : PyExc) : Healing :=
  { s with
    healer := { s.healer with
      strategiesApplied := increment action.value s.healer.strategiesApplied }
    lastError := some e }

/-- The context that the next calls get. -/
def withContext (e : PyExc) (attempt : Nat) : Healing :=
  { s with healingContext := some ⟨e.msg, attempt, attempt⟩ }

end Healing

section Call

variable {V : Type} (strategy : HealingStrategy) (call : HealedCall V)

/-- The wait after an attempt. -/
def backoff (attempt : Nat) : Except PyExc Unit := do
  let scaled ← strategy.backoffBase.scale attempt
  sleep (scaled.min strategy.backoffMax)

/-- `_notify`. -/
def notify (callback : HealingResult → Except PyExc Unit) (hr : HealingResult) : PyM Healing Unit :=
  PyM.tryCatch (PyM.lift (callback hr)) fun _ => pure ()

/-- A result goes into the history, and the callback is told. -/
def settle (hr : HealingResult) : PyM Healing Unit := do
  PyM.modify (·.append hr)
  match call.onHeal with
  | some callback => notify callback hr
  | none => pure ()

/-- The call of the function. -/
def invoke : PyM Healing (Option V) := do
  let s ← PyM.get
  PyM.modify (·.called (if call.supportsContext then s.healingContext else none))
  PyM.lift (call.func s.calls.length)

/-- The body of the `try`. -/
def attemptOnce (action : HealingAction) (attempt : Nat) : PyM Healing (Option (Option V)) := do
  let s ← PyM.get
  let result ← invoke call
  PyM.modify (·.countSuccess)
  settle call
    { originalError := (s.lastError.map PyExc.msg).getD ""
      actionTaken := "succeeded_on_" ++ action.value ++ "_attempt_" ++ toString (attempt + 1)
      succeeded := true
      recoveryTimeMs := call.elapsedMs s.calls.length }
  pure (some result)

/-- The handler. With `none` the loop goes on. -/
def heal (action : HealingAction) (attempt : Nat) (e : PyExc) :
    PyM Healing (Option (Option V)) := do
  PyM.modify (·.failed action e)
  match action with
  | .retry => do
    -- what the wait raises leaves the handler, with nothing counted
    PyM.lift (backoff strategy attempt)
    pure none
  | .retryWithContext => do
    PyM.modify (·.withContext e attempt)
    PyM.lift (backoff strategy attempt)
    pure none
  | .fallback => do
    PyM.modify (·.countFailure)
    settle call
      { originalError := e.msg, actionTaken := "fallback", succeeded := call.fallback.isSome
        details := "Used fallback value" }
    pure (some call.fallback)
  | .skip => do
    PyM.modify (·.countFailure)
    settle call
      { originalError := e.msg, actionTaken := "skip", succeeded := false
        details := "Skipped due to failure" }
    -- a call that is skipped returns `None`
    pure (some none)
  | .rollback => do
    PyM.modify (·.countFailure)
    settle call
      { originalError := e.msg, actionTaken := "rollback", succeeded := false
        details := "Rollback requested" }
    PyM.raise e
  | .escalate => do
    PyM.modify (·.countFailure)
    settle call
      { originalError := e.msg, actionTaken := "escalate", succeeded := false
        details := "Escalating to caller" }
    PyM.raise e

/-- An attempt for an action. -/
def tryAttempt (action : HealingAction) (attempt : Nat) : PyM Healing (Option (Option V)) :=
  PyM.tryCatch (attemptOnce call action attempt) (heal strategy call action attempt)

/-- The loop over the attempts. -/
def attemptAll (action : HealingAction) : List Nat → PyM Healing (Option (Option V))
  | [] => pure none
  | attempt :: attempts => do
    match ← tryAttempt strategy call action attempt with
    | some value => pure (some value)
    | none => attemptAll action attempts

/-- The loop over the actions. -/
def applyActions : List HealingAction → PyM Healing (Option (Option V))
  | [] => pure none
  | action :: actions => do
    match ← attemptAll strategy call action (List.range' 0 strategy.maxRetries) with
    | some value => pure (some value)
    | none => applyActions actions

/-- All strategies are exhausted. -/
def exhausted : PyM Healing (Option V) := do
  let s ← PyM.get
  PyM.modify (·.countFailure)
  settle call
    { originalError := (s.lastError.map PyExc.msg).getD "None"
      actionTaken := "all_strategies_exhausted", succeeded := false }
  match s.lastError with
  | some e => PyM.raise e
  | none => pure call.fallback

/-- `execute_with_healing` (engine.py:144). -/
def executeWithHealing : PyM Healing (Option V) := do
  match ← applyActions strategy call strategy.actions with
  | some value => pure value
  | none => exhausted call

/-- The result of a call for a healer, and what it leaves. -/
def healed (healer : SelfHealer) : Except PyExc (Option V) × Healing :=
  executeWithHealing strategy call { healer }

end Call

/-! ## When a call is accounted for -/

section Accounting

variable {V : Type} (strategy : HealingStrategy) (call : HealedCall V)

/-- The call of the function with this number raises. -/
def HealedCall.Raises (k : Nat) : Prop := ∃ e, call.func k = .error e

/-- One of the calls that were made has succeeded. -/
def SomeSuccess (s : Healing) : Prop := ∃ k < s.calls.length, ¬ call.Raises k

/-- A call is accounted for: the function is called until it succeeds, at most so often, and its
value is returned; there is one more result and one more success or failure. -/
structure Accounted (healer : SelfHealer) : Prop where
  bounded : (healed strategy call healer).2.calls.length ≤
    strategy.actions.length * strategy.maxRetries
  untilSuccess : ∀ k, k + 1 < (healed strategy call healer).2.calls.length → call.Raises k
  value : ∀ k < (healed strategy call healer).2.calls.length, ∀ v, call.func k = .ok v →
    (healed strategy call healer).1 = .ok v
  history : ∃ hr, (healed strategy call healer).2.healer.history = healer.history ++ [hr]
  succeeded : SomeSuccess call (healed strategy call healer).2 →
    (healed strategy call healer).2.healer.successCount = healer.successCount + 1 ∧
    (healed strategy call healer).2.healer.failureCount = healer.failureCount
  failed : ¬ SomeSuccess call (healed strategy call healer).2 →
    (healed strategy call healer).2.healer.successCount = healer.successCount ∧
    (healed strategy call healer).2.healer.failureCount = healer.failureCount + 1

/-- The first action does not retry after a failure with a backoff that is not a number, nor after
1025 failures: these are the two waits that raise. (A wait that never ends, see `sleep`, raises
nothing.) -/
def Patient : Prop :=
  ∀ action ∈ strategy.actions.head?, action.retries = true →
    ¬ (strategy.backoffBase = .nan ∧ 1 ≤ strategy.maxRetries ∧ call.Raises 0) ∧
    ¬ (1025 ≤ strategy.maxRetries ∧ ∀ k ≤ 1024, call.Raises k)

end Accounting

/-! ## Waits -/

/-- Only what is not a number becomes what is not a number. -/
theorem Double.shift_eq_nan_iff (x : Double) (attempt : Nat) : x.shift attempt = .nan ↔ x = .nan := by
  cases x with
  | nan => exact Iff.rfl
  | infinite negative => exact Iff.rfl
  | finite q bounded =>
    rw [Double.shift]
    split <;> simp

theorem sleep_min_eq_ok_iff (x y : Double) : sleep (x.min y) = .ok () ↔ x ≠ .nan := by
  rw [Double.min]
  split
  · rename_i hlt
    cases x <;> cases y <;> first | exact absurd hlt Bool.false_ne_true | simp [sleep]
  · cases x <;> simp [sleep]

/-- A wait raises when the backoff is not a number, and from the attempt 1024 on. -/
theorem backoff_eq_ok_iff (strategy : HealingStrategy) (attempt : Nat) :
    backoff strategy attempt = .ok () ↔ strategy.backoffBase ≠ .nan ∧ attempt < 1024 := by
  rw [backoff, Double.scale]
  by_cases hattempt : attempt < 1024
  · rw [if_neg (by omega), ok_bind, sleep_min_eq_ok_iff, ne_eq, Double.shift_eq_nan_iff]
    simp [hattempt]
  · rw [if_pos (by omega)]
    simp [hattempt]

/-! ## Attempts -/

section Attempts

variable {V : Type} {strategy : HealingStrategy} {call : HealedCall V} {healer : SelfHealer}
  {s : Healing}

variable (call healer) in
/-- The call goes on: nothing is counted, and the function has only raised. -/
structure Ongoing (s : Healing) : Prop where
  history : s.healer.history = healer.history
  successes : s.healer.successCount = healer.successCount
  failures : s.healer.failureCount = healer.failureCount
  raised : ∀ k < s.calls.length, call.Raises k

variable (call healer) in
/-- The call is over, and accounted for. -/
structure Settled (result : Except PyExc (Option V)) (s : Healing) : Prop where
  history : ∃ hr, s.healer.history = healer.history ++ [hr]
  untilSuccess : ∀ k, k + 1 < s.calls.length → call.Raises k
  outcome :
    (∃ v, s.calls ≠ [] ∧ call.func (s.calls.length - 1) = .ok v ∧ result = .ok v ∧
      s.healer.successCount = healer.successCount + 1 ∧
      s.healer.failureCount = healer.failureCount) ∨
    ((∀ k < s.calls.length, call.Raises k) ∧
      s.healer.successCount = healer.successCount ∧
      s.healer.failureCount = healer.failureCount + 1)

/-- The callback cannot disturb what is settled. -/
theorem settle_eq (hr : HealingResult) : settle call hr s = (.ok (), s.append hr) := by
  rw [settle, PyM.bind_ok (PyM.modify_apply _ _)]
  cases call.onHeal with
  | none => rfl
  | some callback =>
    simp only [notify, PyM.tryCatch, PyM.lift_apply]
    cases callback hr <;> rfl

variable (call s) in
theorem invoke_eq : ∃ context, invoke call s = (call.func s.calls.length, s.called context) :=
  ⟨_, rfl⟩

/-- A failure is settled. -/
theorem Ongoing.settled_failure (h : Ongoing call healer s) (hr : HealingResult)
    (result : Except PyExc (Option V)) : Settled call healer result (s.countFailure.append hr) where
  history := ⟨hr, by rw [← h.history]; rfl⟩
  untilSuccess k hk := h.raised k (Nat.lt_of_succ_lt hk)
  outcome := .inr ⟨h.raised, h.successes, congrArg (· + 1) h.failures⟩

/-- A success is settled. -/
theorem Ongoing.settled_success (h : Ongoing call healer s) {v : Option V}
    (hv : call.func s.calls.length = .ok v) (context : Option HealingContext)
    (hr : HealingResult) :
    Settled call healer (.ok v) ((s.called context).countSuccess.append hr) where
  history := ⟨hr, by rw [← h.history]; rfl⟩
  untilSuccess k hk := by
    have hlength : ((s.called context).countSuccess.append hr).calls.length =
        s.calls.length + 1 := List.length_append
    exact h.raised k (by omega)
  outcome := by
    refine .inl ⟨v, by simp [Healing.append, Healing.countSuccess, Healing.called], ?_, rfl,
      congrArg (· + 1) h.successes, h.failures⟩
    show call.func ((s.calls ++ [context]).length - 1) = .ok v
    rw [List.length_append]
    exact hv

/-- The function has raised once more. -/
theorem Ongoing.called (h : Ongoing call healer s) (hraises : call.Raises s.calls.length)
    (context : Option HealingContext) : Ongoing call healer (s.called context) where
  history := h.history
  successes := h.successes
  failures := h.failures
  raised k hk := by
    have hlength : (s.called context).calls.length = s.calls.length + 1 := List.length_append
    rcases Nat.lt_succ_iff_lt_or_eq.mp (hlength ▸ hk) with hk | rfl
    · exact h.raised k hk
    · exact hraises

variable (call healer) in
/-- A loop or an attempt ends with a return or an exception that is settled, after at most `n`
calls. -/
def Ends (run : Except PyExc (Option (Option V)) × Healing) (n : Nat) : Prop :=
  ∃ result, run.1 = result.map some ∧ Settled call healer result run.2 ∧ run.2.calls.length ≤ n

variable (call healer) in
/-- It goes on after `n` calls. -/
def GoesOn (run : Except PyExc (Option (Option V)) × Healing) (n : Nat) : Prop :=
  run.1 = .ok none ∧ Ongoing call healer run.2 ∧ run.2.calls.length = n

variable (call healer) in
/-- It raises, with nothing accounted. -/
def Escapes (run : Except PyExc (Option (Option V)) × Healing) : Prop :=
  (∃ e, run.1 = .error e) ∧ Ongoing call healer run.2

theorem GoesOn.eq {run : Except PyExc (Option (Option V)) × Healing} {n : Nat}
    (h : GoesOn call healer run n) : run = (.ok none, run.2) := Prod.ext h.1 rfl

/-- What settles before it returns or raises ends the call. -/
theorem ends_of_settle (h : Ongoing call healer s) (hr : HealingResult)
    (result : Except PyExc (Option V)) {x : PyM Healing (Option (Option V))}
    (hx : ∀ s, x s = (result.map some, s)) :
    Ends call healer
      ((do PyM.modify (·.countFailure); settle call hr; x : PyM Healing (Option (Option V))) s)
      s.calls.length := by
  rw [PyM.bind_ok (PyM.modify_apply _ _), PyM.bind_ok (settle_eq hr), hx]
  exact ⟨result, rfl, h.settled_failure hr result, le_refl _⟩

/-- The handler ends the call, unless the action retries; then it waits. -/
theorem heal_cases (action : HealingAction) (attempt : Nat) (e : PyExc)
    (hfailed : Ongoing call healer (s.failed action e)) :
    (action.retries = false ∧
      Ends call healer (heal strategy call action attempt e s) s.calls.length) ∨
    (action.retries = true ∧ backoff strategy attempt = .ok () ∧
      GoesOn call healer (heal strategy call action attempt e s) s.calls.length) ∨
    (action.retries = true ∧ backoff strategy attempt ≠ .ok () ∧
      Escapes call healer (heal strategy call action attempt e s)) := by
  -- a context for the next calls does not change what the invariant speaks of
  have hcontext : Ongoing call healer ((s.failed action e).withContext e attempt) :=
    ⟨hfailed.history, hfailed.successes, hfailed.failures, hfailed.raised⟩
  cases action with
  | retry =>
    refine .inr ?_
    rw [heal, PyM.bind_ok (PyM.modify_apply _ _)]
    rcases hwait : backoff strategy attempt with e' | ⟨⟩
    · refine .inr ⟨rfl, by simp, ?_⟩
      rw [PyM.bind_error (PyM.lift_apply _ _)]
      exact ⟨⟨e', rfl⟩, hfailed⟩
    · refine .inl ⟨rfl, rfl, ?_⟩
      rw [PyM.bind_ok (PyM.lift_apply _ _)]
      exact ⟨rfl, hfailed, rfl⟩
  | retryWithContext =>
    refine .inr ?_
    rw [heal, PyM.bind_ok (PyM.modify_apply _ _)]
    rcases hwait : backoff strategy attempt with e' | ⟨⟩
    · refine .inr ⟨rfl, by simp, ?_⟩
      rw [PyM.bind_ok (PyM.modify_apply _ _), PyM.bind_error (PyM.lift_apply _ _)]
      exact ⟨⟨e', rfl⟩, hcontext⟩
    · refine .inl ⟨rfl, rfl, ?_⟩
      rw [PyM.bind_ok (PyM.modify_apply _ _), PyM.bind_ok (PyM.lift_apply _ _)]
      exact ⟨rfl, hcontext, rfl⟩
  | fallback =>
    refine .inl ⟨rfl, ?_⟩
    rw [heal, PyM.bind_ok (PyM.modify_apply _ _)]
    -- the other actions settle the call, with a value or with an exception
    exact ends_of_settle hfailed _ (.ok call.fallback) fun _ => rfl
  | skip =>
    refine .inl ⟨rfl, ?_⟩
    rw [heal, PyM.bind_ok (PyM.modify_apply _ _)]
    exact ends_of_settle hfailed _ (.ok none) fun _ => rfl
  | rollback =>
    refine .inl ⟨rfl, ?_⟩
    rw [heal, PyM.bind_ok (PyM.modify_apply _ _)]
    exact ends_of_settle hfailed _ (.error e) fun _ => rfl
  | escalate =>
    refine .inl ⟨rfl, ?_⟩
    rw [heal, PyM.bind_ok (PyM.modify_apply _ _)]
    exact ends_of_settle hfailed _ (.error e) fun _ => rfl

/-- An attempt succeeds, or raises and ends the call, or raises and waits, or raises over its wait.
-/
theorem tryAttempt_cases (h : Ongoing call healer s) (action : HealingAction) (attempt : Nat) :
    (¬ call.Raises s.calls.length ∧
      Ends call healer (tryAttempt strategy call action attempt s) (s.calls.length + 1)) ∨
    (call.Raises s.calls.length ∧ action.retries = false ∧
      Ends call healer (tryAttempt strategy call action attempt s) (s.calls.length + 1)) ∨
    (call.Raises s.calls.length ∧ action.retries = true ∧ backoff strategy attempt = .ok () ∧
      GoesOn call healer (tryAttempt strategy call action attempt s) (s.calls.length + 1)) ∨
    (call.Raises s.calls.length ∧ action.retries = true ∧ backoff strategy attempt ≠ .ok () ∧
      Escapes call healer (tryAttempt strategy call action attempt s)) := by
  obtain ⟨context, hinvoke⟩ := invoke_eq call s
  have hlength : (s.called context).calls.length = s.calls.length + 1 := List.length_append
  rw [tryAttempt, PyM.tryCatch, attemptOnce, PyM.bind_ok (PyM.get_apply _)]
  rcases hfunc : call.func s.calls.length with e | v
  · rw [hfunc] at hinvoke
    rw [PyM.bind_error hinvoke]
    have hcalled : Ongoing call healer (s.called context) := h.called ⟨e, hfunc⟩ context
    rw [← hlength]
    have hfailed : Ongoing call healer ((s.called context).failed action e) :=
      ⟨hcalled.history, hcalled.successes, hcalled.failures, hcalled.raised⟩
    have hraises : call.Raises s.calls.length := ⟨e, hfunc⟩
    obtain ⟨hretries, hends⟩ | ⟨hretries, hwait, hgoes⟩ | ⟨hretries, hwait, hescapes⟩ :=
      heal_cases action attempt e hfailed
    · exact .inr (.inl ⟨hraises, hretries, hends⟩)
    · exact .inr (.inr (.inl ⟨hraises, hretries, hwait, hgoes⟩))
    · exact .inr (.inr (.inr ⟨hraises, hretries, hwait, hescapes⟩))
  · rw [hfunc] at hinvoke
    rw [PyM.bind_ok hinvoke, PyM.bind_ok (PyM.modify_apply _ _), PyM.bind_ok (settle_eq _)]
    refine .inl ⟨?_, ⟨.ok v, rfl, h.settled_success hfunc context _, le_of_eq hlength⟩⟩
    rintro ⟨e, he⟩
    rw [hfunc] at he
    cases he

/-! ## Loops -/

section Loops

variable {x : PyM Healing (Option (Option V))}
  {f : Option (Option V) → PyM Healing (Option (Option V))} {n : Nat}

/-- A loop returns what an attempt returns, and raises what it raises. -/
theorem Ends.stop (h : Ends call healer (x s) n) (hf : ∀ value, f (some value) = pure (some value)) :
    Ends call healer ((x >>= f) s) n := by
  obtain ⟨result, hresult, hsettled, hbound⟩ := h
  have hrun : (x >>= f) s = (result.map some, (x s).2) := by
    cases result with
    | ok value => rw [PyM.bind_ok (Prod.ext hresult rfl), hf]; rfl
    | error e => exact PyM.bind_error (Prod.ext hresult rfl) f
  rw [hrun]
  exact ⟨result, rfl, hsettled, hbound⟩

theorem Escapes.stop (h : Escapes call healer (x s)) : Escapes call healer ((x >>= f) s) := by
  obtain ⟨⟨e, he⟩, hongoing⟩ := h
  rw [PyM.bind_error (Prod.ext he rfl)]
  exact ⟨⟨e, rfl⟩, hongoing⟩

theorem Ends.mono {run : Except PyExc (Option (Option V)) × Healing} {m : Nat}
    (h : Ends call healer run n) (hle : n ≤ m) : Ends call healer run m :=
  let ⟨result, hresult, hsettled, hbound⟩ := h
  ⟨result, hresult, hsettled, hbound.trans hle⟩

end Loops

/-- The attempts of an action that does not retry: the first one ends the call. -/
theorem attemptAll_once (h : Ongoing call healer s) {action : HealingAction}
    (hretries : action.retries = false) (j n : Nat) :
    Ends call healer (attemptAll strategy call action (List.range' j (n + 1)) s)
      (s.calls.length + 1) := by
  rw [List.range'_succ, attemptAll]
  obtain ⟨-, hends⟩ | ⟨-, -, hends⟩ | ⟨-, htrue, -⟩ | ⟨-, htrue, -⟩ :=
    tryAttempt_cases h action j
  · exact hends.stop fun _ => rfl
  · exact hends.stop fun _ => rfl
  · rw [hretries] at htrue
    cases htrue
  · rw [hretries] at htrue
    cases htrue

/-- The attempts of an action that retries: one of them succeeds, or all raise and wait, or a wait
raises before. The last case is the one in which nothing is accounted for: the exception of the wait
leaves the handler. -/
theorem retries_cases (h : Ongoing call healer s) {action : HealingAction}
    (hretries : action.retries = true) (j n : Nat) :
    (∃ i < n, ¬ call.Raises (s.calls.length + i) ∧
      (∀ k < i, backoff strategy (j + k) = .ok ()) ∧
      Ends call healer (attemptAll strategy call action (List.range' j n) s)
        (s.calls.length + n)) ∨
    ((∀ k < n, backoff strategy (j + k) = .ok ()) ∧
      GoesOn call healer (attemptAll strategy call action (List.range' j n) s)
        (s.calls.length + n)) ∨
    ∃ i < n, (∀ k ≤ i, call.Raises (s.calls.length + k)) ∧ backoff strategy (j + i) ≠ .ok () ∧
      Escapes call healer (attemptAll strategy call action (List.range' j n) s) := by
  induction n generalizing j s with
  | zero => exact .inr (.inl ⟨by simp, rfl, h, rfl⟩)
  | succ n ih =>
    rw [List.range'_succ, attemptAll]
    obtain ⟨hok, hends⟩ | ⟨-, hfalse, -⟩ | ⟨hraises, -, hwait, hgoes⟩ | ⟨hraises, -, hwait, hescapes⟩ :=
      tryAttempt_cases h action j
    -- the attempt succeeds
    · refine .inl ⟨0, by omega, hok, by simp, ?_⟩
      exact Ends.mono (hends.stop fun _ => rfl) (by omega)
    -- an action that retries is not over after a failure
    · rw [hretries] at hfalse
      cases hfalse
    -- it fails and waits: the attempts that follow are counted from the next call on
    · rw [PyM.bind_ok hgoes.eq]
      have hlength := hgoes.2.2
      have hsucc : ∀ k, s.calls.length + (k + 1) = s.calls.length + 1 + k := fun k => by omega
      have hsucc' : ∀ k, j + (k + 1) = j + 1 + k := fun k => by omega
      obtain ⟨i, hi, hok, hwaits, hends⟩ | ⟨hwaits, hgoes'⟩ | ⟨i, hi, hraise, hstuck, hescapes⟩ :=
        ih hgoes.2.1 (j + 1)
      · refine .inl ⟨i + 1, by omega, ?_, ?_, ?_⟩
        · rwa [hsucc, ← hlength]
        · intro k hk
          cases k with
          | zero => exact hwait
          | succ k =>
            rw [hsucc']
            exact hwaits k (by omega)
        · rwa [hsucc, ← hlength]
      · refine .inr (.inl ⟨fun k hk => ?_, ?_⟩)
        · cases k with
          | zero => exact hwait
          | succ k =>
            rw [hsucc']
            exact hwaits k (by omega)
        · rwa [hsucc, ← hlength]
      · refine .inr (.inr ⟨i + 1, by omega, fun k hk => ?_, ?_, hescapes⟩)
        · cases k with
          | zero => exact hraises
          | succ k =>
            rw [hsucc, ← hlength]
            exact hraise k (by omega)
        · rwa [hsucc']
    · exact .inr (.inr ⟨0, by omega, fun k hk => by rwa [Nat.le_zero.mp hk], hwait, hescapes.stop⟩)

/-- When no wait raises, the actions end the call or are exhausted. -/
theorem applyActions_cases (h : Ongoing call healer s)
    (hwait : ∀ j < strategy.maxRetries, backoff strategy j = .ok ()) (actions : List HealingAction) :
    Ends call healer (applyActions strategy call actions s)
      (s.calls.length + actions.length * strategy.maxRetries) ∨
    ∃ m ≤ s.calls.length + actions.length * strategy.maxRetries,
      GoesOn call healer (applyActions strategy call actions s) m := by
  induction actions generalizing s with
  | nil => exact .inr ⟨s.calls.length, by simp, rfl, h, rfl⟩
  | cons action actions ih =>
    rw [applyActions, List.length_cons, Nat.succ_mul]
    -- all attempts of the first action
    have hfirst : Ends call healer
          (attemptAll strategy call action (List.range' 0 strategy.maxRetries) s)
          (s.calls.length + strategy.maxRetries) ∨
        GoesOn call healer
          (attemptAll strategy call action (List.range' 0 strategy.maxRetries) s)
          (s.calls.length + strategy.maxRetries) := by
      cases hretries : action.retries with
      | true =>
        obtain ⟨-, -, -, -, hends⟩ | ⟨-, hgoes⟩ | ⟨i, hi, -, hstuck, -⟩ :=
          retries_cases h hretries 0 strategy.maxRetries
        · exact .inl hends
        · exact .inr hgoes
        · rw [Nat.zero_add] at hstuck
          exact absurd (hwait i hi) hstuck
      | false =>
        cases hmax : strategy.maxRetries with
        | zero => exact .inr ⟨rfl, h, rfl⟩
        | succ n => exact .inl ((attemptAll_once h hretries 0 n).mono (by omega))
    -- the other actions follow only when the first one has neither returned nor raised
    rcases hfirst with hends | hgoes
    · exact .inl (Ends.mono (hends.stop fun _ => rfl) (by omega))
    · rw [PyM.bind_ok hgoes.eq]
      have hlength := hgoes.2.2
      obtain hends | ⟨m, hm, hgoes'⟩ := ih hgoes.2.1
      · exact .inl (hends.mono (by omega))
      · exact .inr ⟨m, by omega, hgoes'⟩

/-! ## A call -/

/-- When all strategies are exhausted, the call is settled. -/
theorem exhausted_settled (h : Ongoing call healer s) :
    Settled call healer (exhausted call s).1 (exhausted call s).2 ∧
      (exhausted call s).2.calls.length = s.calls.length := by
  rw [exhausted, PyM.bind_ok (PyM.get_apply _), PyM.bind_ok (PyM.modify_apply _ _),
    PyM.bind_ok (settle_eq _)]
  cases s.lastError with
  | some e => exact ⟨h.settled_failure _ _, rfl⟩
  | none => exact ⟨h.settled_failure _ _, rfl⟩

/-- How a call ends when its actions end or are exhausted. -/
theorem healed_settled {n : Nat}
    (h : Ends call healer (applyActions strategy call strategy.actions { healer }) n ∨
      ∃ m ≤ n, GoesOn call healer (applyActions strategy call strategy.actions { healer }) m) :
    Settled call healer (healed strategy call healer).1 (healed strategy call healer).2 ∧
      (healed strategy call healer).2.calls.length ≤ n := by
  rw [healed, executeWithHealing]
  obtain ⟨result, hresult, hsettled, hbound⟩ | ⟨m, hm, hgoes⟩ := h
  · cases result with
    | ok value =>
      rw [PyM.bind_ok (Prod.ext hresult rfl)]
      exact ⟨hsettled, hbound⟩
    | error e =>
      rw [PyM.bind_error (Prod.ext hresult rfl)]
      exact ⟨hsettled, hbound⟩
  · rw [PyM.bind_ok hgoes.eq]
    obtain ⟨hsettled, hlength⟩ := exhausted_settled hgoes.2.1
    exact ⟨hsettled, (hlength.trans hgoes.2.2).trans_le hm⟩

/-- What is settled after so many calls is accounted for. -/
theorem accounted_of_settled
    (h : Settled call healer (healed strategy call healer).1 (healed strategy call healer).2)
    (hbound : (healed strategy call healer).2.calls.length ≤
      strategy.actions.length * strategy.maxRetries) : Accounted strategy call healer := by
  have hnot : ∀ {k v}, call.func k = .ok v → ¬ call.Raises k := by
    rintro k v hv ⟨e, he⟩
    rw [hv] at he
    cases he
  obtain ⟨v, hcalls, hv, hresult, hcounts⟩ | ⟨hraised, hcounts⟩ := h.outcome
  · have hpos := List.length_pos_iff.mpr hcalls
    have hlast : ∀ k < (healed strategy call healer).2.calls.length, ¬ call.Raises k →
        k = (healed strategy call healer).2.calls.length - 1 := by
      intro k hk hraises
      by_contra hne
      exact hraises (h.untilSuccess k (by omega))
    refine ⟨hbound, h.untilSuccess, fun k hk v' hv' => ?_, h.history, fun _ => hcounts, fun hfail => ?_⟩
    · rw [hlast k hk (hnot hv'), hv] at hv'
      rw [hresult, hv']
    · exact absurd ⟨_, by omega, hnot hv⟩ hfail
  · refine ⟨hbound, h.untilSuccess, fun k hk v hv => ?_, h.history, ?_, fun _ => hcounts⟩
    · exact absurd (hraised k hk) (hnot hv)
    · rintro ⟨k, hk, hraises⟩
      exact absurd (hraised k hk) hraises

/-- A call that an exception escapes has no result in the history. -/
theorem not_accounted_of_escapes
    (h : Escapes call healer (applyActions strategy call strategy.actions { healer })) :
    ¬ Accounted strategy call healer := by
  intro haccounted
  obtain ⟨hr, hhistory⟩ := haccounted.history
  obtain ⟨⟨e, he⟩, hongoing⟩ := h
  rw [healed, executeWithHealing, PyM.bind_error (Prod.ext he rfl), hongoing.history] at hhistory
  exact absurd hhistory (by simp)

/-- A first action that retries is stuck at a wait that raises, with no success before. -/
theorem patient_iff_not_stuck (action : HealingAction) (actions : List HealingAction)
    (hactions : strategy.actions = action :: actions) (hretries : action.retries = true) :
    Patient strategy call ↔ ¬ ∃ i < strategy.maxRetries,
      backoff strategy i ≠ .ok () ∧ ∀ k ≤ i, call.Raises k := by
  have hstuck : ∀ i, backoff strategy i ≠ .ok () ↔ strategy.backoffBase = .nan ∨ 1024 ≤ i := by
    intro i
    rw [ne_eq, backoff_eq_ok_iff, not_and_or, not_not, not_lt]
  have hpatient : Patient strategy call ↔
      ¬ (strategy.backoffBase = .nan ∧ 1 ≤ strategy.maxRetries ∧ call.Raises 0) ∧
      ¬ (1025 ≤ strategy.maxRetries ∧ ∀ k ≤ 1024, call.Raises k) := by
    simp [Patient, hactions, hretries]
  rw [hpatient]
  -- both sides are about the first wait that raises
  constructor
  · rintro ⟨hnan, hlong⟩ ⟨i, hi, hwait, hraises⟩
    rcases (hstuck i).mp hwait with hbase | hle
    · exact hnan ⟨hbase, by omega, hraises 0 (Nat.zero_le i)⟩
    · exact hlong ⟨by omega, fun k hk => hraises k (hk.trans hle)⟩
  · intro h
    refine ⟨fun ⟨hbase, hmax, hraises⟩ => h ⟨0, hmax, (hstuck 0).mpr (.inl hbase), ?_⟩,
      fun ⟨hmax, hraises⟩ => h ⟨1024, hmax, (hstuck 1024).mpr (.inr (le_refl _)), hraises⟩⟩
    intro k hk
    rwa [Nat.le_zero.mp hk]

end Attempts

/-- **When a call is accounted for.** Exactly when its first action does not go on retrying over a
wait that raises. Only the first action matters: one that does not retry ends the call with its
first failure, and the waits depend on the number of the attempt alone, so that a later action meets
no wait that the first one has not met. -/
theorem accounted_iff {V : Type} (strategy : HealingStrategy) (call : HealedCall V)
    (healer : SelfHealer) : Accounted strategy call healer ↔ Patient strategy call := by
  have hstart : Ongoing call healer { healer } := ⟨rfl, rfl, rfl, by simp⟩
  have hwaits : (∀ j < strategy.maxRetries, backoff strategy j = .ok ()) →
      Accounted strategy call healer := by
    intro hwait
    obtain ⟨hsettled, hbound⟩ := healed_settled (applyActions_cases hstart hwait strategy.actions)
    exact accounted_of_settled hsettled (by simpa using hbound)
  rcases hactions : strategy.actions with _ | ⟨action, actions⟩
  · have hends := healed_settled (n := 0) (.inr ⟨0, le_refl 0, by rw [hactions]; exact ⟨rfl, hstart, rfl⟩⟩)
    refine iff_of_true (accounted_of_settled hends.1 (by simp [Nat.le_zero.mp hends.2])) ?_
    simp [Patient, hactions]
  -- what the first action settles is settled
  have hfirst : ∀ n ≤ strategy.maxRetries, Ends call healer
      (attemptAll strategy call action (List.range' 0 strategy.maxRetries) { healer }) n →
      Accounted strategy call healer := by
    intro n hn hends
    have happly : Ends call healer (applyActions strategy call strategy.actions { healer }) n := by
      rw [hactions, applyActions]
      exact hends.stop fun _ => rfl
    obtain ⟨hsettled, hbound⟩ := healed_settled (.inl happly)
    refine accounted_of_settled hsettled ((hbound.trans hn).trans ?_)
    rw [hactions, List.length_cons]
    exact Nat.le_mul_of_pos_left _ (Nat.succ_pos _)
  cases hretries : action.retries with
  | false =>
    have hpatient : Patient strategy call := by simp [Patient, hactions, hretries]
    refine iff_of_true ?_ hpatient
    rcases hmax : strategy.maxRetries with _ | n
    · exact hwaits fun j hj => absurd (hmax ▸ hj) (Nat.not_lt_zero j)
    · have hends := @attemptAll_once V strategy call healer _ hstart action hretries 0 n
      rw [← hmax] at hends
      exact hfirst 1 (by omega) hends
  | true =>
    rw [patient_iff_not_stuck action actions hactions hretries]
    obtain ⟨i, hi, hok, hwait, hends⟩ | ⟨hwait, -⟩ | ⟨i, hi, hraises, hstuck, hescapes⟩ :=
      @retries_cases V strategy call healer _ hstart action hretries 0 strategy.maxRetries
    · refine iff_of_true (hfirst _ (by simp) hends) ?_
      rintro ⟨k, hk, hstuck, hraises⟩
      refine hstuck (Nat.zero_add k ▸ hwait k ?_)
      by_contra hle
      exact hok (by simpa using hraises i (by omega))
    · refine iff_of_true (hwaits fun j hj => Nat.zero_add j ▸ hwait j hj) ?_
      rintro ⟨k, hk, hstuck, -⟩
      exact hstuck (Nat.zero_add k ▸ hwait k hk)
    · refine iff_of_false (not_accounted_of_escapes ?_) ?_
      · rw [hactions, applyActions]
        exact hescapes.stop
      · exact fun h => h ⟨i, hi, Nat.zero_add i ▸ hstuck, by simpa using hraises⟩

/-- A strategy that retries 1025 times, without waiting long. -/
def stubborn : HealingStrategy where
  maxRetries := 1025
  backoffMax := .finite 0 (by decide +kernel)
  actions := [.retry]

/-- A function that always raises. -/
def hopeless : HealedCall Unit where
  func _ := .error (.runtimeError "down")

/-- The failures of a function that always raises are not counted when the delay overflows. -/
theorem overflow_unaccounted :
    ¬ ∀ (V : Type) (strategy : HealingStrategy) (call : HealedCall V) (healer : SelfHealer),
      Accounted strategy call healer := by
  intro h
  have hstart : Ongoing hopeless {} { healer := {} } := ⟨rfl, rfl, rfl, by simp⟩
  have hraises : ∀ k, hopeless.Raises k := fun _ => ⟨_, rfl⟩
  obtain ⟨i, -, hok, -⟩ | ⟨hwait, -⟩ | ⟨-, -, -, -, hescapes⟩ :=
    @retries_cases Unit stubborn hopeless {} _ hstart .retry rfl 0 stubborn.maxRetries
  · exact hok (hraises _)
  · have hlast := ((backoff_eq_ok_iff stubborn _).mp (hwait 1024 (by decide))).2
    exact absurd hlast (by omega)
  · refine not_accounted_of_escapes ?_ (h Unit stubborn hopeless {})
    have hactions : stubborn.actions = [.retry] := rfl
    rw [hactions, applyActions]
    exact hescapes.stop

end Noema.Healer
