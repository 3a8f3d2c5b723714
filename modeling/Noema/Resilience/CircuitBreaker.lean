import Noema.Lib.System

/-!
# The circuit breaker (`resilience/circuit_breaker.py`)

`CircuitBreaker` is the object, with a clock that the methods read. `breakerSystem` is the object
under concurrent calls of `execute`: a call is admitted or rejected at once, and a call that was
admitted is in flight until its function ends, in any of the ways in which an awaited call can end.
The clock may advance at any time.

- `readState`: the property `state`, which turns an open circuit into a half-open one when the
  recovery timeout is over. Reading it is a step of its own, since anybody may.
- `admission`, `conclude`: the parts of `execute` before and after its `await`. A
  `CircuitBreakerError` of the function is raised on, without being counted; a cancellation is
  caught nowhere.
- `onSuccess`, `onFailure`: the two counters and the transitions.

Next to the object, a state keeps a record of what happened: which calls were started and when,
which failures were recorded, and which calls closed the circuit. The code has no such record; the
results are stated about it.
-/

namespace Noema.Resilience

open Noema.Lib

/-- `CircuitState`. -/
inductive CircuitState where
  | closed
  | «open»
  | halfOpen
  deriving DecidableEq, Repr

/-- The settings of a breaker; `T` is the type of times. -/
structure BreakerConfig (T : Type) where
  failureThreshold : Int
  recoveryTimeout : T
  halfOpenMax : Int

/-- The fields of a `CircuitBreaker` that change. -/
structure CircuitBreaker (T : Type) where
  state : CircuitState
  failureCount : Nat
  successCount : Nat
  lastFailureTime : T
  halfOpenCalls : Nat
  deriving DecidableEq, Repr

/-- The ways in which the function of a call ends: it returns, raises an `Exception`, raises
`CircuitBreakerError`, or is cancelled. -/
inductive Ending where
  | returned
  | raised
  | raisedBreakerError
  | cancelled
  deriving DecidableEq, Repr

namespace CircuitBreaker

variable {T : Type} [AddCommGroup T] [LinearOrder T]

/-- `__init__`. -/
def new : CircuitBreaker T where
  state := .closed
  failureCount := 0
  successCount := 0
  lastFailureTime := 0
  halfOpenCalls := 0

variable (cfg : BreakerConfig T) (now : T) (breaker : CircuitBreaker T)

/-- The recovery timeout of an open circuit is over. -/
def isDue : Bool :=
  breaker.state = .open && decide (cfg.recoveryTimeout ≤ now - breaker.lastFailureTime)

/-- The property `state` (circuit_breaker.py:63), which may change the object. -/
def readState : CircuitBreaker T :=
  if breaker.isDue cfg now then { breaker with state := .halfOpen, halfOpenCalls := 0 }
  else breaker

/-- `_on_success` (circuit_breaker.py:74). -/
def onSuccess : CircuitBreaker T :=
  { breaker with
    failureCount := 0
    successCount := breaker.successCount + 1
    state := if breaker.state = .halfOpen then .closed else breaker.state }

/-- `_on_failure` (circuit_breaker.py:81). -/
def onFailure : CircuitBreaker T :=
  { breaker with
    failureCount := breaker.failureCount + 1
    lastFailureTime := now
    successCount := 0
    state :=
      if breaker.state = .halfOpen then .open
      else if cfg.failureThreshold ≤ breaker.failureCount + 1 then .open
      else breaker.state }

/-- The first part of `execute` (circuit_breaker.py:101), after the state was read: the object
when the function is started, and `none` for a `CircuitBreakerError`. -/
def admission : Option (CircuitBreaker T) :=
  match breaker.state with
  | .open => none
  | .halfOpen =>
    if cfg.halfOpenMax ≤ breaker.halfOpenCalls then none
    else some { breaker with halfOpenCalls := breaker.halfOpenCalls + 1 }
  | .closed => some breaker

/-- The last part of `execute`: the function has ended. -/
def conclude : Ending → CircuitBreaker T
  | .returned => breaker.onSuccess
  | .raised => breaker.onFailure cfg now
  | .raisedBreakerError => breaker
  | .cancelled => breaker

end CircuitBreaker

/-! ## Concurrent calls -/

/-- A call of `execute` whose function was started. `admitted` is its `current_state`, and
`period` the number of `HALF_OPEN` periods that had begun. -/
structure BreakerCall where
  id : Nat
  admitted : CircuitState
  period : Nat
  deriving DecidableEq, Repr

/-- What is on record: the start of a function, a failure with the state that it left, and a
transition from `HALF_OPEN` to `CLOSED` by a call, with the period that it ended. -/
inductive BreakerEntry (T : Type) where
  | started (call : BreakerCall) (time : T)
  | failed (time : T) (left : CircuitState)
  | closed (call : BreakerCall) (period : Nat)
  deriving DecidableEq, Repr

/-- The breaker with its calls in flight. `periods` counts the `HALF_OPEN` periods, `periodStart`
is the first id that was not given out when the last of them began, and the record has the last
entry first. -/
structure BreakerState (T : Type) where
  breaker : CircuitBreaker T
  now : T
  calls : List BreakerCall
  nextId : Nat
  periods : Nat
  periodStart : Nat
  record : List (BreakerEntry T)
  deriving DecidableEq

/-- What happens to a breaker: the clock shows a time, someone reads `state`, `execute` is called,
or the function of a call in flight ends. -/
inductive BreakerEvent (T : Type) where
  | tick (time : T)
  | readState
  | execute
  | finish (id : Nat) (ending : Ending)

section System

variable {T : Type} [AddCommGroup T] [LinearOrder T] (cfg : BreakerConfig T)

/-- `state` is read. -/
def BreakerState.read (s : BreakerState T) : BreakerState T :=
  if s.breaker.isDue cfg s.now then
    { s with
      breaker := s.breaker.readState cfg s.now
      periods := s.periods + 1
      periodStart := s.nextId }
  else s

/-- The rest of a call of `execute` up to its `await`: a call that is rejected leaves nothing
behind. -/
def BreakerState.start (s : BreakerState T) : BreakerState T :=
  match s.breaker.admission cfg with
  | none => s
  | some breaker =>
    let call : BreakerCall := ⟨s.nextId, s.breaker.state, s.periods⟩
    { s with
      breaker
      calls := call :: s.calls
      nextId := s.nextId + 1
      record := .started call s.now :: s.record }

/-- What the end of a call adds to the record. -/
def entryOf (s : BreakerState T) (call : BreakerCall) : Ending → List (BreakerEntry T)
  | .returned => if s.breaker.state = .halfOpen then [.closed call s.periods] else []
  | .raised => [.failed s.now (s.breaker.onFailure cfg s.now).state]
  | .raisedBreakerError => []
  | .cancelled => []

/-- The function of a call in flight ends. -/
def BreakerState.finish (s : BreakerState T) (call : BreakerCall) (ending : Ending) :
    BreakerState T :=
  { s with
    breaker := s.breaker.conclude cfg s.now ending
    calls := s.calls.filter (·.id ≠ call.id)
    record := entryOf cfg s call ending ++ s.record }

/-- A step of the breaker. The clock does not go back. -/
def breakerStep (s : BreakerState T) : BreakerEvent T → Option (BreakerState T)
  | .tick time => if s.now ≤ time then some { s with now := time } else none
  | .readState => some (s.read cfg)
  | .execute => some ((s.read cfg).start cfg)
  | .finish id ending =>
    (s.calls.find? (·.id = id)).map fun call => s.finish cfg call ending

/-- A breaker under concurrent calls. -/
def breakerSystem : System (BreakerState T) (BreakerEvent T) where
  init := ⟨.new, 0, [], 0, 0, 0, []⟩
  step := breakerStep cfg

end System

end Noema.Resilience
