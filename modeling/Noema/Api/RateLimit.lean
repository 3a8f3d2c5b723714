import Noema.Lib.PyRuntime
import Noema.Lib.SlidingWindow
import Noema.Lib.System

/-!
# The rate limiter (`api/rate_limit.py`)

`_SlidingWindowCounter` keeps, for each client key, the times of the calls that it allowed. A call
prunes the times of its key, counts them, and adds its own time if there is room (rate_limit.py:87).
A periodic cleanup drops the keys that have not been used for two windows (rate_limit.py:68); it
runs between two calls, at any time.

Times are elements of an ordered ring with a floor. The code adds a window to a clock reading,
compares the two, and rounds the difference down to whole seconds for `Retry-After`; nothing else of
`float` is used, so exact numbers stand for the readings.

- `decisionOf`: the answer for a list of times, that is, the verdict and the three headers.
- `allow`, `cleanup`: the two operations on the dict `Hits`.
- `limiterSystem`: the limiter under calls and cleanups in any order, with the answers on record. A
  step is refused when its time is before the time of the last one: the clock is monotonic.

The record of answers is not part of the program. It is what the statements of `RateLimitRuns` are
about.
-/

namespace Noema.Api

open Noema.Lib

/-- The settings of a limiter; the window is in seconds. -/
structure WindowConfig where
  window : Int
  maxRequests : Int

/-- The answer to a call: the verdict and the headers, which are sent as texts. -/
structure Decision where
  allowed : Bool
  limit : Int
  remaining : Int
  reset : Int
  retryAfter : Option Int
  deriving DecidableEq, Repr

section Limiter

variable {T : Type} [Ring T] [LinearOrder T] [FloorRing T]

/-- `int(x)` rounds towards zero. -/
def pyTrunc (x : T) : Int := if 0 ≤ x then ⌊x⌋ else ⌈x⌉

/-- The dict `_hits`. Nothing depends on its order. -/
abbrev Hits (T : Type) := String → Option (List T)

/-- `_hits.get(key, [])`. -/
def Hits.get (hits : Hits T) (key : String) : List T := (hits key).getD []

/-- `_hits[key] = times`. -/
def Hits.set (hits : Hits T) (key : String) (times : List T) : Hits T :=
  Function.update hits key (some times)

variable (cfg : WindowConfig) (now : T)

/-- `_prune` (rate_limit.py:57). -/
def prune (key : String) (hits : Hits T) : Hits T :=
  if hits.get key = [] then hits
  else
    let kept := recent (cfg.window : T) now (hits.get key)
    if kept = [] then Function.update hits key none else hits.set key kept

/-- The body of `_periodic_cleanup` (rate_limit.py:68). -/
def cleanup (hits : Hits T) : Hits T := fun key =>
  (hits key).filter fun times => !times.all fun time => time < now - cfg.window * 2

/-- The answer of a call with these times in its window. -/
def decisionOf (times : List T) : Except PyExc Decision := do
  let current := times.length
  let reset := pyTrunc (now + cfg.window)
  if cfg.maxRequests ≤ current then
    let oldest ← pyIndex times 0
    let retryAfter := cfg.window - (now - oldest)
    return ⟨false, cfg.maxRequests, 0, reset, some (pyTrunc retryAfter + 1)⟩
  else return ⟨true, cfg.maxRequests, max 0 (cfg.maxRequests - current) - 1, reset, none⟩

/-- `allow` (rate_limit.py:87). -/
def allow (key : String) : PyM (Hits T) Decision := do
  PyM.modify (prune cfg now key)
  let hits ← PyM.get
  let times := hits.get key
  -- The list of a missing key is created when it is read for `Retry-After`, or appended to.
  PyM.modify fun hits =>
    if cfg.maxRequests ≤ times.length then hits.set key times else hits.set key (times ++ [now])
  PyM.lift (decisionOf cfg now times)

/-! ## Calls over time -/

/-- A call with its answer. -/
structure Answer (T : Type) where
  key : String
  time : T
  result : Except PyExc Decision
  deriving DecidableEq

/-- The call was allowed. -/
def Answer.allowed (a : Answer T) : Bool :=
  match a.result with
  | .ok decision => decision.allowed
  | .error _ => false

/-- The limiter, with the answers that it gave, the last one first. -/
structure LimiterState (T : Type) where
  hits : Hits T
  now : T
  record : List (Answer T)

/-- A call or a cleanup, at a time. -/
inductive LimiterEvent (T : Type) where
  | allow (key : String) (time : T)
  | cleanup (time : T)

/-- A step of the limiter. Times do not decrease. -/
def limiterStep (s : LimiterState T) : LimiterEvent T → Option (LimiterState T)
  | .allow key time =>
    if s.now ≤ time then
      let (result, hits) := allow cfg time key s.hits
      some { hits, now := time, record := ⟨key, time, result⟩ :: s.record }
    else none
  | .cleanup time =>
    if s.now ≤ time then some { s with hits := cleanup cfg time s.hits, now := time } else none

/-- A limiter that starts at a time. -/
def limiterSystem (start : T) : System (LimiterState T) (LimiterEvent T) where
  init := ⟨fun _ => none, start, []⟩
  step := limiterStep cfg

end Limiter

end Noema.Api
