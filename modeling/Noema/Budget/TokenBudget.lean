import Noema.Lib.PyRuntime

/-!
# The token budget (`budget/token_budget.py`)

`TokenBudget` adds up what calls have cost and answers, before a step, whether it may run: with one
of three of its four actions: it allows, degrades or rejects, by the fraction of the budget that is
used with the estimated cost. Fractions are floats (`PyFraction`): the quotient of two integers,
which may overflow, and comparison. Nothing else is asked of them.

`check_ne_skip` is the fact that the engine runs into: it tests the answer of the budget for `SKIP`,
which the budget never gives.
-/

namespace Noema.Budget

open Noema.Lib

/-- The fractions of a budget. -/
class PyFraction (B : Type) where
  /-- `a / b` for integers, which may overflow. -/
  truediv : Int → Int → Except PyExc B
  /-- `x >= y` -/
  ge : B → B → Bool

/-- Exact fractions. -/
instance : PyFraction ℚ where
  truediv a b := .ok (a / b)
  ge x y := decide (y ≤ x)

/-- `BudgetAction`. -/
inductive BudgetAction where
  | allow
  | degrade
  | skip
  | reject
  deriving DecidableEq, Repr

/-- `TokenBudget` (token_budget.py:18). -/
structure TokenBudget (B : Type) where
  maxTokens : Int
  warnAt : B
  hardCapAt : B
  used : Int := 0
  skippedSteps : List String := []
  degraded : Bool := false

namespace TokenBudget

variable {B : Type} [PyFraction B]

/-- `record` (token_budget.py:39). -/
def record (b : TokenBudget B) (tokens : Int) : TokenBudget B := { b with used := b.used + tokens }

/-- The fraction of the budget that is used with the estimated cost. -/
def projected (b : TokenBudget B) (estimatedCost : Int) : Except PyExc B :=
  PyFraction.truediv (b.used + estimatedCost) (max b.maxTokens 1)

/-- `check` (token_budget.py:42). -/
def check (b : TokenBudget B) (estimatedCost : Int) (stepName : String) :
    Except PyExc (BudgetAction × TokenBudget B) := do
  let frac ← b.projected estimatedCost
  if PyFraction.ge frac b.hardCapAt then
    return (.reject, { b with skippedSteps := b.skippedSteps ++ [stepName] })
  else if PyFraction.ge frac b.warnAt then return (.degrade, { b with degraded := true })
  else return (.allow, b)

/-- `should_degrade` (token_budget.py:55), with the estimated cost 1000 that is the default. -/
def shouldDegrade (b : TokenBudget B) : Except PyExc (Bool × TokenBudget B) :=
  if b.degraded then .ok (true, b)
  else do
    let (action, b) ← b.check 1000 ""
    return (action = .degrade || action = .skip || action = .reject, b)

/-- The budget has no answer that means to skip a step. -/
theorem check_ne_skip {b b' : TokenBudget B} {cost : Int} {name : String} {action : BudgetAction}
    (h : b.check cost name = .ok (action, b')) : action ≠ .skip := by
  rw [check] at h
  rcases hfrac : b.projected cost with e | frac
  · rw [hfrac] at h
    cases h
  · rw [hfrac] at h
    simp only [ok_bind] at h
    split at h
    · cases h
      nofun
    · split at h
      · cases h
        nofun
      · cases h
        nofun

end TokenBudget

end Noema.Budget
