import Noema.Neurosymbolic.Static
import Noema.Neurosymbolic.Symbolic

/-!
# Reasoning traces (`tracing/reasoning_trace.py`)

- `ReasoningTrace`: the record of one run: the task, the hypotheses and verdicts of its rounds, and
  the final hypothesis with its static verdict, its validity and its violations;
- `reverifyReasoningTrace`: the replay of the static and the symbolic check on the recorded task and
  final hypothesis, in `PyM Engine` as the symbolic engine is.

The replay compares the static verdict and the validity with the recorded ones. It computes the
violations too, and compares them with nothing; and without a final hypothesis, or without a
recorded validity, it compares less (`Replay`).
-/

namespace Noema.Tracing

open Noema.Lib PyJson Noema.Neurosymbolic

variable {F : Type}

/-- `VerificationRound` (reasoning_trace.py:33). -/
structure VerificationRound (F : Type) where
  attempt : Nat
  hypothesis : Solution F
  staticVerdict : PyVal F
  symbolicValid : Bool
  violations : List String

/-- `ReasoningTrace` (reasoning_trace.py:44). -/
structure ReasoningTrace (F : Type) where
  runId : String
  correlationId : String
  task : StructuredTask F
  rounds : List (VerificationRound F)
  outcome : String
  attempts : Nat
  finalHypothesis : Option (Solution F)
  finalStaticVerdict : Option (PyVal F)
  finalSymbolicValid : Option Bool
  finalViolations : List String
  error : String

/-- `ReplayVerdict` (reasoning_trace.py:79). -/
structure ReplayVerdict (F : Type) where
  isMatch : Bool
  staticMatches : Option Bool
  symbolicMatches : Option Bool
  recordedFinalStaticVerdict : Option (PyVal F)
  replayedFinalStaticVerdict : Option (PyVal F)
  recordedFinalSymbolicValid : Option Bool
  replayedFinalSymbolicValid : Option Bool
  recordedFinalViolations : List String
  replayedFinalViolations : List String

variable [PyInterp F]

/-- `replayed == recorded`, where `None` is only equal to itself. -/
def sameDict (replayed : PyVal F) : Option (PyVal F) → Bool
  | none => false
  | some recorded => replayed.pyEq recorded

/-- The replay of the symbolic half: the verdict of `verify_solution` on the graph of the
recorded task. -/
def replaySymbolic (u : Unicode) (z3 : Z3 F) (imp : Z3Import) (timeouts : Timeouts)
    (task : StructuredTask F) (hypothesis : Solution F) : PyM Engine Verdict := do
  let engine ← PyM.get
  let graph ← PyM.lift (parseTask u z3 imp engine.maxConstraints task)
  verifySolution u z3 timeouts hypothesis (some graph)

/-- `reverify_reasoning_trace` (reasoning_trace.py:183). -/
def reverifyReasoningTrace (cc : CodeCheck) (u : Unicode) (z3 : Z3 F) (imp : Z3Import)
    (timeouts : Timeouts) (trace : ReasoningTrace F) : PyM Engine (ReplayVerdict F) := do
  let (replayedStatic, staticMatches) ← match trace.finalHypothesis with
    | none => pure (none, none)
    | some hypothesis => do
      let static ← PyM.lift (analyzeSolutionStatic cc (.dict hypothesis.items))
      pure (some static.asDict, some (sameDict static.asDict trace.finalStaticVerdict))
  -- only a recorded validity is replayed
  let (replayedValid, replayedViolations, symbolicMatches) ←
    match trace.finalHypothesis, trace.finalSymbolicValid with
    | some hypothesis, some recorded => do
      let (valid, violations) ← replaySymbolic u z3 imp timeouts trace.task hypothesis
      pure (some valid, violations, some (valid == recorded))
    | _, _ => pure (none, trace.finalViolations, none)
  return {
    -- what was not replayed counts as a match
    isMatch := staticMatches.getD true && symbolicMatches.getD true
    staticMatches
    symbolicMatches
    recordedFinalStaticVerdict := trace.finalStaticVerdict
    replayedFinalStaticVerdict := replayedStatic
    recordedFinalSymbolicValid := trace.finalSymbolicValid
    replayedFinalSymbolicValid := replayedValid
    recordedFinalViolations := trace.finalViolations
    replayedFinalViolations := replayedViolations }

end Noema.Tracing
