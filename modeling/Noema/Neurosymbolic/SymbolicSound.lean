import Noema.Neurosymbolic.TaskGraph

/-!
# What the symbolic engine enforces

`verifySolution_accepts_iff` says when `verify_solution` accepts: a solver is at hand, the
requirements are satisfiable, every entry about a variable is possible together with them, and some
entry is about a variable or there is none (`Accepted`). It comes from the loop over the entries, by
induction on them (`checkEntries_inr_iff`). Three results follow, with the graph that `parse_task`
builds.

- **`nonvacuous_iff`**: for a graph with something to verify, an accepted solution has an entry that
  was checked, if and only if the solution is not empty, or is never accepted. The test `if checked
  == 0 and solution` lets the empty one through (symbolic.py:513).
- **`bounds_enforced`**: the bounds of a requirement in the graph hold of an accepted value, unless
  a constraint has taken its name. A requirement that does not parse is not in the graph
  (`unsupported_type_accepted`).
- **`constraints_enforced_iff`**: constraints are not enforced, since the solver is never given
  their expressions: a solution that sets one to `False` is accepted (`negated_flag_accepted`).

The values are floats of a parameter; `WithinBounds` compares the numbers that they stand for.
-/

namespace Noema.Neurosymbolic

open Noema.Lib PyJson Smt

variable {F : Type} [PyInterp F] {u : Unicode} {z3 : Z3 F}

/-! ## What `verify_solution` accepts -/

theorem check_eq_unsat {es : List Expr} : z3.check es = .unsat ↔ ¬ Satisfiable es :=
  z3.unsat_iff es

theorem pushPop_check (s : Solver) :
    pushPop (check z3) s = (.ok (z3.check s.assertions), s) := by
  simp [pushPop, check]

theorem checkEquation_eq (var : Var) (coerced : Literal F) (s : Solver) :
    checkEquation z3 var coerced s =
      ((equation z3 var coerced).map fun e => z3.check (s.assertions ++ [e]), s) := by
  unfold checkEquation pushPop
  cases he : equation z3 var coerced with
  | error e =>
    rw [PyM.bind_error (PyM.lift_apply (.error e) s.push)]
    rfl
  | ok e =>
    rw [PyM.bind_ok (PyM.lift_apply (.ok e) s.push), PyM.bind_ok (PyM.modify_apply _ _), check,
      Solver.assertions_add, Solver.assertions_push]
    rfl

/-- The entry is not about a variable, or its value can be read and is possible together
with the assertions `es`. -/
def Passes (u : Unicode) (z3 : Z3 F) (es : List Expr) (vars : List (String × Var))
    (entry : String × PyVal F) : Prop :=
  ∀ var, vars.lookup entry.1 = some var → ∃ coerced e,
    coerceValue u var entry.2 = .ok (some coerced) ∧ equation z3 var coerced = .ok e ∧
      Satisfiable (es ++ [e])

/-- The entry is about a variable. -/
def isKnown (vars : List (String × Var)) (entry : String × PyVal F) : Bool :=
  (vars.lookup entry.1).isSome

/-- One step of the loop at an entry whose value can be read. -/
theorem checkEntries_cons {vars : List (String × Var)} {name : String} {value : PyVal F}
    {var : Var} {coerced : Literal F} {e : Expr} (hvar : vars.lookup name = some var)
    (hcoerce : coerceValue u var value = .ok (some coerced))
    (heq : equation z3 var coerced = .ok e) (rest : List (String × PyVal F)) (n : Nat) (s : Solver) :
    checkEntries u z3 vars ((name, value) :: rest) n s =
      if z3.check (s.assertions ++ [e]) = .unsat then
        (.ok (.inl (false, ["requirement_" ++ name ++ "_violated: value=" ++ value.toStr])), s)
      else checkEntries u z3 vars rest (n + 1) s := by
  have hcheck : checkEquation z3 var coerced s = (.ok (z3.check (s.assertions ++ [e])), s) := by
    rw [checkEquation_eq, heq]
    rfl
  rw [checkEntries, hvar]
  dsimp only
  rw [hcoerce, PyM.bind_ok (PyM.lift_apply _ s)]
  dsimp only
  rw [PyM.bind_ok hcheck]
  split <;> rfl

/-- The loop reaches its end if and only if every entry passes; it has then checked the
entries that are about a variable. -/
theorem checkEntries_inr_iff {vars : List (String × Var)} (solution : List (String × PyVal F)) (n m : Nat)
    (s : Solver) :
    (checkEntries u z3 vars solution n s).1 = .ok (.inr m) ↔
      (∀ entry ∈ solution, Passes u z3 s.assertions vars entry) ∧
        m = n + solution.countP (isKnown vars) := by
  induction solution generalizing n with
  | nil => simp [checkEntries, eq_comm]
  | cons entry rest ih =>
    obtain ⟨name, value⟩ := entry
    rw [List.forall_mem_cons, List.countP_cons]
    cases hvar : vars.lookup name with
    | none =>
      have hpass : Passes u z3 s.assertions vars (name, value) := by simp [Passes, hvar]
      have hknown : isKnown vars (name, value) = false := by simp [isKnown, hvar]
      simp [checkEntries, hvar, ih, hpass, hknown]
    | some var =>
      have hknown : isKnown vars (name, value) = true := by simp [isKnown, hvar]
      cases hcoerce : coerceValue u var value with
      | error e => simp [checkEntries, PyM.bind_apply, Passes, hvar, hcoerce]
      | ok coerced =>
        cases coerced with
        -- a value of another type ends the loop with a rejection
        | none => simp [checkEntries, PyM.bind_apply, Passes, hvar, hcoerce]
        | some coerced =>
          cases heq : equation z3 var coerced with
          | error e =>
            simp [checkEntries, PyM.bind_apply, Passes, hvar, hcoerce, checkEquation_eq, heq,
              Except.map]
          | ok e =>
            have hpass : Passes u z3 s.assertions vars (name, value) ↔
                Satisfiable (s.assertions ++ [e]) := by
              simp [Passes, hvar, hcoerce, heq]
            rw [checkEntries_cons hvar hcoerce heq, hpass, hknown]
            -- `solver.check` on the constraints with the equation of this entry
            by_cases hsat : Satisfiable (s.assertions ++ [e])
            · rw [if_neg (by rw [check_eq_unsat, not_not]; exact hsat), ih, if_pos rfl]
              rw [Nat.add_right_comm n 1, Nat.add_assoc n]
              simp [hsat]
            · rw [if_pos (check_eq_unsat.mpr hsat)]
              simp [hsat]

/-- A verdict from inside the loop is a rejection. -/
theorem checkEntries_inl {vars : List (String × Var)} {solution : List (String × PyVal F)} {n : Nat}
    {s : Solver} {verdict : Verdict}
    (h : (checkEntries u z3 vars solution n s).1 = .ok (.inl verdict)) : verdict.1 = false := by
  induction solution generalizing n with
  | nil => simp [checkEntries] at h
  | cons entry rest ih =>
    obtain ⟨name, value⟩ := entry
    cases hvar : vars.lookup name with
    | none =>
      rw [checkEntries, hvar] at h
      exact ih h
    | some var =>
      cases hcoerce : coerceValue u var value with
      | error e => simp [checkEntries, PyM.bind_apply, hvar, hcoerce] at h
      | ok coerced =>
        cases coerced with
        | none =>
          simp only [checkEntries, PyM.bind_apply, hvar, hcoerce, PyM.lift_apply, PyM.pure_apply,
            Except.ok.injEq, Sum.inl.injEq] at h
          rw [← h]
        | some coerced =>
          cases heq : equation z3 var coerced with
          | error e =>
            simp [checkEntries, PyM.bind_apply, hvar, hcoerce, checkEquation_eq, heq,
              Except.map] at h
          | ok e =>
            rw [checkEntries_cons hvar hcoerce heq] at h
            split at h
            · simp only [Except.ok.injEq, Sum.inl.injEq] at h
              rw [← h]
            · exact ih h

/-- The expressions of the requirements, which are what the solver is given. -/
def TaskGraph.expressions (graph : TaskGraph F) : List Expr :=
  graph.requirements.map Constraint.expression

/-- The conditions under which a solution passes the checks of `_check_solution`. -/
structure Accepted (u : Unicode) (z3 : Z3 F) (graph : TaskGraph F) (solution : Solution F) :
    Prop where
  satisfiable : Satisfiable graph.expressions
  passes : ∀ entry ∈ solution.items, Passes u z3 graph.expressions graph.vars entry
  known : solution.items = [] ∨ ∃ entry ∈ solution.items, isKnown graph.vars entry = true

theorem checkSolution_accepts_iff {graph : TaskGraph F} {solution : Solution F} {s : Solver}
    (hs : s.assertions = graph.expressions) :
    (checkSolution u z3 solution graph s).1 = .ok (true, []) ↔
      Accepted u z3 graph solution := by
  rw [checkSolution, PyM.bind_ok (pushPop_check s), hs]
  by_cases hsat : Satisfiable graph.expressions
  case neg =>
    -- the constraints alone are unsatisfiable: `verify` rejects before the first entry
    rw [if_pos (check_eq_unsat.mpr hsat)]
    constructor
    · intro h
      simp at h
    · intro h
      exact absurd h.satisfiable hsat
  rw [if_neg (by rw [check_eq_unsat, not_not]; exact hsat), PyM.bind_apply]
  have hloop : ∀ m, (checkEntries u z3 graph.vars solution.items 0 s).1 = .ok (.inr m) ↔ _ :=
    fun m => checkEntries_inr_iff solution.items 0 m s
  have hinl : ∀ verdict, (checkEntries u z3 graph.vars solution.items 0 s).1 = .ok (.inl verdict) →
      verdict.1 = false := fun _ => checkEntries_inl
  constructor
  · intro h
    split at h
    next result s' hrun =>
      rw [hrun] at hinl
      cases result with
      | inl verdict =>
        simp only [PyM.pure_apply, Except.ok.injEq] at h
        have := hinl verdict rfl
        simp [h] at this
      | inr m =>
        obtain ⟨hpasses, hm⟩ := (hloop m).mp (by rw [hrun])
        refine ⟨hsat, hs ▸ hpasses, ?_⟩
        dsimp only at h
        split at h
        next _ => simp at h
        -- the loop went through every entry, and one of them was a known name
        next hcond =>
          by_cases hsol : solution.items = []
          · exact .inl hsol
          · right
            have hpos : 0 < solution.items.countP (isKnown graph.vars) := by
              have : m ≠ 0 := fun hzero => hcond ⟨hzero, hsol⟩
              omega
            obtain ⟨entry, hentry, hknown⟩ := List.countP_pos_iff.mp hpos
            exact ⟨entry, hentry, hknown⟩
    next e s' _ => simp at h
  · intro h
    have hrun := (hloop _).mpr ⟨hs ▸ h.passes, rfl⟩
    split
    next result s' hrun' =>
      rw [hrun'] at hrun
      simp only [Except.ok.injEq] at hrun
      subst hrun
      dsimp only
      rw [if_neg]
      · rfl
      · rintro ⟨hzero, hsol⟩
        obtain ⟨entry, hentry, hknown⟩ := h.known.resolve_left hsol
        have := List.countP_pos_iff.mpr ⟨entry, hentry, hknown⟩
        omega
    next e s' hrun' =>
      rw [hrun'] at hrun
      simp at hrun

/-- The body of the call accepts when there is nothing to verify, or when it is not stopped
and the checks pass. -/
theorem verifyWith_accepts_iff {timeouts : Timeouts} {graph : TaskGraph F}
    {solution : Solution F} (s : Solver) :
    (verifyWith u z3 timeouts solution graph s.reset).1 = .ok (true, []) ↔
      graph.requirements = [] ∧ graph.constraints = [] ∨
        timeouts.verification = false ∧ Accepted u z3 graph solution := by
  rw [verifyWith, PyM.bind_ok (PyM.modify_apply _ _)]
  have hs : (graph.expressions.foldl Solver.add s.reset).assertions = graph.expressions :=
    Solver.assertions_foldl_add _ _
  by_cases hempty : graph.requirements = [] ∧ graph.constraints = []
  · simp [hempty]
  · have hcond : (graph.requirements.isEmpty && graph.constraints.isEmpty) = false := by
      simpa using hempty
    rw [hcond, if_neg Bool.false_ne_true, or_iff_right hempty]
    cases htime : timeouts.verification with
    | true => simp
    | false =>
      rw [if_neg Bool.false_ne_true]
      exact (checkSolution_accepts_iff hs).trans (by simp)

/-- The call gets a solver: z3 is there, the pool is not empty and the wait does not time
out. -/
def CanVerify (engine : Engine) (timeouts : Timeouts) : Prop :=
  engine.degraded = false ∧ engine.solverPool ≠ [] ∧ timeouts.pool = false

theorem verifySolution_accepts_iff {engine : Engine} {timeouts : Timeouts}
    {graph : TaskGraph F} {solution : Solution F} :
    (verifySolution u z3 timeouts solution (some graph) engine).1 = .ok (true, []) ↔
      CanVerify engine timeouts ∧
        (graph.requirements = [] ∧ graph.constraints = [] ∨
          timeouts.verification = false ∧ Accepted u z3 graph solution) := by
  rw [verifySolution, PyM.bind_ok (PyM.get_apply engine), CanVerify]
  cases hdegraded : engine.degraded with
  | true => simp
  | false =>
    rw [if_neg Bool.false_ne_true, PyM.tryCatch, withSolver]
    cases hpool : engine.solverPool with
    | nil => simp
    | cons solver rest =>
      cases htime : timeouts.pool with
      | true => simp
      | false =>
        rw [← verifyWith_accepts_iff solver]
        dsimp only
        rw [if_neg Bool.false_ne_true]
        -- what the handlers return is never an acceptance
        cases hrun : verifyWith u z3 timeouts solution graph solver.reset with
        | mk result s =>
          cases result with
          | ok verdict => simp
          | error e =>
            dsimp only
            split <;> simp

/-! ## A concrete engine -/

section Concrete

open FloatText

theorem value_of_finite {f : FloatText} {q : ℚ} (h : f.finite = some q) :
    f.value = some ((q : WithTop ℚ) : WithBot (WithTop ℚ)) := by
  unfold finite at h
  split at h
  next q' hvalue =>
    rw [Option.some.injEq] at h
    subst h
    exact hvalue
  next => cases h

theorem le_of_finite {f g : FloatText} {p q : ℚ} (hf : f.finite = some p) (hg : g.finite = some q)
    (h : p ≤ q) : PyInterp.le f g = true := by
  simp only [PyInterp.le, value_of_finite hf, value_of_finite hg]
  exact decide_eq_true (WithBot.coe_le_coe.mpr (WithTop.coe_le_coe.mpr h))

theorem finite_of_isInteger {f : FloatText} (h : PyInterp.isInteger f = true) :
    f.finite = some ((PyInterp.toInt f : ℤ) : ℚ) := by
  simp only [PyInterp.isInteger, PyInterp.toInt] at h ⊢
  cases hq : f.finite with
  | none => simp [hq] at h
  | some q =>
    simp only [hq, Option.map_some, Option.getD_some, decide_eq_true_eq] at h ⊢
    rw [Rat.coe_int_num_of_den_eq_one h]

/-- A z3 that decides every set of assertions, over floats that are their literals. -/
noncomputable def Z3.exact : Z3 FloatText where
  toChecker := .ideal
  numeral f := f.finite.elim (.error (.custom "Z3Exception" "b'parser error'")) .ok
  le_of_numeral {a b p q} ha hb h := by
    cases hp : a.finite <;> cases hq : b.finite <;> simp_all
    exact le_of_finite hp hq h
  le_toInt {a v p} ha hv h := by
    cases hp : a.finite <;> simp_all
    exact le_of_finite hp (finite_of_isInteger hv) h
  toInt_le {a v p} ha hv h := by
    cases hp : a.finite <;> simp_all
    exact le_of_finite (finite_of_isInteger hv) hp h

/-- An engine after `initialize`. -/
def readyEngine : Engine := (initializeEngine .available (Engine.new 1000)).2

def noTimeouts : Timeouts := ⟨false, false⟩

theorem canVerify_ready : CanVerify readyEngine noTimeouts :=
  ⟨rfl, List.cons_ne_nil _ _, rfl⟩

/-- A task with a requirement of an unsupported type. -/
def mixedTask : StructuredTask FloatText where
  requirements := some (.val (.list [
    .dict [("name", .str "x"), ("type", .str "categorical"), ("max", .int 10)],
    .dict [("name", .str "y"), ("max", .int 5)]]))
  constraints := none
  goals := none

/-- A task that only declares a constraint. -/
def flagTask : StructuredTask FloatText where
  requirements := some (.val (.list []))
  constraints := some (.val (.list [.dict [("name", .str "flag")]]))
  goals := none

def graphOf {x : Except PyExc (TaskGraph FloatText)} {reqs consts : List Constraint}
    {vars : List (String × Var)}
    (h : x.toOption.map (fun g => (g.requirements, g.constraints, g.vars)) =
      some (reqs, consts, vars)) :
    {g // x = .ok g ∧ g.requirements = reqs ∧ g.constraints = consts ∧ g.vars = vars} :=
  match x, h with
  | .ok g, h => by
    simp only [Except.toOption, Option.map_some, Option.some.injEq, Prod.mk.injEq] at h
    exact ⟨g, rfl, h.1, h.2.1, h.2.2⟩

noncomputable def mixedGraph : {g : TaskGraph FloatText //
    parseTask .ascii Z3.exact .available readyEngine.maxConstraints mixedTask = .ok g ∧
      g.requirements = [⟨"y", .and [.le ⟨"y", .int⟩ 5], ⟨"y", .int⟩⟩] ∧ g.constraints = [] ∧
      g.vars = [("y", ⟨"y", .int⟩)]} :=
  graphOf (by decide +kernel)
theorem parse_mixedTask : ∃ g,
    parseTask .ascii Z3.exact .available readyEngine.maxConstraints mixedTask = .ok g ∧
      g.requirements = [⟨"y", .and [.le ⟨"y", .int⟩ 5], ⟨"y", .int⟩⟩] ∧ g.constraints = [] ∧
      g.vars = [("y", ⟨"y", .int⟩)] :=
  ⟨mixedGraph.1, mixedGraph.2⟩

noncomputable def flagGraph : {g : TaskGraph FloatText //
    parseTask .ascii Z3.exact .available readyEngine.maxConstraints flagTask = .ok g ∧
      g.requirements = [] ∧
      g.constraints = [⟨"flag", .atom (.isTrue ⟨"flag", .bool⟩), ⟨"flag", .bool⟩⟩] ∧
      g.vars = [("flag", ⟨"flag", .bool⟩)]} :=
  graphOf (by decide +kernel)
theorem parse_flagTask : ∃ g,
    parseTask .ascii Z3.exact .available readyEngine.maxConstraints flagTask = .ok g ∧
      g.requirements = [] ∧
      g.constraints = [⟨"flag", .atom (.isTrue ⟨"flag", .bool⟩), ⟨"flag", .bool⟩⟩] ∧
      g.vars = [("flag", ⟨"flag", .bool⟩)] :=
  ⟨flagGraph.1, flagGraph.2⟩

/-- The value 1 for `y` is possible together with `y ≤ 5`. -/
theorem satisfiable_one : Satisfiable
    [.and [.le ⟨"y", .int⟩ 5], .atom (.eqNum ⟨"y", .int⟩ ((1 : Int) : ℚ))] := by
  refine ⟨⟨fun _ => 1, fun _ => 0, fun _ => false⟩, ?_⟩
  simp [Expr.Holds, Expr.atoms, Atom.Holds, Assignment.num]

theorem satisfiable_bound : Satisfiable [.and [.le ⟨"y", .int⟩ 5]] := by
  obtain ⟨v, hv⟩ := satisfiable_one
  exact ⟨v, fun e he => hv e (List.mem_append_left [_] he)⟩

/-- The solution `{"x": 100, "y": 1}`. -/
def mixedSolution : Solution FloatText := ⟨[("x", .int 100), ("y", .int 1)], by decide⟩

/-- The solution `{}`. -/
def emptySolution : Solution FloatText := ⟨[], List.nodup_nil⟩

theorem accepts_mixedSolution {g : TaskGraph FloatText}
    (hreqs : g.requirements = [⟨"y", .and [.le ⟨"y", .int⟩ 5], ⟨"y", .int⟩⟩])
    (hvars : g.vars = [("y", ⟨"y", .int⟩)]) :
    (verifySolution .ascii Z3.exact noTimeouts mixedSolution (some g) readyEngine).1 =
      .ok (true, []) := by
  have hexpr : g.expressions = [.and [.le ⟨"y", .int⟩ 5]] := by
    rw [TaskGraph.expressions, hreqs]
    rfl
  refine verifySolution_accepts_iff.mpr ⟨canVerify_ready, .inr ⟨rfl, ?_, ?_, .inr ?_⟩⟩
  · rw [hexpr]
    exact satisfiable_bound
  · rw [hexpr, hvars]
    rintro entry hentry var hvar
    rcases List.mem_cons.mp hentry with rfl | hentry
    · cases hvar
    · rw [List.mem_singleton.mp hentry] at hvar ⊢
      cases hvar
      exact ⟨.int 1, _, by decide +kernel, rfl, satisfiable_one⟩
  · exact ⟨("y", .int 1), by simp [mixedSolution], by rw [hvars]; rfl⟩

end Concrete

/-! ## Vacuous verdicts -/

/-- The entry is about a variable, and the solver found its value possible. -/
def Checked (u : Unicode) (z3 : Z3 F) (graph : TaskGraph F) (entry : String × PyVal F) : Prop :=
  ∃ var coerced e, graph.vars.lookup entry.1 = some var ∧
    coerceValue u var entry.2 = .ok (some coerced) ∧ equation z3 var coerced = .ok e ∧
      z3.check (graph.expressions ++ [e]) ≠ .unsat

theorem Accepted.checked {graph : TaskGraph F} {solution : Solution F}
    (h : Accepted u z3 graph solution) (hne : solution.items ≠ []) :
    ∃ entry ∈ solution.items, Checked u z3 graph entry := by
  obtain ⟨entry, hentry, hknown⟩ := h.known.resolve_left hne
  obtain ⟨var, hvar⟩ := Option.isSome_iff_exists.mp hknown
  obtain ⟨coerced, e, hcoerce, he, hsat⟩ := h.passes entry hentry var hvar
  refine ⟨entry, hentry, var, coerced, e, hvar, hcoerce, he, ?_⟩
  rw [Ne, check_eq_unsat, not_not]
  exact hsat

/-- **When no verdict is vacuous.** For a graph with something to verify: an accepted
solution has an entry that the solver checked, unless the solution is empty, a solver is at
hand and the requirements are satisfiable. -/
theorem nonvacuous_iff {graph : TaskGraph F}
    (hgraph : graph.requirements ≠ [] ∨ graph.constraints ≠ []) (engine : Engine)
    (timeouts : Timeouts) (solution : Solution F) :
    ((verifySolution u z3 timeouts solution (some graph) engine).1 = .ok (true, []) →
        ∃ entry ∈ solution.items, Checked u z3 graph entry) ↔
      solution.items ≠ [] ∨ ¬ CanVerify engine timeouts ∨ timeouts.verification = true ∨
        ¬ Satisfiable graph.expressions := by
  have hnonempty : ¬ (graph.requirements = [] ∧ graph.constraints = []) := by
    rintro ⟨hreqs, hconsts⟩
    exact hgraph.elim (· hreqs) (· hconsts)
  rw [verifySolution_accepts_iff, or_iff_right hnonempty]
  constructor
  · intro h
    -- the empty solution is accepted, and nothing of it was checked
    by_contra hcond
    simp only [not_or, not_not, Bool.not_eq_true] at hcond
    obtain ⟨hnil, hcan, htime, hsat⟩ := hcond
    have haccepted : Accepted u z3 graph solution :=
      ⟨hsat, fun entry hentry => by simp [hnil] at hentry, .inl hnil⟩
    obtain ⟨entry, hentry, -⟩ := h ⟨hcan, htime, haccepted⟩
    simp [hnil] at hentry
  · rintro hcond ⟨hcan, htime, haccepted⟩
    rcases hcond with hne | h | h | h
    · exact haccepted.checked hne
    · exact absurd hcan h
    · simp [htime] at h
    · exact absurd haccepted.satisfiable h

/-- The empty solution is accepted for `y ≤ 5`. -/
theorem empty_solution_accepted : ∃ g,
    parseTask .ascii Z3.exact .available readyEngine.maxConstraints mixedTask = .ok g ∧
      g.requirements ≠ [] ∧
      (verifySolution .ascii Z3.exact noTimeouts emptySolution (some g) readyEngine).1 =
        .ok (true, []) ∧
      ¬ ∃ entry ∈ emptySolution.items, Checked .ascii Z3.exact g entry := by
  obtain ⟨g, hparse, hreqs, -, -⟩ := parse_mixedTask
  have hsat : Satisfiable g.expressions := by
    rw [TaskGraph.expressions, hreqs]
    exact satisfiable_bound
  refine ⟨g, hparse, by simp [hreqs], verifySolution_accepts_iff.mpr ⟨canVerify_ready, .inr
    ⟨rfl, hsat, fun entry hentry => ?_, .inl rfl⟩⟩, ?_⟩
  · cases hentry
  · rintro ⟨entry, hentry, -⟩
    cases hentry

theorem mixed_solution_checked : ∃ g,
    parseTask .ascii Z3.exact .available readyEngine.maxConstraints mixedTask = .ok g ∧
      (verifySolution .ascii Z3.exact noTimeouts mixedSolution (some g) readyEngine).1 =
        .ok (true, []) ∧
      ∃ entry ∈ mixedSolution.items, Checked .ascii Z3.exact g entry := by
  obtain ⟨g, hparse, hreqs, -, hvars⟩ := parse_mixedTask
  have haccept := accepts_mixedSolution hreqs hvars
  exact ⟨g, hparse, haccept, (nonvacuous_iff (.inl (by simp [hreqs])) readyEngine noTimeouts
    mixedSolution).mpr (.inl (List.cons_ne_nil _ _)) haccept⟩

/-! ## Bounds -/

/-- The value coerces to a number within the bounds. -/
def WithinBounds (value : PyVal F) (b : Bounds F) : Prop :=
  ∃ v, toNum value = .ok (some v) ∧ (∀ lo, b.lower = some lo → PyInterp.le lo v = true) ∧
    ∀ hi, b.upper = some hi → PyInterp.le v hi = true

/-- What the equation of a numeric variable says: `q` is the value, and the bounds that z3
finds on the right side of `q` are on the right side of the number. -/
theorem equation_numeric {var : Var} {value : PyVal F} {coerced : Literal F} {e : Expr}
    (hsort : var.sort ≠ .bool) (hcoerce : coerceValue u var value = .ok (some coerced))
    (he : equation z3 var coerced = .ok e) :
    ∃ v q, toNum value = .ok (some v) ∧ e = .atom (.eqNum var q) ∧
      (∀ a p, z3.numeral a = .ok p → p ≤ q → PyInterp.le a v = true) ∧
      ∀ a p, z3.numeral a = .ok p → q ≤ p → PyInterp.le v a = true := by
  unfold coerceValue at hcoerce
  cases hs : var.sort with
  | bool => exact absurd hs hsort
  | int =>
    rw [hs] at hcoerce
    rcases hnum : toNum value with x | (_ | v)
    · simp [hnum] at hcoerce
    · simp [hnum, pure, Except.pure] at hcoerce
    · simp only [hnum, ok_bind, pure, Except.pure, Except.ok.injEq] at hcoerce
      split at hcoerce
      -- an integral value, so the integer that z3 gets is the value itself
      next hint =>
        rw [Option.some.injEq] at hcoerce
        subst hcoerce
        rw [equation, Except.ok.injEq] at he
        exact ⟨v, PyInterp.toInt v, rfl, he.symm, fun a p ha hp => z3.le_toInt ha hint hp,
          fun a p ha hp => z3.toInt_le ha hint hp⟩
      next => cases hcoerce
  | real =>
    rw [hs] at hcoerce
    rcases hnum : toNum value with x | (_ | v)
    · simp [hnum] at hcoerce
    · simp [hnum, pure, Except.pure] at hcoerce
    · simp only [hnum, ok_bind, pure, Except.pure, Except.ok.injEq, Option.some.injEq] at hcoerce
      subst hcoerce
      rw [equation] at he
      -- a real is given to z3 as a numeral, which keeps the order of the values
      cases hq : z3.numeral v with
      | error x => simp [hq, Except.map] at he
      | ok q =>
        simp only [hq, Except.map, Except.ok.injEq] at he
        exact ⟨v, q, rfl, he.symm, fun a p ha hp => z3.le_of_numeral ha hq hp,
          fun a p ha hp => z3.le_of_numeral hq ha hp⟩

theorem clause_some {make : ℚ → Atom} {f : F} {atoms : List Atom}
    (h : clause z3 make (some f) = .ok atoms) : ∃ p, z3.numeral f = .ok p ∧ make p ∈ atoms := by
  rw [clause] at h
  cases hp : z3.numeral f with
  | error x => simp [hp, Except.map] at h
  | ok p =>
    simp only [hp, Except.map, Except.ok.injEq] at h
    exact ⟨p, rfl, h ▸ List.mem_singleton_self _⟩

theorem boundSort_ne_bool (b : Bounds F) : boundSort b ≠ .bool := by
  unfold boundSort
  split <;> simp

/-- A value that is possible together with a requirement is within its bounds. -/
theorem withinBounds_of_satisfiable {es : List Expr} {c : Constraint} {req : Item F}
    {name : String} {value : PyVal F} {imp : Z3Import} (hname : name ≠ "")
    (hparse : parseRequirement u z3 imp req name = .ok (some c)) (hc : c.expression ∈ es)
    {coerced : Literal F} {e : Expr} (hcoerce : coerceValue u c.var value = .ok (some coerced))
    (he : equation z3 c.var coerced = .ok e) (hsat : Satisfiable (es ++ [e])) :
    ∃ d b, req.asDict? = some d ∧ extractBounds u d = .ok b ∧ WithinBounds value b := by
  obtain ⟨d, b, lower, upper, hd, hb, hlower, hupper, rfl⟩ := parseRequirement_some hname hparse
  obtain ⟨v, q, hv, rfl, hlo, hhi⟩ := equation_numeric (boundSort_ne_bool b) hcoerce he
  have heq : .atom (.eqNum ⟨name, boundSort b⟩ q) ∈ es ++ [.atom (.eqNum ⟨name, boundSort b⟩ q)] :=
    List.mem_append_right _ (List.mem_singleton_self _)
  have hexpr := List.mem_append_left [.atom (.eqNum ⟨name, boundSort b⟩ q)] hc
  refine ⟨d, b, hd, hb, v, hv, fun lo hlo' => ?_, fun hi hhi' => ?_⟩
  · rw [hlo'] at hlower
    obtain ⟨p, hp, hmem⟩ := clause_some hlower
    exact hlo lo p hp (hsat.le_of_ge heq hexpr (List.mem_append_left _ hmem))
  · rw [hhi'] at hupper
    obtain ⟨p, hp, hmem⟩ := clause_some hupper
    exact hhi hi p hp (hsat.ge_of_le heq hexpr (List.mem_append_right _ hmem))

/-- **Bounds are enforced.** If a solution is accepted, then its value for a requirement that
is in the graph, and whose name no constraint of the graph has, coerces to a number within
the bounds of the requirement. -/
theorem bounds_enforced {imp : Z3Import} {maxConstraints : Int} {task : StructuredTask F}
    {graph : TaskGraph F} {engine : Engine} {timeouts : Timeouts} {solution : Solution F}
    {reqs : List (Item F)} {i : Nat} {req : Item F} {name : String} {value : PyVal F}
    (hparse : parseTask u z3 imp maxConstraints task = .ok graph)
    (haccept : (verifySolution u z3 timeouts solution (some graph) engine).1 = .ok (true, []))
    (hreqs : validateTaskStructure task = .ok reqs) (hreq : reqs[i]? = some req)
    (hname : (itemNames "req_" reqs)[i]? = some name)
    (hkept : name ∈ graph.requirements.map Constraint.name)
    (hfresh : name ∉ graph.constraints.map Constraint.name)
    (hvalue : (name, value) ∈ solution.items) :
    ∃ d b, req.asDict? = some d ∧ extractBounds u d = .ok b ∧ WithinBounds value b := by
  obtain ⟨reqs', consts, hreqs', -, hgraph⟩ := parseTask_graph hparse
  obtain rfl : reqs = reqs' := Except.ok.inj (hreqs.symm.trans hreqs')
  obtain ⟨c, hc, rfl⟩ := List.mem_map.mp hkept
  obtain ⟨j, req', hreq', hname', hne, hparseReq⟩ := hgraph.requirement_entry hc
  -- the names of the entries are distinct, so the requirement is the one at `i`
  obtain rfl : i = j := by
    have hi : i < (itemNames "req_" reqs).length := (List.getElem?_eq_some_iff.mp hname).1
    exact (List.getElem?_inj hi (itemNames_nodup "req_" reqs)).mp (hname.trans hname'.symm)
  obtain rfl : req = req' := Option.some.inj (hreq.symm.trans hreq')
  obtain ⟨-, ⟨hnil, -⟩ | ⟨-, haccepted⟩⟩ := verifySolution_accepts_iff.mp haccept
  · simp [hnil] at hc
  · obtain ⟨coerced, e, hcoerce, he, hsat⟩ :=
      haccepted.passes _ hvalue c.var (hgraph.lookup_requirement hc hfresh)
    exact withinBounds_of_satisfiable hne hparseReq (List.mem_map_of_mem hc) hcoerce he hsat

/-- The value for a requirement of an unsupported type is accepted outside its bounds. -/
theorem unsupported_type_accepted : ∃ g,
    parseTask .ascii Z3.exact .available readyEngine.maxConstraints mixedTask = .ok g ∧
      (verifySolution .ascii Z3.exact noTimeouts mixedSolution (some g) readyEngine).1 =
        .ok (true, []) ∧
      ∃ reqs d b, validateTaskStructure mixedTask = .ok reqs ∧
        (reqs[0]?.bind Item.asDict?) = some d ∧ (itemNames "req_" reqs)[0]? = some "x" ∧
        extractBounds .ascii d = .ok b ∧ b.upper ≠ none ∧
        ("x", .int 100) ∈ mixedSolution.items ∧ ¬ WithinBounds (.int 100) b := by
  obtain ⟨g, hparse, hreqs, -, hvars⟩ := parse_mixedTask
  refine ⟨g, hparse, accepts_mixedSolution hreqs hvars, _, _,
    ⟨none, some (PyFloat.ofText "10.0".toList)⟩, rfl, rfl, by decide +kernel, by decide +kernel,
    by simp, List.mem_cons_self, ?_⟩
  rintro ⟨v, hv, -, hhi⟩
  have hvalue : toNum (.int 100) = .ok (some (PyFloat.ofText "100.0".toList : FloatText)) := by
    decide +kernel
  obtain rfl : PyFloat.ofText "100.0".toList = v :=
    Option.some.inj (Except.ok.inj (hvalue.symm.trans hv))
  have hle : PyInterp.le (PyFloat.ofText "100.0".toList : FloatText)
      (PyFloat.ofText "10.0".toList) = false := by
    decide +kernel
  exact Bool.false_ne_true (hle.symm.trans (hhi _ rfl))

theorem mixed_solution_within_bounds : ∃ g,
    parseTask .ascii Z3.exact .available readyEngine.maxConstraints mixedTask = .ok g ∧
      ∃ d b, d = [("name", .str "y"), ("max", .int 5)] ∧ extractBounds .ascii d = .ok b ∧
        WithinBounds (.int 1 : PyVal FloatText) b := by
  obtain ⟨g, hparse, hreqs, hconsts, hvars⟩ := parse_mixedTask
  obtain ⟨d, b, hd, hb, hwithin⟩ := bounds_enforced (i := 1) hparse
    (accepts_mixedSolution hreqs hvars) rfl rfl
    (show _ = some "y" by decide +kernel) (by simp [hreqs]) (by simp [hconsts])
    (List.mem_cons_of_mem _ List.mem_cons_self)
  exact ⟨g, hparse, d, b, (Option.some.inj hd).symm, hb, hwithin⟩

/-! ## Constraints -/

theorem clause_isNumeric {make : ℚ → Atom} (hmake : ∀ p, (make p).isNumeric = true)
    {f : Option F} {atoms : List Atom} (h : clause z3 make f = .ok atoms) :
    ∀ a ∈ atoms, a.isNumeric = true := by
  cases f with
  | none => simp_all [clause]
  | some f =>
    rw [clause] at h
    cases hp : z3.numeral f with
    | error x => simp [hp, Except.map] at h
    | ok p =>
      simp only [hp, Except.map, Except.ok.injEq] at h
      subst h
      simp [hmake]

/-- The solver is only ever given bounds of numeric variables. -/
theorem GraphOf.expressions_isNumeric {imp : Z3Import} {maxConstraints : Int}
    {reqs consts : List (Item F)} {graph : TaskGraph F}
    (h : GraphOf u z3 imp maxConstraints reqs consts graph) :
    ∀ e ∈ graph.expressions, e.isNumeric = true := by
  intro e he
  obtain ⟨c, hc, rfl⟩ := List.mem_map.mp he
  obtain ⟨_, _, _, _, hne, hparse⟩ := h.requirement_entry hc
  obtain ⟨_, b, lower, upper, _, _, hlower, hupper, heq⟩ := parseRequirement_some hne hparse
  rw [heq, Expr.isNumeric, List.all_eq_true]
  intro a ha
  rcases List.mem_append.mp ha with ha | ha
  · exact clause_isNumeric (fun _ => rfl) hlower a ha
  · exact clause_isNumeric (fun _ => rfl) hupper a ha

/-- A solution that only sets a constraint to false. -/
def negation (name : String) : Solution F := ⟨[(name, .bool false)], List.nodup_singleton _⟩

/-- The checks pass for a solution that only sets a constraint to false. -/
theorem accepted_negation {imp : Z3Import} {maxConstraints : Int} {reqs consts : List (Item F)}
    {graph : TaskGraph F} (h : GraphOf u z3 imp maxConstraints reqs consts graph)
    (hsat : Satisfiable graph.expressions) {c : Constraint} (hc : c ∈ graph.constraints) :
    Accepted u z3 graph (negation c.name) := by
  have hlookup := h.lookup_constraint hc
  refine ⟨hsat, fun entry hentry => ?_, .inr ⟨_, List.mem_singleton_self _, ?_⟩⟩
  · rw [List.mem_singleton.mp hentry]
    intro var hvar
    obtain rfl : c.var = var := Option.some.inj (hlookup.symm.trans hvar)
    rw [h.constraint_eq hc]
    exact ⟨.bool false, _, rfl, rfl, hsat.concat_eqBool h.expressions_isNumeric _ _⟩
  · simp [isKnown, hlookup]

/-- **When constraints are enforced.** For a graph of `parse_task`, every accepted solution
sets to true each constraint of the graph that it has a value for, if and only if no
solution at all can set a constraint: the call ends without a check, the graph has no
constraint, or its requirements are contradictory. -/
theorem constraints_enforced_iff {imp : Z3Import} {maxConstraints : Int}
    {task : StructuredTask F} {graph : TaskGraph F}
    (hparse : parseTask u z3 imp maxConstraints task = .ok graph) (engine : Engine)
    (timeouts : Timeouts) :
    (∀ solution : Solution F,
      (verifySolution u z3 timeouts solution (some graph) engine).1 = .ok (true, []) →
        ∀ c ∈ graph.constraints, ∀ value, (c.name, value) ∈ solution.items →
          coerceValue u c.var value = .ok (some (.bool true))) ↔
      ¬ CanVerify engine timeouts ∨ timeouts.verification = true ∨ graph.constraints = [] ∨
        ¬ Satisfiable graph.expressions := by
  obtain ⟨reqs, consts, -, -, hgraph⟩ := parseTask_graph hparse
  constructor
  · intro henforced
    by_contra hcond
    simp only [not_or, not_not, Bool.not_eq_true] at hcond
    obtain ⟨hcan, htime, hne, hsat⟩ := hcond
    obtain ⟨c, hc⟩ := List.exists_mem_of_ne_nil _ hne
    -- the solution that gives only `false` to `c` is accepted
    have haccept := verifySolution_accepts_iff.mpr
      ⟨hcan, .inr ⟨htime, accepted_negation hgraph hsat hc⟩⟩
    have htrue := henforced _ haccept c hc (.bool false) (List.mem_singleton_self _)
    rw [hgraph.constraint_eq hc] at htrue
    simp [coerceValue] at htrue
  · intro hcond solution haccept c hc
    obtain ⟨hcan, ⟨-, hnil⟩ | ⟨htime, haccepted⟩⟩ := verifySolution_accepts_iff.mp haccept
    · simp [hnil] at hc
    · rcases hcond with h | h | h | h
      · exact absurd hcan h
      · simp [htime] at h
      · simp [h] at hc
      · exact absurd haccepted.satisfiable h

/-- A solution that sets the only constraint to false is accepted. -/
theorem negated_flag_accepted : ∃ g,
    parseTask .ascii Z3.exact .available readyEngine.maxConstraints flagTask = .ok g ∧
      (verifySolution .ascii Z3.exact noTimeouts (negation "flag") (some g) readyEngine).1 =
        .ok (true, []) ∧
      ∃ c ∈ g.constraints, (c.name, .bool false) ∈ (negation "flag" : Solution FloatText).items ∧
        coerceValue .ascii c.var (.bool false : PyVal FloatText) ≠ .ok (some (.bool true)) := by
  obtain ⟨g, hparse, hreqs, hconsts, -⟩ := parse_flagTask
  obtain ⟨_, _, -, -, hgraph⟩ := parseTask_graph hparse
  have hsat : Satisfiable g.expressions := by
    rw [TaskGraph.expressions, hreqs]
    exact ⟨⟨fun _ => 0, fun _ => 0, fun _ => false⟩, by simp⟩
  have hc : ⟨"flag", .atom (.isTrue ⟨"flag", .bool⟩), ⟨"flag", .bool⟩⟩ ∈ g.constraints := by
    simp [hconsts]
  refine ⟨g, hparse, verifySolution_accepts_iff.mpr ⟨canVerify_ready, .inr
    ⟨rfl, accepted_negation hgraph hsat hc⟩⟩, _, hc, List.mem_singleton_self _, ?_⟩
  simp [coerceValue]

theorem flag_not_enforced : ∃ g,
    parseTask .ascii Z3.exact .available readyEngine.maxConstraints flagTask = .ok g ∧
      ¬ ∀ solution : Solution FloatText,
        (verifySolution .ascii Z3.exact noTimeouts solution (some g) readyEngine).1 =
          .ok (true, []) →
        ∀ c ∈ g.constraints, ∀ value, (c.name, value) ∈ solution.items →
          coerceValue .ascii c.var value = .ok (some (.bool true)) := by
  obtain ⟨g, hparse, hreqs, hconsts, -⟩ := parse_flagTask
  have hsat : Satisfiable g.expressions := by
    rw [TaskGraph.expressions, hreqs]
    exact ⟨⟨fun _ => 0, fun _ => 0, fun _ => false⟩, by simp⟩
  refine ⟨g, hparse, fun henforced => ?_⟩
  rcases (constraints_enforced_iff hparse readyEngine noTimeouts).mp henforced with h | h | h | h
  · exact h canVerify_ready
  · cases h
  · simp [hconsts] at h
  · exact h hsat

end Noema.Neurosymbolic
