import Mathlib.Data.Rat.Cast.Order
import Mathlib.Data.Real.Basic

/-!
# Linear constraints over named variables, and an SMT solver

- `Atom`, `Expr`: bounds and equations of one variable, and conjunctions of them; a variable is a
  name with a sort, so variables of one name and different sorts are different;
- `Satisfiable`: some assignment makes all the expressions hold;
- `Checker`: a solver's `check`, which answers `unsat` exactly on unsatisfiable sets. The fragment
  is decidable, so a solver has no reason to answer `unknown` for an unsatisfiable set; it may for
  others, and a caller that takes `unknown` for an answer is not wronged by this;
- `Solver`: the assertion stack, with `reset`, `push`, `pop` and `add`. What is added above a `push`
  is gone after the `pop`, and `assertions` are all of them in order.

`Satisfiable.le_of_ge` and `Satisfiable.ge_of_le` say what a satisfiable set with an equation
forces, and `Satisfiable.concat_eqBool` that numeric assertions leave the booleans free: a check of
a boolean variable that no expression mentions says nothing.
-/

namespace Smt

/-- The sorts of variables. -/
inductive Srt where
  | int
  | real
  | bool
  deriving DecidableEq, Repr

/-- A variable is identified by its name and its sort. -/
structure Var where
  name : String
  sort : Srt
  deriving DecidableEq, Repr

/-- Atomic expressions: a bound or an equation of one variable. -/
inductive Atom where
  | ge (x : Var) (q : ℚ)
  | le (x : Var) (q : ℚ)
  | eqNum (x : Var) (q : ℚ)
  | isTrue (x : Var)
  | eqBool (x : Var) (b : Bool)
  deriving DecidableEq

/-- Expressions: an atom, or a conjunction of atoms. -/
inductive Expr where
  | atom (a : Atom)
  | and (as : List Atom)
  deriving DecidableEq

/-- Values for all variables. -/
structure Assignment where
  int : String → ℤ
  real : String → ℝ
  bool : String → Bool

/-- The value of a numeric variable. -/
def Assignment.num (v : Assignment) (x : Var) : ℝ :=
  match x.sort with
  | .int => v.int x.name
  | .real => v.real x.name
  | .bool => 0

/-- The atom holds. -/
def Atom.Holds (v : Assignment) : Atom → Prop
  | .ge x q => (q : ℝ) ≤ v.num x
  | .le x q => v.num x ≤ q
  | .eqNum x q => v.num x = q
  | .isTrue x => v.bool x.name = true
  | .eqBool x b => v.bool x.name = b

/-- The atoms of an expression. -/
def Expr.atoms : Expr → List Atom
  | .atom a => [a]
  | .and as => as

/-- The expression holds. -/
def Expr.Holds (v : Assignment) (e : Expr) : Prop := ∀ a ∈ e.atoms, a.Holds v

/-- Some assignment makes all the expressions hold. -/
def Satisfiable (es : List Expr) : Prop := ∃ v, ∀ e ∈ es, e.Holds v

/-- The answers of a solver. -/
inductive Answer where
  | sat
  | unsat
  | unknown
  deriving DecidableEq, Repr

/-- A solver's `check`. -/
structure Checker where
  check : List Expr → Answer
  unsat_iff : ∀ es, check es = .unsat ↔ ¬ Satisfiable es

open Classical in
/-- A solver that decides every set. -/
noncomputable def Checker.ideal : Checker where
  check es := if Satisfiable es then .sat else .unsat
  unsat_iff es := by
    by_cases h : Satisfiable es <;> simp [h]

/-! ## The assertion stack -/

/-- A solver: the assertions added since each `push`, the latest first. -/
structure Solver where
  base : List Expr
  frames : List (List Expr)

/-- All assertions, in the order in which they were added. -/
def Solver.assertions (s : Solver) : List Expr := s.base ++ s.frames.reverse.flatten

/-- `reset()`. -/
def Solver.reset (_ : Solver) : Solver := ⟨[], []⟩

/-- `add(e)`. -/
def Solver.add (s : Solver) (e : Expr) : Solver :=
  match s.frames with
  | [] => { s with base := s.base ++ [e] }
  | f :: fs => { s with frames := (f ++ [e]) :: fs }

/-- `push()`. -/
def Solver.push (s : Solver) : Solver := { s with frames := [] :: s.frames }

/-- `pop()`. -/
def Solver.pop (s : Solver) : Solver := { s with frames := s.frames.tail }

@[simp] theorem Solver.pop_push (s : Solver) : s.push.pop = s := rfl

@[simp] theorem Solver.pop_add_push (s : Solver) (e : Expr) : (s.push.add e).pop = s := rfl

@[simp] theorem Solver.assertions_push (s : Solver) : s.push.assertions = s.assertions := by
  simp [assertions, push]

theorem Solver.assertions_add (s : Solver) (e : Expr) : (s.add e).assertions = s.assertions ++ [e] := by
  obtain ⟨base, frames⟩ := s
  cases frames with
  | nil => simp [assertions, add]
  | cons f fs => simp [assertions, add]

/-- Adding a list of assertions. -/
theorem Solver.assertions_foldl_add (es : List Expr) (s : Solver) :
    (es.foldl Solver.add s).assertions = s.assertions ++ es := by
  induction es generalizing s with
  | nil => simp
  | cons e es ih => rw [List.foldl_cons, ih, assertions_add, List.append_assoc, List.singleton_append]

/-! ## What satisfiable sets force -/

/-- The value of a variable that an equation fixes is not below a bound on it. -/
theorem Satisfiable.le_of_ge {es : List Expr} {x : Var} {p q : ℚ} (h : Satisfiable es)
    (heq : .atom (.eqNum x q) ∈ es) {e : Expr} (he : e ∈ es) (hge : .ge x p ∈ e.atoms) :
    p ≤ q := by
  obtain ⟨v, hv⟩ := h
  have hvalue : v.num x = q := hv _ heq _ (List.mem_singleton_self _)
  have hbound : (p : ℝ) ≤ v.num x := hv e he _ hge
  rw [hvalue] at hbound
  exact_mod_cast hbound

theorem Satisfiable.ge_of_le {es : List Expr} {x : Var} {p q : ℚ} (h : Satisfiable es)
    (heq : .atom (.eqNum x q) ∈ es) {e : Expr} (he : e ∈ es) (hle : .le x p ∈ e.atoms) :
    q ≤ p := by
  obtain ⟨v, hv⟩ := h
  have hvalue : v.num x = q := hv _ heq _ (List.mem_singleton_self _)
  have hbound : v.num x ≤ (p : ℝ) := hv e he _ hle
  rw [hvalue] at hbound
  exact_mod_cast hbound

/-- The atom is about a numeric variable. -/
def Atom.isNumeric : Atom → Bool
  | .ge .. | .le .. | .eqNum .. => true
  | .isTrue _ | .eqBool .. => false

/-- The expression is about numeric variables only. -/
def Expr.isNumeric (e : Expr) : Bool := e.atoms.all Atom.isNumeric

/-- The assignment with another value for the boolean `x`. -/
def Assignment.setBool (v : Assignment) (x : String) (b : Bool) : Assignment :=
  { v with bool := Function.update v.bool x b }

theorem Atom.holds_setBool {v : Assignment} {x : String} {b : Bool} {a : Atom}
    (h : a.isNumeric = true) : a.Holds (v.setBool x b) ↔ a.Holds v := by
  cases a with
  | ge | le | eqNum => exact Iff.rfl
  | isTrue | eqBool => simp [isNumeric] at h

theorem Expr.holds_setBool {v : Assignment} {x : String} {b : Bool} {e : Expr}
    (h : e.isNumeric = true) : e.Holds (v.setBool x b) ↔ e.Holds v :=
  forall₂_congr fun a ha => Atom.holds_setBool (List.all_eq_true.mp h a ha)

/-- Numeric assertions leave every boolean free. -/
theorem Satisfiable.concat_eqBool {es : List Expr} (h : Satisfiable es)
    (hnum : ∀ e ∈ es, e.isNumeric = true) (x : Var) (b : Bool) :
    Satisfiable (es ++ [.atom (.eqBool x b)]) := by
  obtain ⟨v, hv⟩ := h
  refine ⟨v.setBool x.name b, fun e he => ?_⟩
  rcases List.mem_append.mp he with he | he
  · exact (Expr.holds_setBool (hnum e he)).mpr (hv e he)
  · rw [List.mem_singleton.mp he]
    intro a ha
    rw [List.mem_singleton.mp ha]
    exact Function.update_self ..

end Smt
