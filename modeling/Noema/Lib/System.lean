import Mathlib

/-!
# Transition systems

A system has an initial state and a step function: `step s e` is the state after the event `e`, and
`none` when the event cannot happen in `s`. Whatever is not determined by the state (the scheduler,
the clock, the other side of a connection) is in the events, so a theorem about all runs is a
theorem about all schedules.

- `Run`: the runs, each with the steps that it took, the last one first.
- `Reachable.invariant`: what holds initially and is preserved by every step, holds in every
  reachable state.
- `Run.always_of_meets`: the same along the runs whose steps all meet a condition. This is the form
  of a safety theorem about a program that keeps a property under a condition only.
- `Run.always_iff`: a property that one step keeps under a condition and loses otherwise holds all
  along a run if and only if every step of the run meets the condition. The condition is then exact,
  and both directions of the step lemma are needed.
- `guard`, `Run.of_guard`: the system with the steps that meet a condition only. Executing a list of
  events in it (`exec`) decides the condition on the way, which is how concrete runs are checked.
-/

namespace Noema.Lib

universe u v

/-- A transition system with states in `σ` and events in `ε`. -/
structure System (σ : Type u) (ε : Type v) where
  init : σ
  step : σ → ε → Option σ

namespace System

variable {σ : Type u} {ε : Type v} (S : System σ ε)

/-- A run to a state, with the state before each step and its event, the last step first. -/
inductive Run : List (σ × ε) → σ → Prop
  | start : Run [] S.init
  | next {steps : List (σ × ε)} {s : σ} {e : ε} {s' : σ} (run : Run steps s)
      (step : S.step s e = some s') : Run ((s, e) :: steps) s'

/-- Some run leads to the state. -/
def Reachable (s : σ) : Prop := ∃ steps, S.Run steps s

/-- The state after the events, in their order. -/
def exec (s : σ) : List ε → Option σ
  | [] => some s
  | e :: es => (S.step s e).bind fun s' => exec s' es

/-- The system with the steps that meet a condition only. -/
def guard (C : σ → ε → Prop) [∀ s e, Decidable (C s e)] : System σ ε where
  init := S.init
  step s e := if C s e then S.step s e else none

variable {S}

/-- Every state of a run has the property. -/
def Always (P : σ → Prop) (steps : List (σ × ε)) (s : σ) : Prop := P s ∧ ∀ p ∈ steps, P p.1

/-- Every step of a run meets the condition. -/
def Meets (C : σ → ε → Prop) (steps : List (σ × ε)) : Prop := ∀ p ∈ steps, C p.1 p.2

theorem Run.exec {steps : List (σ × ε)} {s s' : σ} {es : List ε} (run : S.Run steps s)
    (h : S.exec s es = some s') : S.Reachable s' := by
  induction es generalizing steps s with
  | nil =>
    cases h
    exact ⟨steps, run⟩
  | cons e es ih =>
    obtain ⟨s₁, hstep, h⟩ := Option.bind_eq_some_iff.mp h
    exact ih (.next run hstep) h

/-- The end of an execution is reachable. -/
theorem reachable_of_exec (es : List ε) {s : σ} (h : S.exec S.init es = some s) : S.Reachable s :=
  Run.start.exec h

theorem Run.invariant {P : σ → Prop} (hinit : P S.init)
    (hstep : ∀ s e s', P s → S.step s e = some s' → P s') {steps : List (σ × ε)} {s : σ}
    (run : S.Run steps s) : P s := by
  induction run with
  | start => exact hinit
  | next _ hnext ih => exact hstep _ _ _ ih hnext

/-- The runs of the guarded system are the runs whose steps meet the condition. -/
theorem Run.of_guard {C : σ → ε → Prop} [∀ s e, Decidable (C s e)] {steps : List (σ × ε)} {s : σ}
    (run : (S.guard C).Run steps s) : S.Run steps s ∧ Meets C steps := by
  induction run with
  | start => exact ⟨.start, fun p hp => by cases hp⟩
  | next _ hnext ih =>
    obtain ⟨hmeet, hnext⟩ := Option.ite_none_right_eq_some.mp hnext
    exact ⟨.next ih.1 hnext, List.forall_mem_cons.mpr ⟨hmeet, ih.2⟩⟩

/-- What every step preserves, an execution preserves. -/
theorem exec_invariant {P : σ → Prop} (hstep : ∀ s e s', P s → S.step s e = some s' → P s')
    {s s' : σ} {es : List ε} (hs : P s) (h : S.exec s es = some s') : P s' := by
  induction es generalizing s with
  | nil =>
    cases h
    exact hs
  | cons e es ih =>
    obtain ⟨s₁, hnext, h⟩ := Option.bind_eq_some_iff.mp h
    exact ih (hstep s e s₁ hs hnext) h

/-- An invariant holds in every reachable state. -/
theorem Reachable.invariant {P : σ → Prop} (hinit : P S.init)
    (hstep : ∀ s e s', P s → S.step s e = some s' → P s') {s : σ} (h : S.Reachable s) : P s := by
  obtain ⟨steps, run⟩ := h
  exact run.invariant hinit hstep

/-- What holds initially and is preserved by every step that meets a condition, holds all along
the runs whose steps all meet it. -/
theorem Run.always_of_meets {P : σ → Prop} {C : σ → ε → Prop} (hinit : P S.init)
    (hstep : ∀ s e s', P s → C s e → S.step s e = some s' → P s') {steps : List (σ × ε)} {s : σ}
    (run : S.Run steps s) (hmeets : Meets C steps) : Always P steps s := by
  induction run with
  | start => exact ⟨hinit, fun p hp => by cases hp⟩
  | @next steps s e s' run hnext ih =>
    obtain ⟨hmeet, hmeets⟩ := List.forall_mem_cons.mp hmeets
    obtain ⟨hs, hbefore⟩ := ih hmeets
    exact ⟨hstep s e s' hs hmeet hnext, List.forall_mem_cons.mpr ⟨hs, hbefore⟩⟩

theorem Always.imp {P Q : σ → Prop} {steps : List (σ × ε)} {s : σ} (h : ∀ s, P s → Q s)
    (hP : Always P steps s) : Always Q steps s :=
  ⟨h s hP.1, fun p hp => h p.1 (hP.2 p hp)⟩

/-- With an invariant `I`, and a property `P` that a step keeps exactly when it meets `C`: the
property holds all along a run if and only if every step meets the condition. -/
theorem Run.always_iff {I P : σ → Prop} {C : σ → ε → Prop} (hinit : I S.init)
    (hstep : ∀ s e s', I s → S.step s e = some s' → I s') (hstart : P S.init)
    (hkeeps : ∀ s e s', I s → P s → S.step s e = some s' → (P s' ↔ C s e))
    {steps : List (σ × ε)} {s : σ} (run : S.Run steps s) : Always P steps s ↔ Meets C steps := by
  induction run with
  | start => exact iff_of_true ⟨hstart, fun p hp => by cases hp⟩ fun p hp => by cases hp
  | @next steps s e s' run hnext ih =>
    have hI := run.invariant hinit hstep
    constructor
    · rintro ⟨hs', hbefore⟩
      obtain ⟨hs, hbefore⟩ := List.forall_mem_cons.mp hbefore
      exact List.forall_mem_cons.mpr ⟨(hkeeps s e s' hI hs hnext).mp hs', ih.mp ⟨hs, hbefore⟩⟩
    · intro hmeets
      obtain ⟨hmeet, hmeets⟩ := List.forall_mem_cons.mp hmeets
      obtain ⟨hs, hbefore⟩ := ih.mpr hmeets
      exact ⟨(hkeeps s e s' hI hs hnext).mpr hmeet, List.forall_mem_cons.mpr ⟨hs, hbefore⟩⟩

end System

/-- An entry after an update is the new one, or an old one of another key. -/
theorem mem_update {K V : Type} [DecidableEq K] {f : K → Option V} {key key' : K} {new : Option V}
    {value : V} (h : value ∈ Function.update f key new key') :
    key' = key ∧ value ∈ new ∨ key' ≠ key ∧ value ∈ f key' := by
  by_cases hkey : key' = key
  · subst hkey
    rw [Function.update_self] at h
    exact .inl ⟨rfl, h⟩
  · rw [Function.update_of_ne hkey] at h
    exact .inr ⟨hkey, h⟩

end Noema.Lib
