import Mathlib

/-!
# What is put in and taken out

Events put a thing into a store or take it out, and other events may come between. `Survives`: some
event puts it in, and no later one takes it out. A store whose steps do just that holds the thing at
the end of a sequence of events if and only if it survives them (`foldl_iff_survives`, by induction
from the last event). `not_survives_iff` is the form in which it is used for counters that should be
back at zero: every event that puts the thing in is followed by one that takes it out.
-/

namespace Noema.Lib

universe u v

variable {σ : Type u} {ε : Type v} {puts takes : ε → Prop}

/-- Some event puts it in, and no later one takes it out. -/
def Survives (puts takes : ε → Prop) (events : List ε) : Prop :=
  ∃ before e after, events = before ++ e :: after ∧ puts e ∧ ∀ e' ∈ after, ¬ takes e'

theorem survives_concat {events : List ε} {e : ε} :
    Survives puts takes (events ++ [e]) ↔ puts e ∨ Survives puts takes events ∧ ¬ takes e := by
  constructor
  · rintro ⟨before, p, after, heq, hputs, htakes⟩
    rcases List.eq_nil_or_concat after with rfl | ⟨after, last, rfl⟩
    · obtain ⟨-, hlast⟩ := List.append_inj' heq rfl
      cases hlast
      exact .inl hputs
    · rw [List.concat_eq_append] at heq htakes
      rw [← List.cons_append, ← List.append_assoc] at heq
      obtain ⟨hevents, hlast⟩ := List.append_inj' heq rfl
      cases hlast
      refine .inr ⟨⟨before, p, after, hevents, hputs, fun e' he' => ?_⟩, ?_⟩
      · exact htakes e' (List.mem_append_left _ he')
      · exact htakes e (List.mem_append_right _ (List.mem_singleton_self e))
  · rintro (hputs | ⟨⟨before, p, after, rfl, hputs, htakes⟩, hlast⟩)
    · exact ⟨events, e, [], rfl, hputs, fun e' he' => by cases he'⟩
    · refine ⟨before, p, after ++ [e], List.append_assoc .., hputs, fun e' he' => ?_⟩
      rcases List.mem_append.mp he' with he' | he'
      · exact htakes e' he'
      · rwa [List.mem_singleton.mp he']

/-- It does not survive if every event that puts it in is followed by one that takes it out. -/
theorem not_survives_iff {events : List ε} : ¬ Survives puts takes events ↔
    ∀ before e after, events = before ++ e :: after → puts e → ∃ e' ∈ after, takes e' := by
  constructor
  · intro h before e after heq hputs
    by_contra hnone
    exact h ⟨before, e, after, heq, hputs, fun e' he' htakes => hnone ⟨e', he', htakes⟩⟩
  · rintro h ⟨before, e, after, heq, hputs, hkept⟩
    obtain ⟨e', he', htakes⟩ := h before e after heq hputs
    exact hkept e' he' htakes

/-- A store holds what survives the events. -/
theorem foldl_iff_survives {step : σ → ε → σ} (holds : σ → Prop)
    (hstep : ∀ s e, holds (step s e) ↔ puts e ∨ holds s ∧ ¬ takes e) {s : σ} (hs : ¬ holds s)
    (events : List ε) : holds (events.foldl step s) ↔ Survives puts takes events := by
  induction events using List.reverseRecOn with
  | nil =>
    refine iff_of_false hs ?_
    rintro ⟨before, e, after, heq, -⟩
    exact List.append_ne_nil_of_right_ne_nil before (List.cons_ne_nil e after) heq.symm
  | append_singleton events e ih =>
    rw [List.foldl_append, List.foldl_cons, List.foldl_nil, hstep, ih, survives_concat]

end Noema.Lib
