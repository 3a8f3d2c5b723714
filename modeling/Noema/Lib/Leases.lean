import Noema.Lib.System

/-!
# Leases of a pool

Holders take resources from a pool and give them back. `Conserves`: what is in the pool and what is
held are together always the same distinct resources, and nobody holds what another one holds. It is
stated as a permutation, so that the two rules, `Conserves.take` and `Conserves.give`, only move one
element from one side to the other.

That a holder which already has something takes nothing is a hypothesis of the first rule; the
program has to see to it.
-/

namespace Noema.Lib

/-- The free resources in the order in which they are taken, and what each holder has. -/
structure Leases (ι α : Type) where
  free : List α
  held : ι → Option α

namespace Leases

variable {ι α : Type}

/-- Nobody has anything. -/
def new (free : List α) : Leases ι α := ⟨free, fun _ => none⟩

section Operations

variable [DecidableEq ι] (l : Leases ι α)

/-- A holder takes the first free resource, if there is one. -/
def take (i : ι) : Option (α × Leases ι α) :=
  match l.free with
  | [] => none
  | a :: free => some (a, ⟨free, Function.update l.held i (some a)⟩)

/-- A holder gives back what it has. -/
def give (i : ι) : Leases ι α :=
  match l.held i with
  | none => l
  | some a => ⟨l.free ++ [a], Function.update l.held i none⟩

end Operations

/-- The free resources and the held ones are all of these, each of them once. -/
structure Conserves (l : Leases ι α) (all : List α) : Prop where
  nodup : l.free.Nodup
  apart : ∀ i, ∀ a ∈ l.held i, a ∉ l.free
  unique : ∀ i j, ∀ a ∈ l.held i, a ∈ l.held j → i = j
  all : ∀ a, a ∈ all ↔ a ∈ l.free ∨ ∃ i, a ∈ l.held i

variable {l : Leases ι α} {all : List α}

theorem conserves_new (h : all.Nodup) : (new all : Leases ι α).Conserves all where
  nodup := h
  apart _ _ h := by cases h
  unique _ _ _ h := by cases h
  all _ := (or_iff_left fun ⟨_, h⟩ => by cases h).symm

variable [DecidableEq ι] {i : ι} {a : α}

theorem take_eq_some {l' : Leases ι α} (h : l.take i = some (a, l')) :
    ∃ free, l.free = a :: free ∧ l' = ⟨free, Function.update l.held i (some a)⟩ := by
  unfold take at h
  split at h
  · cases h
  next a' free hfree =>
    cases h
    exact ⟨free, hfree, rfl⟩

@[simp] theorem held_give_self (i : ι) : (l.give i).held i = none := by
  unfold Leases.give
  split
  next h => exact h
  next => exact Function.update_self ..

theorem held_give_of_ne {j : ι} (h : j ≠ i) : (l.give i).held j = l.held j := by
  unfold Leases.give
  split
  · rfl
  · exact Function.update_of_ne h ..

/-- Who has nothing yet can take a resource. -/
theorem Conserves.take (h : l.Conserves all) (hnone : l.held i = none) {l' : Leases ι α}
    (htake : l.take i = some (a, l')) : l'.Conserves all := by
  obtain ⟨free, hfree, rfl⟩ := take_eq_some htake
  have hnodup := h.nodup
  rw [hfree] at hnodup
  obtain ⟨hfirst, hnodup⟩ := List.nodup_cons.mp hnodup
  -- what is held is apart from what was free, so from the item that is taken
  have happart {j : ι} {b : α} (hb : b ∈ l.held j) : b ≠ a ∧ b ∉ free := by
    have hnot := h.apart j b hb
    rw [hfree] at hnot
    exact ⟨List.ne_of_not_mem_cons hnot, List.not_mem_of_not_mem_cons hnot⟩
  refine ⟨hnodup, fun j b hb => ?_, fun j k b hj hk => ?_, fun b => ?_⟩
  · rcases mem_update hb with ⟨-, hb⟩ | ⟨-, hb⟩
    · cases hb
      exact hfirst
    · exact (happart hb).2
  · rcases mem_update hj with ⟨hji, hj⟩ | ⟨-, hj⟩ <;> rcases mem_update hk with ⟨hki, hk⟩ | ⟨-, hk⟩
    · rw [hji, hki]
    · cases hj
      exact absurd rfl (happart hk).1
    · cases hk
      exact absurd rfl (happart hj).1
    · exact h.unique j k b hj hk
  · rw [h.all, hfree, List.mem_cons]
    constructor
    · rintro ((rfl | hb) | ⟨j, hb⟩)
      · exact .inr ⟨i, Function.update_self ..⟩
      · exact .inl hb
      · refine .inr ⟨j, (Function.update_of_ne ?_ ..).trans hb⟩
        rintro rfl
        rw [hnone] at hb
        cases hb
    · rintro (hb | ⟨j, hb⟩)
      · exact .inl (.inr hb)
      · rcases mem_update hb with ⟨-, hb⟩ | ⟨-, hb⟩
        · exact .inl (.inl (Option.some.inj hb).symm)
        · exact .inr ⟨j, hb⟩

/-- What is given back is free again. -/
theorem Conserves.give (h : l.Conserves all) (i : ι) : (l.give i).Conserves all := by
  unfold Leases.give
  split
  · exact h
  next a hi =>
    have hmem {j : ι} {b : α} (hb : b ∈ Function.update l.held i none j) :
        j ≠ i ∧ b ∈ l.held j :=
      (mem_update hb).resolve_left fun h => by cases h.2
    refine ⟨?_, fun j b hb => ?_, fun j k b hj hk => ?_, fun b => ?_⟩
    · refine List.nodup_append.mpr ⟨h.nodup, List.nodup_singleton a, fun b hb c hc => ?_⟩
      rintro rfl
      exact h.apart i b (List.mem_singleton.mp hc ▸ hi) hb
    · obtain ⟨hji, hb⟩ := hmem hb
      rw [List.mem_append, List.mem_singleton, not_or]
      exact ⟨h.apart j b hb, fun hba => hji (h.unique j i b hb (hba ▸ hi))⟩
    · exact h.unique j k b (hmem hj).2 (hmem hk).2
    · rw [h.all, List.mem_append, List.mem_singleton]
      constructor
      · rintro (hb | ⟨j, hb⟩)
        · exact .inl (.inl hb)
        · by_cases hji : j = i
          · subst hji
            exact .inl (.inr (Option.mem_unique hb hi))
          · exact .inr ⟨j, (Function.update_of_ne hji ..).trans hb⟩
      · rintro ((hb | rfl) | ⟨j, hb⟩)
        · exact .inl hb
        · exact .inr ⟨i, hi⟩
        · exact .inr ⟨j, (hmem hb).2⟩

end Leases

end Noema.Lib
