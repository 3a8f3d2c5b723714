import Mathlib

/-!
# Sliding windows

Times in an ordered group, and windows of a length `w`. Times come in any order, since clocks of
several callers do not.

- `recent w t times`: the times after `t - w`. A limiter that prunes its record keeps these, and
  `recent_recent` says that pruning earlier changes nothing later.
- `Limited w n times`: no half-open window of the length has more than `n` of the times, whichever
  of its ends is the open one.
- `Limited.cons`: a time may be added when fewer than `n` of the others are recent at it, wherever
  they are. A window with the new time reaches back less than `w` from it, so all others of the
  window are recent.
- `Limited.length_recent`: the converse: what is recent lies in one window.
-/

namespace Noema.Lib

variable {T : Type} [AddCommGroup T] [LinearOrder T] {w t t' : T} {n : Nat} {times : List T}

/-- The times after `t - w`. -/
def recent (w t : T) (times : List T) : List T := times.filter fun time => t - w < time

/-- No half-open window of length `w`, open at the left or at the right, has more than `n` of the
times. -/
def Limited (w : T) (n : Nat) (times : List T) : Prop :=
  ∀ a, times.countP (fun time => a < time ∧ time ≤ a + w) ≤ n ∧
    times.countP (fun time => a ≤ time ∧ time < a + w) ≤ n

@[simp] theorem recent_nil (w t : T) : recent w t [] = [] := rfl

theorem mem_recent {time : T} : time ∈ recent w t times ↔ time ∈ times ∧ t - w < time := by
  simp [recent]

theorem recent_append (w t : T) (times times' : List T) :
    recent w t (times ++ times') = recent w t times ++ recent w t times' :=
  List.filter_append ..

theorem recent_eq_nil (h : ∀ time ∈ times, time ≤ t - w) : recent w t times = [] :=
  List.filter_eq_nil_iff.mpr fun time hmem => by simpa using h time hmem

theorem limited_nil (w : T) (n : Nat) : Limited w n [] := fun _ => ⟨Nat.zero_le n, Nat.zero_le n⟩

theorem Limited.perm {times' : List T} (h : Limited w n times) (hperm : times.Perm times') :
    Limited w n times' := fun a => by
  rw [← hperm.countP_eq, ← hperm.countP_eq]
  exact h a

section Ordered

variable [IsOrderedAddMonoid T]

/-- What is recent at a later time is what is recent of the times that were recent before. -/
theorem recent_recent (h : t ≤ t') : recent w t' (recent w t times) = recent w t' times := by
  rw [recent, recent, List.filter_filter]
  refine List.filter_congr ?_
  intro time _
  rw [Bool.eq_iff_iff, Bool.and_eq_true, decide_eq_true_iff, decide_eq_true_iff]
  exact and_iff_left_of_imp fun hlt => (sub_le_sub_right h w).trans_lt hlt

/-- A time may be added when fewer than `n` of the others are recent at it. -/
theorem Limited.cons (h : Limited w n times) (hrecent : (recent w t times).length < n) :
    Limited w n (t :: times) := by
  -- whatever lies within a window of `t` is recent at `t`
  have hle : ∀ p : T → Bool, (∀ time, p time = true → t - w < time) →
      times.countP p < n := by
    intro p hp
    refine lt_of_le_of_lt ?_ hrecent
    rw [recent, ← List.countP_eq_length_filter]
    exact List.countP_mono_left fun time _ htime => by simpa using hp time htime
  intro a
  constructor
  · rw [List.countP_cons]
    split
    next ht =>
      have hlt := hle (fun time => a < time ∧ time ≤ a + w) fun time htime => by
        simp only [decide_eq_true_eq] at ht htime
        exact (sub_le_iff_le_add.mpr ht.2).trans_lt htime.1
      omega
    next => exact (h a).1
  · rw [List.countP_cons]
    split
    next ht =>
      have hlt := hle (fun time => a ≤ time ∧ time < a + w) fun time htime => by
        simp only [decide_eq_true_eq] at ht htime
        exact (sub_lt_iff_lt_add.mpr ht.2).trans_le htime.1
      omega
    next => exact (h a).2

omit [IsOrderedAddMonoid T] in
/-- The times that are recent at `t` are in one window, if none of them is later. -/
theorem Limited.length_recent (h : Limited w n times) (hle : ∀ time ∈ times, time ≤ t) :
    (recent w t times).length ≤ n := by
  refine le_trans (le_of_eq ?_) (h (t - w)).1
  rw [recent, ← List.countP_eq_length_filter]
  refine List.countP_congr ?_
  intro time hmem
  simp only [decide_eq_true_eq, sub_add_cancel]
  exact (and_iff_left (hle time hmem)).symm

end Ordered

end Noema.Lib
