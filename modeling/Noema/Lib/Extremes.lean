import Mathlib.Data.List.Basic
import Mathlib.Tactic.Common

/-!
# Extremes under a comparison

`pick lt a b` is `max(a, b)` of Python over a comparison: the first argument unless the second is
greater. Python compares with `<` only, and values that are not comparable (a NaN among floats) make
`max` depend on the order of its arguments, so the comparison is a parameter here and nothing is
assumed about it globally.

- `Comparable`: a set of values on which the comparison is a strict weak order; it is what the
  values of a run have, not the whole type.
- `extreme_foldl`: a running pick over such values is the greatest of them (`Extreme`).
- `Extreme.extend_iff`: when the greatest of some values is still the greatest of more.

`flip lt` gives the least, so each fact is proved once (`Comparable.flip`).
-/

namespace Noema.Lib

variable {α : Type} {lt : α → α → Bool}

/-- The second argument if it is greater. -/
def pick (lt : α → α → Bool) (a b : α) : α := if lt a b then b else a

/-- The comparison orders the values up to ties. -/
structure Comparable (lt : α → α → Bool) (values : List α) : Prop where
  asymm : ∀ a ∈ values, ∀ b ∈ values, lt a b = true → lt b a = false
  negTrans : ∀ a ∈ values, ∀ b ∈ values, ∀ c ∈ values,
    lt a b = false → lt b c = false → lt a c = false

/-- The greatest of the values, if there is one. -/
def Extreme (lt : α → α → Bool) (values : List α) : Option α → Prop
  | none => values = []
  | some m => m ∈ values ∧ ∀ v ∈ values, lt m v = false

theorem Comparable.flip {values : List α} (h : Comparable lt values) :
    Comparable (fun a b => lt b a) values where
  asymm a ha b hb := h.asymm b hb a ha
  negTrans a ha b hb c hc hab hbc := h.negTrans c hc b hb a ha hbc hab

theorem Comparable.mono {values values' : List α} (h : Comparable lt values)
    (hsub : ∀ v ∈ values', v ∈ values) : Comparable lt values' where
  asymm a ha b hb := h.asymm a (hsub a ha) b (hsub b hb)
  negTrans a ha b hb c hc := h.negTrans a (hsub a ha) b (hsub b hb) c (hsub c hc)

theorem Comparable.irrefl {values : List α} (h : Comparable lt values) {a : α} (ha : a ∈ values) :
    lt a a = false := by
  by_contra hlt
  rw [Bool.not_eq_false] at hlt
  rw [h.asymm a ha a ha hlt] at hlt
  cases hlt

theorem Extreme.toList {x : Option α} (h : Comparable lt x.toList) : Extreme lt x.toList x := by
  cases x with
  | none => rfl
  | some v =>
    have hv : v ∈ (some v).toList := by simp
    exact ⟨hv, fun w hw => by simpa [List.mem_singleton.mp hw] using h.irrefl hv⟩

/-- One more value. -/
theorem Extreme.append {values : List α} {x : Option α} (h : Extreme lt values x) {v : α}
    (hcomp : Comparable lt (values ++ [v])) :
    Extreme lt (values ++ [v]) (some (x.elim v (pick lt · v))) := by
  have hv : v ∈ values ++ [v] := by simp
  cases x with
  | none =>
    rw [show values = [] from h] at hcomp ⊢
    exact ⟨by simp, fun w hw => by simpa [List.mem_singleton.mp hw] using hcomp.irrefl (by simp)⟩
  | some m =>
    obtain ⟨hm, hmax⟩ := h
    have hm' : m ∈ values ++ [v] := List.mem_append_left _ hm
    show Extreme lt (values ++ [v]) (some (pick lt m v))
    rw [pick]
    split
    · next hlt =>
      refine ⟨hv, fun w hw => ?_⟩
      rcases List.mem_append.mp hw with hmem | hmem
      · exact hcomp.negTrans v hv m hm' w hw (hcomp.asymm m hm' v hv hlt) (hmax w hmem)
      · rw [List.mem_singleton.mp hmem]
        exact hcomp.irrefl hv
    · next hle =>
      refine ⟨hm', fun w hw => ?_⟩
      rcases List.mem_append.mp hw with hmem | hmem
      · exact hmax w hmem
      · rw [List.mem_singleton.mp hmem]
        simpa using hle

/-- A running pick is the greatest of the values. -/
theorem extreme_foldl {seen values : List α} {x : Option α} (h : Extreme lt seen x)
    (hcomp : Comparable lt (seen ++ values)) :
    Extreme lt (seen ++ values) (values.foldl (fun x v => some (x.elim v (pick lt · v))) x) := by
  induction values generalizing seen x with
  | nil => simpa using h
  | cons v values ih =>
    have hcomp' : Comparable lt ((seen ++ [v]) ++ values) := by simpa using hcomp
    simpa using ih (h.append (hcomp'.mono fun w hw => List.mem_append_left _ hw)) hcomp'

/-- The greatest of some values is the greatest of more exactly when it is not exceeded. -/
theorem Extreme.extend_iff {values more : List α} {x : Option α} (h : Extreme lt values x)
    (hsub : ∀ v ∈ values, v ∈ more) (hcomp : Comparable lt more) :
    Extreme lt more x ↔ ∀ v ∈ more, ∃ w ∈ values, lt w v = false := by
  cases x with
  | none =>
    have hnil : values = [] := h
    subst hnil
    constructor
    · intro hmore v hv
      rw [show more = [] from hmore] at hv
      cases hv
    · intro hall
      refine List.eq_nil_iff_forall_not_mem.mpr fun v hv => ?_
      obtain ⟨w, hw, -⟩ := hall v hv
      cases hw
  | some m =>
    obtain ⟨hm, hmax⟩ := h
    constructor
    · exact fun hmore v hv => ⟨m, hm, hmore.2 v hv⟩
    · intro hall
      refine ⟨hsub m hm, fun v hv => ?_⟩
      obtain ⟨w, hw, hle⟩ := hall v hv
      exact hcomp.negTrans m (hsub m hm) w (hsub w hw) v hv (hmax w hw) hle

end Noema.Lib
