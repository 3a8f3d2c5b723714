import Mathlib

/-!
# Rounding of fractions

`round` of Python on exact fractions: to the nearest number, and to the even one of two; `roundTo`
is `round(x, digits)`. Floats are not rounded here, so what is proved with these functions is about
the formula of a program and not about its last bit.

- `abs_roundHalfEven_sub_le`, `abs_roundTo_sub_le`: rounding moves a number by half a unit at most.
- `sum_roundHalfEven`: how the sum of rounded fractions differs from the sum of the fractions. The
  difference is the number of those rounded up against the sum of the fractional parts, which is why
  parts that are rounded one by one need not add up to a rounded whole.
- `roundTo_intCast_div`: a number with no more digits is not changed, so rounding twice to the same
  digits is rounding once.
-/

namespace Noema.Lib

/-- The fraction is rounded up. -/
def RoundsUp (x : ℚ) : Prop := 1 / 2 < Int.fract x ∨ Int.fract x = 1 / 2 ∧ ¬ Even ⌊x⌋

instance : DecidablePred RoundsUp := fun _ => inferInstanceAs (Decidable (_ ∨ _))

/-- `round(x)`. -/
def roundHalfEven (x : ℚ) : ℤ := if RoundsUp x then ⌊x⌋ + 1 else ⌊x⌋

/-- `round(x, digits)`. -/
def roundTo (digits : ℕ) (x : ℚ) : ℚ := roundHalfEven (x * 10 ^ digits) / 10 ^ digits

theorem roundHalfEven_add_fract (x : ℚ) :
    (roundHalfEven x : ℚ) + Int.fract x = x + if RoundsUp x then 1 else 0 := by
  have hx := Int.floor_add_fract x
  rw [roundHalfEven]
  split
  · rw [Int.cast_add, Int.cast_one]
    linarith
  · linarith

/-- What is rounded off in sum. -/
theorem sum_roundHalfEven (xs : List ℚ) :
    ((xs.map roundHalfEven).sum : ℚ) + (xs.map Int.fract).sum =
      xs.sum + xs.countP (fun x => RoundsUp x) := by
  induction xs with
  | nil => simp
  | cons x xs ih =>
    have hx := roundHalfEven_add_fract x
    rw [List.countP_cons, Nat.cast_add, Nat.cast_ite, Nat.cast_one, Nat.cast_zero]
    simp only [List.map_cons, List.sum_cons, Int.cast_add, decide_eq_true_eq]
    linarith

/-- Rounding moves by a half at most. -/
theorem abs_roundHalfEven_sub_le (x : ℚ) : |(roundHalfEven x : ℚ) - x| ≤ 1 / 2 := by
  have hx := roundHalfEven_add_fract x
  have hnonneg := Int.fract_nonneg x
  rw [abs_le]
  by_cases hup : RoundsUp x
  · rw [if_pos hup] at hx
    have hhalf : 1 / 2 ≤ Int.fract x := by
      rcases hup with hlt | ⟨heq, -⟩
      · exact hlt.le
      · exact heq.ge
    have hone := (Int.fract_lt_one x).le
    constructor <;> linarith
  · rw [if_neg hup] at hx
    have hhalf : Int.fract x ≤ 1 / 2 := not_lt.mp fun hlt => hup (.inl hlt)
    constructor <;> linarith

theorem roundHalfEven_intCast (k : ℤ) : roundHalfEven k = k := by
  have hdown : ¬ RoundsUp (k : ℚ) := by
    rw [RoundsUp, Int.fract_intCast]
    norm_num
  rw [roundHalfEven, if_neg hdown, Int.floor_intCast]

/-- What has no more digits is not rounded. -/
theorem roundTo_intCast_div (digits : ℕ) (k : ℤ) :
    roundTo digits (k / 10 ^ digits) = k / 10 ^ digits := by
  rw [roundTo, div_mul_cancel₀ _ (by positivity), roundHalfEven_intCast]

theorem abs_roundTo_sub_le (digits : ℕ) (x : ℚ) :
    |roundTo digits x - x| ≤ 1 / 2 / 10 ^ digits := by
  have hpos : (0 : ℚ) < 10 ^ digits := by positivity
  have hsub : roundTo digits x - x =
      ((roundHalfEven (x * 10 ^ digits) : ℚ) - x * 10 ^ digits) / 10 ^ digits := by
    rw [roundTo, sub_div, mul_div_cancel_right₀ _ hpos.ne']
  rw [hsub, abs_div, abs_of_pos hpos]
  exact div_le_div_of_nonneg_right (abs_roundHalfEven_sub_le _) hpos.le

end Noema.Lib
