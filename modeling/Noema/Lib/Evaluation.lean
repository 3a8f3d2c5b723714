import Mathlib.Init

/-!
# Evaluation in order

`force n k` is `k n`, and its evaluation starts with `n`; so with `forceAll` and a list of numbers.
Where the kernel runs a long computation on words, each word is a numeral before the next one is
built from it. Without this the term for the last word would contain the terms of all earlier ones,
several times each. `force_eq` and `forceAll_eq` say that nothing else changes, so a definition with
`force` is equal to the one without by rewriting.
-/

namespace Noema.Lib

/-- `k n`, with `n` evaluated first. -/
def force {α : Type} (n : Nat) (k : Nat → α) : α :=
  match n with
  | 0 => k 0
  | n + 1 => k (n + 1)

theorem force_eq {α : Type} (n : Nat) (k : Nat → α) : force n k = k n := by
  cases n <;> rfl

/-- `k ns`, with the numbers evaluated first. -/
def forceAll {α : Type} : List Nat → (List Nat → α) → α
  | [], k => k []
  | n :: ns, k => force n fun n => forceAll ns fun ns => k (n :: ns)

theorem forceAll_eq {α : Type} (ns : List Nat) (k : List Nat → α) : forceAll ns k = k ns := by
  induction ns generalizing k with
  | nil => rfl
  | cons n ns ih => rw [forceAll, force_eq, ih]

end Noema.Lib
