import Mathlib

/-!
# Names of references

The rules of `git check-ref-format` for a full reference name, without options. The components of a
name lie between slashes, so the rules about the start and the end of a component are rules about
the name with a slash on either side, and all rules but one are about patterns that must not occur
(`refPatterns`) and characters that must not (`refForbidden`).

`infix_append_cons_iff` splits a rule about a pattern at a character that the pattern does not have:
a name that is put together with such a character is valid if and only if its parts are.
-/

namespace Noema.Lib.Git

/-- What may not occur in a name between two slashes: an empty component, one that begins with a
dot or ends in `.lock`, two dots, and `@{`. -/
def refPatterns : List (List Char) :=
  [['/', '/'], ['/', '.'], ['.', 'l', 'o', 'c', 'k', '/'], ['.', '.'], ['@', '\x7b']]

/-- A character that no name has: controls, the space, and `~ ^ : ? * [ \`. -/
def refForbidden (c : Char) : Bool :=
  c.toNat < 32 || c.toNat == 127 || c ∈ [' ', '~', '^', ':', '?', '*', '[', '\\']

/-- A reference name that git accepts. -/
structure ValidRefName (name : List Char) : Prop where
  levels : '/' ∈ name
  patterns : ∀ q ∈ refPatterns, ¬ q <:+: '/' :: name ++ ['/']
  chars : ∀ c ∈ name, refForbidden c = false
  not_dot : name.getLast? ≠ some '.'
  not_at : name ≠ ['@']

section Infix

variable {α : Type} {c : α} {q a b : List α}

theorem prefix_append_cons_iff (hc : c ∉ q) : q <+: a ++ c :: b ↔ q <+: a := by
  refine ⟨fun h => ?_, fun h => h.trans (List.prefix_append a _)⟩
  rcases List.prefix_or_prefix_of_prefix h (List.prefix_append a (c :: b)) with hle | ⟨r, rfl⟩
  · exact hle
  · cases r with
    | nil => exact (List.append_nil a).symm ▸ List.prefix_refl a
    | cons d r =>
      obtain ⟨rfl, -⟩ := List.cons_prefix_cons.mp ((List.prefix_append_right_inj a).mp h)
      exact absurd (List.mem_append_right a List.mem_cons_self) hc

/-- A pattern lies on one side of a character that it does not have. -/
theorem infix_append_cons_iff (hc : c ∉ q) : q <:+: a ++ c :: b ↔ q <:+: a ∨ q <:+: b := by
  induction a with
  | nil =>
    rw [List.nil_append, List.infix_cons_iff, ← List.nil_append (c :: b), prefix_append_cons_iff hc,
      List.prefix_nil, List.infix_nil]
  | cons x a ih =>
    rw [List.cons_append, List.infix_cons_iff, List.infix_cons_iff, ih, ← List.cons_append,
      prefix_append_cons_iff hc, or_assoc]

end Infix

end Noema.Lib.Git
