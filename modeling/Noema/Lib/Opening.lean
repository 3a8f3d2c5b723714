import Mathlib

/-!
# Opening a tree from the root

A position in a tree is the list of the child indices on the way to it, the last one first: `[]` is
the root, and `i :: p` is child `i` of `p`. A set of positions below the root that contains the
parents of its positions can be opened one position at a time, each after its parent
(`exists_opening`). The induction takes a position that is not opened yet and goes up from it until
the parent is open (`Opening.exists_cons`), so no order on the positions is needed.
-/

namespace Noema.Lib

universe u

variable {ι : Type u}

/-- Different positions of a set, each after its parent; the last one first. -/
inductive Opening (I : Set (List ι)) : List (List ι) → Prop
  | nil : Opening I []
  | cons {opened : List (List ι)} {i : ι} {p : List ι} (opening : Opening I opened)
      (mem : i :: p ∈ I) (new : i :: p ∉ opened) (parent : p = [] ∨ p ∈ opened) :
      Opening I ((i :: p) :: opened)

variable {I : Set (List ι)} {opened : List (List ι)}

theorem Opening.subset (h : Opening I opened) : ∀ p ∈ opened, p ∈ I := by
  induction h with
  | nil => exact fun p hp => by cases hp
  | cons _ mem _ _ ih => exact List.forall_mem_cons.mpr ⟨mem, ih⟩

theorem Opening.parent_mem (h : Opening I opened) {i : ι} {p : List ι} (hmem : i :: p ∈ opened) :
    p = [] ∨ p ∈ opened := by
  induction h with
  | nil => cases hmem
  | cons _ _ _ parent ih =>
    rcases List.mem_cons.mp hmem with heq | hmem
    · cases heq
      exact parent.imp_right (List.mem_cons_of_mem _)
    · exact (ih hmem).imp_right (List.mem_cons_of_mem _)

/-- The shortest way to a position that is not opened starts with one that can be. -/
theorem Opening.exists_cons (h : Opening I opened) (hroot : [] ∉ I)
    (hparent : ∀ i p, i :: p ∈ I → p = [] ∨ p ∈ I) {p : List ι} (hp : p ∈ I)
    (hnew : p ∉ opened) : ∃ q, Opening I (q :: opened) := by
  induction p with
  | nil => exact absurd hp hroot
  | cons i p ih =>
    by_cases hopen : p = [] ∨ p ∈ opened
    · exact ⟨i :: p, h.cons hp hnew hopen⟩
    · obtain ⟨hne, hclosed⟩ := not_or.mp hopen
      exact ih ((hparent i p hp).resolve_left hne) hclosed

/-- As many positions can be opened as there are. -/
theorem exists_opening (hroot : [] ∉ I) (hparent : ∀ i p, i :: p ∈ I → p = [] ∨ p ∈ I) {k : ℕ}
    (hk : (k : ℕ∞) ≤ I.encard) : ∃ opened, Opening I opened ∧ opened.length = k := by
  classical
  induction k with
  | zero => exact ⟨[], .nil, rfl⟩
  | succ k ih =>
    have hlt : (k : ℕ∞) < (k + 1 : ℕ) := by exact_mod_cast Nat.lt_succ_self k
    obtain ⟨opened, h, hlength⟩ := ih (hlt.le.trans hk)
    -- The opened positions are too few to be all of them.
    have hnew : ∃ p ∈ I, p ∉ opened := by
      by_contra hall
      push Not at hall
      have hsub : I ⊆ (opened.toFinset : Set (List ι)) :=
        fun p hp => List.mem_toFinset.mpr (hall p hp)
      have hcard : I.encard ≤ k := by
        refine (Set.encard_le_encard hsub).trans ?_
        rw [Set.encard_coe_eq_coe_finsetCard]
        exact_mod_cast hlength ▸ opened.toFinset_card_le
      exact absurd (hk.trans hcard) hlt.not_ge
    obtain ⟨p, hp, hp'⟩ := hnew
    obtain ⟨q, hq⟩ := h.exists_cons hroot hparent hp hp'
    exact ⟨q :: opened, hq, congrArg Nat.succ hlength⟩

end Noema.Lib
