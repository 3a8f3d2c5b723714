import Mathlib

/-!
# The first item of each key

`unknown key known xs` are the items of a list whose keys are not among the known ones, with the
first item only of each key. This is what a loop with a set of seen keys keeps.

- `keys_unknown`: which keys there are in the end: the known ones and those of the list.
- `unknown_keys`: the selected items have keys of their own.
- `unknown_eq_self`: **selecting is idempotent**: items with keys of their own, none of them known,
  are all selected. With `unknown_keys` this is why a merge that is repeated adds nothing.
- `unknown_append`: items that are known already contribute nothing, wherever they stand.
-/

namespace Noema.Lib

universe u v

variable {α : Type u} {κ : Type v} [DecidableEq κ] (key : α → κ)

/-- The items whose keys are not known, the first one of each key. -/
def unknown : List κ → List α → List α
  | _, [] => []
  | known, x :: xs =>
    if key x ∈ known then unknown known xs else x :: unknown (key x :: known) xs

variable {key} {known known' : List κ} {xs ys : List α}

/-- No key is lost. -/
theorem keys_unknown (k : κ) :
    k ∈ known ∨ k ∈ (unknown key known xs).map key ↔ k ∈ known ∨ k ∈ xs.map key := by
  induction xs generalizing known with
  | nil => rfl
  | cons x xs ih =>
    rw [unknown, List.map_cons, List.mem_cons]
    split
    · rename_i hx
      rw [ih]
      constructor
      · exact Or.imp_right .inr
      · rintro (hk | rfl | hk)
        · exact .inl hk
        · exact .inl hx
        · exact .inr hk
    · have htail := @ih (key x :: known)
      rw [List.mem_cons, or_assoc, or_assoc] at htail
      rw [List.map_cons, List.mem_cons, or_left_comm, htail, or_left_comm]

theorem unknown_subset : unknown key known xs ⊆ xs := by
  induction xs generalizing known with
  | nil => exact List.Subset.refl _
  | cons x xs ih =>
    rw [unknown]
    split
    · exact List.subset_cons_of_subset x ih
    · exact List.cons_subset_cons x ih

/-- The selected items have keys of their own. -/
theorem unknown_keys : ((unknown key known xs).map key).Nodup ∧
    ∀ x ∈ unknown key known xs, key x ∉ known := by
  induction xs generalizing known with
  | nil => exact ⟨List.nodup_nil, by simp [unknown]⟩
  | cons x xs ih =>
    rw [unknown]
    split
    · exact ih
    · rename_i hx
      obtain ⟨hnodup, hnew⟩ := @ih (key x :: known)
      rw [List.map_cons, List.nodup_cons]
      refine ⟨⟨fun hmem => ?_, hnodup⟩, List.forall_mem_cons.mpr ⟨hx, fun y hy hk => ?_⟩⟩
      · obtain ⟨y, hy, heq⟩ := List.mem_map.mp hmem
        exact hnew y hy (heq ▸ List.mem_cons_self)
      · exact hnew y hy (List.mem_cons_of_mem _ hk)

/-- **Selecting is idempotent**: items with keys of their own are all selected. -/
theorem unknown_eq_self (hnodup : (xs.map key).Nodup) (hnew : ∀ x ∈ xs, key x ∉ known) :
    unknown key known xs = xs := by
  induction xs generalizing known with
  | nil => rfl
  | cons x xs ih =>
    obtain ⟨hx, hxs⟩ := List.forall_mem_cons.mp hnew
    obtain ⟨hnotin, hrest⟩ := List.nodup_cons.mp hnodup
    rw [unknown, if_neg hx, ih hrest]
    intro y hy hmem
    rcases List.mem_cons.mp hmem with heq | hmem
    · exact hnotin (heq ▸ List.mem_map_of_mem hy)
    · exact hxs y hy hmem

/-- Known items are not selected. -/
theorem unknown_append (h : ∀ x ∈ xs, key x ∈ known) :
    unknown key known (xs ++ ys) = unknown key known ys := by
  induction xs with
  | nil => rfl
  | cons x xs ih =>
    obtain ⟨hx, hxs⟩ := List.forall_mem_cons.mp h
    rw [List.cons_append, unknown, if_pos hx, ih hxs]

end Noema.Lib
