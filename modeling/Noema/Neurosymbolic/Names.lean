import Noema.Neurosymbolic.Symbolic

/-!
# The names of the variables (`neurosymbolic/symbolic.py`)

`_unique_names` makes the names of a list different: a name that was given out before gets a number,
from the last one of that name on, until the result is new. The code searches for the number in a
`while True`; the model searches with a bound, and both ends of that are proved here.

- `freshIndex_not_mem`: the search ends on a name that is not a key, since there are more candidates
  than keys.
- `searchTurns_freshIndex`, `searchTurn_wf`: the numbers up to that one are the turns of the loop of
  the code, and there is no infinite sequence of turns from any number on.
- `uniqueNames_nodup`: the names are pairwise different.
- **`uniqueNames_unique`**: there are as many names as were given, pairwise different, each the name
  at its place or that name with a positive number, and every search for a number ends.
- `itemNames_ne_empty`: a name that `parse_task` gives out is not empty.
-/

namespace Noema.Neurosymbolic

open Noema.Lib PyJson

/-! ## `_unique_names` -/

theorem numbered_inj {name : String} {j k : Nat} :
    name ++ "_" ++ toString j = name ++ "_" ++ toString k ↔ j = k := by
  rw [String.append_right_inj]
  exact Nat.repr_inj

/-- A search that ends on a key has met keys only. -/
theorem freshIndex_mem {keys : List String} {name : String} {fuel k : Nat}
    (h : name ++ "_" ++ toString (freshIndex keys name fuel k) ∈ keys) :
    ∀ j < fuel, name ++ "_" ++ toString (k + j) ∈ keys := by
  induction fuel generalizing k with
  | zero => intro j hj; omega
  | succ fuel ih =>
    rw [freshIndex] at h
    split at h
    next hk =>
      intro j hj
      cases j with
      | zero => exact hk
      | succ j =>
        have := ih h j (by omega)
        rwa [Nat.add_right_comm, Nat.add_assoc] at this
    next hk => exact absurd h hk

/-- The search ends on a name that is not a key: there are more candidates than keys. -/
theorem freshIndex_not_mem {keys : List String} {name : String} {fuel k : Nat}
    (hfuel : keys.length < fuel) :
    name ++ "_" ++ toString (freshIndex keys name fuel k) ∉ keys := by
  intro h
  have hmem := freshIndex_mem h
  let candidates := (List.range fuel).map fun j => name ++ "_" ++ toString (k + j)
  have hnodup : candidates.Nodup := by
    refine List.nodup_range.map ?_
    intro i j hij
    have := numbered_inj.mp hij
    omega
  have hsub : candidates ⊆ keys := by
    intro c hc
    obtain ⟨j, hj, rfl⟩ := List.mem_map.mp hc
    exact hmem j (List.mem_range.mp hj)
  have hlen := hnodup.length_le_of_subset hsub
  rw [List.length_map, List.length_range] at hlen
  omega

theorem le_freshIndex (keys : List String) (name : String) (fuel k : Nat) :
    k ≤ freshIndex keys name fuel k := by
  induction fuel generalizing k with
  | zero => exact Nat.le_refl k
  | succ fuel ih =>
    rw [freshIndex]
    split
    · exact Nat.le_of_succ_le (ih (k + 1))
    · exact Nat.le_refl k

/-- A turn of the inner loop: a candidate that is a key is passed over. -/
def SearchTurn (keys : List String) (name : String) (k k' : Nat) : Prop :=
  name ++ "_" ++ toString k ∈ keys ∧ k' = k + 1

/-- The numbers from `k` to the one that the search ends on are turns of the loop. -/
theorem searchTurns_freshIndex (keys : List String) (name : String) (fuel k : Nat) :
    Relation.ReflTransGen (SearchTurn keys name) k (freshIndex keys name fuel k) := by
  induction fuel generalizing k with
  | zero => exact .refl
  | succ fuel ih =>
    rw [freshIndex]
    split
    next hk => exact .head ⟨hk, rfl⟩ (ih (k + 1))
    next => exact .refl

theorem acc_of_not_mem {keys : List String} {name : String} {n k : Nat}
    (h : name ++ "_" ++ toString (k + n) ∉ keys) :
    Acc (fun k' k => SearchTurn keys name k k') k := by
  induction n generalizing k with
  | zero => exact ⟨k, fun k' hturn => absurd hturn.1 h⟩
  | succ n ih =>
    refine ⟨k, ?_⟩
    rintro k' ⟨-, rfl⟩
    exact ih (by rwa [Nat.add_assoc, Nat.add_comm 1 n])

/-- The inner loop ends, whatever the keys: it does not pass the first name that is no key. -/
theorem searchTurn_wf (keys : List String) (name : String) :
    WellFounded fun k' k => SearchTurn keys name k k' := by
  refine ⟨fun k => ?_⟩
  have hfresh := @freshIndex_not_mem keys name _ k (Nat.lt_succ_self keys.length)
  obtain ⟨n, hn⟩ := Nat.exists_eq_add_of_le (le_freshIndex keys name (keys.length + 1) k)
  rw [hn] at hfresh
  -- the loop cannot pass the number that the search has found
  exact acc_of_not_mem hfresh

/-- The names given out are new, and pairwise different. -/
theorem uniqueNamesLoop_nodup (names : List String) (seen : List (String × Nat)) :
    (uniqueNamesLoop seen names).Nodup ∧
      ∀ n ∈ uniqueNamesLoop seen names, n ∉ seen.map Prod.fst := by
  induction names generalizing seen with
  | nil => simp [uniqueNamesLoop]
  | cons name names ih =>
    -- in both branches the new name becomes a key, so the rest of the output avoids it
    have hstep : ∀ (c : String) (seen' : List (String × Nat)), c ∉ seen.map Prod.fst →
        c ∈ seen'.map Prod.fst → (∀ n ∈ seen.map Prod.fst, n ∈ seen'.map Prod.fst) →
        (c :: uniqueNamesLoop seen' names).Nodup ∧
          ∀ n ∈ c :: uniqueNamesLoop seen' names, n ∉ seen.map Prod.fst := by
      intro c seen' hc hc' hsub
      obtain ⟨hnodup, hnew⟩ := ih seen'
      refine ⟨List.nodup_cons.mpr ⟨fun h => hnew c h hc', hnodup⟩, fun n hn => ?_⟩
      rcases List.mem_cons.mp hn with rfl | hn
      · exact hc
      · exact fun h => hnew n hn (hsub n h)
    rw [uniqueNamesLoop]
    split
    next hnone =>
      refine hstep name _ (not_mem_keys_of_lookup hnone) ?_ ?_
      · exact mem_keys_dictInsert.mpr (.inl rfl)
      · exact fun n hn => mem_keys_dictInsert.mpr (.inr hn)
    next n _ =>
      refine hstep _ _ (freshIndex_not_mem (by simp)) ?_ ?_
      · exact mem_keys_dictInsert.mpr (.inl rfl)
      · intro n hn
        exact mem_keys_dictInsert.mpr (.inr (mem_keys_dictInsert.mpr (.inr hn)))

theorem uniqueNames_nodup (names : List String) : (uniqueNames names).Nodup :=
  (uniqueNamesLoop_nodup names []).1

theorem uniqueNamesLoop_length (names : List String) (seen : List (String × Nat)) :
    (uniqueNamesLoop seen names).length = names.length := by
  induction names generalizing seen with
  | nil => rfl
  | cons name names ih =>
    rw [uniqueNamesLoop]
    split <;> rw [List.length_cons, List.length_cons, ih]

/-- A name given out is the one at its place, or that name with a positive number. -/
theorem uniqueNamesLoop_numbered (names : List String) (seen : List (String × Nat)) :
    List.Forall₂ (fun name out => out = name ∨ ∃ k > 0, out = name ++ "_" ++ toString k) names
      (uniqueNamesLoop seen names) := by
  induction names generalizing seen with
  | nil => exact .nil
  | cons name names ih =>
    rw [uniqueNamesLoop]
    split
    · exact .cons (.inl rfl) (ih _)
    next n _ =>
      have hle := le_freshIndex (seen.map Prod.fst) name (seen.length + 1) (n + 1)
      exact .cons (.inr ⟨_, Nat.lt_of_lt_of_le n.succ_pos hle, rfl⟩) (ih _)

/-- As many names as were given, pairwise different, each the name at its place or that name
with a positive number; and the search for a number ends, from any number and whatever names
were given out before, on a name that is not one of them. -/
theorem uniqueNames_unique (names : List String) :
    (uniqueNames names).length = names.length ∧ (uniqueNames names).Nodup ∧
      (∀ (i : Nat) (h : i < names.length) (h' : i < (uniqueNames names).length),
        (uniqueNames names)[i] = names[i] ∨
          ∃ k > 0, (uniqueNames names)[i] = names[i] ++ "_" ++ toString k) ∧
      ∀ (keys : List String) (name : String),
        (WellFounded fun k' k => SearchTurn keys name k k') ∧
          ∀ k, Relation.ReflTransGen (SearchTurn keys name) k
              (freshIndex keys name (keys.length + 1) k) ∧
            name ++ "_" ++ toString (freshIndex keys name (keys.length + 1) k) ∉ keys := by
  refine ⟨uniqueNamesLoop_length names [], uniqueNames_nodup names, fun i h h' => ?_, ?_⟩
  · exact (uniqueNamesLoop_numbered names []).get h h'
  · intro keys name
    refine ⟨searchTurn_wf keys name, fun k => ⟨searchTurns_freshIndex keys name _ k, ?_⟩⟩
    exact freshIndex_not_mem (Nat.lt_succ_self keys.length)

theorem uniqueNamesLoop_ne_empty {names : List String} (h : ∀ n ∈ names, n ≠ "")
    (seen : List (String × Nat)) : ∀ n ∈ uniqueNamesLoop seen names, n ≠ "" := by
  induction names generalizing seen with
  | nil => simp [uniqueNamesLoop]
  | cons name names ih =>
    have ih := ih fun n hn => h n (List.mem_cons_of_mem _ hn)
    intro n hn
    rw [uniqueNamesLoop] at hn
    split at hn
    · rcases List.mem_cons.mp hn with rfl | hn
      · exact h n List.mem_cons_self
      · exact ih _ n hn
    · rcases List.mem_cons.mp hn with rfl | hn
      · simp [String.append_eq_empty_iff]
      · exact ih _ n hn

/-! ## The names of a list of entries -/

section Items

variable {F : Type} [PyInterp F]

theorem sanitizeVarName_ne_empty (name : PyVal F) {fallback : String} (h : fallback ≠ "") :
    sanitizeVarName name fallback ≠ "" := by
  unfold sanitizeVarName
  dsimp only
  split_ifs with _ _ hsafe
  · exact h
  · exact h
  · exact fun heq => hsafe (by simpa using congrArg String.toList heq)
  · exact h
  · rename_i hsafe
    exact fun heq => hsafe (by simpa using congrArg String.toList heq)

theorem itemNames_nodup (fallback : String) (items : List (Item F)) :
    (itemNames fallback items).Nodup :=
  uniqueNames_nodup _

theorem itemNames_length (fallback : String) (items : List (Item F)) :
    (itemNames fallback items).length = items.length := by
  rw [itemNames, uniqueNames, uniqueNamesLoop_length, List.length_map, List.length_zipIdx]

theorem itemNames_ne_empty {fallback : String} (h : fallback ≠ "") (items : List (Item F)) :
    ∀ n ∈ itemNames fallback items, n ≠ "" := by
  refine uniqueNamesLoop_ne_empty (fun n hn => ?_) []
  obtain ⟨⟨item, i⟩, _, rfl⟩ := List.mem_map.mp hn
  refine sanitizeVarName_ne_empty _ ?_
  simp [String.append_eq_empty_iff, h]

end Items

end Noema.Neurosymbolic
