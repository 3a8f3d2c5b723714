import Mathlib.Data.Finset.Max
import Mathlib.Data.Fintype.Card
import Mathlib.Data.Fintype.EquivFin
import Mathlib.Data.List.Perm.Basic
import Mathlib.Tactic.Common

/-!
# Topological levels

`levels deps xs` partitions `xs` by Kahn's algorithm: a pass takes the elements whose dependencies
were all taken in earlier passes, and the loop stops when a pass takes nothing. Nothing is assumed
about `deps`: there may be cycles, and dependencies that are not in the list.

- `layered_levels`: the dependencies of an element lie in earlier levels (`Layered.mem_earlier`);
- `flatten_levels_perm`: every element is in exactly one level, if the dependencies go down in some
  rank and lie in the list;
- `perm_of_length`: so it is if the levels have as many elements as the list;
- `acyclic_of_perm`: the converse: then there is no cycle, for in the order of the levels what an
  element depends on comes before it (`Layered.below`);
- `mem_flatten_levels_iff`: in any graph, an element is in a level if and only if everything that it
  depends on, directly or not, is in the list and on no cycle. One half follows the levels; for the
  other, a minimal element of what was left out (`exists_minimal`) would have been ready;
- `levels_eq_filter`: a level takes everything that the earlier levels make ready, so the partition
  is the coarsest one.
-/

namespace Kahn

variable {α : Type} [DecidableEq α] (deps : α → List α)

/-- Every dependency was taken. -/
def isReady (added : List α) (x : α) : Bool := (deps x).all fun d => decide (d ∈ added)

/-- The passes of the loop; each takes at least one element, so their number is bounded by the
number of elements. -/
def levelsFrom : Nat → List α → List α → List (List α)
  | 0, _, _ => []
  | fuel + 1, added, remaining =>
    let level := remaining.filter (isReady deps added)
    if level.isEmpty then []
    else level :: levelsFrom fuel (added ++ level)
      (remaining.filter fun x => !isReady deps added x)

/-- The levels of a list. -/
def levels (xs : List α) : List (List α) := levelsFrom deps xs.length [] xs

/-- The dependencies of the elements of a level were added before it. -/
def Layered : List α → List (List α) → Prop
  | _, [] => True
  | added, level :: rest => (∀ x ∈ level, ∀ d ∈ deps x, d ∈ added) ∧ Layered (added ++ level) rest

variable {deps}

theorem isReady_iff {added : List α} {x : α} :
    isReady deps added x = true ↔ ∀ d ∈ deps x, d ∈ added := by
  simp [isReady]

theorem layered_levelsFrom (fuel : Nat) (added remaining : List α) :
    Layered deps added (levelsFrom deps fuel added remaining) := by
  induction fuel generalizing added remaining with
  | zero => trivial
  | succ fuel ih =>
    rw [levelsFrom]
    split
    · trivial
    · refine ⟨fun x hx => ?_, ih _ _⟩
      exact isReady_iff.mp (List.mem_filter.mp hx).2

theorem layered_levels (xs : List α) : Layered deps [] (levels deps xs) :=
  layered_levelsFrom _ _ _

omit [DecidableEq α] in
/-- The dependencies of the elements of a level were added before, or lie in earlier levels. -/
theorem Layered.mem_earlier {added : List α} {pre : List (List α)} {level : List α}
    {post : List (List α)} (h : Layered deps added (pre ++ level :: post)) :
    ∀ x ∈ level, ∀ d ∈ deps x, d ∈ added ++ pre.flatten := by
  induction pre generalizing added with
  | nil => simpa using h.1
  | cons first pre ih => simpa using ih h.2

/-- The elements of lowest rank are ready, so a pass over a list that is not empty takes one. -/
theorem exists_ready {rank : α → Nat} {added remaining : List α} (hne : remaining ≠ [])
    (hdeps : ∀ x ∈ remaining, ∀ d ∈ deps x, d ∈ added ∨ d ∈ remaining ∧ rank d < rank x) :
    ∃ x ∈ remaining, isReady deps added x = true := by
  obtain ⟨x, hx, hmin⟩ : ∃ x ∈ remaining, ∀ y ∈ remaining, rank x ≤ rank y := by
    have hpos : remaining.toFinset.Nonempty := List.toFinset_nonempty_iff remaining |>.mpr hne
    obtain ⟨x, hx, hmin⟩ := remaining.toFinset.exists_min_image rank hpos
    exact ⟨x, List.mem_toFinset.mp hx, fun y hy => hmin y (List.mem_toFinset.mpr hy)⟩
  refine ⟨x, hx, isReady_iff.mpr fun d hd => ?_⟩
  rcases hdeps x hx d hd with h | ⟨hmem, hlt⟩
  · exact h
  · exact absurd (hmin d hmem) (by omega)

theorem flatten_levelsFrom_perm {rank : α → Nat} (fuel : Nat) (added remaining : List α)
    (hfuel : remaining.length ≤ fuel)
    (hdeps : ∀ x ∈ remaining, ∀ d ∈ deps x, d ∈ added ∨ d ∈ remaining ∧ rank d < rank x) :
    (levelsFrom deps fuel added remaining).flatten.Perm remaining := by
  induction fuel generalizing added remaining with
  | zero =>
    have : remaining = [] := List.eq_nil_of_length_eq_zero (by omega)
    subst this
    exact .refl _
  | succ fuel ih =>
    rw [levelsFrom]
    by_cases hne : remaining = []
    · subst hne
      exact .refl _
    obtain ⟨x, hx, hready⟩ := exists_ready hne hdeps
    have hlevel : x ∈ remaining.filter (isReady deps added) := List.mem_filter.mpr ⟨hx, hready⟩
    have hlength := List.length_eq_length_filter_add (l := remaining) (isReady deps added)
    have hpos : 0 < (remaining.filter (isReady deps added)).length := List.length_pos_of_mem hlevel
    rw [if_neg (by simpa using ⟨x, hx, hready⟩), List.flatten_cons]
    refine (List.Perm.append_left _ (ih _ _ (by omega) fun y hy d hd => ?_)).trans
      (List.filter_append_perm _ _)
    -- a dependency that was not taken before is taken in this pass or remains
    rcases hdeps y (List.mem_filter.mp hy).1 d hd with h | ⟨hmem, hlt⟩
    · exact .inl (List.mem_append_left _ h)
    · by_cases hd : isReady deps added d = true
      · exact .inl (List.mem_append_right _ (List.mem_filter.mpr ⟨hmem, hd⟩))
      · exact .inr ⟨List.mem_filter.mpr ⟨hmem, by simpa using hd⟩, hlt⟩

/-- Every element is in exactly one level. -/
theorem flatten_levels_perm (rank : α → Nat) {xs : List α}
    (hdeps : ∀ x ∈ xs, ∀ d ∈ deps x, d ∈ xs ∧ rank d < rank x) :
    (levels deps xs).flatten.Perm xs :=
  flatten_levelsFrom_perm xs.length [] xs le_rfl fun x hx d hd => .inr (hdeps x hx d hd)

/-- No element is taken twice. -/
theorem flatten_levelsFrom_subperm (fuel : Nat) (added remaining : List α) :
    (levelsFrom deps fuel added remaining).flatten.Subperm remaining := by
  induction fuel generalizing added remaining with
  | zero => exact List.nil_subperm
  | succ fuel ih =>
    rw [levelsFrom]
    split
    · exact List.nil_subperm
    · rw [List.flatten_cons]
      have hperm := List.filter_append_perm (isReady deps added) remaining
      exact (((List.Subperm.refl _).append (ih _ _)).trans hperm.subperm)

theorem perm_of_length {xs : List α} (h : (levels deps xs).flatten.length = xs.length) :
    (levels deps xs).flatten.Perm xs :=
  (flatten_levelsFrom_subperm xs.length [] xs).perm_of_length_le h.ge

/-- In the order of the levels, the dependencies of an element come before it. -/
theorem Layered.idxOf_lt {ls : List (List α)} (h : Layered deps [] ls) (hnodup : ls.flatten.Nodup)
    {x d : α} (hx : x ∈ ls.flatten) (hd : d ∈ deps x) :
    d ∈ ls.flatten ∧ ls.flatten.idxOf d < ls.flatten.idxOf x := by
  obtain ⟨level, hlevel, hxl⟩ := List.mem_flatten.mp hx
  obtain ⟨pre, post, rfl⟩ := List.append_of_mem hlevel
  have hearlier : d ∈ pre.flatten := by simpa using h.mem_earlier x hxl d hd
  rw [List.flatten_append, List.flatten_cons] at hnodup ⊢
  have hlater : x ∉ pre.flatten := fun hmem =>
    (List.nodup_append.mp hnodup).2.2 x hmem x (List.mem_append_left _ hxl) rfl
  refine ⟨List.mem_append_left _ hearlier, ?_⟩
  rw [List.idxOf_append_of_mem hearlier, List.idxOf_append_of_notMem hlater]
  have := List.idxOf_lt_length_iff.mpr hearlier
  omega

/-- The elements that `x` depends on, directly or not, through elements of the list. -/
def Below (deps : α → List α) (xs : List α) : α → α → Prop :=
  Relation.TransGen fun d x => x ∈ xs ∧ d ∈ deps x

/-- What an element of the levels depends on comes before it. -/
theorem Layered.below {ls : List (List α)} (h : Layered deps [] ls) (hnodup : ls.flatten.Nodup)
    {xs : List α} {d x : α} (hpath : Below deps xs d x) (hx : x ∈ ls.flatten) :
    d ∈ ls.flatten ∧ ls.flatten.idxOf d < ls.flatten.idxOf x := by
  induction hpath with
  | single hd => exact h.idxOf_lt hnodup hx hd.2
  | tail _ hd ih =>
    obtain ⟨hmem, hstep⟩ := h.idxOf_lt hnodup hx hd.2
    obtain ⟨ha, hrest⟩ := ih hmem
    exact ⟨ha, hrest.trans hstep⟩

theorem flatten_levels_nodup {xs : List α} (hnodup : xs.Nodup) :
    (levels deps xs).flatten.Nodup := by
  obtain ⟨ys, hperm, hsub⟩ : (levels deps xs).flatten.Subperm xs :=
    flatten_levelsFrom_subperm xs.length [] xs
  exact hperm.nodup_iff.mp (hsub.nodup hnodup)

theorem mem_of_mem_flatten_levels {xs : List α} {x : α} (h : x ∈ (levels deps xs).flatten) :
    x ∈ xs :=
  (flatten_levelsFrom_subperm xs.length [] xs).subset h

/-- No element of the levels depends on itself, directly or not. -/
theorem acyclic_of_perm {xs : List α} (hnodup : xs.Nodup) (h : (levels deps xs).flatten.Perm xs)
    {x : α} (hx : x ∈ xs) : ¬ Relation.TransGen (fun d y => d ∈ deps y) x x := by
  have hnodup' := h.nodup_iff.mpr hnodup
  have hlt : ∀ {a b : α}, Relation.TransGen (fun d y => d ∈ deps y) a b →
      b ∈ (levels deps xs).flatten → a ∈ (levels deps xs).flatten ∧
        (levels deps xs).flatten.idxOf a < (levels deps xs).flatten.idxOf b := by
    intro a b hpath
    induction hpath with
    | single hd => exact fun hb => (layered_levels xs).idxOf_lt hnodup' hb hd
    | tail _ hd ih =>
      intro hb
      obtain ⟨hmem, hstep⟩ := (layered_levels xs).idxOf_lt hnodup' hb hd
      obtain ⟨ha, hrest⟩ := ih hmem
      exact ⟨ha, hrest.trans hstep⟩
  exact fun hcycle => (hlt hcycle (h.mem_iff.mpr hx)).2.false

/-! ## What is left out -/

/-- The loop stops only when nothing of what is left is ready. -/
theorem exists_dep_not_mem (fuel : Nat) (added remaining : List α)
    (hfuel : remaining.length ≤ fuel) {x : α} (hx : x ∈ remaining)
    (hout : x ∉ (levelsFrom deps fuel added remaining).flatten) :
    ∃ d ∈ deps x, d ∉ added ++ (levelsFrom deps fuel added remaining).flatten := by
  induction fuel generalizing added remaining with
  | zero => simp [List.eq_nil_of_length_eq_zero (Nat.le_zero.mp hfuel)] at hx
  | succ fuel ih =>
    rw [levelsFrom] at hout ⊢
    have hready : isReady deps added x = false := by
      by_contra h
      have hmem := List.mem_filter.mpr ⟨hx, eq_true_of_ne_false h⟩
      rw [if_neg (by simpa using ⟨x, hx, eq_true_of_ne_false h⟩)] at hout
      exact hout (List.mem_append_left _ hmem)
    split
    · have := mt isReady_iff.mpr (ne_true_of_eq_false hready)
      push Not at this
      simpa using this
    next hlevel =>
      rw [if_neg hlevel] at hout
      have hlength := List.length_eq_length_filter_add (l := remaining) (isReady deps added)
      have hpos : 0 < (remaining.filter (isReady deps added)).length :=
        List.length_pos_iff.mpr (by simpa using hlevel)
      have hrest := ih _ _ (by omega) (List.mem_filter.mpr ⟨hx, by simpa using hready⟩)
        fun h => hout (List.mem_append_right _ h)
      simpa [List.append_assoc] using hrest

/-- Of the elements with a property, one depends on none of them, if none depends on itself. -/
theorem exists_minimal {xs : List α} {p : α → Prop} {x : α} (hx : p x)
    (hmem : ∀ y, p y → y ∈ xs) (hacyclic : ∀ y, p y → ¬ Below deps xs y y) :
    ∃ y, p y ∧ ∀ d, Below deps xs d y → ¬ p d := by
  have : Finite {y // p y} := Finite.of_injective
    (fun y => (⟨y.1, List.mem_toFinset.mpr (hmem _ y.2)⟩ : xs.toFinset)) fun a b h => by
      simpa [Subtype.ext_iff] using h
  have : IsTrans {y // p y} fun a b => Below deps xs a b := ⟨fun _ _ _ => .trans⟩
  have : Std.Irrefl fun a b : {y // p y} => Below deps xs a b := ⟨fun a => hacyclic _ a.2⟩
  have hwf := Finite.wellFounded_of_trans_of_irrefl fun a b : {y // p y} => Below deps xs a b
  obtain ⟨y, -, hmin⟩ := hwf.has_min Set.univ ⟨⟨x, hx⟩, trivial⟩
  exact ⟨y, y.2, fun d hd hp => hmin ⟨d, hp⟩ trivial hd⟩

/-- An element is in a level if and only if everything that it depends on, directly or not, is
in the list and on no cycle. -/
theorem mem_flatten_levels_iff {xs : List α} (hnodup : xs.Nodup) {x : α} (hx : x ∈ xs) :
    x ∈ (levels deps xs).flatten ↔
      ∀ d, Below deps xs d x → d ∈ xs ∧ ¬ Below deps xs d d := by
  have hlayered : Layered deps [] (levels deps xs) := layered_levels xs
  have hnodup' : (levels deps xs).flatten.Nodup := flatten_levels_nodup hnodup
  constructor
  · intro hin d hd
    have hmem := (hlayered.below hnodup' hd hin).1
    exact ⟨mem_of_mem_flatten_levels hmem, fun h => (hlayered.below hnodup' h hmem).2.false⟩
  · intro hall
    by_contra hout
    -- a minimal one of the elements below `x` that are left out would be ready
    obtain ⟨y, ⟨hyx, hymem, hyout⟩, hmin⟩ := @exists_minimal _ _ deps xs
      (fun y => (y = x ∨ Below deps xs y x) ∧ y ∈ xs ∧ y ∉ (levels deps xs).flatten) x
      ⟨.inl rfl, hx, hout⟩ (fun y hy => hy.2.1) fun y hy h => by
        rcases hy.1 with rfl | hbelow
        · exact (hall y h).2 h
        · exact (hall y hbelow).2 h
    obtain ⟨d, hd, hdout⟩ := exists_dep_not_mem xs.length [] xs le_rfl hymem hyout
    have hdy : Below deps xs d y := .single ⟨hymem, hd⟩
    have hdx : Below deps xs d x := hyx.elim (fun h => h ▸ hdy) fun h => hdy.trans h
    exact hmin d hdy ⟨.inr hdx, (hall d hdx).1, hdout⟩

/-- A level takes everything that the earlier levels make ready. -/
theorem levelsFrom_eq_filter {fuel : Nat} {added remaining : List α} {pre : List (List α)}
    {level : List α} {post : List (List α)}
    (h : levelsFrom deps fuel added remaining = pre ++ level :: post) :
    level = remaining.filter fun x =>
      decide (x ∉ pre.flatten) && isReady deps (added ++ pre.flatten) x := by
  induction pre generalizing fuel added remaining with
  | nil =>
    cases fuel with
    | zero => simp [levelsFrom] at h
    | succ fuel =>
      rw [levelsFrom] at h
      split at h
      · simp at h
      · simpa using (List.cons.inj h).1.symm
  | cons first pre ih =>
    cases fuel with
    | zero => simp [levelsFrom] at h
    | succ fuel =>
      rw [levelsFrom] at h
      split at h
      · simp at h
      · obtain ⟨rfl, hrest⟩ := List.cons.inj h
        -- the levels after the first one are those of what it has left
        rw [ih hrest, List.filter_filter]
        refine List.filter_congr fun x hx => ?_
        simp only [List.flatten_cons, List.mem_append, List.mem_filter, hx, true_and, not_or,
          List.append_assoc]
        cases isReady deps added x <;> simp

theorem levels_eq_filter {xs : List α} {pre : List (List α)} {level : List α}
    {post : List (List α)} (h : levels deps xs = pre ++ level :: post) :
    level = xs.filter fun x => decide (x ∉ pre.flatten) && isReady deps pre.flatten x :=
  levelsFrom_eq_filter h

theorem ne_nil_of_mem_levelsFrom {fuel : Nat} {added remaining : List α} {level : List α}
    (h : level ∈ levelsFrom deps fuel added remaining) : level ≠ [] := by
  induction fuel generalizing added remaining with
  | zero => simp [levelsFrom] at h
  | succ fuel ih =>
    rw [levelsFrom] at h
    split at h
    · simp at h
    next hlevel =>
      rcases List.mem_cons.mp h with rfl | h
      · simpa using hlevel
      · exact ih h

/-! ## Renaming -/

theorem filter_isReady_map {β : Type} [DecidableEq β] {f : α → β} (hf : Function.Injective f)
    {deps' : β → List β} (p : Bool → Bool) (added : List α) {remaining : List α}
    (hdeps : ∀ x ∈ remaining, deps' (f x) = (deps x).map f) :
    (remaining.map f).filter (fun y => p (isReady deps' (added.map f) y)) =
      (remaining.filter fun x => p (isReady deps added x)).map f := by
  rw [List.filter_map]
  refine congrArg (List.map f) (List.filter_congr fun x hx => congrArg p ?_)
  rw [Bool.eq_iff_iff, isReady_iff, isReady_iff, hdeps x hx]
  simp only [List.forall_mem_map, List.mem_map_of_injective hf]

/-- An injective renaming of the elements renames the levels. -/
theorem levelsFrom_map {β : Type} [DecidableEq β] {f : α → β} (hf : Function.Injective f)
    {deps' : β → List β} (fuel : Nat) (added remaining : List α)
    (hdeps : ∀ x ∈ remaining, deps' (f x) = (deps x).map f) :
    levelsFrom deps' fuel (added.map f) (remaining.map f) =
      (levelsFrom deps fuel added remaining).map (List.map f) := by
  induction fuel generalizing added remaining with
  | zero => rfl
  | succ fuel ih =>
    have hready : (remaining.map f).filter (isReady deps' (added.map f)) =
        (remaining.filter (isReady deps added)).map f := filter_isReady_map hf id added hdeps
    rw [levelsFrom, levelsFrom, hready, filter_isReady_map hf not added hdeps, List.isEmpty_map]
    split
    · rfl
    · rw [List.map_cons, ← ih _ _ fun x hx => hdeps x (List.mem_filter.mp hx).1, List.map_append]

end Kahn
