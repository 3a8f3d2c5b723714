import Noema.Core.ChainOfThought

/-!
# The levels of any step graph (`_topological_levels`)

`topologicalLevels` of the chain of thought is a library partition of the planned steps. Here is the
loop as the code has it, over steps with any `depends_on`: a pass scans a copy of `remaining` and
takes what it finds ready out of `remaining` itself, by comparison of values. Steps may depend on
steps that do not exist, or on each other; the loop then stops with some steps left.

- `scanLevel_append`: a scan takes the ready steps out of what remains, in their order. Comparison
  by value is harmless when names are distinct.
- `levelsLoop_eq`: with distinct names the loop ends, and its levels are those of the library. The
  induction is on the number of steps that remain, and any larger fuel gives the same result.
- `mem_level_iff`: a level consists of the steps that are in no earlier one and have all their
  dependencies in earlier ones.
- **`topologicalLevels_exact`**: what is returned, in which level, and what is left out: a step is
  left out exactly if it has a dependency, directly or not, that is unknown or on a cycle.
- `levelsLoop_planned`: on the planned steps they are `topologicalLevels`, so the modules about runs
  are about this loop.
-/

namespace Noema.Core

/-- A step as the loop sees it: the name, the `depends_on`, and the other fields, which only
`remaining.remove` compares. -/
structure GraphStep (R : Type) where
  name : String
  dependsOn : List String
  fields : R
  deriving DecidableEq

section Loop

variable {R : Type} [DecidableEq R]

/-- `all(dep in added for dep in step.depends_on)`. -/
def GraphStep.isReady (added : List String) (step : GraphStep R) : Bool :=
  step.dependsOn.all fun dep => decide (dep ∈ added)

/-- The `for` loop over `remaining[:]`; what it has taken, and what remains. -/
def scanLevel (added : List String) :
    List (GraphStep R) → List (GraphStep R) → List (GraphStep R) →
      List (GraphStep R) × List (GraphStep R)
  | [], level, remaining => (level, remaining)
  | step :: copy, level, remaining =>
    if step.isReady added then scanLevel added copy (level ++ [step]) (remaining.erase step)
    else scanLevel added copy level remaining

/-- The `while` loop of `_topological_levels` (chain_of_thought.py:503); `none` if it takes
more passes than it is given. -/
def levelsLoop : Nat → List String → List (GraphStep R) → Option (List (List (GraphStep R)))
  | 0, _, _ => none
  | fuel + 1, added, remaining =>
    if remaining = [] then some []
    else
      let (level, remaining) := scanLevel added remaining [] remaining
      if level = [] then some []
      else (level :: ·) <$> levelsLoop fuel (added ++ level.map GraphStep.name) remaining

/-- `_topological_levels` with a number of passes. -/
def GraphStep.topologicalLevels (fuel : Nat) (steps : List (GraphStep R)) :
    Option (List (List (GraphStep R))) :=
  levelsLoop fuel [] steps

/-- `d` is a dependency of `n`, directly or not. -/
def GraphStep.Below (steps : List (GraphStep R)) : String → String → Prop :=
  Relation.TransGen fun d n => ∃ s ∈ steps, s.name = n ∧ d ∈ s.dependsOn

/-- The `depends_on` of the step of a name. -/
def depsOf (steps : List (GraphStep R)) (name : String) : List String :=
  ((steps.find? fun s => s.name = name).map GraphStep.dependsOn).getD []

/-! ## The loop and the library -/

/-- A scan takes the ready steps out of what remains, in their order. -/
theorem scanLevel_append (added : List String) (copy level kept : List (GraphStep R))
    (hnodup : (kept ++ copy).Nodup) :
    scanLevel added copy level (kept ++ copy) =
      (level ++ copy.filter (GraphStep.isReady added),
        kept ++ copy.filter fun s => !s.isReady added) := by
  induction copy generalizing level kept with
  | nil => simp [scanLevel]
  | cons step copy ih =>
    have hstep : step ∉ kept := fun h =>
      (List.nodup_append.mp hnodup).2.2 step h step List.mem_cons_self rfl
    rw [scanLevel]
    split
    next hready =>
      rw [List.erase_append_right _ hstep, List.erase_cons_head, ih _ _ ?_]
      · simp [hready]
      · exact hnodup.sublist (List.Sublist.append_left (List.sublist_cons_self step copy) kept)
    next hready =>
      have hcons : kept ++ step :: copy = (kept ++ [step]) ++ copy := by simp
      rw [hcons] at hnodup ⊢
      rw [ih _ _ hnodup]
      simp [hready]

theorem scanLevel_eq (added : List String) {remaining : List (GraphStep R)}
    (hnodup : remaining.Nodup) :
    scanLevel added remaining [] remaining =
      (remaining.filter (GraphStep.isReady added),
        remaining.filter fun s => !s.isReady added) :=
  scanLevel_append added remaining [] [] hnodup

section Named

variable {steps : List (GraphStep R)} (hnames : (steps.map GraphStep.name).Nodup)

include hnames

omit [DecidableEq R] in
theorem eq_of_name_eq {s t : GraphStep R} (hs : s ∈ steps) (ht : t ∈ steps)
    (h : s.name = t.name) : s = t :=
  List.inj_on_of_nodup_map hnames hs ht h

omit [DecidableEq R] in
theorem depsOf_name {s : GraphStep R} (hs : s ∈ steps) : depsOf steps s.name = s.dependsOn := by
  have hfind : steps.find? (fun t => t.name = s.name) = some s := by
    obtain ⟨t, ht⟩ := Option.isSome_iff_exists.mp
      (List.find?_isSome.mpr ⟨s, hs, decide_eq_true rfl⟩ :
        (steps.find? fun t => t.name = s.name).isSome)
    have hname : t.name = s.name := by simpa using List.find?_some ht
    rw [ht, eq_of_name_eq hnames (List.mem_of_find?_eq_some ht) hs hname]
  rw [depsOf, hfind, Option.map_some, Option.getD_some]

omit [DecidableEq R] in
theorem isReady_name (added : List String) {s : GraphStep R} (hs : s ∈ steps) :
    Kahn.isReady (depsOf steps) added s.name = s.isReady added := by
  rw [Kahn.isReady, depsOf_name hnames hs, GraphStep.isReady]

omit [DecidableEq R] in
/-- A filter of names by what is ready is the same filter of the steps. -/
theorem map_filter_isReady (p : Bool → Bool) (added : List String)
    {remaining : List (GraphStep R)} (hsub : remaining.Sublist steps) :
    (remaining.map GraphStep.name).filter (fun n => p (Kahn.isReady (depsOf steps) added n)) =
      (remaining.filter fun s => p (s.isReady added)).map GraphStep.name := by
  rw [List.filter_map]
  refine congrArg (List.map GraphStep.name) (List.filter_congr fun s hs => ?_)
  rw [Function.comp_apply, isReady_name hnames added (hsub.subset hs)]

/-- The loop ends, and the names of its levels are the levels of the names. -/
theorem levelsLoop_eq (added : List String) (remaining : List (GraphStep R))
    (hsub : remaining.Sublist steps) :
    ∃ levels, (∀ fuel, remaining.length < fuel →
        levelsLoop fuel added remaining = some levels) ∧
      (∀ s ∈ levels.flatten, s ∈ steps) ∧
      ∀ bound, remaining.length ≤ bound → levels.map (List.map GraphStep.name) =
        Kahn.levelsFrom (depsOf steps) bound added (remaining.map GraphStep.name) := by
  induction hn : remaining.length using Nat.strong_induction_on generalizing added remaining with
  | _ n ih =>
  subst hn
  have hnodup : remaining.Nodup := (List.Nodup.of_map _ hnames).sublist hsub
  -- One pass: the ready steps form the level, and the others are what remains, which is shorter.
  have hscan := scanLevel_eq added hnodup
  have hready : (remaining.map GraphStep.name).filter (Kahn.isReady (depsOf steps) added) =
      (remaining.filter (GraphStep.isReady added)).map GraphStep.name :=
    map_filter_isReady hnames id added hsub
  have hleft := map_filter_isReady hnames not added hsub
  set level := remaining.filter (GraphStep.isReady added) with hlevel
  set left := remaining.filter (fun s => !s.isReady added) with hleft'
  by_cases hnil : level = []
  · -- nothing is ready, or nothing remains
    refine ⟨[], fun fuel hfuel => ?_, by simp, fun bound hbound => ?_⟩
    · obtain ⟨fuel, rfl⟩ := Nat.exists_eq_add_one_of_ne_zero (Nat.ne_zero_of_lt hfuel)
      rw [levelsLoop, hscan]
      simp [hnil]
    · cases bound with
      | zero => rfl
      | succ bound =>
        rw [Kahn.levelsFrom, hready, hnil]
        rfl
  · have hlength := List.length_eq_length_filter_add (l := remaining) (GraphStep.isReady added)
    have hpos : 0 < level.length := List.length_pos_iff.mpr hnil
    have hlt : left.length < remaining.length := by
      rw [hlength]
      exact Nat.lt_add_of_pos_left hpos
    obtain ⟨rest, hloop, hmem, hnames'⟩ := ih left.length hlt
      (added ++ level.map GraphStep.name) left (List.filter_sublist.trans hsub) rfl
    refine ⟨level :: rest, fun fuel hfuel => ?_, fun s hs => ?_, fun bound hbound => ?_⟩
    · obtain ⟨fuel, rfl⟩ := Nat.exists_eq_add_one_of_ne_zero (Nat.ne_zero_of_lt hfuel)
      have hne : remaining ≠ [] := by
        rintro rfl
        exact absurd hlt (by simp)
      rw [levelsLoop, if_neg hne, hscan]
      dsimp only
      rw [if_neg hnil, hloop fuel (by omega)]
      rfl
    · rcases List.mem_append.mp hs with hs | hs
      · exact hsub.subset (List.mem_filter.mp hs).1
      · exact hmem s hs
    · obtain ⟨bound, rfl⟩ := Nat.exists_eq_add_one_of_ne_zero (n := bound) (by omega)
      rw [Kahn.levelsFrom, hready, hleft, if_neg (by simpa using hnil), List.map_cons,
        hnames' bound (by omega)]

omit [DecidableEq R] in
theorem mem_map_name_iff {l : List (GraphStep R)} (hl : ∀ s ∈ l, s ∈ steps) {s : GraphStep R}
    (hs : s ∈ steps) : s.name ∈ l.map GraphStep.name ↔ s ∈ l := by
  refine ⟨fun h => ?_, fun h => List.mem_map_of_mem h⟩
  obtain ⟨t, ht, hname⟩ := List.mem_map.mp h
  rwa [eq_of_name_eq hnames hs (hl t ht) hname.symm]

omit [DecidableEq R] in
theorem below_iff (d n : String) :
    Kahn.Below (depsOf steps) (steps.map GraphStep.name) d n ↔ GraphStep.Below steps d n := by
  have hstep : (fun d n => n ∈ steps.map GraphStep.name ∧ d ∈ depsOf steps n) =
      fun d n => ∃ s ∈ steps, s.name = n ∧ d ∈ s.dependsOn := by
    funext d n
    refine propext ⟨?_, ?_⟩
    · rintro ⟨hn, hd⟩
      obtain ⟨s, hs, rfl⟩ := List.mem_map.mp hn
      exact ⟨s, hs, rfl, by rwa [depsOf_name hnames hs] at hd⟩
    · rintro ⟨s, hs, rfl, hd⟩
      exact ⟨List.mem_map_of_mem hs, by rwa [depsOf_name hnames hs]⟩
  rw [Kahn.Below, GraphStep.Below, hstep]

/-- A level consists of the steps that are in no earlier one and have all their dependencies
in earlier ones. -/
theorem mem_level_iff {levels pre post : List (List (GraphStep R))} {level : List (GraphStep R)}
    (hmem : ∀ s ∈ levels.flatten, s ∈ steps)
    (hlevels : levels.map (List.map GraphStep.name) =
      Kahn.levels (depsOf steps) (steps.map GraphStep.name))
    (hsplit : levels = pre ++ level :: post) (s : GraphStep R) :
    s ∈ level ↔ s ∈ steps ∧ s ∉ pre.flatten ∧
      ∀ d ∈ s.dependsOn, d ∈ pre.flatten.map GraphStep.name := by
  subst hsplit
  have hpre : ∀ t ∈ pre.flatten, t ∈ steps := fun t ht => hmem t (by simp [List.mem_flatten.mp ht])
  have hlevel : ∀ t ∈ level, t ∈ steps := fun t ht => hmem t (by simp [ht])
  rw [List.map_append, List.map_cons] at hlevels
  have hfilter := Kahn.levels_eq_filter hlevels.symm
  rw [← List.map_flatten] at hfilter
  by_cases hs : s ∈ steps
  · rw [← mem_map_name_iff hnames hlevel hs, hfilter, List.mem_filter, Bool.and_eq_true,
      decide_eq_true_iff, mem_map_name_iff hnames hpre hs, Kahn.isReady_iff,
      depsOf_name hnames hs]
    simp only [hs, List.mem_map_of_mem, true_and]
  · exact ⟨fun h => absurd (hlevel s h) hs, fun h => absurd h.1 hs⟩

end Named

/-- With distinct names the loop ends. Each returned step is a step, once; a level is not empty
and consists of the steps that are not in an earlier one and have all their dependencies there;
a step is left out exactly if it has a dependency, directly or not, that is unknown or on a
cycle; without such dependencies the levels partition the steps. -/
theorem topologicalLevels_exact (steps : List (GraphStep R))
    (hnames : (steps.map GraphStep.name).Nodup) :
    ∃ levels, (∀ fuel, steps.length < fuel →
        GraphStep.topologicalLevels fuel steps = some levels) ∧
      levels.flatten.Nodup ∧ (∀ s ∈ levels.flatten, s ∈ steps) ∧
      (∀ pre level post, levels = pre ++ level :: post → level ≠ [] ∧
        ∀ s, s ∈ level ↔ s ∈ steps ∧ s ∉ pre.flatten ∧
          ∀ d ∈ s.dependsOn, d ∈ pre.flatten.map GraphStep.name) ∧
      (∀ s ∈ steps, s ∉ levels.flatten ↔ ∃ d, GraphStep.Below steps d s.name ∧
        (d ∉ steps.map GraphStep.name ∨ GraphStep.Below steps d d)) ∧
      ((∀ s ∈ steps, ∀ d ∈ s.dependsOn, d ∈ steps.map GraphStep.name) →
        (∀ n, ¬ GraphStep.Below steps n n) → levels.flatten.Perm steps) := by
  obtain ⟨levels, hloop, hmem, hlevels⟩ := levelsLoop_eq hnames [] steps (List.Sublist.refl _)
  have hlevels : levels.map (List.map GraphStep.name) =
      Kahn.levels (depsOf steps) (steps.map GraphStep.name) := by
    rw [hlevels _ (List.length_map _).ge]
    rfl
  have hflat : levels.flatten.map GraphStep.name =
      (Kahn.levels (depsOf steps) (steps.map GraphStep.name)).flatten := by
    rw [List.map_flatten, hlevels]
  have hnodup : levels.flatten.Nodup := by
    refine List.Nodup.of_map GraphStep.name ?_
    rw [hflat]
    exact Kahn.flatten_levels_nodup hnames
  -- What the library says about names is carried over to steps, as names are distinct.
  have hout : ∀ s ∈ steps, s ∉ levels.flatten ↔ ∃ d, GraphStep.Below steps d s.name ∧
      (d ∉ steps.map GraphStep.name ∨ GraphStep.Below steps d d) := by
    intro s hs
    rw [← mem_map_name_iff hnames hmem hs, hflat,
      Kahn.mem_flatten_levels_iff hnames (List.mem_map_of_mem hs)]
    simp only [below_iff hnames, not_forall, not_and_or, not_not, exists_prop]
  refine ⟨levels, hloop, hnodup, hmem, fun pre level post hsplit => ⟨?_, ?_⟩, hout, ?_⟩
  · have hlevel : level.map GraphStep.name ∈
        Kahn.levels (depsOf steps) (steps.map GraphStep.name) := by
      rw [← hlevels, hsplit]
      simp
    exact fun h => Kahn.ne_nil_of_mem_levelsFrom hlevel (by rw [h, List.map_nil])
  · exact mem_level_iff hnames hmem hlevels hsplit
  · intro hclosed hacyclic
    refine (List.perm_ext_iff_of_nodup hnodup (List.Nodup.of_map _ hnames)).mpr fun s => ?_
    refine ⟨hmem s, fun hs => ?_⟩
    by_contra h
    obtain ⟨d, hd, hunknown | hcycle⟩ := (hout s hs).mp h
    · -- the last edge to `d` is of a step that lists `d`
      obtain ⟨n, ⟨t, ht, -, hdep⟩, -⟩ := Relation.TransGen.head'_iff.mp hd
      exact hunknown (hclosed t ht d hdep)
    · exact hacyclic d hcycle

/-- `c` waits for `b`, which lies on a cycle, and `d` for a step that does not exist. -/
def tangledGraph : List (GraphStep Unit) :=
  [⟨"c", ["a", "b"], ()⟩, ⟨"a", [], ()⟩, ⟨"b", ["e"], ()⟩, ⟨"e", ["b"], ()⟩, ⟨"d", ["x"], ()⟩,
    ⟨"f", ["a"], ()⟩]

theorem topologicalLevels_exact_tangled :
    ∃ levels, GraphStep.topologicalLevels 7 tangledGraph = some levels ∧
      levels.flatten.Nodup ∧
      ∀ s ∈ tangledGraph, s ∉ levels.flatten ↔ ∃ d, GraphStep.Below tangledGraph d s.name ∧
        (d ∉ tangledGraph.map GraphStep.name ∨ GraphStep.Below tangledGraph d d) := by
  obtain ⟨levels, hloop, hnodup, -, -, hout, -⟩ :=
    topologicalLevels_exact tangledGraph (by decide +kernel)
  exact ⟨levels, hloop 7 (by decide), hnodup, hout⟩

example : GraphStep.topologicalLevels 7 tangledGraph =
    some [[⟨"a", [], ()⟩], [⟨"f", ["a"], ()⟩]] := by
  decide +kernel

/-! ## The planned steps -/

/-- `self._steps` as a graph. -/
def plannedGraph (planned : List StepName) : List (GraphStep StepName) :=
  (stepsOf planned).map fun n => ⟨n.text, (filteredDeps planned n).map StepName.text, n⟩

/-- On the planned steps the loop gives their `topologicalLevels`. -/
theorem levelsLoop_planned (planned : List StepName) :
    ∃ levels, (∀ fuel, (plannedGraph planned).length < fuel →
        GraphStep.topologicalLevels fuel (plannedGraph planned) = some levels) ∧
      levels.map (List.map GraphStep.name) =
        (topologicalLevels planned).map (List.map StepName.text) := by
  have hmap : (plannedGraph planned).map GraphStep.name =
      (stepsOf planned).map StepName.text := by
    rw [plannedGraph, List.map_map]
    rfl
  have hnames : ((plannedGraph planned).map GraphStep.name).Nodup := by
    rw [hmap]
    exact (nodup_stepsOf planned).map StepName.text_injective
  obtain ⟨levels, hloop, -, hlevels⟩ := levelsLoop_eq hnames [] _ (List.Sublist.refl _)
  refine ⟨levels, hloop, ?_⟩
  have hlength : (plannedGraph planned).length = (stepsOf planned).length := List.length_map _
  rw [hlevels _ le_rfl, hlength, hmap, topologicalLevels, Kahn.levels]
  refine Kahn.levelsFrom_map StepName.text_injective _ [] _ fun n hn => ?_
  exact depsOf_name hnames (List.mem_map_of_mem hn)

end Loop

end Noema.Core
