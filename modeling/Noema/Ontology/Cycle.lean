import Noema.Ontology.GraphRuns

/-!
# The search for a cycle (`ontology/graph.py`)

`has_cycle` is a depth-first search with colours and a stack of its own: a node is pushed once to be
expanded and once to be blackened. On a graph with the representation it ends, and says whether a
path of relations leads from an entity back to it. The general part is `Lib.DepthFirst`: the
invariant of the colours and the stack, what it says when the search is over, and the cost that
decreases.

- `targets`: the objects of the relations of a node, in their order. `succ_eq_edge` says that they
  are the edges of the graph.
- `pushTargets_eq`, `search_unexpanded`: what one turn does, when no index and no key is missing.
- `search_ends`: the search from one node ends with a cycle, or with an empty stack and everything
  visited. The induction is on the turns that are left, which bound the cost.
- `searchFrom_eq`: the loop over the nodes to start from.
- **`graphs_hasCycle`**: on every graph that calls make, `has_cycle` ends and says whether the
  relations lead from an entity back to it.

The code expands a black node that it finds on the stack once more; nothing is pushed then, and the
two turns have no effect.
-/

namespace Noema.Ontology

open Noema.Lib PyJson

variable {F : Type}

namespace OntologyGraph

variable (g : OntologyGraph F)

/-- A relation leads from `v` to `w`. -/
def Edge (v w : String) : Prop := ∃ r ∈ g.relations, r.subject = v ∧ r.object = w

/-- A path of relations leads from an entity back to it. -/
def Cyclic : Prop := ∃ v, Relation.TransGen g.Edge v v

/-- The objects of the relations of a subject. -/
def targets (v : String) : List String :=
  (g.subjectIndices v).filterMap fun i => g.relations[i]?.map Relation.object

/-- The colour of a node; what is not in the dict counts as white. -/
def colorOf (color : List (String × Color)) (v : String) : Color := (color.lookup v).getD .white

variable {g}

theorem colorOf_dictInsert (color : List (String × Color)) (v : String) (c : Color) :
    colorOf (dictInsert v c color) = Function.update (colorOf color) v c := by
  funext w
  rw [colorOf, lookup_dictInsert, Function.update_apply]
  split
  · rfl
  · rfl

variable [PyInterp F]

theorem pyKey_eq_ok {color : List (String × Color)} {v : String} (h : v ∈ color.map Prod.fst) :
    pyKey F color v = .ok (colorOf color v) := by
  rw [pyKey, colorOf]
  rcases hlookup : color.lookup v with _ | c
  · exact absurd h (not_mem_keys_of_lookup hlookup)
  · rfl

namespace Rep

variable (hg : g.Rep)
include hg

theorem mem_targets {v w : String} : w ∈ g.targets v ↔ g.Edge v w := by
  rw [targets, List.mem_filterMap]
  constructor
  · rintro ⟨i, hi, hmap⟩
    obtain ⟨r, hr, hsubject⟩ := ((hg.subject_indices v).2 i).mp hi
    obtain ⟨r', hr', hobject⟩ := Option.map_eq_some_iff.mp hmap
    cases hr.symm.trans hr'
    exact ⟨r, List.mem_of_getElem? hr, hsubject, hobject⟩
  · rintro ⟨r, hr, hsubject, hobject⟩
    obtain ⟨i, hi⟩ := List.mem_iff_getElem?.mp hr
    exact ⟨i, ((hg.subject_indices v).2 i).mpr ⟨r, hi, hsubject⟩, by rw [hi, ← hobject]; rfl⟩

theorem succ_eq_edge : Succ g.targets = g.Edge := by
  funext v w
  exact propext hg.mem_targets

theorem targets_mem_names {v w : String} (h : w ∈ g.targets v) : w ∈ g.names := by
  obtain ⟨r, hr, -, rfl⟩ := hg.mem_targets.mp h
  exact hg.object_mem r hr

theorem mem_names_of_targets {v : String} (h : g.targets v ≠ []) : v ∈ g.names := by
  obtain ⟨w, hw⟩ := List.exists_mem_of_ne_nil _ h
  obtain ⟨r, hr, rfl, -⟩ := hg.mem_targets.mp hw
  exact hg.subject_mem r hr

theorem length_targets_le (v : String) : (g.targets v).length ≤ g.relations.length := by
  obtain ⟨hsorted, hmem⟩ := hg.subject_indices v
  have hsubset : g.subjectIndices v ⊆ List.range g.relations.length := by
    intro i hi
    obtain ⟨r, hr, -⟩ := (hmem i).mp hi
    exact List.mem_range.mpr (List.getElem?_eq_some_iff.mp hr).1
  have hnodup : (g.subjectIndices v).Nodup := hsorted.imp Nat.ne_of_lt
  calc (g.targets v).length
    _ ≤ (g.subjectIndices v).length := List.length_filterMap_le _ _
    _ ≤ (List.range g.relations.length).length :=
      (List.subperm_of_subset hnodup hsubset).length_le
    _ = g.relations.length := List.length_range

/-- The inner loop pushes the targets that are not black. -/
theorem pushTargets_eq {color : List (String × Color)} (hkeys : color.map Prod.fst = g.names)
    (v : String) (stack : List (String × Bool)) :
    g.pushTargets color (g.subjectIndices v) stack =
      .ok (((g.targets v).filter (colorOf color · ≠ .black)).reverse.map (fun w => (w, false)) ++
        stack) := by
  obtain ⟨-, hmem⟩ := hg.subject_indices v
  have hvalid : ∀ i ∈ g.subjectIndices v, i < g.relations.length := by
    intro i hi
    obtain ⟨r, hr, -⟩ := (hmem i).mp hi
    exact (List.getElem?_eq_some_iff.mp hr).1
  rw [targets]
  generalize g.subjectIndices v = indices at hvalid
  induction indices generalizing stack with
  | nil => rfl
  | cons i rest ih =>
    obtain ⟨hi, hrest⟩ := List.forall_mem_cons.mp hvalid
    have hget := List.getElem?_eq_getElem hi
    have hkey : g.relations[i].object ∈ color.map Prod.fst := by
      rw [hkeys]
      exact hg.object_mem _ (List.getElem_mem hi)
    rw [pushTargets, pyIndex_eq_ok hget, ok_bind, pyKey_eq_ok hkey, ok_bind, ih _ hrest,
      List.filterMap_cons, hget, Option.map_some]
    cases hcolor : colorOf color g.relations[i].object with
    | white => simp [hcolor]
    | gray => simp [hcolor]
    | black => simp [hcolor]

/-- The targets that a node pushes when it is expanded. -/
def pushed (g : OntologyGraph F) (color : List (String × Color)) (node : String) : List String :=
  ((g.targets node).filter (Function.update (colorOf color) node .gray · ≠ .black)).reverse

/-- A node that is popped unexpanded. -/
theorem search_unexpanded {color : List (String × Color)} (hkeys : color.map Prod.fst = g.names)
    {node : String} (hnode : node ∈ g.names) (turns : Nat) (stack : List (String × Bool)) :
    g.search (turns + 1) color ((node, false) :: stack) =
      if colorOf color node = .gray then .ok none
      else g.search turns (dictInsert node .gray color)
        ((pushed g color node).map (fun w => (w, false)) ++ (node, true) :: stack) := by
  have hmem : node ∈ color.map Prod.fst := hkeys ▸ hnode
  rw [search, pyKey_eq_ok hmem, ok_bind]
  split
  · rfl
  · dsimp only
    rw [hg.pushTargets_eq ((keys_dictInsert_of_mem hmem).trans hkeys), ok_bind,
      colorOf_dictInsert, pushed]

/-- What a search leaves: a cycle, or nothing on the stack and everything that was on it visited. -/
def SearchEnds (g : OntologyGraph F) (color : List (String × Color)) (stack : List (String × Bool))
    (result : Except PyExc (Option (List (String × Color)))) : Prop :=
  result = .ok none ∧ g.Cyclic ∨
    ∃ color', result = .ok (some color') ∧ color'.map Prod.fst = g.names ∧
      SearchInv g.targets (colorOf color') [] ∧
      ∀ v, (colorOf color v ≠ .white ∨ (v, false) ∈ stack) → colorOf color' v ≠ .white

omit hg [PyInterp F] in
theorem SearchEnds.of_later {color color' : List (String × Color)}
    {stack stack' : List (String × Bool)}
    {result : Except PyExc (Option (List (String × Color)))}
    (h : SearchEnds g color' stack' result)
    (hvisited : ∀ v, (colorOf color v ≠ .white ∨ (v, false) ∈ stack) →
      colorOf color' v ≠ .white ∨ (v, false) ∈ stack') : SearchEnds g color stack result := by
  rcases h with h | ⟨color₁, heq, hkeys, hinv, hwhite⟩
  · exact .inl h
  · exact .inr ⟨color₁, heq, hkeys, hinv, fun v hv => hwhite v (hvisited v hv)⟩

/-- The search ends, if it has a turn for each unit of its cost. -/
theorem search_ends (turns : Nat) {color : List (String × Color)} {stack : List (String × Bool)}
    (hkeys : color.map Prod.fst = g.names) (hinv : SearchInv g.targets (colorOf color) stack)
    (hstack : ∀ entry ∈ stack, entry.1 ∈ g.names)
    (hcost : searchCost g.targets g.names.toFinset (colorOf color) stack ≤ turns) :
    SearchEnds g color stack (g.search turns color stack) := by
  induction turns using Nat.strong_induction_on generalizing color stack with
  | _ turns ih =>
    rcases stack with _ | ⟨⟨node, expanded⟩, stack⟩
    · refine .inr ⟨color, by rw [search], hkeys, hinv, ?_⟩
      intro v hv
      exact hv.resolve_right List.not_mem_nil
    obtain ⟨hnode, hrest⟩ : node ∈ g.names ∧ ∀ entry ∈ stack, entry.1 ∈ g.names :=
      List.forall_mem_cons.mp hstack
    have hmem : node ∈ color.map Prod.fst := hkeys ▸ hnode
    have hkeys' : ∀ c, (dictInsert node c color).map Prod.fst = g.names :=
      fun c => (keys_dictInsert_of_mem hmem).trans hkeys
    have hpop : searchCost g.targets g.names.toFinset (colorOf color) stack <
        searchCost g.targets g.names.toFinset (colorOf color) ((node, expanded) :: stack) :=
      searchCost_pop
    obtain ⟨turns, rfl⟩ : ∃ n, turns = n + 1 := Nat.exists_eq_succ_of_ne_zero (by omega)
    -- a node that was expanded before is blackened, and one that was not is expanded
    cases expanded with
    | true =>
      have hgray : colorOf color node = .gray := (hinv.gray_iff node).mpr List.mem_cons_self
      have hne : colorOf color node ≠ .white := by
        rw [hgray]
        decide
      have hcost' : searchCost g.targets g.names.toFinset
          (Function.update (colorOf color) node .black) stack =
            searchCost g.targets g.names.toFinset (colorOf color) stack :=
        searchCost_update_of_ne hne (by decide)
      rw [search]
      refine (ih turns (Nat.lt_succ_self turns) (hkeys' .black) ?_ hrest ?_).of_later ?_
      · rw [colorOf_dictInsert]
        exact hinv.finish
      · rw [colorOf_dictInsert, hcost']
        omega
      · intro v hv
        rw [colorOf_dictInsert, Function.update_apply]
        refine hv.imp (fun hv => ?_) fun hv => by simpa using hv
        split
        · decide
        · exact hv
    | false =>
      rw [hg.search_unexpanded hkeys hnode]
      cases hcolor : colorOf color node with
      | gray =>
        -- a gray node lies on the path to itself
        have hcycle := hinv.cycle hcolor
        rw [hg.succ_eq_edge] at hcycle
        exact .inl ⟨if_pos rfl, node, hcycle⟩
      | white =>
        have hpushed : ∀ w ∈ pushed g color node, w ∈ g.targets node := by
          intro w hw
          exact (List.mem_filter.mp (List.mem_reverse.mp hw)).1
        have hlength : (pushed g color node).length ≤ (g.targets node).length := by
          rw [pushed, List.length_reverse]
          exact List.length_filter_le _ _
        have hexpand : searchCost g.targets g.names.toFinset
            (Function.update (colorOf color) node .gray)
            ((pushed g color node).map (fun w => (w, false)) ++ (node, true) :: stack) <
              searchCost g.targets g.names.toFinset (colorOf color) ((node, false) :: stack) :=
          searchCost_expand (List.mem_toFinset.mpr hnode) hcolor hlength
        rw [if_neg (by decide)]
        refine (ih turns (Nat.lt_succ_self turns) (hkeys' .gray) ?_ ?_ ?_).of_later ?_
        · rw [colorOf_dictInsert]
          refine hinv.expand hcolor hpushed ?_
          intro w hw
          by_cases hblack : Function.update (colorOf color) node .gray w = .black
          · rw [Function.update_apply] at hblack
            split at hblack
            · cases hblack
            · exact .inl hblack
          · exact .inr (List.mem_reverse.mpr (List.mem_filter.mpr ⟨hw, decide_eq_true hblack⟩))
        · intro entry hentry
          rcases List.mem_append.mp hentry with hentry | hentry
          · obtain ⟨w, hw, rfl⟩ := List.mem_map.mp hentry
            exact hg.targets_mem_names (hpushed w hw)
          · rcases List.mem_cons.mp hentry with rfl | hentry
            · exact hnode
            · exact hrest entry hentry
        · rw [colorOf_dictInsert]
          omega
        · intro v hv
          rw [colorOf_dictInsert, Function.update_apply]
          by_cases hv' : v = node
          · rw [if_pos hv']
            exact .inl (by decide)
          · rw [if_neg hv']
            refine hv.imp_right fun hv => List.mem_append_right _ (List.mem_cons_of_mem _ ?_)
            simpa [hv'] using hv
      | black =>
        -- The node was finished before: it is expanded again, pushes nothing and turns black.
        have hnone : pushed g color node = [] := by
          rw [pushed, List.reverse_eq_nil_iff, List.filter_eq_nil_iff]
          intro w hw
          have hne : w ≠ node := fun heq => hinv.not_succ_self hcolor (heq ▸ hw)
          simp [hne, hinv.closed node hcolor w hw]
        have hsame : colorOf (dictInsert node .black (dictInsert node .gray color)) =
            colorOf color := by
          rw [colorOf_dictInsert, colorOf_dictInsert, Function.update_idem, ← hcolor,
            Function.update_eq_self]
        have hmem' : node ∈ (dictInsert node .gray color).map Prod.fst := hkeys' .gray ▸ hnode
        have hcost' : searchCost g.targets g.names.toFinset (colorOf color)
            ((node, false) :: stack) = 2 + searchCost g.targets g.names.toFinset (colorOf color)
              stack := by
          rw [searchCost, searchCost, List.map_cons, List.sum_cons, Nat.add_assoc]
          rfl
        obtain ⟨turns, rfl⟩ : ∃ n, turns = n + 1 := Nat.exists_eq_succ_of_ne_zero (by omega)
        rw [if_neg (by decide), hnone, List.map_nil, List.nil_append, search]
        refine (ih turns (by omega) ((keys_dictInsert_of_mem hmem').trans (hkeys' .gray)) ?_ hrest
          ?_).of_later ?_
        · rw [hsame]
          exact hinv.skip hcolor
        · rw [hsame]
          omega
        · intro v hv
          rw [hsame]
          by_cases hv' : v = node
          · rw [hv', hcolor]
            exact .inl (by decide)
          · exact hv.imp_right fun hv => by simpa [hv'] using hv

theorem sum_targets_le (color : String → Color) :
    ∑ v ∈ g.names.toFinset with color v = .white, 2 * (g.targets v).length ≤
      2 * (g.entities.length * g.relations.length) := by
  have hcard : (g.names.toFinset.filter (color · = .white)).card ≤ g.entities.length :=
    calc (g.names.toFinset.filter (color · = .white)).card
      _ ≤ g.names.toFinset.card := Finset.card_filter_le _ _
      _ ≤ g.names.length := List.toFinset_card_le _
      _ = g.entities.length := List.length_map _
  calc ∑ v ∈ g.names.toFinset with color v = .white, 2 * (g.targets v).length
    _ ≤ (g.names.toFinset.filter (color · = .white)).card • (2 * g.relations.length) :=
      Finset.sum_le_card_nsmul _ _ _ fun v _ => Nat.mul_le_mul_left 2 (hg.length_targets_le v)
    _ ≤ g.entities.length * (2 * g.relations.length) := Nat.mul_le_mul_right _ hcard
    _ = 2 * (g.entities.length * g.relations.length) := by ring

/-- The loop over the nodes to start from. -/
theorem searchFrom_eq {starts : List String} {color : List (String × Color)}
    (hkeys : color.map Prod.fst = g.names) (hinv : SearchInv g.targets (colorOf color) [])
    (hstarts : starts ⊆ g.names)
    (hvisited : ∀ v ∈ g.names, colorOf color v ≠ .white ∨ v ∈ starts) :
    ∃ found, g.searchFrom starts color = .ok found ∧ (found = true ↔ g.Cyclic) := by
  induction starts generalizing color with
  | nil =>
    refine ⟨false, rfl, iff_of_false Bool.false_ne_true ?_⟩
    rintro ⟨v, hcycle⟩
    rw [← hg.succ_eq_edge] at hcycle
    refine hinv.acyclic ?_ v hcycle
    intro w hw
    exact (hvisited w (hg.mem_names_of_targets hw)).resolve_right List.not_mem_nil
  | cons start starts ih =>
    obtain ⟨hstart, hrest⟩ := List.cons_subset.mp hstarts
    rw [searchFrom, pyKey_eq_ok (hkeys ▸ hstart), ok_bind]
    split
    · next hcolor =>
      refine ih hkeys hinv hrest ?_
      intro v hv
      rcases hvisited v hv with hv | hv
      · exact .inl hv
      · rcases List.mem_cons.mp hv with rfl | hv
        · exact .inl hcolor
        · exact .inr hv
    -- each relation is pushed once at most, so the turns of the model are enough
    · have hcost : searchCost g.targets g.names.toFinset (colorOf color) [(start, false)] ≤
          g.searchTurns := by
        rw [searchCost, searchTurns]
        have hsum := hg.sum_targets_le (colorOf color)
        simp only [List.map_cons, List.map_nil, List.sum_cons, List.sum_nil, Bool.false_eq_true,
          if_false]
        omega
      have hnames : ∀ entry ∈ [(start, false)], entry.1 ∈ g.names :=
        List.forall_mem_singleton.mpr hstart
      rcases hg.search_ends g.searchTurns hkeys (hinv.start start) hnames hcost with
        ⟨heq, hcycle⟩ | ⟨color', heq, hkeys', hinv', hwhite⟩
      · rw [heq]
        exact ⟨true, rfl, iff_of_true rfl hcycle⟩
      · rw [heq]
        refine ih hkeys' hinv' hrest ?_
        intro v hv
        rcases hvisited v hv with hv | hv
        · exact .inl (hwhite v (.inl hv))
        · rcases List.mem_cons.mp hv with rfl | hv
          · exact .inl (hwhite v (.inr List.mem_cons_self))
          · exact .inr hv

/-- `has_cycle` says whether there is a cycle. -/
theorem hasCycle_eq : ∃ found, g.hasCycle = .ok found ∧ (found = true ↔ g.Cyclic) := by
  have hcolor : ∀ v, colorOf (g.names.map fun name => (name, Color.white)) v = .white := by
    intro v
    rw [colorOf]
    generalize g.names = names
    induction names with
    | nil => rfl
    | cons name names ih =>
      rw [List.map_cons, List.lookup_cons]
      split
      · rfl
      · exact ih
  refine hg.searchFrom_eq ?_ ?_ (List.Subset.refl _) fun v hv => .inr hv
  · rw [List.map_map]
    exact List.map_id _
  · refine ⟨fun v => ?_, List.nodup_nil, fun v hv => ?_, fun v hv => ?_, trivial, trivial⟩
    · rw [hcolor]
      simp
    · rw [hcolor] at hv
      cases hv
    · rw [hcolor] at hv
      cases hv

end Rep

end OntologyGraph

/-- **The search for a cycle**, on every graph that calls make: it ends, and says whether the
relations lead from an entity back to it. -/
theorem graphs_hasCycle [PyInterp F] {steps : List (List (OntologyGraph F) × Call F)}
    {heap : List (OntologyGraph F)} (run : (graphs F).Run steps heap) :
    ∀ g ∈ heap, ∃ found, g.hasCycle = .ok found ∧ (found = true ↔ g.Cyclic) := by
  intro g hg
  exact ((graphs_rep run).1 g hg).hasCycle_eq

/-- Two parallel relations and one back on the first graph, and a diamond on the second. -/
def loopCalls : List (Call FloatText) :=
  [.new 2 3, .addEntity 0 ⟨"a", "unit", []⟩, .addEntity 0 ⟨"b", "unit", []⟩,
    .addRelation 0 ⟨"a", "owns", "b", weightOne, []⟩,
    .addRelation 0 ⟨"a", "uses", "b", weightOne, []⟩,
    .addRelation 0 ⟨"b", "feeds", "a", weightOne, []⟩,
    .new 4 4, .addEntity 1 ⟨"a", "unit", []⟩, .addEntity 1 ⟨"b", "unit", []⟩,
    .addEntity 1 ⟨"c", "unit", []⟩, .addEntity 1 ⟨"d", "unit", []⟩,
    .addRelation 1 ⟨"a", "owns", "b", weightOne, []⟩,
    .addRelation 1 ⟨"a", "owns", "c", weightOne, []⟩,
    .addRelation 1 ⟨"b", "owns", "d", weightOne, []⟩,
    .addRelation 1 ⟨"c", "owns", "d", weightOne, []⟩]

theorem graphs_hasCycle_loop : ∃ loop diamond : OntologyGraph FloatText,
    (graphs FloatText).exec [] loopCalls = some [loop, diamond] ∧ loop.Cyclic ∧
      ¬ diamond.Cyclic := by
  have hexec : ((graphs FloatText).exec [] loopCalls).map
      (List.map fun g => (g.relations.length, g.hasCycle.toOption)) =
        some [(3, some true), (4, some false)] := by
    decide +kernel
  obtain ⟨heap, hheap, hfound⟩ := Option.map_eq_some_iff.mp hexec
  obtain ⟨loop, rest, rfl, hloop, hrest⟩ := List.map_eq_cons_iff.mp hfound
  obtain ⟨diamond, rest, rfl, hdiamond, hrest⟩ := List.map_eq_cons_iff.mp hrest
  cases List.map_eq_nil_iff.mp hrest
  obtain ⟨steps, run⟩ := System.reachable_of_exec loopCalls hheap
  have hcycles := graphs_hasCycle run
  refine ⟨loop, diamond, hheap, ?_, ?_⟩
  · obtain ⟨found, heq, hiff⟩ := hcycles loop List.mem_cons_self
    rw [heq] at hloop
    exact hiff.mp (Option.some.inj (congrArg Prod.snd hloop))
  · obtain ⟨found, heq, hiff⟩ := hcycles diamond (List.mem_cons_of_mem _ List.mem_cons_self)
    rw [heq] at hdiamond
    rw [← hiff, Option.some.inj (congrArg Prod.snd hdiamond)]
    decide

end Noema.Ontology
