import Noema.Lib.PathSearch
import Noema.Ontology.Cycle

/-!
# The search for paths (`OntologyGraph.find_paths`)

`findPaths` collects paths from one entity to another until it has eight. Its docstring promises "up
to 8 simple paths". The search is the general one of `Lib.PathSearch` (`dfs_eq`), since on a graph
with the representation no index is missing.

After a call of `_dfs` that came back with eight paths, the loop of its caller goes on: it tests the
limit only at the start of `_dfs`, and adds the next edge straight to the end before that. And
parallel relations give a path as often as there are relations.

- `routes`: the sequences of relations from the one to the other that meet no entity twice, in the
  order of the search. `simplePath_iff` says that their nodes are the simple paths.
- `findPaths_eq`: the call returns the first eight routes, and more if these are overrun
  (`PathSearch.Overruns`).
- `upToEight_iff`: when what is returned is what is promised.
- **`graphs_findPaths`**: that is so, on all graphs that calls make, if and only if the two ends are
  not one entity, no two of the first eight routes have the same nodes, and the eight are not
  overrun.
- `not_upToEight`: nine paths, and one path twice.
-/

namespace Noema.Ontology

open Noema.Lib PyJson

variable {F : Type}

namespace OntologyGraph

section Search

variable (g : OntologyGraph F)

/-- The loop of `_dfs` over the relations of a node. -/
def dfsRelations (goal : String)
    (dfs : String → List String → List (List String) → Except PyExc (List (List String)))
    (path : List String) : List Nat → List (List String) → Except PyExc (List (List String))
  | [], paths => .ok paths
  | idx :: rest, paths => do
    let relation ← pyIndex g.relations idx
    let nxt := relation.object
    if nxt ∈ path then dfsRelations goal dfs path rest paths
    else
      let cand := path ++ [nxt]
      if nxt = goal then
        let paths := paths ++ [cand]
        if 8 ≤ paths.length then .ok paths
        else dfsRelations goal dfs path rest paths
      else
        let paths ← dfs nxt cand paths
        dfsRelations goal dfs path rest paths

/-- `_dfs` of `find_paths`, by recursion on `max_depth + 1 - len(path)`. -/
def dfs (goal : String) :
    Nat → String → List String → List (List String) → Except PyExc (List (List String))
  | 0, _, _, paths => .ok paths
  | edges + 1, node, path, paths =>
    if 8 ≤ paths.length then .ok paths
    else g.dfsRelations goal (dfs goal edges) path (g.subjectIndices node) paths

/-- `find_paths` (graph.py:191). -/
def findPaths [PyInterp F] (start goal : String) (maxDepth : Int) :
    Except PyExc (List (List String)) := do
  let start ← cleanName F start
  let goal ← cleanName F goal
  if start ∉ g.names ∨ goal ∉ g.names then .ok []
  else g.dfs goal maxDepth.toNat start [start] []

/-- The relations of a subject: the index of each, and its object. -/
def outgoing (v : String) : List (Nat × String) :=
  (g.subjectIndices v).filterMap fun i => g.relations[i]?.map fun r => (i, r.object)

/-- The sequences of relations that lead from one entity to another and meet no entity twice, in the
order of the search. -/
def routes (start goal : String) (maxDepth : Int) : List (List (Nat × String)) :=
  PathSearch.routes g.outgoing goal maxDepth.toNat start [start]

/-- A simple directed path of so many edges at most. -/
structure SimplePath (start goal : String) (maxDepth : Int) (path : List String) : Prop where
  names : ∀ v ∈ path, v ∈ g.names
  head : path.head? = some start
  last : path.getLast? = some goal
  edges : path.IsChain g.Edge
  nodup : path.Nodup
  length : (path.length : Int) ≤ maxDepth + 1

/-- At most eight different simple paths, and all there are if they are fewer. -/
structure UpToEight (start goal : String) (maxDepth : Int) (paths : List (List String)) : Prop where
  sound : ∀ path ∈ paths, g.SimplePath start goal maxDepth path
  nodup : paths.Nodup
  length : paths.length ≤ 8
  complete : paths.length < 8 → ∀ path, g.SimplePath start goal maxDepth path → path ∈ paths

end Search

namespace Rep

variable [PyInterp F] {g : OntologyGraph F} (hg : g.Rep)
include hg

theorem mem_outgoing {v w : String} {i : Nat} :
    (i, w) ∈ g.outgoing v ↔ ∃ r, g.relations[i]? = some r ∧ r.subject = v ∧ r.object = w := by
  rw [outgoing, List.mem_filterMap]
  constructor
  · rintro ⟨j, hj, hmap⟩
    obtain ⟨r, hr, hsubject⟩ := ((hg.subject_indices v).2 j).mp hj
    rw [hr] at hmap
    cases hmap
    exact ⟨r, hr, hsubject, rfl⟩
  · rintro ⟨r, hr, hsubject, rfl⟩
    exact ⟨i, ((hg.subject_indices v).2 i).mpr ⟨r, hr, hsubject⟩, by rw [hr]; rfl⟩

theorem edge_of_mem_outgoing {v : String} {e : Nat × String} (h : e ∈ g.outgoing v) :
    g.Edge v e.2 := by
  obtain ⟨r, hr, hsubject, hobject⟩ := hg.mem_outgoing.mp h
  exact ⟨r, List.mem_of_getElem? hr, hsubject, hobject⟩

theorem nodup_outgoing (v : String) : (g.outgoing v).Nodup := by
  have hindices : (g.subjectIndices v).Nodup := (hg.subject_indices v).1.imp Nat.ne_of_lt
  refine hindices.filterMap ?_
  intro i j e hi hj
  obtain ⟨r, -, rfl⟩ := Option.map_eq_some_iff.mp hi
  obtain ⟨r', -, heq⟩ := Option.map_eq_some_iff.mp hj
  exact (congrArg Prod.fst heq).symm

/-! ## The search -/

omit [PyInterp F] hg in
theorem dfsRelations_eq {goal : String}
    {dfs : String → List String → List (List String) → Except PyExc (List (List String))}
    {search : String → List String → List (List String) → List (List String)}
    (hdfs : ∀ v path paths, dfs v path paths = .ok (search v path paths)) (path : List String)
    {indices : List Nat} (hindices : ∀ i ∈ indices, i < g.relations.length)
    (paths : List (List String)) :
    g.dfsRelations goal dfs path indices paths =
      .ok (PathSearch.searchEdges goal 8 search path
        (indices.filterMap fun i => g.relations[i]?.map fun r => (i, r.object)) paths) := by
  induction indices generalizing paths with
  | nil => rfl
  | cons i rest ih =>
    obtain ⟨hi, hrest⟩ := List.forall_mem_cons.mp hindices
    have hget := List.getElem?_eq_getElem hi
    rw [dfsRelations, pyIndex_eq_ok hget, ok_bind, List.filterMap_cons, hget, Option.map_some,
      PathSearch.searchEdges]
    dsimp only
    split
    · exact ih hrest paths
    split
    · rw [List.length_append, List.length_singleton]
      split
      · rfl
      · exact ih hrest _
    · rw [hdfs, ok_bind]
      exact ih hrest _

theorem dfs_eq (goal : String) (edges : Nat) (v : String) (path : List String)
    (paths : List (List String)) :
    g.dfs goal edges v path paths =
      .ok (PathSearch.search g.outgoing goal 8 edges v path paths) := by
  induction edges generalizing v path paths with
  | zero => rfl
  | succ edges ih =>
    rw [dfs, PathSearch.search]
    split
    · rfl
    · refine dfsRelations_eq ih path ?_ paths
      intro i hi
      obtain ⟨r, hr, -⟩ := ((hg.subject_indices v).2 i).mp hi
      exact (List.getElem?_eq_some_iff.mp hr).1

/-! ## Simple paths -/

theorem isChain_of_follows {v : String} {route : List (Nat × String)}
    (h : PathSearch.Follows g.outgoing v route) : (v :: route.map Prod.snd).IsChain g.Edge := by
  induction route generalizing v with
  | nil => exact List.isChain_singleton v
  | cons e route ih =>
    obtain ⟨he, hroute⟩ := h
    rw [List.map_cons, List.isChain_cons_cons]
    exact ⟨hg.edge_of_mem_outgoing he, ih hroute⟩

theorem exists_follows {v : String} {nodes : List String} (h : (v :: nodes).IsChain g.Edge) :
    ∃ route, PathSearch.Follows g.outgoing v route ∧ route.map Prod.snd = nodes := by
  induction nodes generalizing v with
  | nil => exact ⟨[], trivial, rfl⟩
  | cons w nodes ih =>
    obtain ⟨⟨r, hr, hsubject, hobject⟩, hrest⟩ := List.isChain_cons_cons.mp h
    obtain ⟨i, hi⟩ := List.mem_iff_getElem?.mp hr
    obtain ⟨route, hfollows, hnodes⟩ := ih hrest
    refine ⟨(i, w) :: route, ⟨hg.mem_outgoing.mpr ⟨r, hi, hsubject, hobject⟩, hfollows⟩, ?_⟩
    rw [List.map_cons, hnodes]

theorem mem_names_of_isChain {v w : String} {nodes : List String} (hv : v ∈ g.names)
    (h : (v :: nodes).IsChain g.Edge) (hw : w ∈ v :: nodes) : w ∈ g.names := by
  induction nodes generalizing v with
  | nil => exact List.mem_singleton.mp hw ▸ hv
  | cons v' nodes ih =>
    obtain ⟨⟨r, hr, -, hobject⟩, hrest⟩ := List.isChain_cons_cons.mp h
    rcases List.mem_cons.mp hw with rfl | hw
    · exact hv
    · exact ih (hobject ▸ hg.object_mem r hr) hrest hw

/-- The simple paths are the nodes of the routes, but for the path that is one entity. -/
theorem simplePath_iff {start goal : String} (hstart : start ∈ g.names) {maxDepth : Int}
    (hdepth : 0 ≤ maxDepth) {path : List String} :
    g.SimplePath start goal maxDepth path ↔ start = goal ∧ path = [start] ∨
      ∃ route ∈ g.routes start goal maxDepth, path = PathSearch.nodesOf [start] route := by
  have hmem : ∀ route, route ∈ g.routes start goal maxDepth ↔ _ := fun route =>
    PathSearch.mem_routes (List.nodup_singleton start)
  constructor
  · intro h
    obtain ⟨nodes, rfl⟩ : ∃ nodes, path = start :: nodes := by
      cases path with
      | nil => cases h.head
      | cons v nodes => exact ⟨nodes, by rw [Option.some.inj h.head]⟩
    -- an edge between two nodes is a relation, which may be one of several
    obtain ⟨route, hfollows, rfl⟩ := hg.exists_follows h.edges
    have hlast := h.last
    have hlength := h.length
    rw [List.length_cons, List.length_map] at hlength
    cases route with
    | nil => exact .inl ⟨Option.some.inj hlast, rfl⟩
    | cons e route =>
      refine .inr ⟨e :: route, (hmem _).mpr ⟨by omega, hfollows, ?_, h.nodup⟩, rfl⟩
      rw [← List.getLast?_map]
      rwa [List.map_cons, List.getLast?_cons_cons] at hlast
  · rintro (⟨rfl, rfl⟩ | ⟨route, hroute, rfl⟩)
    · exact ⟨by simpa using hstart, rfl, rfl, List.isChain_singleton _, List.nodup_singleton _,
        by simpa using hdepth⟩
    · obtain ⟨hlength, hfollows, hlast, hnodup⟩ := (hmem _).mp hroute
      have hchain := hg.isChain_of_follows hfollows
      refine ⟨fun v => hg.mem_names_of_isChain hstart hchain, rfl, ?_, hchain, hnodup, ?_⟩
      · rw [← List.getLast?_map] at hlast
        rw [PathSearch.nodesOf, List.getLast?_append, hlast]
        rfl
      · rw [PathSearch.nodesOf, List.length_append, List.length_map, List.length_singleton]
        omega

theorem mem_names_of_mem_routes {start goal : String} {maxDepth : Int}
    {route : List (Nat × String)} (h : route ∈ g.routes start goal maxDepth) :
    start ∈ g.names := by
  obtain ⟨-, hfollows, hlast, -⟩ := (PathSearch.mem_routes (List.nodup_singleton start)).mp h
  cases route with
  | nil => cases hlast
  | cons e route =>
    obtain ⟨r, hr, rfl, -⟩ := hg.edge_of_mem_outgoing hfollows.1
    exact hg.subject_mem r hr

omit hg [PyInterp F] in
theorem routes_self (v : String) (maxDepth : Int) : g.routes v v maxDepth = [] := by
  refine List.eq_nil_iff_forall_not_mem.mpr fun route h => ?_
  obtain ⟨-, -, hlast, hnodup⟩ := (PathSearch.mem_routes (List.nodup_singleton v)).mp h
  obtain ⟨e, hmem, rfl⟩ := Option.map_eq_some_iff.mp hlast
  refine (List.nodup_cons.mp hnodup).1 ?_
  exact List.mem_map_of_mem (List.mem_of_getLast? hmem)

theorem routes_eq_nil {start goal : String} (h : start ∉ g.names ∨ goal ∉ g.names)
    {maxDepth : Int} (hdepth : 0 ≤ maxDepth) : g.routes start goal maxDepth = [] := by
  refine List.eq_nil_iff_forall_not_mem.mpr fun route hroute => ?_
  have hstart := hg.mem_names_of_mem_routes hroute
  have hpath := (hg.simplePath_iff hstart hdepth).mpr (.inr ⟨route, hroute, rfl⟩)
  rcases h with h | h
  · exact h hstart
  · exact h (hpath.names goal (List.mem_of_getLast? hpath.last))

/-- The call returns the first eight routes, and more if these are overrun. -/
theorem findPaths_eq {start goal s e : String} (hs : cleanName F start = .ok s)
    (he : cleanName F goal = .ok e) {maxDepth : Int} (hdepth : 0 ≤ maxDepth) :
    ∃ paths, g.findPaths start goal maxDepth = .ok paths ∧
      PathSearch.Finds [s] (g.routes s e maxDepth) 8 [] paths := by
  have hfinds : PathSearch.Finds [s] (g.routes s e maxDepth) 8 []
      (PathSearch.search g.outgoing e 8 maxDepth.toNat s [s] []) :=
    PathSearch.search_finds hg.nodup_outgoing maxDepth.toNat s [s] [] rfl (by decide)
  rw [findPaths, hs, ok_bind, he, ok_bind]
  split
  · next hnames =>
    rw [hg.routes_eq_nil hnames hdepth]
    refine ⟨[], rfl, [], rfl, iff_of_true rfl ?_, by simp⟩
    rintro ⟨last, hlast, -⟩
    cases hlast
  · exact ⟨_, hg.dfs_eq e maxDepth.toNat s [s] [], hfinds⟩

/-- When what is returned is what is promised. -/
theorem upToEight_iff {s e : String} {maxDepth : Int} (hdepth : 0 ≤ maxDepth)
    {paths : List (List String)}
    (hfinds : PathSearch.Finds [s] (g.routes s e maxDepth) 8 [] paths) :
    g.UpToEight s e maxDepth paths ↔ (s = e → s ∉ g.names) ∧
      (((g.routes s e maxDepth).take 8).map (PathSearch.nodesOf [s])).Nodup ∧
        ¬ PathSearch.Overruns 8 (g.routes s e maxDepth) := by
  have hlength := hfinds.length_le_iff
  obtain ⟨extra, rfl, hnone, -⟩ := hfinds
  rw [List.nil_append] at *
  constructor
  · intro h
    have hoverruns := hlength.mp h.length
    have hnodup := h.nodup
    rw [hnone.mpr hoverruns, List.append_nil] at hnodup
    refine ⟨?_, hnodup, hoverruns⟩
    -- From an entity to itself there are no routes, and the path that is the entity is missing.
    rintro rfl hs
    have hcomplete := h.complete
    rw [hnone.mpr hoverruns, routes_self] at hcomplete
    have hpath : g.SimplePath s s maxDepth [s] := (hg.simplePath_iff hs hdepth).mpr (.inl ⟨rfl, rfl⟩)
    have hnil := hcomplete (by simp) [s] hpath
    cases hnil
  · rintro ⟨hne, hnodup, hoverruns⟩
    have hextra := hnone.mpr hoverruns
    have hle := hlength.mpr hoverruns
    rw [hextra, List.append_nil] at hle ⊢
    refine ⟨?_, hnodup, hle, ?_⟩
    · intro path hpath
      obtain ⟨route, hroute, rfl⟩ := List.mem_map.mp hpath
      have hroute := List.mem_of_mem_take hroute
      exact (hg.simplePath_iff (hg.mem_names_of_mem_routes hroute) hdepth).mpr
        (.inr ⟨route, hroute, rfl⟩)
    · intro hlt path hpath
      rw [List.length_map, List.length_take] at hlt
      have hs : s ∈ g.names := hpath.names s (List.mem_of_mem_head? hpath.head)
      obtain ⟨rfl, -⟩ | ⟨route, hroute, rfl⟩ := (hg.simplePath_iff hs hdepth).mp hpath
      · exact absurd hs (hne rfl)
      · rw [List.take_of_length_le (by omega)]
        exact List.mem_map_of_mem hroute

end Rep

end OntologyGraph

/-- **The search for paths**, on every graph that calls make: it returns at most eight different
simple paths, and all there are if these are fewer, if and only if the start is not the end, no two
of the first eight routes pass the same entities, and no later route leaves the eighth one, before
its last relation, straight to the end. -/
theorem graphs_findPaths [PyInterp F] {steps : List (List (OntologyGraph F) × Call F)}
    {heap : List (OntologyGraph F)} (run : (graphs F).Run steps heap) :
    ∀ g ∈ heap, ∀ {start goal s e : String} {maxDepth : Int}, cleanName F start = .ok s →
      cleanName F goal = .ok e → 1 ≤ maxDepth →
        ∃ paths, g.findPaths start goal maxDepth = .ok paths ∧
          (g.UpToEight s e maxDepth paths ↔ (s = e → s ∉ g.names) ∧
            (((g.routes s e maxDepth).take 8).map (PathSearch.nodesOf [s])).Nodup ∧
              ¬ PathSearch.Overruns 8 (g.routes s e maxDepth)) := by
  intro g hmem start goal s e maxDepth hs he hdepth
  have hg := (graphs_rep run).1 g hmem
  obtain ⟨paths, heq, hfinds⟩ := hg.findPaths_eq hs he (by omega : 0 ≤ maxDepth)
  exact ⟨paths, heq, hg.upToEight_iff (by omega) hfinds⟩

theorem graphs_findPaths_diamond : ∃ loop diamond : OntologyGraph FloatText,
    (graphs FloatText).exec [] loopCalls = some [loop, diamond] ∧
      diamond.findPaths "a" "d" 4 = .ok [["a", "b", "d"], ["a", "c", "d"]] ∧
      diamond.UpToEight "a" "d" 4 [["a", "b", "d"], ["a", "c", "d"]] := by
  have hexec : ((graphs FloatText).exec [] loopCalls).map
      (List.map fun g => (g.findPaths "a" "d" 4).toOption) =
        some [some [], some [["a", "b", "d"], ["a", "c", "d"]]] := by
    decide +kernel
  have hexec' : ((graphs FloatText).exec [] loopCalls).map (List.map fun g => g.routes "a" "d" 4) =
      some [[], [[(0, "b"), (2, "d")], [(1, "c"), (3, "d")]]] := by
    decide +kernel
  obtain ⟨heap, hheap, hfound⟩ := Option.map_eq_some_iff.mp hexec
  rw [hheap] at hexec'
  obtain ⟨loop, rest, rfl, -, hrest⟩ := List.map_eq_cons_iff.mp hfound
  obtain ⟨diamond, rest, rfl, hpaths, hrest⟩ := List.map_eq_cons_iff.mp hrest
  cases List.map_eq_nil_iff.mp hrest
  obtain ⟨steps, run⟩ := System.reachable_of_exec loopCalls hheap
  have hroutes : diamond.routes "a" "d" 4 = [[(0, "b"), (2, "d")], [(1, "c"), (3, "d")]] :=
    (List.cons.inj (List.cons.inj (Option.some.inj hexec')).2).1
  have hclean : ∀ name ∈ ["a", "d"], (cleanName FloatText name).toOption = some name := by
    decide +kernel
  obtain ⟨paths, heq, hiff⟩ := graphs_findPaths run diamond (by simp)
    (eq_ok_of_toOption (hclean "a" (by simp))) (eq_ok_of_toOption (hclean "d" (by simp)))
    (by decide : (1 : Int) ≤ 4)
  rw [heq] at hpaths
  cases Option.some.inj hpaths
  refine ⟨loop, diamond, hheap, heq, hiff.mpr ⟨fun h => absurd h (by decide), ?_, ?_⟩⟩
  · rw [hroutes]
    decide
  · rw [hroutes]
    rintro ⟨last, hlast, -⟩
    cases hlast

/-- Eight paths by way of one entity, and a relation straight to the end after it. -/
def hubCalls : List (Call FloatText) :=
  .new 100 100 ::
    ["s", "m", "t", "1", "2", "3", "4", "5", "6", "7", "8"].map
      (fun name => .addEntity 0 ⟨name, "unit", []⟩) ++
    .addRelation 0 ⟨"s", "owns", "m", weightOne, []⟩ ::
    ["1", "2", "3", "4", "5", "6", "7", "8"].flatMap (fun name =>
      [.addRelation 0 ⟨"m", "owns", name, weightOne, []⟩,
        .addRelation 0 ⟨name, "feeds", "t", weightOne, []⟩]) ++
    [.addRelation 0 ⟨"s", "feeds", "t", weightOne, []⟩,
      .addRelation 0 ⟨"s", "uses", "t", weightOne, []⟩]

/-- Nine paths are found when the limit is reached below the start, and parallel relations give one
path twice. -/
theorem not_upToEight : ∃ loop diamond hub : OntologyGraph FloatText, ∃ nine twice,
    (graphs FloatText).exec [] loopCalls = some [loop, diamond] ∧
      (graphs FloatText).exec [] hubCalls = some [hub] ∧
      hub.findPaths "s" "t" 4 = .ok nine ∧ ¬ hub.UpToEight "s" "t" 4 nine ∧
      loop.findPaths "a" "b" 4 = .ok twice ∧ ¬ loop.UpToEight "a" "b" 4 twice := by
  have hloop : ((graphs FloatText).exec [] loopCalls).map
      (List.map fun g => (g.findPaths "a" "b" 4).toOption) =
        some [some [["a", "b"], ["a", "b"]], some [["a", "b"]]] := by
    decide +kernel
  have hhub : ((graphs FloatText).exec [] hubCalls).map
      (List.map fun g => (g.findPaths "s" "t" 4).toOption.map List.length) = some [some 9] := by
    decide +kernel
  obtain ⟨heap, hheap, hfound⟩ := Option.map_eq_some_iff.mp hloop
  obtain ⟨loop, rest, rfl, htwice, hrest⟩ := List.map_eq_cons_iff.mp hfound
  obtain ⟨diamond, rest, rfl, -, hrest⟩ := List.map_eq_cons_iff.mp hrest
  cases List.map_eq_nil_iff.mp hrest
  obtain ⟨heap, hheap', hfound⟩ := Option.map_eq_some_iff.mp hhub
  obtain ⟨hub, rest, rfl, hnine, hrest⟩ := List.map_eq_cons_iff.mp hfound
  cases List.map_eq_nil_iff.mp hrest
  obtain ⟨nine, heq, hlength⟩ := Option.map_eq_some_iff.mp hnine
  refine ⟨loop, diamond, hub, nine, [["a", "b"], ["a", "b"]], hheap, hheap',
    eq_ok_of_toOption heq, ?_, eq_ok_of_toOption htwice, ?_⟩
  · intro h
    exact absurd h.length (by rw [hlength]; decide)
  · intro h
    exact absurd h.nodup (by decide)

end Noema.Ontology
