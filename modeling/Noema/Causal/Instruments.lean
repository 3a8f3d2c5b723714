import Noema.Causal.Graph
import Noema.Lib.System

/-!
# Instruments (`causal/graph.py`)

An instrument affects the outcome through the treatment, if at all. `find_instruments` lists the
nodes with an edge to the treatment that are no ancestors of the outcome. But an instrument may well
be an ancestor of the outcome: through the treatment.

- `mem_closure_iff`: what the searches of `networkx` find is what can be reached. A round either
  adds a node or the search is at its end (`closure_progress`), so that as many rounds as there are
  nodes are enough.
- `wellFormed_of_run`: every graph that was built by calls, in any order and whatever they raise,
  has nodes that differ and edges that join them.
- `isDag_iff`: the check of `networkx` agrees with the definition by paths.
- `mem_findInstruments_iff`: the nodes that are listed, on a DAG.
- **`findsInstruments_iff`**: on every such graph, the nodes that are listed are the instruments if
  and only if the treatment does not affect the outcome, or every node with an edge to the treatment
  also affects the outcome past it.
- `instrument_missed`: the textbook graph, an instrument of a treatment that affects its outcome.

`IsInstrument` is stated by directed paths, with both ends, and knows nothing of the search.
-/

namespace Noema.Causal

open Noema.Lib PyJson

/-! ## Graphs that are built by calls -/

namespace CausalGraph

variable (g : CausalGraph)

/-- `remove_node` (graph.py:70). -/
def removeNode (id : String) : Except PyExc Unit × CausalGraph :=
  if g.hasNode id then
    (.ok (), { nodes := g.nodes.filter fun p => p.1 ≠ id
               nodeValues := g.nodeValues.filter fun p => p.1 ≠ id
               edges := g.edges.filter fun e => e.source ≠ id ∧ e.target ≠ id })
  else
    (.error (.custom "NetworkXError" ("The node " ++ id ++ " is not in the digraph.")),
      { g with nodeValues := g.nodeValues.filter fun p => p.1 ≠ id })

/-- `remove_edge` (graph.py:76). -/
def removeEdge (sourceId targetId : String) : Except PyExc Unit × CausalGraph :=
  if g.hasEdge sourceId targetId then
    (.ok (), { g with edges := g.edges.filter fun e => ¬ (e.source = sourceId ∧ e.target = targetId) })
  else
    (.error (.custom "NetworkXError"
      ("The edge " ++ sourceId ++ "-" ++ targetId ++ " not in graph.")), g)

/-- `find_instruments` (graph.py:131). -/
def findInstruments (treatment outcome : String) : Except PyExc (List String) := do
  g.requireDag
  let candidates := g.nodeIds.filter fun nodeId => nodeId ≠ treatment ∧ nodeId ≠ outcome ∧
    g.hasEdge nodeId treatment ∧ ¬ g.hasEdge nodeId outcome
  if candidates ≠ [] ∧ ¬ g.hasNode outcome then
    .error (.custom "NetworkXError" ("The node " ++ outcome ++ " is not in the digraph."))
  else
    return sortedBy id (candidates.filter fun nodeId =>
      nodeId ∉ g.ancestors outcome ∧ treatment ∈ g.descendants nodeId)

end CausalGraph

/-- A call that changes a graph. -/
inductive GraphCall where
  | addNode (node : CausalNode) (value : ℚ)
  | addEdge (sourceId targetId : String) (strength : ℚ)
  | removeNode (id : String)
  | removeEdge (sourceId targetId : String)

/-- The graph after a call, which may have raised. -/
def GraphCall.apply (g : CausalGraph) : GraphCall → CausalGraph
  | .addNode node value => g.addNode node value
  | .addEdge sourceId targetId strength =>
    match g.addEdge sourceId targetId strength with
    | .ok g' => g'
    | .error _ => g
  | .removeNode id => (g.removeNode id).2
  | .removeEdge sourceId targetId => (g.removeEdge sourceId targetId).2

/-- A graph under calls. -/
def causalGraphs : System CausalGraph GraphCall where
  init := {}
  step g call := some (call.apply g)

namespace CausalGraph

/-- There is an edge. -/
def Edges (g : CausalGraph) (a b : String) : Prop := g.hasEdge a b = true

/-- The nodes are different ones, and the edges join them. -/
structure WellFormed (g : CausalGraph) : Prop where
  nodup : g.nodeIds.Nodup
  joined : ∀ a b, g.Edges a b → a ∈ g.nodeIds ∧ b ∈ g.nodeIds

theorem edges_iff {g : CausalGraph} {a b : String} :
    g.Edges a b ↔ ∃ e ∈ g.edges, e.source = a ∧ e.target = b := by
  simp [Edges, hasEdge, List.any_eq_true]

theorem wellFormed_apply {g : CausalGraph} (h : g.WellFormed) (call : GraphCall) :
    (call.apply g).WellFormed := by
  cases call with
  | addNode node value =>
    refine ⟨g.nodup_addNode node value h.nodup, fun a b hedge => ?_⟩
    obtain ⟨ha, hb⟩ := h.joined a b hedge
    exact ⟨(g.mem_nodeIds_addNode node value).mpr (.inr ha),
      (g.mem_nodeIds_addNode node value).mpr (.inr hb)⟩
  | addEdge sourceId targetId strength =>
    rw [GraphCall.apply]
    split
    · next g' hadd =>
      -- an edge between two nodes is added, and any other one raises and changes nothing
      by_cases hnodes : sourceId ∈ g.nodeIds ∧ targetId ∈ g.nodeIds
      · obtain ⟨g₁, hg₁, hsame, hedge⟩ := addEdge_ok hnodes.1 hnodes.2 strength
        cases hg₁.symm.trans hadd
        have hids : g'.nodeIds = g.nodeIds := congrArg (List.map Prod.fst) hsame
        refine ⟨hids ▸ h.nodup, fun a b hab => ?_⟩
        rw [hids]
        rcases (hedge a b).mp hab with ⟨rfl, rfl⟩ | hab
        · exact hnodes
        · exact h.joined a b hab
      · rw [addEdge, if_pos] at hadd
        · cases hadd
        · rw [mem_nodeIds, mem_nodeIds, hasNode, hasNode, Option.isSome_iff_ne_none,
            Option.isSome_iff_ne_none] at hnodes
          simp only [Bool.or_eq_true, Option.isNone_iff_eq_none]
          tauto
    · exact h
  | removeNode id =>
    rw [GraphCall.apply, removeNode]
    split
    -- the node goes with all of its edges
    · refine ⟨?_, fun a b hab => ?_⟩
      · exact h.nodup.sublist (List.filter_sublist.map _)
      · obtain ⟨e, he, rfl, rfl⟩ := edges_iff.mp hab
        obtain ⟨he, hkept⟩ := List.mem_filter.mp he
        obtain ⟨hsource, htarget⟩ := of_decide_eq_true hkept
        obtain ⟨ha, hb⟩ := h.joined _ _ (edges_iff.mpr ⟨e, he, rfl, rfl⟩)
        have hkeep : ∀ {x : String}, x ≠ id → x ∈ g.nodeIds →
            x ∈ (g.nodes.filter fun p => p.1 ≠ id).map Prod.fst := by
          intro x hx hmem
          obtain ⟨p, hp, rfl⟩ := List.mem_map.mp hmem
          exact List.mem_map_of_mem (List.mem_filter.mpr ⟨hp, decide_eq_true hx⟩)
        exact ⟨hkeep hsource ha, hkeep htarget hb⟩
    · exact ⟨h.nodup, h.joined⟩
  | removeEdge sourceId targetId =>
    rw [GraphCall.apply, removeEdge]
    split
    · refine ⟨h.nodup, fun a b hab => h.joined a b ?_⟩
      obtain ⟨e, he, hends⟩ := edges_iff.mp hab
      exact edges_iff.mpr ⟨e, (List.mem_filter.mp he).1, hends⟩
    · exact h

theorem wellFormed_of_run {steps : List (CausalGraph × GraphCall)} {g : CausalGraph}
    (run : causalGraphs.Run steps g) : g.WellFormed := by
  have hempty : WellFormed {} := ⟨List.nodup_nil, fun a b hab => by cases hab⟩
  refine run.invariant hempty ?_
  intro g call g' hg hstep
  rw [← Option.some.inj hstep]
  exact wellFormed_apply hg call

/-! ## The searches -/

section Closure

variable {next : String → List String} {seen : List String}

/-- The nodes that a round adds. -/
def newNodes (next : String → List String) (seen : List String) : List String :=
  (seen.flatMap next).filter (· ∉ seen)

theorem closure_succ (n : Nat) :
    closure next (n + 1) seen = closure next n (seen ++ newNodes next seen) := rfl

theorem mem_newNodes {v : String} :
    v ∈ newNodes next seen ↔ v ∉ seen ∧ ∃ u ∈ seen, v ∈ next u := by
  rw [newNodes, List.mem_filter, List.mem_flatMap, decide_eq_true_iff, and_comm]

theorem closure_of_newNodes_nil (h : newNodes next seen = []) (n : Nat) :
    closure next n seen = seen := by
  induction n with
  | zero => rfl
  | succ n ih => rw [closure_succ, h, List.append_nil, ih]

theorem subset_closure (n : Nat) : seen ⊆ closure next n seen := by
  induction n generalizing seen with
  | zero => exact List.Subset.refl _
  | succ n ih => exact fun v hv => ih (List.mem_append_left _ hv)

/-- What is found can be reached. -/
theorem reachable_of_mem_closure {n : Nat} {v : String} (h : v ∈ closure next n seen) :
    ∃ u ∈ seen, Relation.ReflTransGen (fun a b => b ∈ next a) u v := by
  induction n generalizing seen with
  | zero => exact ⟨v, h, .refl⟩
  | succ n ih =>
    obtain ⟨u, hu, hreach⟩ := ih (closure_succ n ▸ h)
    rcases List.mem_append.mp hu with hu | hu
    · exact ⟨u, hu, hreach⟩
    · obtain ⟨-, w, hw, hstep⟩ := mem_newNodes.mp hu
      exact ⟨w, hw, .head hstep hreach⟩

/-- A search either comes to an end or finds a new node in each round. -/
theorem closure_progress (n : Nat) :
    newNodes next (closure next n seen) = [] ∨
      n + seen.toFinset.card ≤ (closure next n seen).toFinset.card := by
  induction n generalizing seen with
  | zero => exact .inr (by rw [Nat.zero_add, closure])
  | succ n ih =>
    by_cases hnil : newNodes next seen = []
    · exact .inl (by rw [closure_of_newNodes_nil hnil, hnil])
    · rw [closure_succ]
      refine ih.imp_right fun hcard => ?_
      obtain ⟨v, hv⟩ := List.exists_mem_of_ne_nil _ hnil
      have hgrows : seen.toFinset ⊂ (seen ++ newNodes next seen).toFinset := by
        rw [Finset.ssubset_iff_of_subset]
        · exact ⟨v, by simp [hv], by simp [(mem_newNodes.mp hv).1]⟩
        · intro x hx
          simp [List.mem_toFinset.mp hx]
      have := Finset.card_lt_card hgrows
      omega

/-- **A search of as many rounds as there are nodes** finds what can be reached. -/
theorem mem_closure_iff {nodes : List String} (hseen : seen ⊆ nodes)
    (hnext : ∀ v, next v ⊆ nodes) {v : String} :
    v ∈ closure next nodes.length seen ↔
      ∃ u ∈ seen, Relation.ReflTransGen (fun a b => b ∈ next a) u v := by
  refine ⟨reachable_of_mem_closure, ?_⟩
  rintro ⟨u, hu, hreach⟩
  have hwithin : closure next nodes.length seen ⊆ nodes := by
    intro w hw
    obtain ⟨u, hu, hreach⟩ := reachable_of_mem_closure hw
    rcases Relation.ReflTransGen.cases_tail hreach with heq | ⟨_, -, hstep⟩
    · rw [heq]
      exact hseen hu
    · exact hnext _ hstep
  -- A search that had found a new node in each round would have found more nodes than there are.
  have hend : newNodes next (closure next nodes.length seen) = [] := by
    refine (closure_progress nodes.length).resolve_right fun hcard => ?_
    have hle : (closure next nodes.length seen).toFinset.card ≤ nodes.length :=
      (Finset.card_le_card fun w hw => List.mem_toFinset.mpr
        (hwithin (List.mem_toFinset.mp hw))).trans nodes.toFinset_card_le
    have hpos : 0 < seen.toFinset.card := Finset.card_pos.mpr ⟨u, List.mem_toFinset.mpr hu⟩
    omega
  induction hreach with
  | refl => exact subset_closure _ hu
  | @tail a b _ hstep ih =>
    by_contra hb
    have hnew : b ∈ newNodes next (closure next nodes.length seen) :=
      mem_newNodes.mpr ⟨hb, a, ih, hstep⟩
    rw [hend] at hnew
    cases hnew

end Closure

variable {g : CausalGraph}

theorem mem_successors {a b : String} : b ∈ g.successors a ↔ g.Edges a b := by
  rw [successors, edges_iff, List.mem_map]
  refine exists_congr fun e => ?_
  simp only [List.mem_filter, beq_iff_eq]
  tauto

theorem length_nodeIds : g.nodes.length = g.nodeIds.length := (List.length_map _).symm

theorem mem_ancestors_iff (hg : g.WellFormed) {a b : String} :
    a ∈ g.ancestors b ↔ a ≠ b ∧ Relation.TransGen g.Edges a b := by
  have hnext : ∀ v, g.predecessors v ⊆ g.nodeIds := fun v u hu =>
    (hg.joined u v (g.mem_predecessors.mp hu)).1
  have hswap : (fun v u => u ∈ g.predecessors v) = Function.swap g.Edges := by
    funext v u
    exact propext g.mem_predecessors
  rw [ancestors, List.mem_filter, decide_eq_true_iff, length_nodeIds,
    mem_closure_iff (hnext b) hnext, and_comm, Relation.TransGen.tail'_iff, hswap]
  refine and_congr_right fun _ => exists_congr fun u => ?_
  rw [Relation.reflTransGen_swap, mem_predecessors, and_comm]
  rfl

theorem mem_descendants_iff (hg : g.WellFormed) {a b : String} :
    b ∈ g.descendants a ↔ b ≠ a ∧ Relation.TransGen g.Edges a b := by
  have hnext : ∀ v, g.successors v ⊆ g.nodeIds := fun v u hu =>
    (hg.joined v u (mem_successors.mp hu)).2
  rw [descendants, List.mem_filter, decide_eq_true_iff, length_nodeIds,
    mem_closure_iff (hnext a) hnext, and_comm, Relation.TransGen.head'_iff]
  simp only [mem_successors]

/-! ## DAGs and paths -/

/-- No node is reached from itself. -/
def IsDag (g : CausalGraph) : Prop := ∀ v, ¬ Relation.TransGen g.Edges v v

/-- A directed path, with both of its ends. -/
structure DirectedPath (g : CausalGraph) (a b : String) (path : List String) : Prop where
  starts : path.head? = some a
  ends : path.getLast? = some b
  chain : path.IsChain g.Edges

/-- The nodes that affect the outcome through the treatment, if at all. -/
structure IsInstrument (g : CausalGraph) (treatment outcome v : String) : Prop where
  node : v ∈ g.nodeIds
  ne_treatment : v ≠ treatment
  ne_outcome : v ≠ outcome
  affects : g.Edges v treatment
  excluded : ∀ path, g.DirectedPath v outcome path → treatment ∈ path

/-- `find_instruments` returns the instruments, in their order. -/
def FindsInstruments (g : CausalGraph) (treatment outcome : String) : Prop :=
  ∃ ids, g.findInstruments treatment outcome = .ok ids ∧ ids.Pairwise (· < ·) ∧
    ∀ v, v ∈ ids ↔ g.IsInstrument treatment outcome v

open Classical in
/-- The check of `networkx` agrees with the definition. -/
theorem isDag_iff (hg : g.WellFormed) : g.IsDag ↔ g.validateDag = true := by
  constructor
  · intro hdag
    -- The rank of a node is the number of nodes from which it is reached.
    let sources : String → Finset String := fun v =>
      g.nodeIds.toFinset.filter fun u => Relation.TransGen g.Edges u v
    refine g.validateDag_of_rank (fun v => (sources v).card) fun a b hedge => ?_
    have ha := (hg.joined a b hedge).1
    refine ⟨ha, Finset.card_lt_card (Finset.ssubset_iff_of_subset ?_ |>.mpr ⟨a, ?_, ?_⟩)⟩
    · intro u hu
      obtain ⟨hnode, hreach⟩ := Finset.mem_filter.mp hu
      exact Finset.mem_filter.mpr ⟨hnode, hreach.tail hedge⟩
    · exact Finset.mem_filter.mpr ⟨List.mem_toFinset.mpr ha, .single hedge⟩
    · exact fun hself => hdag a (Finset.mem_filter.mp hself).2
  · intro hvalid v hcycle
    obtain ⟨u, hedge, -⟩ := Relation.TransGen.head'_iff.mp hcycle
    exact g.acyclic_of_validateDag hg.nodup hvalid (hg.joined v u hedge).1 hcycle

theorem exists_directedPath {a b : String} (h : Relation.ReflTransGen g.Edges a b) :
    ∃ path, g.DirectedPath a b path := by
  obtain ⟨path, hchain, hlast⟩ := List.exists_isChain_cons_of_relationReflTransGen h
  exact ⟨a :: path, rfl, by rw [List.getLast?_eq_getLast_of_ne_nil (List.cons_ne_nil _ _), hlast],
    hchain⟩

theorem DirectedPath.reaches {a b : String} {path : List String} (h : g.DirectedPath a b path) :
    Relation.ReflTransGen g.Edges a b := by
  obtain ⟨rest, rfl⟩ := List.head?_eq_some_iff.mp h.starts
  refine List.relationReflTransGen_of_exists_isChain_cons rest h.chain ?_
  have hends := h.ends
  rwa [List.getLast?_eq_getLast_of_ne_nil (List.cons_ne_nil _ _), Option.some.injEq] at hends

/-- The rest of a path, from one of its nodes on. -/
theorem DirectedPath.reaches_of_mem {a b v : String} {path : List String}
    (h : g.DirectedPath a b path) (hv : v ∈ path) : Relation.ReflTransGen g.Edges v b := by
  obtain ⟨before, after, rfl⟩ := List.append_of_mem hv
  have hrest : g.DirectedPath v b (v :: after) := by
    refine ⟨rfl, ?_, ?_⟩
    · rw [← h.ends, List.getLast?_append_of_ne_nil _ (List.cons_ne_nil _ _)]
    · exact (List.isChain_append.mp h.chain).2.1
  exact hrest.reaches

/-! ## What is listed -/

variable {treatment outcome : String}

theorem sorted_of_nodup {ids : List String} (h : ids.Nodup) :
    (sortedBy id ids).Pairwise (· < ·) := by
  have hle : (sortedBy id ids).Pairwise fun a b => id a ≤ id b :=
    List.pairwise_insertionSort (fun a b => id a ≤ id b) ids
  have hne : (sortedBy id ids).Pairwise (· ≠ ·) := (sortedBy_perm id ids).nodup_iff.mpr h
  exact (hle.and hne).imp fun hab => lt_of_le_of_ne hab.1 hab.2

/-- The nodes that are listed, in a DAG. -/
theorem mem_findInstruments_iff (treatment : String) (hg : g.WellFormed) (hdag : g.IsDag)
    (ho : outcome ∈ g.nodeIds) :
    ∃ ids, g.findInstruments treatment outcome = .ok ids ∧ ids.Pairwise (· < ·) ∧
      ∀ v, v ∈ ids ↔ v ∈ g.nodeIds ∧ v ≠ treatment ∧ v ≠ outcome ∧ g.Edges v treatment ∧
        ¬ Relation.TransGen g.Edges v outcome := by
  have hvalid := (isDag_iff hg).mp hdag
  have hnode : g.hasNode outcome = true := g.mem_nodeIds.mp ho
  rw [findInstruments, requireDag_ok hvalid]
  refine ⟨_, if_neg (fun h => h.2 hnode), sorted_of_nodup ((hg.nodup.filter _).filter _),
    fun v => ?_⟩
  · rw [(sortedBy_perm id _).mem_iff, List.mem_filter, List.mem_filter, decide_eq_true_iff,
      decide_eq_true_iff, mem_ancestors_iff hg, mem_descendants_iff hg]
    constructor
    · rintro ⟨⟨hv, ht, ho, hedge, -⟩, hnot, -⟩
      exact ⟨hv, ht, ho, hedge, fun hreach => hnot ⟨ho, hreach⟩⟩
    · rintro ⟨hv, ht, ho, hedge, hnot⟩
      exact ⟨⟨hv, ht, ho, hedge, fun hdirect => hnot (.single hdirect)⟩, fun h => hnot h.2,
        ht.symm, .single hedge⟩

end CausalGraph

open CausalGraph

/-- **Instruments.** On every graph that calls can build and that is a DAG, for all treatments and
other outcomes, the instruments are found if and only if the treatment does not affect the outcome,
or every node with an edge to the treatment also affects the outcome past it. -/
theorem findsInstruments_iff {steps : List (CausalGraph × GraphCall)} {g : CausalGraph}
    (run : causalGraphs.Run steps g) (hdag : g.IsDag) {treatment outcome : String}
    (ht : treatment ∈ g.nodeIds) (ho : outcome ∈ g.nodeIds) (hne : treatment ≠ outcome) :
    g.FindsInstruments treatment outcome ↔
      ¬ Relation.TransGen g.Edges treatment outcome ∨
        ∀ v, g.Edges v treatment → ∃ path, g.DirectedPath v outcome path ∧ treatment ∉ path := by
  have hg := wellFormed_of_run run
  obtain ⟨ids, hids, hsorted, hmem⟩ := mem_findInstruments_iff treatment hg hdag ho
  constructor
  · rintro ⟨ids', hids', -, hfinds⟩
    cases hids.symm.trans hids'
    rw [or_iff_not_imp_left, not_not]
    intro haffects v hedge
    by_contra hnone
    push Not at hnone
    -- A node all of whose paths to the outcome go through the treatment is an instrument, and it is
    -- not listed, as there is such a path.
    have hv : g.IsInstrument treatment outcome v :=
      { node := (hg.joined v treatment hedge).1
        ne_treatment := by
          rintro rfl
          exact hdag v (.single hedge)
        ne_outcome := by
          rintro rfl
          exact hdag v (.head hedge haffects)
        affects := hedge
        excluded := hnone }
    exact ((hmem v).mp ((hfinds v).mpr hv)).2.2.2.2 (.head hedge haffects)
  · intro hcondition
    refine ⟨ids, hids, hsorted, fun v => (hmem v).trans ?_⟩
    constructor
    · rintro ⟨hv, hvt, hvo, hedge, hnot⟩
      refine ⟨hv, hvt, hvo, hedge, fun path hpath => ?_⟩
      rcases Relation.reflTransGen_iff_eq_or_transGen.mp hpath.reaches with heq | hreach
      · exact absurd heq.symm hvo
      · exact absurd hreach hnot
    · intro hv
      refine ⟨hv.node, hv.ne_treatment, hv.ne_outcome, hv.affects, fun hreach => ?_⟩
      -- An instrument that reaches the outcome does so through the treatment, or there is a path
      -- past it.
      rcases hcondition with hnot | hpast
      · obtain ⟨path, hpath⟩ := exists_directedPath hreach.to_reflTransGen
        have hrest := hpath.reaches_of_mem (hv.excluded path hpath)
        rcases Relation.reflTransGen_iff_eq_or_transGen.mp hrest with heq | hrest
        · exact hne heq.symm
        · exact hnot hrest
      · obtain ⟨path, hpath, hpast⟩ := hpast v hv.affects
        exact hpast (hv.excluded path hpath)

/-- The calls for an instrument, a treatment and an outcome that the treatment may affect. -/
def instrumentCalls (affects : Bool) : List GraphCall :=
  [.addNode { id := "z" } 1, .addNode { id := "t" } 0, .addNode { id := "o" } 0,
    .addEdge "z" "t" 1] ++ if affects then [.addEdge "t" "o" 1] else []

/-- The graph of these calls. -/
def instrumentGraph (affects : Bool) : CausalGraph where
  nodes := [("z", { id := "z" }), ("t", { id := "t" }), ("o", { id := "o" })]
  nodeValues := [("z", 1), ("t", 0), ("o", 0)]
  edges := ⟨"z", "t", 1⟩ :: if affects then [⟨"t", "o", 1⟩] else []

theorem instrumentGraph_reached (affects : Bool) :
    ∃ steps, causalGraphs.Run steps (instrumentGraph affects) := by
  refine System.reachable_of_exec (instrumentCalls affects) ?_
  cases affects with
  | false => rfl
  | true => rfl

/-- An instrument of a treatment without an effect is found. -/
theorem findsInstruments_unrelated :
    (instrumentGraph false).findInstruments "t" "o" = .ok ["z"] ∧
      (instrumentGraph false).FindsInstruments "t" "o" := by
  obtain ⟨steps, run⟩ := instrumentGraph_reached false
  have hdag : (instrumentGraph false).IsDag :=
    (isDag_iff (wellFormed_of_run run)).mpr (by decide +kernel)
  refine ⟨by decide +kernel, ?_⟩
  refine (findsInstruments_iff run hdag (by decide) (by decide) (by decide)).mpr (.inl fun h => ?_)
  obtain ⟨v, hedge, -⟩ := Relation.TransGen.head'_iff.mp h
  obtain ⟨e, he, hsource, -⟩ := edges_iff.mp hedge
  rw [List.mem_singleton.mp he] at hsource
  exact absurd hsource (by decide)

/-- The instrument of a treatment that affects its outcome is not found. -/
theorem instrument_missed :
    (∃ steps, causalGraphs.Run steps (instrumentGraph true)) ∧ (instrumentGraph true).IsDag ∧
      (instrumentGraph true).findInstruments "t" "o" = .ok [] ∧
      (instrumentGraph true).IsInstrument "t" "o" "z" ∧
      ¬ (instrumentGraph true).FindsInstruments "t" "o" := by
  obtain ⟨steps, run⟩ := instrumentGraph_reached true
  have hfind : (instrumentGraph true).findInstruments "t" "o" = .ok [] := by decide +kernel
  have hz : (instrumentGraph true).IsInstrument "t" "o" "z" := by
    refine ⟨by decide, by decide, by decide, rfl, fun path hpath => ?_⟩
    obtain ⟨rest, rfl⟩ := List.head?_eq_some_iff.mp hpath.starts
    cases rest with
    | nil => exact absurd hpath.ends (by decide)
    | cons v rest =>
      obtain ⟨hedge, -⟩ := List.isChain_cons_cons.mp hpath.chain
      obtain ⟨e, he, hsource, htarget⟩ := edges_iff.mp hedge
      rcases List.mem_cons.mp he with rfl | he
      · rw [← htarget]
        exact List.mem_cons_of_mem _ List.mem_cons_self
      · rw [List.mem_singleton.mp he] at hsource
        exact absurd hsource (by decide)
  refine ⟨⟨steps, run⟩, (isDag_iff (wellFormed_of_run run)).mpr (by decide +kernel), hfind, hz, ?_⟩
  rintro ⟨ids, hids, -, hmem⟩
  cases hfind.symm.trans hids
  exact absurd ((hmem "z").mpr hz) List.not_mem_nil

end Noema.Causal
