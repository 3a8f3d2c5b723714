import Noema.Lib.Levels
import Noema.Lib.PyInterp
import Noema.Lib.JsonRoundTrip

/-!
# Causal graphs (`causal/graph.py`)

A graph has nodes with values, and edges with strengths. `networkx` keeps nodes and edges in the
order in which they came; its documented functions are written out: `validateDag` is its topological
sort, `closure` its search for ancestors and descendants. Adding an edge that is there changes its
strength.

The estimates are the source's formulas: the effect along direct edges, the bias by the confounders,
the effect through the mediators, and the dict of the other nodes that are influenced. Numbers are
exact, and `round4` rounds as `round(x, 4)` does on them.

- `validateDag_of_rank`: a numbering that grows along the edges is enough to pass the check. With
  `acyclic_of_validateDag`, every DAG that passes has no cycle.
- `estimateAte_ok`: on a DAG the estimate of an effect on a node returns; no lookup in it fails.
- `fromRequirements_ok`: the graph of requirements. `Attached` is the invariant of the loop over
  them: the nodes so far, the map from labels, and no edge yet. `addDependencies_ok` is the loop
  over the dependencies, which skips those with a label that is not there.

What is proved about graphs under calls is in `Instruments` and `Queries`.
-/

namespace Noema.Causal

open Noema.Lib PyJson

/-! ## The graph -/

/-- `VariableType`. -/
inductive VariableType where
  | continuous
  | categorical
  | binary
  deriving DecidableEq, Repr

/-- `CausalNode`. -/
structure CausalNode where
  id : String
  name : String := ""
  varType : VariableType := .continuous
  domain : Option (ℚ × ℚ) := none
  deriving DecidableEq

/-- `InterventionResult`. -/
structure InterventionResult where
  targetVariable : String
  interventionValue : ℚ
  estimatedEffect : ℚ
  confidence : ℚ
  backdoorVariables : List String
  frontdoorVariables : List String
  counterfactual : Option (List (String × ℚ)) := none
  deriving DecidableEq

/-- An edge: its source, its target and its strength. -/
structure Edge where
  source : String
  target : String
  strength : ℚ
  deriving DecidableEq

/-- `CausalGraph`. -/
structure CausalGraph where
  nodes : List (String × CausalNode) := []
  nodeValues : List (String × ℚ) := []
  edges : List Edge := []

namespace CausalGraph

/-- `DiGraph.add_edge`: an edge that is there gets the new strength. -/
def setEdge (e : Edge) : List Edge → List Edge
  | [] => [e]
  | e' :: edges =>
    if e'.source = e.source ∧ e'.target = e.target then e :: edges else e' :: setEdge e edges

theorem any_setEdge (e : Edge) (edges : List Edge) (a b : String) :
    (setEdge e edges).any (fun e => e.source == a && e.target == b) =
      ((e.source == a && e.target == b) || edges.any fun e => e.source == a && e.target == b) := by
  induction edges with
  | nil => rfl
  | cons e' edges ih =>
    rw [setEdge]
    split
    · next h => simp [h.1, h.2]
    · rw [List.any_cons, List.any_cons, ih, Bool.or_left_comm]

/-- `add_node` (graph.py:56). -/
def addNode (g : CausalGraph) (node : CausalNode) (value : ℚ) : CausalGraph :=
  { g with
    nodes := dictInsert node.id node g.nodes
    nodeValues := dictInsert node.id value g.nodeValues }

/-- `add_edge` (graph.py:63). -/
def addEdge (g : CausalGraph) (sourceId targetId : String) (strength : ℚ) :
    Except PyExc CausalGraph :=
  if (g.nodes.lookup sourceId).isNone || (g.nodes.lookup targetId).isNone then
    .error (.valueError ("Cannot add edge " ++ sourceId ++ "->" ++ targetId ++ ": node(s) not found"))
  else .ok { g with edges := setEdge ⟨sourceId, targetId, strength⟩ g.edges }

variable (g : CausalGraph)

/-- `node_ids`. -/
def nodeIds : List String := g.nodes.map Prod.fst

/-- `has_node`. -/
def hasNode (id : String) : Bool := (g.nodes.lookup id).isSome

theorem mem_nodeIds {id : String} : id ∈ g.nodeIds ↔ g.hasNode id = true := by
  simp [nodeIds, hasNode]

/-- `has_edge`. -/
def hasEdge (sourceId targetId : String) : Bool :=
  g.edges.any fun e => e.source == sourceId && e.target == targetId

/-- `predecessors`. -/
def predecessors (id : String) : List String :=
  (g.edges.filter fun e => e.target == id).map Edge.source

theorem mem_predecessors {a b : String} : a ∈ g.predecessors b ↔ g.hasEdge a b = true := by
  rw [predecessors, hasEdge, List.any_eq_true, List.mem_map]
  refine exists_congr fun e => ?_
  simp only [List.mem_filter, Bool.and_eq_true, beq_iff_eq]
  tauto

/-- `successors`. -/
def successors (id : String) : List String :=
  (g.edges.filter fun e => e.source == id).map Edge.target

/-- The strength of an edge that is there. -/
def strength? (sourceId targetId : String) : Option ℚ :=
  (g.edges.find? fun e => e.source == sourceId && e.target == targetId).map Edge.strength

theorem mem_nodeIds_addNode (node : CausalNode) (value : ℚ) {id : String} :
    id ∈ (g.addNode node value).nodeIds ↔ id = node.id ∨ id ∈ g.nodeIds :=
  mem_keys_dictInsert

theorem nodup_addNode (node : CausalNode) (value : ℚ) (h : g.nodeIds.Nodup) :
    (g.addNode node value).nodeIds.Nodup := by
  rw [nodeIds] at h
  rw [nodeIds, addNode]
  by_cases hk : node.id ∈ g.nodes.map Prod.fst
  · rwa [keys_dictInsert_of_mem hk]
  · rw [dictInsert_of_not_mem hk, List.map_append]
    refine List.nodup_append.mpr ⟨h, by simp, fun a ha b hb hab => hk ?_⟩
    have hnode : b = node.id := by simpa using hb
    rwa [← hnode, ← hab]

variable {g} in
/-- An edge between two nodes is added, next to the ones that are there. -/
theorem addEdge_ok {a b : String} (ha : a ∈ g.nodeIds) (hb : b ∈ g.nodeIds) (strength : ℚ) :
    ∃ g', g.addEdge a b strength = .ok g' ∧ g'.nodes = g.nodes ∧
      ∀ a' b', g'.hasEdge a' b' = true ↔ (a = a' ∧ b = b') ∨ g.hasEdge a' b' = true := by
  rw [mem_nodeIds, hasNode] at ha hb
  refine ⟨{ g with edges := setEdge ⟨a, b, strength⟩ g.edges }, ?_, rfl, fun a' b' => ?_⟩
  · rw [addEdge, if_neg]
    simp [Option.isNone_iff_eq_none, Option.isSome_iff_ne_none.mp ha, Option.isSome_iff_ne_none.mp hb]
  · simp [hasEdge, any_setEdge]

/-- `validate_dag` (graph.py:110): a topological sort takes every node. -/
def validateDag : Bool := (Kahn.levels g.predecessors g.nodeIds).flatten.length == g.nodes.length

/-- What is reached from the given nodes in at most `n` steps. -/
def closure (next : String → List String) : Nat → List String → List String
  | 0, seen => seen
  | n + 1, seen => closure next n (seen ++ (seen.flatMap next).filter (· ∉ seen))

/-- `nx.ancestors`. -/
def ancestors (id : String) : List String :=
  (closure g.predecessors g.nodes.length (g.predecessors id)).filter (· ≠ id)

/-- `nx.descendants`. -/
def descendants (id : String) : List String :=
  (closure g.successors g.nodes.length (g.successors id)).filter (· ≠ id)

/-- A DAG has no cycle, and an order of its nodes is enough to see that it is one. -/
theorem acyclic_of_validateDag (hnodup : g.nodeIds.Nodup) (h : g.validateDag = true) {id : String}
    (hid : id ∈ g.nodeIds) : ¬ Relation.TransGen (fun a b => g.hasEdge a b = true) id id := by
  have hlength : (Kahn.levels g.predecessors g.nodeIds).flatten.length = g.nodeIds.length := by
    rw [nodeIds, List.length_map]
    exact eq_of_beq h
  simpa only [mem_predecessors] using Kahn.acyclic_of_perm hnodup (Kahn.perm_of_length hlength) hid

theorem validateDag_of_rank (rank : String → Nat)
    (h : ∀ a b, g.hasEdge a b = true → a ∈ g.nodeIds ∧ rank a < rank b) : g.validateDag = true := by
  have hperm : (Kahn.levels g.predecessors g.nodeIds).flatten.Perm g.nodeIds :=
    Kahn.flatten_levels_perm rank fun b _ a ha => h a b (g.mem_predecessors.mp ha)
  rw [validateDag, beq_iff_eq, hperm.length_eq, nodeIds, List.length_map]

/-- What every analysis asks first. -/
def requireDag : Except PyExc Unit :=
  if g.validateDag then .ok ()
  else .error (.valueError "Causal graph must be a DAG for causal analysis")

variable {g} in
theorem requireDag_ok (h : g.validateDag = true) : g.requireDag = .ok () := if_pos h

/-- `find_confounders` (graph.py:113), without exclusions. -/
def findConfounders (treatment outcome : String) : Except PyExc (List String) := do
  g.requireDag
  if !g.hasNode treatment then
    .error (.valueError ("Treatment node " ++ treatment ++ " not found"))
  else if !g.hasNode outcome then
    .error (.valueError ("Outcome node " ++ outcome ++ " not found"))
  else
    return sortedBy id (g.nodeIds.filter fun nodeId => nodeId ≠ treatment ∧ nodeId ≠ outcome ∧
      nodeId ∈ g.predecessors outcome ∧ g.hasEdge nodeId treatment)

/-- `find_mediators` (graph.py:151). -/
def findMediators (treatment outcome : String) : Except PyExc (List String) := do
  g.requireDag
  return sortedBy id (g.nodeIds.filter fun nodeId => nodeId ≠ treatment ∧ nodeId ≠ outcome ∧
    nodeId ∈ g.ancestors outcome ∧ nodeId ∈ g.descendants treatment)

/-- `round(q, 4)`: to even at a tie. -/
def round4 (q : ℚ) : ℚ :=
  let scaled := q * 10000
  let rest := scaled - ⌊scaled⌋
  let up := 1 / 2 < rest ∨ (rest = 1 / 2 ∧ ⌊scaled⌋ % 2 = 1)
  (if up then ⌊scaled⌋ + 1 else ⌊scaled⌋) / 10000

/-- The effect along the edges from the treatment. -/
def directPaths (treatment outcome : String) : ℚ :=
  ((g.successors treatment).map fun succ =>
    let s := (g.strength? treatment succ).getD 1
    if succ = outcome then s
    else if outcome ∈ g.descendants succ then s / 2
    else 0).sum

/-- The bias by the confounders. -/
def confounderBias (backdoor : List String) (treatment outcome : String) : ℚ :=
  (backdoor.map fun c =>
    match g.strength? c treatment, g.strength? c outcome with
    | some t, some o => t * o * |(g.nodeValues.lookup c).getD 0|
    | _, _ => 0).sum

/-- The effect through the mediators. -/
def mediatorEffect (frontdoor : List String) (treatment outcome : String) : ℚ :=
  (frontdoor.map fun m =>
    match g.strength? treatment m, g.strength? m outcome with
    | some t, some o => t * o
    | _, _ => 0).sum

/-- The dict of the other nodes that are influenced, by their names. -/
def counterfactualOf (influences : List String) (treatment outcome : String) : List (String × ℚ) :=
  g.nodes.foldl (fun counterfactual (nodeId, node) =>
    let parents := g.predecessors nodeId
    if nodeId ≠ outcome ∧ nodeId ≠ treatment ∧ (∃ p ∈ parents, p ∈ influences) then
      let parentDelta := (parents.map fun p => (g.strength? p nodeId).getD (1 / 2) * (1 / 10)).sum
      dictInsert (if node.name = "" then nodeId else node.name)
        ((g.nodeValues.lookup nodeId).getD 0 + parentDelta) counterfactual
    else counterfactual) []

/-- `estimate_ate` (graph.py:164). -/
def estimateAte (treatment outcome : String) (interventionValue : ℚ) :
    Except PyExc InterventionResult := do
  g.requireDag
  let backdoor ← g.findConfounders treatment outcome
  let frontdoor ← g.findMediators treatment outcome
  let currentVal := (g.nodeValues.lookup outcome).getD 0
  let delta := interventionValue - (g.nodeValues.lookup treatment).getD 0
  -- nothing is changed: the outcome keeps its value
  if delta = 0 then
    return ⟨outcome, interventionValue, currentVal, 1, backdoor, frontdoor, none⟩
  else
    let paths := g.directPaths treatment outcome
    let bias := g.confounderBias backdoor treatment outcome
    let mediated := g.mediatorEffect frontdoor treatment outcome
    -- the effect is cut off at zero from below
    let totalEffect := max 0 (paths * delta + mediated * delta - bias * (1 / 10))
    let confidence := 1 / (1 + backdoor.length * (1 / 10) + frontdoor.length * (1 / 20))
    let counterfactual := g.counterfactualOf (treatment :: backdoor ++ frontdoor) treatment outcome
    return {
      targetVariable := outcome
      interventionValue
      estimatedEffect := round4 (currentVal + totalEffect)
      confidence := round4 (max (1 / 10) (min 1 confidence))
      backdoorVariables := backdoor
      frontdoorVariables := frontdoor
      counterfactual := if counterfactual = [] then none else some counterfactual }

variable {g} in
/-- On a DAG the estimate of an effect on a node returns. -/
theorem estimateAte_ok (hdag : g.validateDag = true) {treatment outcome : String}
    (ht : g.hasNode treatment = true) (ho : g.hasNode outcome = true) (value : ℚ) :
    ∃ result, g.estimateAte treatment outcome value = .ok result := by
  have hconfounders : ∃ backdoor, g.findConfounders treatment outcome = .ok backdoor := by
    rw [findConfounders, requireDag_ok hdag, ht, ho]
    exact ⟨_, rfl⟩
  have hmediators : ∃ frontdoor, g.findMediators treatment outcome = .ok frontdoor := by
    rw [findMediators, requireDag_ok hdag]
    exact ⟨_, rfl⟩
  obtain ⟨backdoor, hbackdoor⟩ := hconfounders
  obtain ⟨frontdoor, hfrontdoor⟩ := hmediators
  rw [estimateAte, requireDag_ok hdag, hbackdoor, hfrontdoor]
  by_cases hdelta : value - (g.nodeValues.lookup treatment).getD 0 = 0
  · exact ⟨_, if_pos hdelta⟩
  · exact ⟨_, if_neg hdelta⟩

end CausalGraph

/-! ## Requirements -/

/-- A normalized requirement. -/
structure Requirement where
  category : String
  description : String
  priority : Int
  bounded : 0 ≤ priority ∧ priority ≤ 10

/-- The label of a requirement: the category and 20 characters of the description. -/
def Requirement.label (r : Requirement) : String :=
  r.category ++ "_" ++ String.ofList (r.description.toList.take 20)

/-- `str(uuid.uuid4())[:8]`, for each call. -/
structure NodeIds where
  draw : Nat → String
  nonempty : ∀ n, draw n ≠ ""

/-- The nodes of the requirements, from the `n`-th draw on, with the map from labels. -/
def addRequirements (ids : NodeIds) : Nat → List Requirement → CausalGraph × List (String × String) →
    CausalGraph × List (String × String)
  | _, [], state => state
  | n, r :: requirements, (g, reqMap) =>
    let node : CausalNode := { id := ids.draw n, name := r.label, domain := some (0, 10) }
    addRequirements ids (n + 1) requirements
      (g.addNode node r.priority, dictInsert r.label (ids.draw n) reqMap)

/-- The draw of the last of the requirements with the label. -/
def lastDraw (ids : NodeIds) : Nat → List Requirement → String → Option String
  | _, [], _ => none
  | n, r :: requirements, label =>
    (lastDraw ids (n + 1) requirements label).or
      (if label = r.label then some (ids.draw n) else none)

theorem lastDraw_isSome (ids : NodeIds) {n : Nat} {requirements : List Requirement}
    {r : Requirement} (hr : r ∈ requirements) : ∃ id, lastDraw ids n requirements r.label = some id := by
  induction requirements generalizing n with
  | nil => cases hr
  | cons r' requirements ih =>
    rw [lastDraw]
    rcases List.mem_cons.mp hr with rfl | hr
    · rw [if_pos rfl]
      cases lastDraw ids (n + 1) requirements r.label <;> simp
    · obtain ⟨id, hid⟩ := ih (n := n + 1) hr
      exact ⟨id, by rw [hid, Option.some_or]⟩

theorem exists_of_lastDraw {ids : NodeIds} {n : Nat} {requirements : List Requirement}
    {label id : String} (h : lastDraw ids n requirements label = some id) :
    ∃ (i : Nat) (r : Requirement), requirements[i]? = some r ∧ r.label = label ∧
      id = ids.draw (n + i) := by
  induction requirements generalizing n with
  | nil => cases h
  | cons r requirements ih =>
    rw [lastDraw, Option.or_eq_some_iff] at h
    rcases h with h | ⟨-, h⟩
    · obtain ⟨i, r', hi, hlabel, hid⟩ := ih h
      exact ⟨i + 1, r', hi, hlabel, by rw [hid]; congr 1; omega⟩
    · split at h
      · next hlabel => exact ⟨0, r, rfl, hlabel.symm, (Option.some.inj h).symm⟩
      · cases h

/-- What the requirements leave: their nodes, the map from labels, and no edge. -/
structure Attached (ids : NodeIds) (labelled : String → Option String)
    (state : CausalGraph × List (String × String)) : Prop where
  nodup : state.1.nodeIds.Nodup
  edges : state.1.edges = []
  lookup : ∀ label, state.2.lookup label = labelled label
  node : ∀ label id, labelled label = some id → id ∈ state.1.nodeIds ∧ id ≠ ""

theorem attached_addRequirements {ids : NodeIds} {labelled : String → Option String}
    {state : CausalGraph × List (String × String)} (n : Nat) (requirements : List Requirement)
    (h : Attached ids labelled state) :
    Attached ids (fun label => (lastDraw ids n requirements label).or (labelled label))
      (addRequirements ids n requirements state) := by
  induction requirements generalizing n labelled state with
  | nil => exact h
  | cons r requirements ih =>
    obtain ⟨g, reqMap⟩ := state
    -- The node of the first requirement is added, and its label now stands for it.
    have hstep : Attached ids (fun label => if label = r.label then some (ids.draw n) else labelled label)
        (g.addNode { id := ids.draw n, name := r.label, domain := some (0, 10) } r.priority,
          dictInsert r.label (ids.draw n) reqMap) :=
      { nodup := g.nodup_addNode _ _ h.nodup
        edges := h.edges
        lookup := fun label => by rw [lookup_dictInsert, h.lookup]
        node := fun label id hid => by
          rw [CausalGraph.mem_nodeIds_addNode]
          split at hid
          · cases hid
            exact ⟨.inl rfl, ids.nonempty n⟩
          · exact (h.node label id hid).imp_left .inr }
    rw [addRequirements]
    convert ih (n + 1) hstep using 2 with label
    rw [lastDraw, Option.or_assoc]
    split <;> rfl

/-- The edges of the dependencies. -/
def addDependencies (reqMap : List (String × String)) :
    List (String × String × ℚ) → CausalGraph → Except PyExc CausalGraph
  | [], g => .ok g
  | (source, target, strength) :: deps, g =>
    match reqMap.lookup source, reqMap.lookup target with
    | some sourceId, some targetId =>
      if sourceId ≠ "" ∧ targetId ≠ "" then do
        let g ← g.addEdge sourceId targetId strength
        addDependencies reqMap deps g
      else addDependencies reqMap deps g
    | _, _ => addDependencies reqMap deps g

/-- No dependency fails, and its edge joins the nodes that its labels stand for. -/
theorem addDependencies_ok {reqMap : List (String × String)} {g : CausalGraph}
    (hnode : ∀ label id, reqMap.lookup label = some id → id ∈ g.nodeIds ∧ id ≠ "")
    (deps : List (String × String × ℚ)) :
    ∃ g', addDependencies reqMap deps g = .ok g' ∧ g'.nodes = g.nodes ∧
      ∀ a b, g'.hasEdge a b = true ↔ g.hasEdge a b = true ∨
        ∃ dep ∈ deps, reqMap.lookup dep.1 = some a ∧ reqMap.lookup dep.2.1 = some b := by
  induction deps generalizing g with
  | nil => exact ⟨g, rfl, rfl, by simp⟩
  | cons dep deps ih =>
    obtain ⟨source, target, strength⟩ := dep
    rw [addDependencies]
    split
    · next a b ha hb =>
      rw [if_pos ⟨(hnode _ _ ha).2, (hnode _ _ hb).2⟩]
      obtain ⟨g₁, hg₁, hnodes, hedge⟩ := CausalGraph.addEdge_ok (hnode _ _ ha).1 (hnode _ _ hb).1 strength
      have hids : g₁.nodeIds = g.nodeIds := congrArg (List.map Prod.fst) hnodes
      obtain ⟨g', hg', hnodes', hedge'⟩ := ih (g := g₁) fun label id h => hids ▸ hnode label id h
      refine ⟨g', by rw [hg₁]; exact hg', hnodes'.trans hnodes, fun a' b' => ?_⟩
      simp only [hedge', hedge, List.exists_mem_cons_iff, ha, hb, Option.some.injEq]
      tauto
    -- A dependency on a label that is not there is skipped.
    · next hmissing =>
      obtain ⟨g', hg', hnodes', hedge'⟩ := ih hnode
      refine ⟨g', hg', hnodes', fun a' b' => ?_⟩
      have hnone : ¬ (reqMap.lookup source = some a' ∧ reqMap.lookup target = some b') :=
        fun h => hmissing _ _ h.1 h.2
      simp only [hedge', List.exists_mem_cons_iff, hnone, false_or]

/-- `from_requirements` (graph.py:280). -/
def fromRequirements (ids : NodeIds) (requirements : List Requirement)
    (dependencies : List (String × String × ℚ)) : Except PyExc CausalGraph :=
  let (g, reqMap) := addRequirements ids 0 requirements ({}, [])
  addDependencies reqMap dependencies g

/-- The graph of the requirements: the edges join the last requirements with the labels. -/
theorem fromRequirements_ok (ids : NodeIds) (requirements : List Requirement)
    (dependencies : List (String × String × ℚ)) :
    ∃ g, fromRequirements ids requirements dependencies = .ok g ∧ g.nodeIds.Nodup ∧
      (∀ label id, lastDraw ids 0 requirements label = some id → id ∈ g.nodeIds) ∧
      ∀ a b, g.hasEdge a b = true ↔ ∃ dep ∈ dependencies,
        lastDraw ids 0 requirements dep.1 = some a ∧ lastDraw ids 0 requirements dep.2.1 = some b := by
  have hinit : Attached ids (fun _ => none) ({}, []) :=
    ⟨List.nodup_nil, rfl, fun _ => rfl, fun _ _ h => by cases h⟩
  have h := attached_addRequirements 0 requirements hinit
  simp only [Option.or_none] at h
  obtain ⟨g, hg, hnodes, hedge⟩ := addDependencies_ok
    (fun label id hid => h.node label id (h.lookup label ▸ hid)) dependencies
  have hids : g.nodeIds = (addRequirements ids 0 requirements ({}, [])).1.nodeIds :=
    congrArg (List.map Prod.fst) hnodes
  refine ⟨g, hg, hids ▸ h.nodup, fun label id hid => hids ▸ (h.node label id hid).1, fun a b => ?_⟩
  rw [hedge, CausalGraph.hasEdge, h.edges]
  simp [h.lookup]

end Noema.Causal
