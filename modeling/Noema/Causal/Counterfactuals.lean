import Noema.Causal.Graph
import Noema.Lib.PyNumber
import Noema.Neurosymbolic.Engine

/-!
# Counterfactuals of a task (`neurosymbolic/engine.py`, `causal/engine.py`)

The requirements of a task are the nodes of a causal graph, and a requirement points at every
requirement of a lower priority. Constraints add nodes without edges. The analysis then intervenes
on each node, which needs a DAG.

Edges are attached by labels. A label is the category of a requirement and 20 characters of its
description (graph.py), and the map from labels to nodes keeps the last requirement of each label;
so all requirements with one label share the node of the last of them, and the edges of the others
go there, too. That is how a relation that is a strict order on requirements may still give a cycle.

- `taskGraph_ok`: building the graph never raises, and its edges go from the node of a requirement
  to the node of one of a lower priority.
- `analyzeAllCounterfactuals_ok`: the analysis of a DAG returns.
- `sharedAlike_iff_label`: with distinct draws of ids, two requirements share a node exactly when
  they have one label.
- **`taskGraph_dag_iff`**: the graph is a DAG, and its analysis returns, exactly when requirements
  that share a node have one priority. From right to left the priority is a rank of the nodes
  (`rankOf`) that decreases along every edge; from left to right two requirements of one node and
  different priorities make a loop.

The metrics of the engine are left out.
-/

namespace Noema.Causal

open Noema.Lib PyJson
open Noema.Neurosymbolic (TaskInput)

/-! ## The causal engine -/

/-- What `CausalEngine` is made with. -/
structure CausalEngine where
  enabled : Bool := true
  maxCounterfactuals : Int := 5

/-- The nodes of the constraints, from the `n`-th draw on. -/
def addConstraints (ids : NodeIds) : Nat → List String → CausalGraph → CausalGraph
  | _, [], g => g
  | n, name :: constraints, g =>
    let node : CausalNode := { id := ids.draw n, name := "constraint_" ++ name, varType := .categorical }
    addConstraints ids (n + 1) constraints (g.addNode node 1)

/-- The constraints add nodes only. -/
theorem addConstraints_nodes (ids : NodeIds) (n : Nat) (constraints : List String)
    {g : CausalGraph} (h : g.nodeIds.Nodup) :
    (addConstraints ids n constraints g).nodeIds.Nodup ∧
      (∀ id ∈ g.nodeIds, id ∈ (addConstraints ids n constraints g).nodeIds) ∧
      (addConstraints ids n constraints g).edges = g.edges := by
  induction constraints generalizing n g with
  | nil => exact ⟨h, fun _ hid => hid, rfl⟩
  | cons name constraints ih =>
    rw [addConstraints]
    obtain ⟨hnodup, hmem, hedges⟩ := ih (n + 1) (g.nodup_addNode _ _ h)
    refine ⟨hnodup, fun id hid => hmem id ?_, hedges⟩
    exact (g.mem_nodeIds_addNode _ _).mpr (.inr hid)

/-- `build_graph` (causal/engine.py:26). -/
def buildGraph (ids : NodeIds) (requirements : List Requirement) (constraints : List String)
    (dependencies : List (String × String × ℚ)) : Except PyExc CausalGraph := do
  let g ← fromRequirements ids requirements dependencies
  return addConstraints ids requirements.length constraints g

/-- An entry of the analysis: the effects with the confidences of the two interventions. -/
structure Estimate where
  variableName : String
  effect : ℚ
  confidence : ℚ
  effect2 : Option ℚ
  confidence2 : Option ℚ
  backdoorVariables : List String
  mediatorVariables : List String
  deriving DecidableEq

namespace CausalEngine

variable (engine : CausalEngine) (g : CausalGraph)

/-- `analyze_counterfactual` (causal/engine.py:48). -/
def analyzeCounterfactual (treatment outcome : String) (interventionValue : ℚ) :
    Except PyExc (Option InterventionResult) :=
  if !engine.enabled then .ok none
  else if !g.hasNode treatment then .ok none
  else if !g.hasNode outcome then .ok none
  else (g.estimateAte treatment outcome interventionValue).map some

variable {g} in
theorem analyzeCounterfactual_ok (hdag : g.validateDag = true) (treatment outcome : String)
    (value : ℚ) : ∃ result, engine.analyzeCounterfactual g treatment outcome value = .ok result := by
  rw [analyzeCounterfactual]
  split
  · exact ⟨none, rfl⟩
  split
  · exact ⟨none, rfl⟩
  · next ht =>
    split
    · exact ⟨none, rfl⟩
    · next ho =>
      obtain ⟨result, hresult⟩ := CausalGraph.estimateAte_ok hdag
        (by simpa using ht) (by simpa using ho) value
      exact ⟨some result, by rw [hresult]; rfl⟩

/-- The loop of `analyze_all_counterfactuals` over the nodes. -/
def analyzeNodes (mainOutcome : String) : Int → List CausalNode → Except PyExc (List Estimate)
  | _, [] => .ok []
  | count, node :: nodes =>
    -- the loop is left when enough nodes have been analyzed
    if engine.maxCounterfactuals ≤ count then .ok []
    else if node.id = mainOutcome then analyzeNodes mainOutcome count nodes
    else do
      match ← engine.analyzeCounterfactual g node.id mainOutcome 1 with
      | none => analyzeNodes mainOutcome count nodes
      | some result =>
        let alt ← engine.analyzeCounterfactual g node.id mainOutcome 2
        let rest ← analyzeNodes mainOutcome (count + 1) nodes
        return {
          variableName := if node.name = "" then node.id else node.name
          effect := result.estimatedEffect
          confidence := result.confidence
          effect2 := alt.map InterventionResult.estimatedEffect
          confidence2 := alt.map InterventionResult.confidence
          backdoorVariables := result.backdoorVariables
          mediatorVariables := result.frontdoorVariables } :: rest

variable {g} in
theorem analyzeNodes_ok (hdag : g.validateDag = true) (mainOutcome : String) (count : Int)
    (nodes : List CausalNode) :
    ∃ estimates, engine.analyzeNodes g mainOutcome count nodes = .ok estimates := by
  induction nodes generalizing count with
  | nil => exact ⟨[], rfl⟩
  | cons node nodes ih =>
    rw [analyzeNodes]
    split
    · exact ⟨[], rfl⟩
    split
    · exact ih count
    obtain ⟨first, hfirst⟩ := engine.analyzeCounterfactual_ok hdag node.id mainOutcome 1
    rw [hfirst]
    cases first with
    | none => exact ih count
    | some result =>
      obtain ⟨alt, halt⟩ := engine.analyzeCounterfactual_ok hdag node.id mainOutcome 2
      obtain ⟨rest, hrest⟩ := ih (count + 1)
      rw [halt, hrest]
      exact ⟨_, rfl⟩

/-- `analyze_all_counterfactuals` (causal/engine.py:77). -/
def analyzeAllCounterfactuals : Except PyExc (List Estimate) :=
  if !engine.enabled then .ok []
  else
    let nodes := g.nodes.map Prod.snd
    match nodes.getLast? with
    | none => .ok []
    | some last => if last.id = "" then .ok [] else engine.analyzeNodes g last.id 0 nodes

variable {g} in
theorem analyzeAllCounterfactuals_ok (hdag : g.validateDag = true) :
    ∃ estimates, engine.analyzeAllCounterfactuals g = .ok estimates := by
  rw [analyzeAllCounterfactuals]
  split
  · exact ⟨[], rfl⟩
  · extract_lets nodes
    split
    · exact ⟨[], rfl⟩
    split
    · exact ⟨[], rfl⟩
    · exact engine.analyzeNodes_ok hdag _ 0 nodes

end CausalEngine

/-! ## The graph of a task -/

section Task

variable {F : Type} [PyNumber F]

/-- `min(max(int(value), 0), 10)`, and 5 where `int` raises. -/
def coercePriority (value : PyVal F) : Int :=
  match value.pyInt with
  | .ok i => min (max i 0) 10
  | .error _ => 5

/-- A requirement of a task, normalized. -/
def normalizeRequirement (requirement : List (String × PyVal F)) : Requirement where
  category := (getOr requirement "category" (.str "unknown")).toStr
  description := (getOr requirement "description" (.str "")).toStr
  priority := coercePriority (getOr requirement "priority" (.int 5))
  bounded := by
    rw [coercePriority]
    split <;> omega

/-- The names of the constraints of a task. -/
def constraintNames (constraints : List (List (String × PyVal F))) : List String :=
  constraints.zipIdx.map fun (constraint, index) =>
    (getOr constraint "name" (.str ("c_" ++ toString index))).toStr

/-- The dependencies: from a requirement to the other ones of a lower priority. -/
def dependenciesOf (requirements : List Requirement) : List (String × String × ℚ) :=
  requirements.zipIdx.flatMap fun (requirement, i) =>
    requirements.zipIdx.filterMap fun (other, j) =>
      if i ≠ j ∧ other.priority < requirement.priority then
        some (requirement.label, other.label, 1 / 2)
      else none

theorem mem_dependenciesOf {requirements : List Requirement} {dep : String × String × ℚ} :
    dep ∈ dependenciesOf requirements ↔ ∃ r ∈ requirements, ∃ r' ∈ requirements,
      r'.priority < r.priority ∧ dep = (r.label, r'.label, 1 / 2) := by
  simp only [dependenciesOf, List.mem_flatMap, List.mem_filterMap, List.mem_zipIdx_iff_getElem?,
    Prod.exists]
  constructor
  · rintro ⟨r, i, hr, r', j, hr', hdep⟩
    split at hdep
    · next h => exact ⟨r, List.mem_of_getElem? hr, r', List.mem_of_getElem? hr', h.2, by simpa [eq_comm] using hdep⟩
    · cases hdep
  · rintro ⟨r, hr, r', hr', hlt, rfl⟩
    obtain ⟨i, hi⟩ := List.getElem?_of_mem hr
    obtain ⟨j, hj⟩ := List.getElem?_of_mem hr'
    -- one requirement does not dominate itself
    have hne : i ≠ j := by
      rintro rfl
      rw [hi, Option.some.injEq] at hj
      exact absurd hlt (by rw [hj]; exact lt_irrefl _)
    exact ⟨r, i, hi, r', j, hj, if_pos ⟨hne, hlt⟩⟩

/-- The graph of `_compute_counterfactuals_blocking` (neurosymbolic/engine.py:591). -/
def taskGraph (ids : NodeIds) (requirements : List Requirement) (constraints : List String) :
    Except PyExc CausalGraph :=
  buildGraph ids requirements constraints (dependenciesOf requirements)

/-- The nodes of the labels are nodes, and an edge goes from the node of a requirement to the node
of one of a lower priority. -/
theorem taskGraph_ok (ids : NodeIds) (requirements : List Requirement) (constraints : List String) :
    ∃ g, taskGraph ids requirements constraints = .ok g ∧ g.nodeIds.Nodup ∧
      (∀ label id, lastDraw ids 0 requirements label = some id → id ∈ g.nodeIds) ∧
      ∀ a b, g.hasEdge a b = true ↔ ∃ r ∈ requirements, ∃ r' ∈ requirements,
        r'.priority < r.priority ∧ lastDraw ids 0 requirements r.label = some a ∧
          lastDraw ids 0 requirements r'.label = some b := by
  obtain ⟨g, hg, hnodup, hnode, hedge⟩ :=
    fromRequirements_ok ids requirements (dependenciesOf requirements)
  obtain ⟨hnodup', hmem, hedges⟩ := addConstraints_nodes ids requirements.length constraints hnodup
  refine ⟨addConstraints ids requirements.length constraints g, ?_, hnodup',
    fun label id hid => hmem id (hnode label id hid), fun a b => ?_⟩
  · rw [taskGraph, buildGraph, hg]
    rfl
  · have hsame := hedge a b
    rw [CausalGraph.hasEdge] at hsame ⊢
    rw [hedges, hsame]
    constructor
    · rintro ⟨dep, hdep, ha, hb⟩
      obtain ⟨r, hr, r', hr', hlt, rfl⟩ := mem_dependenciesOf.mp hdep
      exact ⟨r, hr, r', hr', hlt, ha, hb⟩
    · rintro ⟨r, hr, r', hr', hlt, ha, hb⟩
      exact ⟨_, mem_dependenciesOf.mpr ⟨r, hr, r', hr', hlt, rfl⟩, ha, hb⟩

/-- Requirements that share a node have one priority. -/
def SharedAlike (ids : NodeIds) (requirements : List Requirement) : Prop :=
  ∀ r ∈ requirements, ∀ r' ∈ requirements,
    lastDraw ids 0 requirements r.label = lastDraw ids 0 requirements r'.label →
      r.priority = r'.priority

/-- With distinct draws, requirements share a node when they have one label. -/
theorem sharedAlike_iff_label {ids : NodeIds} (hdistinct : Function.Injective ids.draw)
    {requirements : List Requirement} :
    SharedAlike ids requirements ↔ ∀ r ∈ requirements, ∀ r' ∈ requirements,
      r.label = r'.label → r.priority = r'.priority := by
  constructor
  · exact fun h r hr r' hr' hlabel => h r hr r' hr' (hlabel ▸ rfl)
  · intro h r hr r' hr' hshared
    obtain ⟨id, hid⟩ := lastDraw_isSome ids (n := 0) hr
    obtain ⟨i, r₁, hi, hlabel, hdraw⟩ := exists_of_lastDraw hid
    obtain ⟨j, r₂, hj, hlabel', hdraw'⟩ := exists_of_lastDraw (hshared ▸ hid)
    have hij : 0 + i = 0 + j := hdistinct (hdraw.symm.trans hdraw')
    obtain rfl : i = j := by omega
    cases hi.symm.trans hj
    exact h r hr r' hr' (hlabel.symm.trans hlabel')

/-- How far the requirements of a node are from the highest priority. -/
def rankOf (ids : NodeIds) (requirements : List Requirement) (id : String) : Nat :=
  match requirements.find? fun r => lastDraw ids 0 requirements r.label == some id with
  | some r => (10 - r.priority).toNat
  | none => 0

theorem rankOf_eq {ids : NodeIds} {requirements : List Requirement}
    (h : SharedAlike ids requirements) {r : Requirement} (hr : r ∈ requirements) {id : String}
    (hid : lastDraw ids 0 requirements r.label = some id) :
    rankOf ids requirements id = (10 - r.priority).toNat := by
  rw [rankOf]
  split
  · next r₀ hfound =>
    have hnode : lastDraw ids 0 requirements r₀.label = some id := by
      simpa using List.find?_some hfound
    rw [h r₀ (List.mem_of_find?_eq_some hfound) r hr (hnode.trans hid.symm)]
  · next hnone => exact absurd hid (by simpa using List.find?_eq_none.mp hnone r hr)

/-- The graph of a task is a DAG, and its analysis returns, exactly when requirements that share a
node have one priority. Nothing is asked of the categories, the descriptions or the number of the
requirements. -/
theorem taskGraph_dag_iff (ids : NodeIds) (requirements : List Requirement)
    (constraints : List String) :
    (∃ g, taskGraph ids requirements constraints = .ok g ∧ g.validateDag = true ∧
      ∀ engine : CausalEngine, ∃ estimates, engine.analyzeAllCounterfactuals g = .ok estimates) ↔
      SharedAlike ids requirements := by
  obtain ⟨g, hg, hnodup, hnode, hedge⟩ := taskGraph_ok ids requirements constraints
  constructor
  · rintro ⟨g', hg', hdag, -⟩ r hr r' hr' hshared
    cases hg.symm.trans hg'
    obtain ⟨id, hid⟩ := lastDraw_isSome ids (n := 0) hr
    -- the node of the two would have an edge to itself
    have hacyclic := g.acyclic_of_validateDag hnodup hdag (hnode _ _ hid)
    by_contra hne
    rcases lt_or_gt_of_ne hne with hlt | hlt
    · exact hacyclic (.single ((hedge id id).mpr ⟨r', hr', r, hr, hlt, hshared ▸ hid, hid⟩))
    · exact hacyclic (.single ((hedge id id).mpr ⟨r, hr, r', hr', hlt, hid, hshared ▸ hid⟩))
  · intro h
    have hdag : g.validateDag = true := by
      refine g.validateDag_of_rank (rankOf ids requirements) fun a b hab => ?_
      obtain ⟨r, hr, r', hr', hlt, ha, hb⟩ := (hedge a b).mp hab
      refine ⟨hnode _ _ ha, ?_⟩
      rw [rankOf_eq h hr ha, rankOf_eq h hr' hb]
      have := r.bounded
      omega
    exact ⟨g, hg, hdag, fun engine => engine.analyzeAllCounterfactuals_ok hdag⟩

/-- Draws that are distinct. -/
def countedIds : NodeIds where
  draw n := String.ofList (List.replicate (n + 1) 'n')
  nonempty n := by simp

/-- Two requirements whose descriptions begin with the same 20 characters. -/
def responseTimes : List Requirement :=
  [⟨"performance", "Response time must be below 100 ms", 9, by decide⟩,
    ⟨"performance", "Response time must be logged", 3, by decide⟩]

theorem responseTimes_cyclic :
    (taskGraph countedIds responseTimes []).toOption.map CausalGraph.validateDag = some false ∧
      ((taskGraph countedIds responseTimes []).bind
          (CausalEngine.analyzeAllCounterfactuals {})) =
        .error (.valueError "Causal graph must be a DAG for causal analysis") := by
  decide +kernel

/-- `_compute_counterfactuals_blocking` (neurosymbolic/engine.py:591). -/
def computeCounterfactuals (ids : NodeIds) (causal : Option CausalEngine)
    (requirements : List Requirement) (constraints : List String) : Except PyExc (List Estimate) :=
  match causal with
  | none => .ok []
  | some engine => do
    let g ← taskGraph ids requirements constraints
    engine.analyzeAllCounterfactuals g

/-- `_run_causal_analysis` (neurosymbolic/engine.py:554). -/
def runCausalAnalysis (ids : NodeIds) (causal : Option CausalEngine) (task : TaskInput F) :
    Except PyExc (List Estimate) :=
  if causal.isNone then .ok []
  else
    let requirements := task.requirements.map normalizeRequirement
    let constraints := constraintNames task.constraints
    if requirements = [] ∧ constraints = [] then .ok []
    else computeCounterfactuals ids causal requirements constraints

end Task

end Noema.Causal
