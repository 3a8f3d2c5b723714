import Noema.Causal.Graph
import Noema.Lib.System

/-!
# Queries on a causal graph (`causal/graph.py`)

`estimate_ate` only reads the graph. `estimate_counterfactual` writes its evidence into the values
of the nodes before it estimates, and the evidence stays there, also when the estimate raises. The
next query starts from it.

- `applyEvidence`: the loop over the evidence. Only nodes that have a value get a new one; a name
  that is no node is skipped.
- `applyEvidence_eq_iff`: it leaves the graph as it is if and only if it agrees with what the nodes
  have.
- `ask_snd_eq_iff`: the queries that leave the graph as it is.
- **`undisturbed_iff`**: in a sequence of queries, each leaves the graph as it was and is answered
  as if it were the first, if and only if what each takes as observed is what the nodes have. Both
  sides are about every position of the sequence; one step is `ask_snd_eq_iff`, and the induction
  needs nothing else.
- `evidence_stays`: the effect of a treatment before and after a counterfactual.
-/

namespace Noema.Causal

open Noema.Lib PyJson

/-- A dict of observed values. -/
structure Evidence where
  items : List (String × ℚ)
  nodup : (items.map Prod.fst).Nodup

namespace CausalGraph

/-- The loop over the evidence: only nodes that have a value get a new one. -/
def applyEvidence (g : CausalGraph) : List (String × ℚ) → CausalGraph
  | [] => g
  | (k, v) :: items =>
    if (g.nodeValues.lookup k).isSome then
      applyEvidence { g with nodeValues := dictInsert k v g.nodeValues } items
    else applyEvidence g items

/-- `estimate_counterfactual` (graph.py:237): the answer, and the graph after it. -/
def estimateCounterfactual (g : CausalGraph) (treatment outcome : String) (interventionValue : ℚ)
    (evidence : Option Evidence) : Except PyExc InterventionResult × CausalGraph :=
  let g :=
    match evidence with
    | some evidence => g.applyEvidence evidence.items
    | none => g
  (g.estimateAte treatment outcome interventionValue, g)

end CausalGraph

/-- A query on a graph. -/
inductive Query where
  | ate (treatment outcome : String) (interventionValue : ℚ)
  | counterfactual (treatment outcome : String) (interventionValue : ℚ)
      (evidence : Option Evidence)

/-- The answer to a query, and the graph after it. -/
def Query.ask (g : CausalGraph) : Query → Except PyExc InterventionResult × CausalGraph
  | .ate treatment outcome value => (g.estimateAte treatment outcome value, g)
  | .counterfactual treatment outcome value evidence =>
    g.estimateCounterfactual treatment outcome value evidence

/-- A graph under queries. -/
def querySystem (g : CausalGraph) : System CausalGraph Query where
  init := g
  step s query := some (query.ask s).2

/-- Every query leaves the graph as it was, and is answered as if it were the first. -/
def Undisturbed (g : CausalGraph) (steps : List (CausalGraph × Query)) : Prop :=
  ∀ p ∈ steps, p.2.ask p.1 = ((p.2.ask g).1, p.1)

/-- What a query takes as observed is what the nodes have. -/
def Agrees (g : CausalGraph) : Query → Prop
  | .counterfactual _ _ _ (some evidence) =>
    ∀ item ∈ evidence.items, ∀ value ∈ g.nodeValues.lookup item.1, item.2 = value
  | _ => True

/-! ## What evidence changes -/

theorem dictInsert_eq_self {α : Type} {k : String} {v : α} {d : List (String × α)}
    (h : d.lookup k = some v) : dictInsert k v d = d := by
  induction d with
  | nil => cases h
  | cons p d ih =>
    obtain ⟨k', v'⟩ := p
    rw [dictInsert]
    by_cases hk : k' = k
    · subst hk
      rw [List.lookup_cons_self] at h
      rw [if_pos rfl, Option.some.inj h]
    · rw [List.lookup_cons, beq_false_of_ne (Ne.symm hk)] at h
      rw [if_neg hk, ih h]

variable {g : CausalGraph}

/-- The values of the nodes after evidence. -/
theorem lookup_applyEvidence {items : List (String × ℚ)} (hnodup : (items.map Prod.fst).Nodup)
    (k : String) : (g.applyEvidence items).nodeValues.lookup k =
      (g.nodeValues.lookup k).map fun value => (items.lookup k).getD value := by
  induction items generalizing g with
  | nil => simp [CausalGraph.applyEvidence]
  | cons item items ih =>
    obtain ⟨k', v⟩ := item
    obtain ⟨hnew, hitems⟩ := List.nodup_cons.mp hnodup
    have hnone : items.lookup k' = none := by
      rw [List.lookup_eq_none_iff]
      rintro p hp
      rw [bne_iff_ne]
      rintro rfl
      exact hnew (List.mem_map.mpr ⟨p, hp, rfl⟩)
    rw [CausalGraph.applyEvidence]
    -- The first item is about this node, and no later one is; or it is about another one.
    by_cases hk : k = k'
    · subst hk
      rw [List.lookup_cons_self]
      split
      · next hsome =>
        obtain ⟨value, hvalue⟩ := Option.isSome_iff_exists.mp hsome
        rw [ih hitems, lookup_dictInsert, if_pos rfl, hvalue, hnone]
        rfl
      · next hmissing =>
        rw [ih hitems, Option.not_isSome_iff_eq_none.mp hmissing]
        rfl
    · rw [List.lookup_cons, beq_false_of_ne hk]
      split
      · rw [ih hitems, lookup_dictInsert, if_neg hk]
      · exact ih hitems

/-- Evidence leaves the graph as it is if and only if it agrees with it. -/
theorem applyEvidence_eq_iff {items : List (String × ℚ)} (hnodup : (items.map Prod.fst).Nodup) :
    g.applyEvidence items = g ↔
      ∀ item ∈ items, ∀ value ∈ g.nodeValues.lookup item.1, item.2 = value := by
  constructor
  · intro heq item hitem value hvalue
    have hlookup := lookup_applyEvidence (g := g) hnodup item.1
    rw [heq, Option.mem_def.mp hvalue, lookup_of_mem_nodup hnodup hitem] at hlookup
    exact (Option.some.inj hlookup).symm
  · intro hagree
    clear hnodup
    induction items with
    | nil => rfl
    | cons item items ih =>
      obtain ⟨hitem, hitems⟩ := List.forall_mem_cons.mp hagree
      rw [CausalGraph.applyEvidence]
      split
      · next hsome =>
        obtain ⟨value, hvalue⟩ := Option.isSome_iff_exists.mp hsome
        have hsame : g.nodeValues.lookup item.1 = some item.2 := by rw [hvalue, hitem value hvalue]
        rw [dictInsert_eq_self hsame]
        exact ih hitems
      · exact ih hitems

/-- A query leaves the graph as it is if and only if its evidence agrees with it. -/
theorem ask_snd_eq_iff (query : Query) : (query.ask g).2 = g ↔ Agrees g query := by
  cases query with
  | ate treatment outcome value => exact iff_of_true rfl trivial
  | counterfactual treatment outcome value evidence =>
    cases evidence with
    | none => exact iff_of_true rfl trivial
    | some evidence => exact applyEvidence_eq_iff evidence.nodup

/-! ## Sequences of queries -/

/-- **Queries and the graph.** In every sequence of queries, each leaves the graph as it was and has
the answer that it would have had as the first, if and only if whatever is taken as observed agrees
with the graph at the time of the query. -/
theorem undisturbed_iff {steps : List (CausalGraph × Query)} {s : CausalGraph}
    (run : (querySystem g).Run steps s) : Undisturbed g steps ↔ System.Meets Agrees steps := by
  constructor
  · intro hundisturbed p hp
    exact (ask_snd_eq_iff p.2).mp (congrArg Prod.snd (hundisturbed p hp))
  · intro hmeets
    have hsame : System.Always (· = g) steps s := by
      refine run.always_of_meets (P := (· = g)) rfl ?_ hmeets
      rintro s query s' rfl hagrees hstep
      rw [← Option.some.inj hstep]
      exact (ask_snd_eq_iff query).mpr hagrees
    intro p hp
    have hbefore : p.1 = g := hsame.2 p hp
    have hafter := (ask_snd_eq_iff p.2).mpr (hmeets p hp)
    rw [hbefore] at hafter ⊢
    exact Prod.ext rfl hafter

/-- A treatment and its outcome. -/
def treatedGraph : CausalGraph where
  nodes := [("t", { id := "t" }), ("o", { id := "o" })]
  nodeValues := [("t", 0), ("o", 5)]
  edges := [⟨"t", "o", 1⟩]

/-- Evidence that says what the graph has, and names a node that it does not have. -/
theorem undisturbed_treated : ∃ steps s, (querySystem treatedGraph).Run steps s ∧
    steps.length = 2 ∧ Undisturbed treatedGraph steps := by
  let evidence : Evidence := ⟨[("o", 5), ("x", 1)], by decide⟩
  have run := System.Run.next (e := .ate "t" "o" 2)
    (System.Run.next (e := .counterfactual "t" "o" 2 (some evidence))
      (System.Run.start (S := querySystem treatedGraph)) rfl) rfl
  refine ⟨_, _, run, rfl, (undisturbed_iff run).mpr ?_⟩
  refine List.forall_mem_cons.mpr ⟨trivial, List.forall_mem_singleton.mpr ?_⟩
  refine List.forall_mem_cons.mpr ⟨?_, List.forall_mem_singleton.mpr ?_⟩
  · intro value hvalue
    exact Option.some.inj hvalue
  · intro value hvalue
    cases hvalue

/-- After a counterfactual with another outcome, the effect of the treatment is another one. -/
theorem evidence_stays : ∃ steps s, (querySystem treatedGraph).Run steps s ∧
    s.nodeValues = [("t", 0), ("o", 9)] ∧
    ((Query.ate "t" "o" 2).ask s).1 ≠ ((Query.ate "t" "o" 2).ask treatedGraph).1 ∧
    ¬ Undisturbed treatedGraph steps := by
  let evidence : Evidence := ⟨[("o", 9)], by decide⟩
  have run := System.Run.next (e := .counterfactual "t" "o" 2 (some evidence))
    (System.Run.start (S := querySystem treatedGraph)) rfl
  refine ⟨_, _, run, rfl, by decide +kernel, fun h => ?_⟩
  have hvalues := congrArg (fun answer => answer.2.nodeValues) (h _ List.mem_cons_self)
  revert hvalues
  decide +kernel

end Noema.Causal
