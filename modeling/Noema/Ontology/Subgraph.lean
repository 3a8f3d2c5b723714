import Noema.Lib.TextFile
import Noema.Ontology.Persistence

/-!
# Subgraphs (`OntologyGraph.get_subgraph`)

`get_subgraph` copies the entities into the new graph directly, and the relations by `add_relation`,
which could refuse them. It never does: when a relation of a reached node is added, both its ends
were copied in the same round, and the caps are those of the source.

- `Near`, `Linked`: distance, where relations lead in both directions.
- `Settled`: the relations are such that `add_relation` would take them again; all graphs that calls
  make are so (`graphs_settled`).
- `Copied`: the subgraph has the entities and relations of the source with two properties, one of
  names and one of relations. Each loop of the source has a lemma that says how it changes the two.
- `Copied.expandRounds`: a round takes the neighbours, and the relations of the nodes; the induction
  on the rounds adds one step to the distance.
- **`graphs_getSubgraph`**: the subgraph has the entities within `d` steps of a root, and the
  relations with an end within `d - 1` steps, each once. The call does not raise, and it leaves all
  graphs as they were.
-/

namespace Noema.Ontology

open Noema.Lib PyJson

/-! ## Distance -/

section Distance

variable {V : Type}

/-- A walk of `n` steps. -/
def Hops (r : V → V → Prop) : ℕ → V → V → Prop
  | 0, u, v => u = v
  | n + 1, u, v => ∃ w, r u w ∧ Hops r n w v

/-- At most `n` steps away from one of the starts. -/
def Near (r : V → V → Prop) (starts : V → Prop) (n : ℕ) (v : V) : Prop :=
  ∃ k ≤ n, ∃ s, starts s ∧ Hops r k s v

variable {r : V → V → Prop} {starts : V → Prop}

theorem near_zero {v : V} : Near r starts 0 v ↔ starts v := by
  constructor
  · rintro ⟨k, hk, s, hs, hops⟩
    obtain rfl := Nat.le_zero.mp hk
    obtain rfl : s = v := hops
    exact hs
  · exact fun h => ⟨0, le_rfl, v, h, rfl⟩

/-- The first of the steps may be taken by the starts. -/
theorem near_succ {n : ℕ} {v : V} :
    Near r starts (n + 1) v ↔ Near r (fun w => starts w ∨ ∃ s, starts s ∧ r s w) n v := by
  constructor
  · rintro ⟨k, hk, s, hs, hops⟩
    cases k with
    | zero => exact ⟨0, Nat.zero_le n, s, .inl hs, hops⟩
    | succ k =>
      obtain ⟨w, hw, hops⟩ := hops
      exact ⟨k, Nat.le_of_succ_le_succ hk, w, .inr ⟨s, hs, hw⟩, hops⟩
  · rintro ⟨k, hk, w, hw | ⟨s, hs, hw⟩, hops⟩
    · exact ⟨k, Nat.le_succ_of_le hk, w, hw, hops⟩
    · exact ⟨k + 1, Nat.succ_le_succ hk, s, hs, w, hw, hops⟩

theorem Near.mono {m n : ℕ} {v : V} (hle : m ≤ n) (h : Near r starts m v) : Near r starts n v := by
  obtain ⟨k, hk, hwalk⟩ := h
  exact ⟨k, hk.trans hle, hwalk⟩

end Distance

variable {F : Type}

/-- An end of the relation is in the set. -/
def Relation.Touches (r : Relation F) (nodes : String → Prop) : Prop :=
  nodes r.subject ∨ nodes r.object

namespace OntologyGraph

variable (g : OntologyGraph F)

/-- The number of rounds, `max(1, min(depth, max_depth))`. -/
def hops (depth maxDepth : Int) : ℕ := (max 1 (min depth maxDepth)).toNat

/-- A relation joins `v` and `w`, in either direction. -/
def Linked (v w : String) : Prop :=
  ∃ r ∈ g.relations, r.subject = v ∧ r.object = w ∨ r.object = v ∧ r.subject = w

variable [PyInterp F]

/-- The relations are such that `add_relation` would take them again. -/
structure Settled : Prop where
  rep : g.Rep
  predicates : ∀ r ∈ g.relations, stripText r.predicate = r.predicate ∧ r.predicate ≠ ""
  weights : ∀ r ∈ g.relations, ∃ weight, r.weight = .float weight

/-- The subgraph has the entities of the source whose names have a property, and the relations
that have another. -/
structure Copied (sub : OntologyGraph F) (nodes : String → Prop) (edges : Relation F → Prop) :
    Prop where
  within : g.Within sub
  lookup_eq : ∀ name entity, sub.entities.lookup name = some entity ↔
    g.entities.lookup name = some entity ∧ nodes name
  mem_relations : ∀ r, r ∈ sub.relations ↔ r ∈ g.relations ∧ edges r

/-- `v` is an entity that a root names. -/
def Root (roots : List String) (v : String) : Prop :=
  v ∈ g.names ∧ ∃ name ∈ roots, cleanName F name = .ok v

variable {g}

omit [PyInterp F] in
theorem mem_names_iff_lookup {name : String} :
    name ∈ g.names ↔ ∃ entity, g.entities.lookup name = some entity := by
  constructor
  · intro h
    rcases hlookup : g.entities.lookup name with _ | entity
    · exact absurd h (not_mem_keys_of_lookup hlookup)
    · exact ⟨entity, rfl⟩
  · rintro ⟨entity, h⟩
    obtain ⟨before, after, heq, -⟩ := List.lookup_eq_some_iff.mp h
    exact List.mem_map.mpr ⟨(name, entity), heq ▸ by simp, rfl⟩

omit [PyInterp F] in
theorem mem_setAdd {v name : String} {names : List String} :
    v ∈ setAdd name names ↔ v ∈ names ∨ v = name := by
  rw [setAdd]
  split
  next h => exact ⟨.inl, fun hv => hv.elim id fun heq => heq ▸ h⟩
  next => rw [List.mem_append, List.mem_singleton]

omit [PyInterp F] in
theorem mem_foldl_setAdd {v : String} {found names : List String} :
    v ∈ found.foldl (fun s name => setAdd name s) names ↔ v ∈ names ∨ v ∈ found := by
  induction found generalizing names with
  | nil => simp
  | cons name found ih => rw [List.foldl_cons, ih, mem_setAdd, List.mem_cons, or_assoc]

variable (g) in
/-- `v` is the end that is asked for of one of the relations. -/
def EndOf (endpoint : Relation F → String) (indices : List Nat) (v : String) : Prop :=
  ∃ i ∈ indices, ∃ r, g.relations[i]? = some r ∧ endpoint r = v

omit [PyInterp F] in
theorem endOf_iff {endpoint other : Relation F → String} {indices : List Nat} {v w : String}
    (h : ListsIndices g.relations other v indices) :
    g.EndOf endpoint indices w ↔ ∃ r ∈ g.relations, other r = v ∧ endpoint r = w := by
  constructor
  · rintro ⟨i, hi, r, hr, hw⟩
    obtain ⟨r', hr', hv⟩ := (h.2 i).mp hi
    cases hr.symm.trans hr'
    exact ⟨r, List.mem_of_getElem? hr, hv, hw⟩
  · rintro ⟨r, hr, hv, hw⟩
    obtain ⟨i, hi⟩ := List.mem_iff_getElem?.mp hr
    exact ⟨i, (h.2 i).mpr ⟨r, hi, hv⟩, r, hi, hw⟩

theorem Rep.linked_iff (hg : g.Rep) {v w : String} :
    g.Linked v w ↔ g.EndOf Relation.object (g.subjectIndices v) w ∨
      g.EndOf Relation.subject (g.objectIndices v) w := by
  rw [endOf_iff (hg.subject_indices v), endOf_iff (hg.object_indices v), Linked]
  simp only [and_or_left, exists_or]

omit [PyInterp F] in
theorem exists_of_mem_indices {endpoint : Relation F → String} {indices : List Nat} {v : String}
    (h : ListsIndices g.relations endpoint v indices) :
    ∀ i ∈ indices, ∃ r, g.relations[i]? = some r := by
  intro i hi
  obtain ⟨r, hr, -⟩ := (h.2 i).mp hi
  exact ⟨r, hr⟩

/-- The relations of a node are those with an end there. -/
theorem Rep.exists_index (hg : g.Rep) {u : String} {r : Relation F} :
    (∃ i ∈ g.subjectIndices u ++ g.objectIndices u, g.relations[i]? = some r) ↔
      r ∈ g.relations ∧ (r.subject = u ∨ r.object = u) := by
  have hmem := fun i => (hg.subject_indices u).2 i
  have hmem' := fun i => (hg.object_indices u).2 i
  constructor
  · rintro ⟨i, hi, hr⟩
    refine ⟨List.mem_of_getElem? hr, ?_⟩
    rcases List.mem_append.mp hi with hi | hi
    · obtain ⟨r', hr', hv⟩ := (hmem i).mp hi
      cases hr.symm.trans hr'
      exact .inl hv
    · obtain ⟨r', hr', hv⟩ := (hmem' i).mp hi
      cases hr.symm.trans hr'
      exact .inr hv
  · rintro ⟨hr, hends⟩
    obtain ⟨i, hi⟩ := List.mem_iff_getElem?.mp hr
    refine ⟨i, List.mem_append.mpr ?_, hi⟩
    exact hends.imp (fun hv => (hmem i).mpr ⟨r, hi, hv⟩) fun hv => (hmem' i).mpr ⟨r, hi, hv⟩

theorem Rep.getElem?_index (hg : g.Rep) {u : String} {i : Nat}
    (hi : i ∈ g.subjectIndices u ++ g.objectIndices u) : ∃ r, g.relations[i]? = some r := by
  rcases List.mem_append.mp hi with hi | hi
  · exact exists_of_mem_indices (hg.subject_indices u) i hi
  · exact exists_of_mem_indices (hg.object_indices u) i hi

theorem Rep.cleanName_name (hg : g.Rep) {name : String} (h : name ∈ g.names) :
    cleanName F name = .ok name := by
  obtain ⟨p, hp, rfl⟩ := List.mem_map.mp h
  exact (hg.entity_name p hp).2

/-- A relation whose triple is known changes nothing. -/
theorem addRelation_known {sub : OntologyGraph F} (hsub : sub.Rep) {r : Relation F}
    (hs : r.subject ∈ sub.names) (ho : r.object ∈ sub.names)
    (hpredicate : stripText r.predicate = r.predicate) (hne : r.predicate ≠ "")
    (hknown : r.triple ∈ sub.relations.map Relation.triple) :
    OntologyGraph.addRelation r sub = (.ok (), sub) := by
  rw [OntologyGraph.addRelation, hsub.cleanName_name hs, hsub.cleanName_name ho,
    PyM.bind_ok (PyM.lift_apply _ _), PyM.bind_ok (PyM.lift_apply _ _),
    PyM.bind_ok (PyM.get_apply sub), if_neg (not_not.mpr hs), if_neg (not_not.mpr ho), hpredicate]
  rw [if_neg hne, PyM.bind_ok (by rw [PyM.lift_apply, hsub.hasTriple_eq]),
    if_pos (by simpa [Relation.triple] using hknown)]
  rfl

/-- Relations of a graph with one triple are one relation. -/
theorem Rep.eq_of_triple_eq (hg : g.Rep) {r r' : Relation F} (hr : r ∈ g.relations)
    (hr' : r' ∈ g.relations) (h : r.triple = r'.triple) : r = r' :=
  List.inj_on_of_nodup_map hg.triples_nodup hr hr' h

namespace Copied

variable {sub : OntologyGraph F} {nodes nodes' : String → Prop} {edges edges' : Relation F → Prop}

theorem congr (h : g.Copied sub nodes edges) (hnodes : ∀ v, nodes v ↔ nodes' v)
    (hedges : ∀ r ∈ g.relations, edges r ↔ edges' r) : g.Copied sub nodes' edges' where
  within := h.within
  lookup_eq name entity := by rw [h.lookup_eq, hnodes]
  mem_relations r := by rw [h.mem_relations, and_congr_right (hedges r)]

theorem mem_names (h : g.Copied sub nodes edges) {name : String} (hg : name ∈ g.names)
    (hname : nodes name) : name ∈ sub.names := by
  obtain ⟨entity, hentity⟩ := mem_names_iff_lookup.mp hg
  exact mem_names_iff_lookup.mpr ⟨entity, (h.lookup_eq name entity).mpr ⟨hentity, hname⟩⟩

theorem new : g.Copied { maxEntities := g.maxEntities, maxRelations := g.maxRelations }
    (fun _ => False) fun _ => False where
  within := ⟨rep_new _ _, fun _ hp => absurd hp List.not_mem_nil, rfl, rfl⟩
  lookup_eq name entity := by simp
  mem_relations r := by simp

theorem setEntity (h : g.Copied sub nodes edges) (hg : g.Rep) {entity : Entity}
    (hmem : (entity.name, entity) ∈ g.entities) :
    g.Copied (sub.setEntity entity.name entity) (fun v => nodes v ∨ v = entity.name) edges where
  within := h.within.setEntity hg hmem
  lookup_eq name entity' := by
    rw [OntologyGraph.setEntity, lookup_dictInsert]
    split
    next hname =>
      subst hname
      simp [lookup_of_mem_nodup hg.names_nodup hmem]
    next hname => rw [h.lookup_eq, or_iff_left hname]
  mem_relations := h.mem_relations

/-- A relation of the source, both of whose ends were copied, is never refused. -/
theorem addRelation (h : g.Copied sub nodes edges) (hg : g.Settled) {r : Relation F}
    (hr : r ∈ g.relations) (hends : nodes r.subject ∧ nodes r.object) :
    ∃ sub', OntologyGraph.addRelation r sub = (.ok (), sub') ∧
      g.Copied sub' nodes fun r' => edges r' ∨ r' = r := by
  have hs := h.mem_names (hg.rep.subject_mem r hr) hends.1
  have ho := h.mem_names (hg.rep.object_mem r hr) hends.2
  obtain ⟨hpredicate, hne⟩ := hg.predicates r hr
  have hsub : ∀ r' ∈ sub.relations, r' ∈ g.relations := fun r' hr' =>
    ((h.mem_relations r').mp hr').1
  by_cases hknown : r.triple ∈ sub.relations.map Relation.triple
  -- a relation that was copied in an earlier round is found, and nothing changes
  · refine ⟨sub, addRelation_known h.within.rep hs ho hpredicate hne hknown,
      h.congr (fun _ => Iff.rfl) fun r' _ => ?_⟩
    obtain ⟨r₀, hr₀, htriple⟩ := List.mem_map.mp hknown
    obtain rfl := hg.rep.eq_of_triple_eq (hsub r₀ hr₀) hr htriple
    exact ⟨.inl, fun h' => h'.elim id fun heq => heq ▸ ((h.mem_relations r₀).mp hr₀).2⟩
  · -- the relations of the subgraph and the new one are different relations of the source
    have hcap : (sub.relations.length : Int) < sub.maxRelations := by
      have hnodup : (r :: sub.relations).Nodup := List.nodup_cons.mpr
        ⟨fun hmem => hknown (List.mem_map_of_mem hmem), h.within.rep.triples_nodup.of_map _⟩
      have hle := (List.subperm_of_subset hnodup (List.cons_subset.mpr ⟨hr, hsub⟩)).length_le
      rw [List.length_cons] at hle
      have hcap := hg.rep.relations_le
      rw [← h.within.maxRelations_eq] at hcap
      omega
    obtain ⟨weight, hweight⟩ := hg.weights r hr
    refine ⟨_, addRelation_ok h.within.rep (h.within.rep.cleanName_name hs)
      (h.within.rep.cleanName_name ho) hs ho hpredicate hne hknown hcap hweight, ?_, ?_, ?_⟩
    · exact ⟨h.within.rep.appendRelation hs ho hknown hcap, h.within.subset,
        h.within.maxEntities_eq, h.within.maxRelations_eq⟩
    · exact h.lookup_eq
    · intro r'
      rw [OntologyGraph.appendRelation, List.mem_append, List.mem_singleton, h.mem_relations]
      constructor
      · rintro (⟨hmem, hedge⟩ | rfl)
        · exact ⟨hmem, .inl hedge⟩
        · exact ⟨hr, .inr rfl⟩
      · rintro ⟨hmem, hedge | rfl⟩
        · exact .inl ⟨hmem, hedge⟩
        · exact .inr rfl

theorem copyTarget (h : g.Copied sub nodes edges) (hg : g.Rep) {name : String}
    (hname : name ∈ g.names) {reached : List String} (hreached : ∀ v ∈ reached, nodes v) :
    ∃ sub', g.copyTarget reached name sub = (.ok (), sub') ∧
      g.Copied sub' (fun v => nodes v ∨ v = name) edges := by
  obtain ⟨target, htarget⟩ := mem_names_iff_lookup.mp hname
  have hmem := hg.mem_of_lookup htarget
  obtain ⟨before, after, heq, -⟩ := List.lookup_eq_some_iff.mp htarget
  have hkey : target.name = name := (hg.entity_name (name, target) (heq ▸ by simp)).1
  rw [OntologyGraph.copyTarget, htarget]
  dsimp only
  split
  · exact ⟨_, rfl, hkey ▸ h.setEntity hg hmem⟩
  next hin =>
    refine ⟨sub, rfl, h.congr (fun v => ⟨.inl, ?_⟩) fun _ _ => Iff.rfl⟩
    rintro (hv | rfl)
    · exact hv
    · exact hreached v (hkey ▸ not_not.mp hin)

/-- The loop over the relations of a node at one of their ends. -/
theorem followRelations (h : g.Copied sub nodes edges) (hg : g.Rep)
    {endpoint : Relation F → String} (hend : ∀ r ∈ g.relations, endpoint r ∈ g.names)
    {reached : List String} (hreached : ∀ v ∈ reached, nodes v) {indices : List Nat}
    (hindices : ∀ i ∈ indices, ∃ r, g.relations[i]? = some r) (found : List String) :
    ∃ found' sub', indices.foldlM (g.followRelation reached endpoint) found sub =
        (.ok found', sub') ∧
      (∀ v, v ∈ found' ↔ v ∈ found ∨ g.EndOf endpoint indices v) ∧
      g.Copied sub' (fun v => nodes v ∨ g.EndOf endpoint indices v) edges := by
  induction indices generalizing found sub nodes with
  | nil => exact ⟨found, sub, rfl, by simp [EndOf], h.congr (by simp [EndOf]) fun _ _ => Iff.rfl⟩
  | cons i indices ih =>
    obtain ⟨⟨r, hr⟩, hindices⟩ := List.forall_mem_cons.mp hindices
    obtain ⟨sub₁, hcopy, h₁⟩ := h.copyTarget hg (hend r (List.mem_of_getElem? hr)) hreached
    have hstep : g.followRelation reached endpoint found i sub =
        (.ok (setAdd (endpoint r) found), sub₁) := by
      rw [followRelation, pyIndex_eq_ok hr, PyM.bind_ok (PyM.lift_apply _ _), PyM.bind_ok hcopy]
      rfl
    -- the entity at the end of the first relation is copied, and the others follow
    obtain ⟨found', sub', hrest, hfound, h'⟩ := ih h₁ (fun v hv => .inl (hreached v hv)) hindices
      (setAdd (endpoint r) found)
    have hcons : ∀ v, g.EndOf endpoint (i :: indices) v ↔
        v = endpoint r ∨ g.EndOf endpoint indices v := by
      simp [EndOf, hr, eq_comm]
    refine ⟨found', sub', ?_, fun v => ?_, h'.congr (fun v => ?_) fun _ _ => Iff.rfl⟩
    · rw [List.foldlM_cons, PyM.bind_ok hstep, hrest]
    · rw [hfound, mem_setAdd, hcons, or_assoc]
    · rw [hcons, or_assoc]

/-- The first loop of a round: the neighbours of the nodes are found and copied. -/
theorem followNodes (h : g.Copied sub nodes edges) (hg : g.Rep) {reached : List String}
    (hreached : ∀ v ∈ reached, nodes v) (todo found : List String) :
    ∃ found' sub', todo.foldlM (g.followNode reached) found sub = (.ok found', sub') ∧
      (∀ v, v ∈ found' ↔ v ∈ found ∨ ∃ u ∈ todo, g.Linked u v) ∧
      g.Copied sub' (fun v => nodes v ∨ ∃ u ∈ todo, g.Linked u v) edges := by
  induction todo generalizing found sub nodes with
  | nil => exact ⟨found, sub, rfl, by simp, h.congr (by simp) fun _ _ => Iff.rfl⟩
  | cons u todo ih =>
    obtain ⟨found₁, sub₁, hobjects, hfound₁, h₁⟩ := h.followRelations hg hg.object_mem hreached
      (exists_of_mem_indices (hg.subject_indices u)) found
    obtain ⟨found₂, sub₂, hsubjects, hfound₂, h₂⟩ := h₁.followRelations hg hg.subject_mem
      (fun v hv => .inl (hreached v hv)) (exists_of_mem_indices (hg.object_indices u)) found₁
    have hstep : g.followNode reached found u sub = (.ok found₂, sub₂) := by
      rw [followNode, PyM.bind_ok hobjects, hsubjects]
    obtain ⟨found', sub', hrest, hfound', h'⟩ := ih h₂
      (fun v hv => .inl (.inl (hreached v hv))) found₂
    have hcons : ∀ v, (∃ w ∈ u :: todo, g.Linked w v) ↔
        (g.EndOf Relation.object (g.subjectIndices u) v ∨
          g.EndOf Relation.subject (g.objectIndices u) v) ∨ ∃ w ∈ todo, g.Linked w v := by
      intro v
      rw [← hg.linked_iff]
      simp
    refine ⟨found', sub', ?_, fun v => ?_, h'.congr (fun v => ?_) fun _ _ => Iff.rfl⟩
    · rw [List.foldlM_cons, PyM.bind_ok hstep, hrest]
    · rw [hfound', hfound₂, hfound₁, hcons, or_assoc, or_assoc, or_assoc]
    · rw [hcons, or_assoc, or_assoc, or_assoc]

/-- The loop of a node over its relations. -/
theorem copyRelations (h : g.Copied sub nodes edges) (hg : g.Settled) (indices : List Nat)
    (hindices : ∀ i ∈ indices, ∃ r, g.relations[i]? = some r ∧ nodes r.subject ∧ nodes r.object) :
    ∃ sub', g.copyRelations indices sub = (.ok (), sub') ∧
      g.Copied sub' nodes fun r => edges r ∨ ∃ i ∈ indices, g.relations[i]? = some r := by
  induction indices generalizing sub edges with
  | nil => exact ⟨sub, rfl, h.congr (fun _ => Iff.rfl) fun r _ => by simp⟩
  | cons i indices ih =>
    obtain ⟨⟨r, hr, hends⟩, hindices⟩ := List.forall_mem_cons.mp hindices
    obtain ⟨sub₁, hadd, h₁⟩ := h.addRelation hg (List.mem_of_getElem? hr) hends
    obtain ⟨sub', hrest, h'⟩ := ih h₁ hindices
    refine ⟨sub', ?_, h'.congr (fun _ => Iff.rfl) fun r' _ => ?_⟩
    · rw [OntologyGraph.copyRelations, pyIndex_eq_ok hr, PyM.bind_ok (PyM.lift_apply _ _),
        PyM.bind_ok hadd, hrest]
    · simp [hr, or_assoc, eq_comm]

/-- The second loop of a round: the relations of the nodes are copied. -/
theorem copyNodes (h : g.Copied sub nodes edges) (hg : g.Settled) (todo : List String)
    (htodo : ∀ u ∈ todo, nodes u ∧ ∀ v, g.Linked u v → nodes v) :
    ∃ sub', g.copyNodes todo sub = (.ok (), sub') ∧
      g.Copied sub' nodes fun r => edges r ∨ r.Touches (· ∈ todo) := by
  induction todo generalizing sub edges with
  | nil => exact ⟨sub, rfl, h.congr (fun _ => Iff.rfl) fun r _ => by simp [Relation.Touches]⟩
  | cons u todo ih =>
    obtain ⟨⟨hu, hlinked⟩, htodo⟩ := List.forall_mem_cons.mp htodo
    have hmem : ∀ r, (∃ i ∈ g.subjectIndices u ++ g.objectIndices u, g.relations[i]? = some r) ↔
        r ∈ g.relations ∧ (r.subject = u ∨ r.object = u) := fun r => hg.rep.exists_index
    obtain ⟨sub₁, hcopy, h₁⟩ := h.copyRelations hg (g.subjectIndices u ++ g.objectIndices u)
      fun i hi => by
        obtain ⟨r, hr⟩ := hg.rep.getElem?_index hi
        refine ⟨r, hr, ?_⟩
        obtain ⟨hr, rfl | rfl⟩ := (hmem r).mp ⟨i, hi, hr⟩
        · exact ⟨hu, hlinked _ ⟨r, hr, .inl ⟨rfl, rfl⟩⟩⟩
        · exact ⟨hlinked _ ⟨r, hr, .inr ⟨rfl, rfl⟩⟩, hu⟩
    obtain ⟨sub', hrest, h'⟩ := ih h₁ htodo
    refine ⟨sub', ?_, h'.congr (fun _ => Iff.rfl) fun r hr => ?_⟩
    · rw [OntologyGraph.copyNodes, PyM.bind_ok hcopy, hrest]
    · rw [hmem r]
      simp only [hr, true_and, Relation.Touches, List.mem_cons]
      tauto

/-- The rounds. -/
theorem expandRounds (h : g.Copied sub nodes edges) (hg : g.Settled) (orders : SetOrder)
    (rounds round : Nat) {reached : List String} (hreached : ∀ v, v ∈ reached ↔ nodes v) :
    ∃ sub', g.expandRounds orders rounds round reached sub = (.ok (), sub') ∧
      g.Copied sub' (Near g.Linked nodes rounds) fun r =>
        edges r ∨ ∃ n < rounds, r.Touches (Near g.Linked nodes n) := by
  induction rounds generalizing round reached sub nodes edges with
  | zero =>
    exact ⟨sub, rfl, h.congr (fun v => near_zero.symm) fun r _ => by simp⟩
  | succ rounds ih =>
    have hperm := orders.perm round reached
    have hnodes : ∀ v, v ∈ orders.order round reached ↔ nodes v := fun v =>
      hperm.mem_iff.trans (hreached v)
    obtain ⟨found, sub₁, hfollow, hfound, h₁⟩ := h.followNodes hg.rep
      (fun v hv => (hreached v).mp hv) (orders.order round reached) []
    obtain ⟨sub₂, hcopy, h₂⟩ := h₁.copyNodes hg (orders.order round reached)
      fun u hu => ⟨.inl ((hnodes u).mp hu), fun v hv => .inr ⟨u, hu, hv⟩⟩
    have hstep : ∀ v, (nodes v ∨ ∃ u ∈ orders.order round reached, g.Linked u v) ↔
        nodes v ∨ ∃ u, nodes u ∧ g.Linked u v := fun v => by simp only [hnodes]
    have h₂ := h₂.congr hstep fun r _ => Iff.rfl
    -- what was reached after the round: the nodes and their neighbours
    have hnext : ∀ v, v ∈ found.foldl (fun s name => setAdd name s) reached ↔
        nodes v ∨ ∃ u, nodes u ∧ g.Linked u v := by
      intro v
      rw [mem_foldl_setAdd, hreached, hfound]
      simp only [hnodes, List.not_mem_nil, false_or]
    obtain ⟨sub', hrest, h'⟩ := ih h₂ (round + 1) hnext
    refine ⟨sub', ?_, h'.congr (fun v => near_succ.symm) fun r _ => ?_⟩
    · rw [OntologyGraph.expandRounds, PyM.bind_ok hfollow, PyM.bind_ok hcopy, hrest]
    · -- the relations of the nodes themselves, and those of the later rounds
      simp only [Relation.Touches, hnodes, Nat.exists_lt_succ_left, near_zero, near_succ, or_assoc]

/-- The loop over the roots. -/
theorem addRoots (h : g.Copied sub nodes edges) (hg : g.Rep) {roots : List String}
    (hroots : ∀ name ∈ roots, ∃ cleaned, cleanName F name = .ok cleaned) (reached : List String)
    (hreached : ∀ v, v ∈ reached ↔ nodes v) :
    ∃ reached' sub', g.addRoots roots reached sub = (.ok reached', sub') ∧
      (∀ v, v ∈ reached' ↔ nodes v ∨ g.Root roots v) ∧
      g.Copied sub' (fun v => nodes v ∨ g.Root roots v) edges := by
  induction roots generalizing sub nodes reached with
  | nil =>
    refine ⟨reached, sub, rfl, fun v => ?_, h.congr (fun v => ?_) fun _ _ => Iff.rfl⟩
    · rw [hreached]
      simp [Root]
    · simp [Root]
  | cons name roots ih =>
    obtain ⟨⟨cleaned, hclean⟩, hroots⟩ := List.forall_mem_cons.mp hroots
    have hget : g.getEntity name = .ok (g.entities.lookup cleaned) := by
      rw [getEntity, hclean, ok_bind]
    have hcons : ∀ v, g.Root (name :: roots) v ↔
        (v = cleaned ∧ cleaned ∈ g.names) ∨ g.Root roots v := by
      intro v
      simp only [Root, List.exists_mem_cons_iff, hclean, Except.ok.injEq]
      constructor
      · rintro ⟨hv, rfl | hv'⟩
        · exact .inl ⟨rfl, hv⟩
        · exact .inr ⟨hv, hv'⟩
      · rintro (⟨rfl, hv⟩ | ⟨hv, hv'⟩)
        · exact ⟨hv, .inl rfl⟩
        · exact ⟨hv, .inr hv'⟩
    rw [OntologyGraph.addRoots, hget, PyM.bind_ok (PyM.lift_apply _ _)]
    rcases hlookup : g.entities.lookup cleaned with _ | entity
    -- a root that no entity has is passed over
    · have hnot : cleaned ∉ g.names := not_mem_keys_of_lookup hlookup
      obtain ⟨reached', sub', hrest, hmem, h'⟩ := ih h hroots reached hreached
      refine ⟨reached', sub', hrest, fun v => ?_, h'.congr (fun v => ?_) fun _ _ => Iff.rfl⟩
      · rw [hmem, hcons, or_iff_right (a := v = cleaned ∧ _) fun hv => hnot hv.2]
      · rw [hcons, or_iff_right (a := v = cleaned ∧ _) fun hv => hnot hv.2]
    · have hmem := hg.mem_of_lookup hlookup
      have hin : cleaned ∈ g.names := mem_names_iff_lookup.mpr ⟨entity, hlookup⟩
      obtain rfl : entity.name = cleaned := by
        obtain ⟨before, after, heq, -⟩ := List.lookup_eq_some_iff.mp hlookup
        exact (hg.entity_name (cleaned, entity) (heq ▸ by simp)).1
      obtain ⟨reached', sub', hrest, hmem', h'⟩ := ih (h.setEntity hg hmem) hroots
        (setAdd entity.name reached) fun v => by rw [mem_setAdd, hreached]
      refine ⟨reached', sub', ?_, fun v => ?_, h'.congr (fun v => ?_) fun _ _ => Iff.rfl⟩
      · dsimp only
        rw [PyM.bind_ok (PyM.modify_apply _ _), hrest]
      · rw [hmem', hcons, and_iff_left hin, or_assoc]
      · rw [hcons, and_iff_left hin, or_assoc]

end Copied

/-- `get_subgraph` on clean root names: it does not raise, and takes the entities within `d`
steps of a root and the relations with an end within `d - 1` steps. -/
theorem Settled.getSubgraph (hg : g.Settled) {roots : List String}
    (hroots : ∀ name ∈ roots, ∃ cleaned, cleanName F name = .ok cleaned) (depth maxDepth : Int)
    (orders : SetOrder) :
    ∃ sub, g.getSubgraph roots depth maxDepth orders = .ok sub ∧
      g.Copied sub (Near g.Linked (g.Root roots) (hops depth maxDepth)) fun r =>
        r.Touches (Near g.Linked (g.Root roots) (hops depth maxDepth - 1)) := by
  obtain ⟨reached, sub₁, hadd, hreached, h₁⟩ := Copied.new.addRoots hg.rep hroots []
    (by simp)
  simp only [false_or] at hreached h₁
  by_cases hnil : reached = []
  · -- no root exists, and nothing is near one
    have hnone : ∀ v n, ¬ Near g.Linked (g.Root roots) n v := by
      rintro v n ⟨k, -, s, hs, -⟩
      exact List.not_mem_nil (hnil ▸ (hreached s).mpr hs)
    refine ⟨sub₁, ?_, h₁.congr (fun v => ?_) fun r _ => ?_⟩
    · rw [OntologyGraph.getSubgraph, fillSubgraph, PyM.bind_ok hadd, if_pos hnil]
      rfl
    · exact iff_of_false (fun hv => hnone v 0 (near_zero.mpr hv)) (hnone v _)
    · exact iff_of_false id (by simp [Relation.Touches, hnone])
  · obtain ⟨sub, hrounds, h⟩ := h₁.expandRounds hg orders (hops depth maxDepth) 0 hreached
    refine ⟨sub, ?_, h.congr (fun v => Iff.rfl) fun r _ => ?_⟩
    · rw [OntologyGraph.getSubgraph, fillSubgraph, PyM.bind_ok hadd, if_neg hnil,
        show (max 1 (min depth maxDepth)).toNat = hops depth maxDepth from rfl, hrounds]
    · rw [false_or]
      constructor
      · rintro ⟨n, hn, htouches⟩
        exact htouches.imp (Near.mono (Nat.le_sub_one_of_lt hn)) (Near.mono (Nat.le_sub_one_of_lt hn))
      · have hpos : 0 < hops depth maxDepth := by
          rw [hops]
          omega
        exact fun htouches => ⟨_, Nat.sub_one_lt_of_lt hpos, htouches⟩

/-! ## All graphs -/

theorem settled_new (maxEntities maxRelations : Int) :
    ({ maxEntities, maxRelations } : OntologyGraph F).Settled where
  rep := rep_new maxEntities maxRelations
  predicates _ hr := absurd hr List.not_mem_nil
  weights _ hr := absurd hr List.not_mem_nil

theorem Settled.addEntity (hg : g.Settled) (entity : Entity) :
    (OntologyGraph.addEntity entity g).2.Settled := by
  have hrep := (hg.rep.addEntity entity).1
  rcases addEntity_cases g entity with ⟨e, heq⟩ | ⟨added, -, -, -, -, heq⟩ <;> rw [heq] at hrep ⊢
  · exact hg
  · exact ⟨hrep, hg.predicates, hg.weights⟩

theorem Settled.addRelation (hg : g.Settled) (relation : Relation F) :
    (OntologyGraph.addRelation relation g).2.Settled := by
  have hrep := (hg.rep.addRelation relation).1
  rcases hg.rep.addRelation_cases relation with
    ⟨e, heq⟩ | ⟨added, -, -, hpredicate, -, -, ⟨-, heq⟩ | ⟨-, ⟨-, hne, hweight, -⟩, heq⟩⟩ <;>
    rw [heq] at hrep ⊢
  · exact hg
  · exact hg
  · refine ⟨hrep, ?_, ?_⟩
    · refine List.forall_mem_append.mpr ⟨hg.predicates, List.forall_mem_singleton.mpr ⟨?_, hne⟩⟩
      rw [hpredicate, stripText_stripText]
    · exact List.forall_mem_append.mpr ⟨hg.weights, List.forall_mem_singleton.mpr hweight⟩

/-- A root name that is not clean makes the loop over the roots raise. -/
theorem clean_of_addRoots {roots reached reached' : List String} {sub sub' : OntologyGraph F}
    (h : g.addRoots roots reached sub = (.ok reached', sub')) :
    ∀ name ∈ roots, ∃ cleaned, cleanName F name = .ok cleaned := by
  induction roots generalizing reached sub with
  | nil => exact fun _ hname => absurd hname List.not_mem_nil
  | cons name roots ih =>
    obtain ⟨found, sub₁, hget, hrest⟩ := PyM.bind_inv h
    have hclean : ∃ cleaned, cleanName F name = .ok cleaned := by
      obtain ⟨cleaned, hcleaned, -⟩ := bind_eq_ok (congrArg Prod.fst hget)
      exact ⟨cleaned, hcleaned⟩
    refine List.forall_mem_cons.mpr ⟨hclean, ?_⟩
    cases found with
    | none => exact ih hrest
    | some entity =>
      obtain ⟨_, sub₂, -, hrest⟩ := PyM.bind_inv hrest
      exact ih hrest

theorem Settled.settled_getSubgraph (hg : g.Settled) {roots : List String} {depth maxDepth : Int}
    {orders : SetOrder} {sub : OntologyGraph F}
    (h : g.getSubgraph roots depth maxDepth orders = .ok sub) : sub.Settled := by
  have hroots : ∀ name ∈ roots, ∃ cleaned, cleanName F name = .ok cleaned := by
    rw [OntologyGraph.getSubgraph] at h
    split at h
    next hfill =>
      obtain ⟨reached, sub₁, hadd, -⟩ := PyM.bind_inv hfill
      exact clean_of_addRoots hadd
    next => cases h
  obtain ⟨sub', hsub', hcopied⟩ := hg.getSubgraph hroots depth maxDepth orders
  cases h.symm.trans hsub'
  have hmem : ∀ r ∈ sub.relations, r ∈ g.relations := fun r hr =>
    ((hcopied.mem_relations r).mp hr).1
  exact ⟨hcopied.within.rep, fun r hr => hg.predicates r (hmem r hr),
    fun r hr => hg.weights r (hmem r hr)⟩

end OntologyGraph

variable [PyInterp F]

theorem graphs_settled {steps : List (List (OntologyGraph F) × Call F)}
    {heap : List (OntologyGraph F)} (run : (graphs F).Run steps heap) : ∀ g ∈ heap, g.Settled := by
  refine run.invariant (P := fun heap => ∀ g ∈ heap, g.Settled) (fun _ h => absurd h List.not_mem_nil)
    fun heap call heap' hheap hstep => ?_
  obtain ⟨⟨result, _⟩, hcall, rfl⟩ := Option.map_eq_some_iff.mp hstep
  have hset : ∀ {i : Nat} {g' : OntologyGraph F}, g'.Settled → ∀ g ∈ heap.set i g', g.Settled :=
    fun hg' g hg => (List.mem_or_eq_of_mem_set hg).elim (hheap g) fun h => h ▸ hg'
  have happend : ∀ {g' : OntologyGraph F}, g'.Settled → ∀ g ∈ heap ++ [g'], g.Settled :=
    fun hg' => List.forall_mem_append.mpr ⟨hheap, List.forall_mem_singleton.mpr hg'⟩
  cases call with
  | new maxEntities maxRelations =>
    cases hcall
    exact happend (OntologyGraph.settled_new maxEntities maxRelations)
  | addEntity i entity =>
    obtain ⟨g, hget, heq⟩ := Option.map_eq_some_iff.mp hcall
    cases heq
    exact hset ((hheap g (List.mem_of_getElem? hget)).addEntity entity)
  | addRelation i relation =>
    obtain ⟨g, hget, heq⟩ := Option.map_eq_some_iff.mp hcall
    cases heq
    exact hset ((hheap g (List.mem_of_getElem? hget)).addRelation relation)
  | getSubgraph i roots depth maxDepth orders =>
    obtain ⟨g, hget, heq⟩ := Option.map_eq_some_iff.mp hcall
    split at heq
    next sub hsub =>
      cases heq
      exact happend ((hheap g (List.mem_of_getElem? hget)).settled_getSubgraph hsub)
    next =>
      cases heq
      exact hheap

/-- In a reachable state, `get_subgraph` on names that can be cleaned does not raise and leaves
all graphs as they are; the new graph has the entities within `d` steps of a root that exists,
in either direction, and the relations with an end within `d - 1` steps. -/
theorem graphs_getSubgraph {steps : List (List (OntologyGraph F) × Call F)}
    {heap : List (OntologyGraph F)} (run : (graphs F).Run steps heap) {i : Nat}
    {g : OntologyGraph F} (hg : heap[i]? = some g) {roots : List String}
    (hroots : ∀ name ∈ roots, ∃ cleaned, cleanName F name = .ok cleaned) (depth maxDepth : Int)
    (orders : SetOrder) :
    ∃ sub, (Call.getSubgraph i roots depth maxDepth orders).run heap =
        some (.ok (), heap ++ [sub]) ∧
      (∀ name entity, sub.entities.lookup name = some entity ↔
        g.entities.lookup name = some entity ∧
          Near g.Linked (g.Root roots) (max 1 (min depth maxDepth)).toNat name) ∧
      (∀ r, r ∈ sub.relations ↔ r ∈ g.relations ∧
        r.Touches (Near g.Linked (g.Root roots) ((max 1 (min depth maxDepth)).toNat - 1))) ∧
      sub.names.Nodup ∧ sub.relations.Nodup := by
  obtain ⟨sub, hsub, h⟩ := (graphs_settled run g (List.mem_of_getElem? hg)).getSubgraph hroots
    depth maxDepth orders
  refine ⟨sub, ?_, h.lookup_eq, h.mem_relations, h.within.rep.names_nodup,
    h.within.rep.triples_nodup.of_map _⟩
  rw [Call.run, hg, Option.map_some, hsub]

/-- From the first entity of `aliceCalls`, by its name with a space. -/
theorem graphs_getSubgraph_alice : ∃ heap : List (OntologyGraph FloatText),
    (graphs FloatText).exec [] aliceCalls = some heap ∧ ∃ g, heap[0]? = some g ∧
      ∃ sub, (Call.getSubgraph 0 [" alice"] 5 1 .insertion).run heap =
          some (.ok (), heap ++ [sub]) ∧
        ∀ r, r ∈ sub.relations ↔ r ∈ g.relations ∧
          r.Touches (Near g.Linked (g.Root [" alice"]) 0) := by
  have hexec : ((graphs FloatText).exec [] aliceCalls).map List.length = some 2 := by
    decide +kernel
  obtain ⟨heap, hheap, hlength⟩ := Option.map_eq_some_iff.mp hexec
  obtain ⟨steps, run⟩ := System.reachable_of_exec aliceCalls hheap
  obtain ⟨g, hg⟩ : ∃ g, heap[0]? = some g := ⟨_, List.getElem?_eq_getElem (by omega)⟩
  have hroots : ∀ name ∈ [" alice"], ∃ cleaned, cleanName FloatText name = .ok cleaned :=
    List.forall_mem_singleton.mpr ⟨"alice", by decide +kernel⟩
  obtain ⟨sub, hcall, -, hrelations, -⟩ := graphs_getSubgraph run hg hroots 5 1 .insertion
  exact ⟨heap, hheap, g, hg, sub, hcall, hrelations⟩

end Noema.Ontology
