import Noema.Lib.JsonRoundTrip
import Noema.Lib.System
import Noema.Ontology.Graph

/-!
# The representation of the ontology

`OntologyGraph.Rep` says how the four tables of a graph fit together: names are distinct and clean,
the ends of a relation are entities, no triple is there twice, each index table lists just the
relations with that end, in their order, and the caps are kept. `Rep.addEntity`, `Rep.addRelation`
and `Rep.getSubgraph` show that the calls keep it.

- `ListsIndices`: the entry of an index table. A relation that is added at the end adds its index to
  two of them (`ListsIndices.append`).
- `addEntity_cases`, `Rep.addRelation_cases`: all that the two calls can do; everything about them
  is derived from these.
- `Within`: a subgraph in the making has entities of the graph only. It is kept by each of the loops
  of `get_subgraph` (`StaysWithin`).
- `graphs`: the system of all graphs that calls can make, of which each may be a subgraph of another
  one.
- **`graphs_rep`**: all graphs have the representation, and a call that raised has changed nothing.
- `exceeds_negative_cap`: with a negative cap, the new graph exceeds it already.
-/

namespace Noema.Ontology

open Noema.Lib PyJson

variable {F : Type}

/-- What two relations may not share. -/
def Relation.triple (r : Relation F) : String × String × String := (r.subject, r.predicate, r.object)

/-- The indices are those of the relations with the name at the end that is asked for, in
increasing order. -/
def ListsIndices (relations : List (Relation F)) (endpoint : Relation F → String) (name : String)
    (indices : List Nat) : Prop :=
  indices.Pairwise (· < ·) ∧
    ∀ i, i ∈ indices ↔ ∃ r, relations[i]? = some r ∧ endpoint r = name

/-- How the tables of a graph fit together. -/
structure OntologyGraph.Rep [PyInterp F] (g : OntologyGraph F) : Prop where
  names_nodup : g.names.Nodup
  entity_name : ∀ p ∈ g.entities, p.2.name = p.1 ∧ cleanName F p.1 = .ok p.1
  subject_mem : ∀ r ∈ g.relations, r.subject ∈ g.names
  object_mem : ∀ r ∈ g.relations, r.object ∈ g.names
  triples_nodup : (g.relations.map Relation.triple).Nodup
  subject_indices : ∀ name, ListsIndices g.relations Relation.subject name (g.subjectIndices name)
  object_indices : ∀ name, ListsIndices g.relations Relation.object name (g.objectIndices name)
  entities_le : (g.entities.length : Int) ≤ max 0 g.maxEntities
  relations_le : (g.relations.length : Int) ≤ max 0 g.maxRelations

/-! ## Names -/

section Names

variable [PyInterp F]

theorem cleanName_eq_ok {name cleaned : String} (h : cleanName F name = .ok cleaned) :
    cleaned = stripText name := by
  rw [cleanName] at h
  split at h
  · cases h
  · split at h
    · cases h
    · cases h
      rfl

/-- A cleaned name is clean. -/
theorem cleanName_cleaned {name cleaned : String} (h : cleanName F name = .ok cleaned) :
    cleanName F cleaned = .ok cleaned := by
  have hcleaned := cleanName_eq_ok h
  have hstrip : strip cleaned.toList = strip name.toList := by
    rw [hcleaned, stripText, String.toList_ofList, strip_strip]
  rw [cleanName] at h ⊢
  rw [hstrip]
  split at h
  · cases h
  · next hne =>
    rw [if_neg hne]
    split at h
    · cases h
    · next hcontrol =>
      rw [if_neg hcontrol]
      exact h

end Names

/-! ## Indices -/

theorem ListsIndices.append {relations : List (Relation F)} {endpoint : Relation F → String}
    {name : String} {index : List (String × List Nat)} (r : Relation F)
    (h : ListsIndices relations endpoint name ((index.lookup name).getD [])) :
    ListsIndices (relations ++ [r]) endpoint name
      (((appendIndex (endpoint r) relations.length index).lookup name).getD []) := by
  obtain ⟨hsorted, hmem⟩ := h
  have hlt : ∀ i ∈ (index.lookup name).getD [], i < relations.length := by
    intro i hi
    obtain ⟨r', hr', -⟩ := (hmem i).mp hi
    exact (List.getElem?_eq_some_iff.mp hr').1
  have hget : ∀ i, (∃ r', (relations ++ [r])[i]? = some r' ∧ endpoint r' = name) ↔
      i ∈ (index.lookup name).getD [] ∨ i = relations.length ∧ endpoint r = name := by
    intro i
    rw [hmem i]
    rcases Nat.lt_trichotomy i relations.length with hi | rfl | hi
    · rw [List.getElem?_append_left hi]
      simp [hi.ne]
    · simp
    · rw [List.getElem?_eq_none (by simp; omega), List.getElem?_eq_none (by omega)]
      simp [hi.ne']
  rw [appendIndex, lookup_dictInsert]
  by_cases hname : name = endpoint r
  · rw [if_pos hname, Option.getD_some, ← hname]
    constructor
    · refine List.pairwise_append.mpr ⟨hsorted, List.pairwise_singleton _ _, ?_⟩
      intro i hi j hj
      rw [List.mem_singleton.mp hj]
      exact hlt i hi
    · intro i
      rw [hget i, List.mem_append, List.mem_singleton, and_iff_left hname.symm]
  · rw [if_neg hname]
    refine ⟨hsorted, fun i => ?_⟩
    rw [hget i, or_iff_left fun h => hname h.2.symm]

namespace OntologyGraph

variable {g : OntologyGraph F}

theorem setEntity_names_of_mem {name : String} {entity : Entity} (h : name ∈ g.names) :
    (g.setEntity name entity).names = g.names :=
  keys_dictInsert_of_mem h

theorem setEntity_names_of_not_mem {name : String} {entity : Entity} (h : name ∉ g.names) :
    (g.setEntity name entity).names = g.names ++ [name] := by
  rw [names, setEntity, dictInsert_of_not_mem h, List.map_append, names]
  rfl

theorem mem_names_setEntity {name name' : String} {entity : Entity} :
    name' ∈ (g.setEntity name entity).names ↔ name' = name ∨ name' ∈ g.names :=
  mem_keys_dictInsert

variable [PyInterp F]

/-- The loop of `addRelation` looks for the triple. -/
theorem Rep.hasTriple_eq (h : g.Rep) (subject predicate object : String) :
    g.hasTriple predicate object (g.subjectIndices subject) =
      .ok (decide ((subject, predicate, object) ∈ g.relations.map Relation.triple)) := by
  have hloop : ∀ indices : List Nat, (∀ i ∈ indices, i < g.relations.length) →
      g.hasTriple predicate object indices = .ok (decide (∃ i ∈ indices, ∃ r,
        g.relations[i]? = some r ∧ r.predicate = predicate ∧ r.object = object)) := by
    intro indices hindices
    induction indices with
    | nil => simp [hasTriple]
    | cons i rest ih =>
      obtain ⟨hi, hrest⟩ := List.forall_mem_cons.mp hindices
      have hget := List.getElem?_eq_getElem hi
      rw [hasTriple, pyIndex_eq_ok hget, ok_bind]
      split
      · next hmatch => simp [hget, hmatch]
      · next hmatch =>
        rw [ih hrest]
        simp [hget, hmatch]
  obtain ⟨-, hmem⟩ := h.subject_indices subject
  rw [hloop _ fun i hi => ?_]
  · congr 2
    rw [eq_iff_iff, List.mem_map]
    constructor
    · rintro ⟨i, hi, r, hr, rfl, rfl⟩
      obtain ⟨r', hr', rfl⟩ := (hmem i).mp hi
      cases hr.symm.trans hr'
      exact ⟨r, List.mem_of_getElem? hr, rfl⟩
    · rintro ⟨r, hr, heq⟩
      obtain ⟨i, hi⟩ := List.mem_iff_getElem?.mp hr
      cases heq
      exact ⟨i, (hmem i).mpr ⟨r, hi, rfl⟩, r, hi, rfl, rfl⟩
  · obtain ⟨r, hr, -⟩ := (hmem i).mp hi
    exact (List.getElem?_eq_some_iff.mp hr).1

/-! ## The calls -/

/-- What `add_entity` does. -/
theorem addEntity_cases (g : OntologyGraph F) (entity : Entity) :
    (∃ e, addEntity entity g = (.error e, g)) ∨
    ∃ added : Entity, cleanName F entity.name = .ok added.name ∧
      added.type = stripText (if entity.type = "" then "unknown" else entity.type) ∧
      added.attributes = entity.attributes ∧
      (added.name ∈ g.names ∨ g.entities.length < g.maxEntities) ∧
      addEntity entity g = (.ok (), g.setEntity added.name added) := by
  rw [addEntity]
  rcases hname : cleanName F entity.name with e | name
  · exact .inl ⟨e, rfl⟩
  · rw [PyM.bind_ok (PyM.lift_apply _ _), PyM.bind_ok (PyM.get_apply g)]
    split
    · exact .inl ⟨_, rfl⟩
    · next hcap =>
      refine .inr ⟨⟨name, _, _⟩, rfl, rfl, rfl, ?_, rfl⟩
      by_cases hmem : name ∈ g.names
      · exact .inl hmem
      · exact .inr (Int.lt_of_not_ge fun hle => hcap ⟨hmem, hle⟩)

/-- What `add_relation` does. -/
theorem Rep.addRelation_cases (h : g.Rep) (relation : Relation F) :
    (∃ e, addRelation relation g = (.error e, g)) ∨
    ∃ added : Relation F, cleanName F relation.subject = .ok added.subject ∧
      cleanName F relation.object = .ok added.object ∧
      added.predicate = stripText relation.predicate ∧
      added.subject ∈ g.names ∧ added.object ∈ g.names ∧
      (added.triple ∈ g.relations.map Relation.triple ∧ addRelation relation g = (.ok (), g) ∨
        added.triple ∉ g.relations.map Relation.triple ∧
          (g.relations.length < g.maxRelations ∧ added.predicate ≠ "" ∧
            (∃ weight, added.weight = .float weight) ∧ added.metadata = relation.metadata) ∧
          addRelation relation g = (.ok (), g.appendRelation added)) := by
  rw [addRelation]
  rcases hsubject : cleanName F relation.subject with e | subject
  · exact .inl ⟨e, rfl⟩
  rcases hobject : cleanName F relation.object with e | object
  · exact .inl ⟨e, rfl⟩
  rw [PyM.bind_ok (PyM.lift_apply _ _), PyM.bind_ok (PyM.lift_apply _ _),
    PyM.bind_ok (PyM.get_apply g)]
  split
  · exact .inl ⟨_, rfl⟩
  split
  · exact .inl ⟨_, rfl⟩
  dsimp only
  split
  · exact .inl ⟨_, rfl⟩
  next hs ho hp =>
  have hs := not_not.mp hs
  have ho := not_not.mp ho
  rw [PyM.bind_ok (by rw [PyM.lift_apply, h.hasTriple_eq])]
  by_cases hknown : (subject, stripText relation.predicate, object) ∈
      g.relations.map Relation.triple
  · rw [if_pos (decide_eq_true hknown)]
    exact .inr ⟨⟨subject, stripText relation.predicate, object, relation.weight, []⟩, rfl, rfl,
      rfl, hs, ho, .inl ⟨hknown, rfl⟩⟩
  · rw [if_neg (by simpa using hknown)]
    split
    · exact .inl ⟨_, rfl⟩
    · next hcap =>
      rcases hweight : relation.weight.pyFloat with e | weight
      · exact .inl ⟨e, rfl⟩
      · exact .inr ⟨⟨subject, stripText relation.predicate, object, .float weight,
          relation.metadata⟩, rfl, rfl, rfl, hs, ho,
          .inr ⟨hknown, ⟨Int.lt_of_not_ge hcap, hp, ⟨weight, rfl⟩, rfl⟩, rfl⟩⟩

theorem Rep.setEntity (h : g.Rep) {entity : Entity}
    (hname : cleanName F entity.name = .ok entity.name)
    (hcap : entity.name ∈ g.names ∨ g.entities.length < g.maxEntities) :
    (g.setEntity entity.name entity).Rep where
  names_nodup := by
    by_cases hmem : entity.name ∈ g.names
    · rw [setEntity_names_of_mem hmem]
      exact h.names_nodup
    · rw [setEntity_names_of_not_mem hmem, ← List.concat_eq_append]
      exact h.names_nodup.concat hmem
  entity_name := by
    intro p hp
    rcases mem_dictInsert hp with rfl | hp
    · exact ⟨rfl, hname⟩
    · exact h.entity_name p hp
  subject_mem r hr := mem_names_setEntity.mpr (.inr (h.subject_mem r hr))
  object_mem r hr := mem_names_setEntity.mpr (.inr (h.object_mem r hr))
  triples_nodup := h.triples_nodup
  subject_indices := h.subject_indices
  object_indices := h.object_indices
  entities_le := by
    have hlength : ∀ g : OntologyGraph F, g.names.length = g.entities.length :=
      fun g => List.length_map _
    have hle := h.entities_le
    show ((g.setEntity entity.name entity).entities.length : Int) ≤ max 0 g.maxEntities
    rw [← hlength]
    rcases Decidable.em (entity.name ∈ g.names) with hmem | hmem
    · rw [setEntity_names_of_mem hmem, hlength]
      exact hle
    · have hlt := hcap.resolve_left hmem
      rw [setEntity_names_of_not_mem hmem, List.length_append, hlength, List.length_singleton]
      omega
  relations_le := h.relations_le

theorem Rep.appendRelation (h : g.Rep) {r : Relation F} (hsubject : r.subject ∈ g.names)
    (hobject : r.object ∈ g.names) (hnew : r.triple ∉ g.relations.map Relation.triple)
    (hcap : g.relations.length < g.maxRelations) : (g.appendRelation r).Rep where
  names_nodup := h.names_nodup
  entity_name := h.entity_name
  subject_mem := List.forall_mem_append.mpr ⟨h.subject_mem, List.forall_mem_singleton.mpr hsubject⟩
  object_mem := List.forall_mem_append.mpr ⟨h.object_mem, List.forall_mem_singleton.mpr hobject⟩
  triples_nodup := by
    show ((g.relations ++ [r]).map Relation.triple).Nodup
    rw [List.map_append, List.map_singleton, ← List.concat_eq_append]
    exact h.triples_nodup.concat hnew
  subject_indices name := (h.subject_indices name).append r
  object_indices name := (h.object_indices name).append r
  entities_le := h.entities_le
  relations_le := by
    show ((g.relations ++ [r]).length : Int) ≤ max 0 g.maxRelations
    rw [List.length_append, List.length_singleton]
    omega

/-- `add_entity` keeps the representation, and changes nothing when it raises. -/
theorem Rep.addEntity (h : g.Rep) (entity : Entity) :
    (addEntity entity g).2.Rep ∧ ∀ e, (addEntity entity g).1 = .error e →
      (addEntity entity g).2 = g := by
  rcases addEntity_cases g entity with ⟨e, heq⟩ | ⟨added, hclean, -, -, hcap, heq⟩ <;> rw [heq]
  · exact ⟨h, fun _ _ => rfl⟩
  · exact ⟨h.setEntity (cleanName_cleaned hclean) hcap, fun e he => by cases he⟩

/-- `add_relation` keeps the representation, and changes nothing when it raises. -/
theorem Rep.addRelation (h : g.Rep) (relation : Relation F) :
    (addRelation relation g).2.Rep ∧ ∀ e, (addRelation relation g).1 = .error e →
      (addRelation relation g).2 = g := by
  rcases h.addRelation_cases relation with ⟨e, heq⟩ | ⟨added, -, -, -, hs, ho, hcases⟩
  · rw [heq]
    exact ⟨h, fun _ _ => rfl⟩
  · rcases hcases with ⟨-, heq⟩ | ⟨hnew, hcap, heq⟩ <;> rw [heq]
    · exact ⟨h, fun _ _ => rfl⟩
    · exact ⟨h.appendRelation hs ho hnew hcap.1, fun e he => by cases he⟩

theorem rep_new (maxEntities maxRelations : Int) :
    ({ maxEntities, maxRelations } : OntologyGraph F).Rep where
  names_nodup := List.nodup_nil
  entity_name p hp := by cases hp
  subject_mem r hr := by cases hr
  object_mem r hr := by cases hr
  triples_nodup := List.nodup_nil
  subject_indices name := ⟨List.Pairwise.nil, fun i => by simp [subjectIndices]⟩
  object_indices name := ⟨List.Pairwise.nil, fun i => by simp [objectIndices]⟩
  entities_le := le_max_left 0 maxEntities
  relations_le := le_max_left 0 maxRelations

/-! ## Subgraphs -/

/-- A subgraph has entities of the graph only, and its caps. -/
structure Within (g sub : OntologyGraph F) : Prop where
  rep : sub.Rep
  subset : ∀ p ∈ sub.entities, p ∈ g.entities
  maxEntities_eq : sub.maxEntities = g.maxEntities
  maxRelations_eq : sub.maxRelations = g.maxRelations

/-- A step of `get_subgraph` on the subgraph. -/
def StaysWithin (g sub sub' : OntologyGraph F) : Prop := g.Within sub → g.Within sub'

instance : Std.Refl (StaysWithin g) := ⟨fun _ h => h⟩

instance : IsTrans (OntologyGraph F) (StaysWithin g) := ⟨fun _ _ _ h h' hsub => h' (h hsub)⟩

theorem Within.setEntity {sub : OntologyGraph F} (hsub : g.Within sub) (hg : g.Rep)
    {entity : Entity} (hmem : (entity.name, entity) ∈ g.entities) :
    g.Within (sub.setEntity entity.name entity) where
  rep := by
    refine hsub.rep.setEntity (hg.entity_name _ hmem).2 ?_
    by_cases hnew : entity.name ∈ sub.names
    · exact .inl hnew
    · -- The entities of the subgraph and the new one are different entities of the graph.
      have hnodup : (entity.name :: sub.names).Nodup :=
        List.nodup_cons.mpr ⟨hnew, hsub.rep.names_nodup⟩
      have hsubset : entity.name :: sub.names ⊆ g.names := by
        refine List.cons_subset.mpr ⟨List.mem_map_of_mem hmem, ?_⟩
        intro name hname
        obtain ⟨p, hp, rfl⟩ := List.mem_map.mp hname
        exact List.mem_map_of_mem (hsub.subset p hp)
      have hle := (List.subperm_of_subset hnodup hsubset).length_le
      rw [List.length_cons, names, names, List.length_map, List.length_map] at hle
      have hcap := hg.entities_le
      rw [← hsub.maxEntities_eq] at hcap
      exact .inr (by omega)
  subset p hp := by
    rcases mem_dictInsert hp with rfl | hp
    · exact hmem
    · exact hsub.subset p hp
  maxEntities_eq := hsub.maxEntities_eq
  maxRelations_eq := hsub.maxRelations_eq

theorem Within.addRelation {sub : OntologyGraph F} (hsub : g.Within sub) (relation : Relation F) :
    g.Within (OntologyGraph.addRelation relation sub).2 := by
  refine ⟨(hsub.rep.addRelation relation).1, ?_, ?_, ?_⟩ <;>
    rcases hsub.rep.addRelation_cases relation with
      ⟨e, heq⟩ | ⟨added, -, -, -, -, -, ⟨-, heq⟩ | ⟨-, -, heq⟩⟩ <;> rw [heq]
  · exact hsub.subset
  · exact hsub.subset
  · exact hsub.subset
  · exact hsub.maxEntities_eq
  · exact hsub.maxEntities_eq
  · exact hsub.maxEntities_eq
  · exact hsub.maxRelations_eq
  · exact hsub.maxRelations_eq
  · exact hsub.maxRelations_eq

theorem Rep.mem_of_lookup (hg : g.Rep) {name : String} {entity : Entity}
    (h : g.entities.lookup name = some entity) : (entity.name, entity) ∈ g.entities := by
  obtain ⟨before, after, heq, -⟩ := List.lookup_eq_some_iff.mp h
  have hmem : (name, entity) ∈ g.entities := by
    rw [heq]
    exact List.mem_append_right _ List.mem_cons_self
  rwa [(hg.entity_name _ hmem).1]

theorem Rep.mem_of_getEntity (hg : g.Rep) {name : String} {entity : Entity}
    (h : g.getEntity name = .ok (some entity)) : (entity.name, entity) ∈ g.entities := by
  obtain ⟨cleaned, -, hlookup⟩ := bind_eq_ok h
  exact hg.mem_of_lookup (Except.ok.inj hlookup)

section Steps

variable (hg : g.Rep)
include hg

theorem keeps_copyTarget (reached : List String) (name : String) :
    PyM.Keeps (StaysWithin g) (g.copyTarget reached name) := by
  rw [copyTarget]
  split
  · next target hlookup =>
    refine PyM.Keeps.ite (PyM.Keeps.modify ?_) (PyM.Keeps.pure _)
    exact fun sub hsub => hsub.setEntity hg (hg.mem_of_lookup hlookup)
  · exact PyM.Keeps.pure _

theorem keeps_followRelation (reached : List String) (endpoint : Relation F → String)
    (found : List String) (idx : Nat) :
    PyM.Keeps (StaysWithin g) (g.followRelation reached endpoint found idx) := by
  refine PyM.Keeps.bind (PyM.Keeps.lift _) ?_
  intro relation
  exact PyM.Keeps.bind (keeps_copyTarget hg reached _) fun _ => PyM.Keeps.pure _

theorem keeps_followNode (reached found : List String) (node : String) :
    PyM.Keeps (StaysWithin g) (g.followNode reached found node) := by
  refine PyM.Keeps.bind ?_ ?_
  · exact PyM.Keeps.foldlM (keeps_followRelation hg reached Relation.object) _ found
  · exact PyM.Keeps.foldlM (keeps_followRelation hg reached Relation.subject) _

omit hg in
theorem keeps_copyRelations (indices : List Nat) :
    PyM.Keeps (StaysWithin g) (g.copyRelations indices) := by
  induction indices with
  | nil => exact PyM.Keeps.pure _
  | cons idx rest ih =>
    refine PyM.Keeps.bind (PyM.Keeps.lift _) ?_
    intro relation
    exact PyM.Keeps.bind (fun sub hsub => hsub.addRelation relation) fun _ => ih

omit hg in
theorem keeps_copyNodes (nodes : List String) :
    PyM.Keeps (StaysWithin g) (g.copyNodes nodes) := by
  induction nodes with
  | nil => exact PyM.Keeps.pure _
  | cons node nodes ih => exact PyM.Keeps.bind (keeps_copyRelations _) fun _ => ih

theorem keeps_expandRounds (orders : SetOrder) (rounds round : Nat) (reached : List String) :
    PyM.Keeps (StaysWithin g) (g.expandRounds orders rounds round reached) := by
  induction rounds generalizing round reached with
  | zero => exact PyM.Keeps.pure _
  | succ rounds ih =>
    refine PyM.Keeps.bind (PyM.Keeps.foldlM (keeps_followNode hg reached) _ []) ?_
    intro found
    exact PyM.Keeps.bind (keeps_copyNodes _) fun _ => ih _ _

theorem keeps_addRoots (roots reached : List String) :
    PyM.Keeps (StaysWithin g) (g.addRoots roots reached) := by
  induction roots generalizing reached with
  | nil => exact PyM.Keeps.pure _
  | cons name roots ih =>
    intro sub
    rcases hget : g.getEntity name with e | found
    · rw [addRoots, hget]
      exact fun h => h
    · rw [addRoots, hget, PyM.bind_ok (PyM.lift_apply _ _)]
      cases found with
      | none => exact ih reached sub
      | some entity =>
        refine PyM.Keeps.bind (PyM.Keeps.modify ?_) (fun _ => ih _) sub
        exact fun sub hsub => hsub.setEntity hg (hg.mem_of_getEntity hget)

theorem keeps_fillSubgraph (roots : List String) (depth maxDepth : Int) (orders : SetOrder) :
    PyM.Keeps (StaysWithin g) (g.fillSubgraph roots depth maxDepth orders) := by
  refine PyM.Keeps.bind (keeps_addRoots hg roots []) ?_
  intro reached
  exact PyM.Keeps.ite (PyM.Keeps.pure _) (keeps_expandRounds hg orders _ 0 reached)

/-- `get_subgraph` makes a graph with the representation. -/
theorem Rep.getSubgraph {roots : List String} {depth maxDepth : Int} {orders : SetOrder}
    {sub : OntologyGraph F} (h : g.getSubgraph roots depth maxDepth orders = .ok sub) :
    sub.Rep := by
  have hempty : g.Within { maxEntities := g.maxEntities, maxRelations := g.maxRelations } := by
    refine ⟨rep_new _ _, ?_, rfl, rfl⟩
    intro p hp
    cases hp
  have hfill := keeps_fillSubgraph hg roots depth maxDepth orders _ hempty
  rw [OntologyGraph.getSubgraph] at h
  split at h
  · next hrun =>
    rw [hrun] at hfill
    cases h
    exact hfill.rep
  · cases h

end Steps

end OntologyGraph

/-! ## All graphs -/

/-- A call on one of the graphs, or a new graph. -/
inductive Call (F : Type) where
  | new (maxEntities maxRelations : Int)
  | addEntity (i : Nat) (entity : Entity)
  | addRelation (i : Nat) (relation : Relation F)
  | getSubgraph (i : Nat) (roots : List String) (depth maxDepth : Int) (orders : SetOrder)

variable [PyInterp F]

/-- How a call ends, and the graphs after it; `none` when there is no such graph. A subgraph is a
further graph. -/
def Call.run (heap : List (OntologyGraph F)) :
    Call F → Option (Except PyExc Unit × List (OntologyGraph F))
  | .new maxEntities maxRelations => some (.ok (), heap ++ [{ maxEntities, maxRelations }])
  | .addEntity i entity => heap[i]?.map fun g =>
    ((OntologyGraph.addEntity entity g).1, heap.set i (OntologyGraph.addEntity entity g).2)
  | .addRelation i relation => heap[i]?.map fun g =>
    ((OntologyGraph.addRelation relation g).1, heap.set i (OntologyGraph.addRelation relation g).2)
  | .getSubgraph i roots depth maxDepth orders => heap[i]?.map fun g =>
    match g.getSubgraph roots depth maxDepth orders with
    | .ok sub => (.ok (), heap ++ [sub])
    | .error e => (.error e, heap)

/-- The graphs that calls make. -/
def graphs (F : Type) [PyInterp F] : System (List (OntologyGraph F)) (Call F) where
  init := []
  step heap call := (call.run heap).map Prod.snd

/-- A call keeps the representation of all graphs, and changes none when it raises. -/
theorem Call.run_rep {heap heap' : List (OntologyGraph F)} {call : Call F}
    {result : Except PyExc Unit} (hrep : ∀ g ∈ heap, g.Rep)
    (h : call.run heap = some (result, heap')) :
    (∀ g ∈ heap', g.Rep) ∧ ∀ e, result = .error e → heap' = heap := by
  -- A call that may change one graph.
  have hset : ∀ {i : Nat} {g g' : OntologyGraph F} {r : Except PyExc Unit}, heap[i]? = some g →
      (g'.Rep ∧ ∀ e, r = .error e → g' = g) →
      (∀ g ∈ heap.set i g', g.Rep) ∧ ∀ e, r = .error e → heap.set i g' = heap := by
    intro i g g' r hget hcall
    constructor
    · intro g₁ hmem
      rcases List.mem_or_eq_of_mem_set hmem with hmem | rfl
      · exact hrep g₁ hmem
      · exact hcall.1
    · intro e he
      obtain ⟨hi, rfl⟩ := List.getElem?_eq_some_iff.mp hget
      rw [hcall.2 e he, List.set_getElem_self hi]
  cases call with
  | new maxEntities maxRelations =>
    cases h
    refine ⟨?_, fun e he => by cases he⟩
    exact List.forall_mem_append.mpr
      ⟨hrep, List.forall_mem_singleton.mpr (OntologyGraph.rep_new _ _)⟩
  | addEntity i entity =>
    obtain ⟨g, hget, heq⟩ := Option.map_eq_some_iff.mp h
    cases heq
    exact hset hget ((hrep g (List.mem_of_getElem? hget)).addEntity entity)
  | addRelation i relation =>
    obtain ⟨g, hget, heq⟩ := Option.map_eq_some_iff.mp h
    cases heq
    exact hset hget ((hrep g (List.mem_of_getElem? hget)).addRelation relation)
  | getSubgraph i roots depth maxDepth orders =>
    obtain ⟨g, hget, heq⟩ := Option.map_eq_some_iff.mp h
    have hg := hrep g (List.mem_of_getElem? hget)
    split at heq
    · next sub hsub =>
      cases heq
      refine ⟨?_, fun e he => by cases he⟩
      exact List.forall_mem_append.mpr
        ⟨hrep, List.forall_mem_singleton.mpr (OntologyGraph.Rep.getSubgraph hg hsub)⟩
    · cases heq
      exact ⟨hrep, fun _ _ => rfl⟩

/-- All graphs have the representation, and a call that raised has changed nothing. The graphs of a
run include the subgraphs, which may be added to and searched like any other one. -/
theorem graphs_rep {steps : List (List (OntologyGraph F) × Call F)} {heap : List (OntologyGraph F)}
    (run : (graphs F).Run steps heap) :
    (∀ g ∈ heap, g.Rep) ∧ ∀ p ∈ steps, ∀ e heap', p.2.run p.1 = some (.error e, heap') →
      heap' = p.1 := by
  induction run with
  | start =>
    constructor
    · intro g hg
      cases hg
    · intro p hp
      cases hp
  | next _ hstep ih =>
    obtain ⟨hrep, hbefore⟩ := ih
    obtain ⟨⟨result, heap'⟩, hcall, rfl⟩ := Option.map_eq_some_iff.mp hstep
    refine ⟨(Call.run_rep hrep hcall).1, List.forall_mem_cons.mpr ⟨?_, hbefore⟩⟩
    intro e heap'' h
    exact (Call.run_rep hrep h).2 e rfl

/-- The weight of a relation by default. -/
def weightOne : PyVal FloatText := .float (PyFloat.ofText ['1', '.', '0'])

/-- Two entities and a relation with names to strip, a relation to an unknown entity, and the
subgraph of the first entity. -/
def aliceCalls : List (Call FloatText) :=
  [.new 2 1, .addEntity 0 ⟨" alice", "user", []⟩, .addEntity 0 ⟨"bob", "", []⟩,
    .addRelation 0 ⟨"alice ", "owns", "bob", weightOne, []⟩,
    .addRelation 0 ⟨"alice", "owns", "ghost", weightOne, []⟩,
    .getSubgraph 0 ["alice"] 1 3 .insertion]

theorem graphs_rep_alice : ∃ heap : List (OntologyGraph FloatText),
    (graphs FloatText).exec [] aliceCalls = some heap ∧
      (heap.map fun g => (g.names, g.relations.length)) =
        [(["alice", "bob"], 1), (["alice", "bob"], 1)] ∧ ∀ g ∈ heap, g.Rep := by
  have hexec : ((graphs FloatText).exec [] aliceCalls).map
      (List.map fun g => (g.names, g.relations.length)) =
        some [(["alice", "bob"], 1), (["alice", "bob"], 1)] := by
    decide +kernel
  obtain ⟨heap, hheap, hnames⟩ := Option.map_eq_some_iff.mp hexec
  obtain ⟨steps, run⟩ := System.reachable_of_exec aliceCalls hheap
  exact ⟨heap, hheap, hnames, (graphs_rep run).1⟩

/-- Nothing fits under a negative cap, not even nothing. -/
theorem exceeds_negative_cap : ∃ steps heap, (graphs FloatText).Run steps heap ∧
    ∃ g ∈ heap, g.maxEntities < g.entities.length :=
  ⟨_, _, .next .start (e := .new (-1) 0) rfl, _, List.mem_singleton_self _, by decide⟩

end Noema.Ontology
