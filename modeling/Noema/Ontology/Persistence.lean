import Noema.Ontology.GraphRuns
import Noema.Utils.JsonFiles

/-!
# Saving and loading the ontology (`OntologyGraph.save`, `OntologyGraph.load`)

`save` writes the entities and the relations as JSON. `load` adds them to an empty graph again, with
the calls that clean names and types, and stops at the first that raises. It is the text of the file
that is modelled, with the atomic replacement of `Utils.AtomicIo`, so that the encoder and the
decoder are both part of the result.

- `Stored`: what the calls store is clean, but for types, which may be empty, as a blank type is
  stripped after its default was chosen.
- `atomicReadJson_save`: what was saved is read back as the payload.
- `addAll_entities`, `addAll_relations`: the two loops over items that are new succeed one by one,
  and the graph that they fill keeps its representation.
- `load_save`: the relations are the same, and an empty type has become `unknown` (`reloaded`).
- **`load_save_iff`**: for every graph that calls make within the default caps, loading gives back
  what was saved if and only if no type is empty.
- `blank_type_changes`: an entity with a blank type.
-/

namespace Noema.Ontology

open Noema.Lib Noema.Utils PyJson

variable {F : Type}

/-! ## Saving -/

/-- A dict of strings. -/
def strDict (d : List (String × String)) : PyVal F := .dict (d.map fun p => (p.1, .str p.2))

/-- `asdict(e)`. -/
def Entity.asDict (e : Entity) : PyVal F :=
  .dict [("name", .str e.name), ("type", .str e.type), ("attributes", strDict e.attributes)]

/-- `asdict(r)`. -/
def Relation.asDict (r : Relation F) : PyVal F :=
  .dict [("subject", .str r.subject), ("predicate", .str r.predicate), ("object", .str r.object),
    ("weight", r.weight), ("metadata", strDict r.metadata)]

namespace OntologyGraph

/-- The payload of `save`. -/
def payload (g : OntologyGraph F) : PyVal F :=
  .dict [("entities", .list (g.entities.map fun p => p.2.asDict)),
    ("relations", .list (g.relations.map Relation.asDict))]

/-- `save` (graph.py:318), with the random part of the name of the temporary file. -/
def save [PyFloat F] (g : OntologyGraph F) (path random : String) : PyM Files Unit :=
  atomicWriteJson path true 5 ⟨random, .ok (dumpsIndent false 0 g.payload)⟩

/-! ## Loading -/

section Load

variable [PyInterp F]

/-- What `(v or fallback).strip()` strips, but for the fallback. -/
def textOf : PyVal F → Except PyExc String
  | .str s => .ok s
  | v =>
    if v.truthy then
      .error (.attributeError ("'" ++ v.typeName ++ "' object has no attribute 'strip'"))
    else .ok ""

/-- A field of the data that has no default. -/
def required (data : List (String × PyVal F)) (field : String) : Except PyExc (PyVal F) :=
  match data.lookup field with
  | some v => .ok v
  | none => .error (.typeError ("__init__() missing 1 required positional argument: '" ++ field ++
      "'"))

/-- The items of a dict of strings. -/
def strItems : PyVal F → Option (List (String × String))
  | .dict kvs => kvs.mapM fun
    | (key, .str s) => some (key, s)
    | _ => none
  | _ => none

/-- `dict(data.get(field, {}))`. Graphs hold dicts of strings; `convert` is what becomes of all
other values. -/
def optionalDict (convert : PyVal F → Except PyExc (List (String × String)))
    (data : List (String × PyVal F)) (field : String) : Except PyExc (List (String × String)) :=
  match data.lookup field with
  | none => .ok []
  | some v =>
    match strItems v with
    | some items => .ok items
    | none => convert v

/-- `raw.items()`. -/
def itemsOf : PyVal F → Except PyExc (List (String × PyVal F))
  | .dict kvs => .ok kvs
  | v => .error (.attributeError ("'" ++ v.typeName ++ "' object has no attribute 'items'"))

variable (convert : PyVal F → Except PyExc (List (String × String)))

/-- The entity of a part of the data. -/
def entityOf (raw : PyVal F) : Except PyExc Entity := do
  let data ← itemsOf raw
  let name ← required data "name"
  let type ← required data "type"
  .ok { name := ← textOf name, type := ← textOf type,
        attributes := ← optionalDict convert data "attributes" }

/-- The relation of a part of the data. -/
def relationOf (raw : PyVal F) : Except PyExc (Relation F) := do
  let data ← itemsOf raw
  let subject ← required data "subject"
  let predicate ← required data "predicate"
  let object ← required data "object"
  .ok { subject := ← textOf subject, predicate := ← textOf predicate, object := ← textOf object,
        weight := (data.lookup "weight").getD (.float (PyFloat.ofText ['1', '.', '0']))
        metadata := ← optionalDict convert data "metadata" }

/-- A loop of `load`. -/
def addAll {α : Type} (make : PyVal F → Except PyExc α) (add : α → PyM (OntologyGraph F) Unit) :
    List (PyVal F) → PyM (OntologyGraph F) Unit
  | [] => pure ()
  | raw :: rest => do
    let item ← PyM.lift (make raw)
    add item
    addAll make add rest

/-- The part of `load` that suppresses exceptions. -/
def loadData (data : List (String × PyVal F)) : PyM (OntologyGraph F) Unit := do
  let entities ← PyM.lift ((data.lookup "entities").getD (.list [])).iter
  addAll (entityOf convert) addEntity entities
  let relations ← PyM.lift ((data.lookup "relations").getD (.list [])).iter
  addAll (relationOf convert) addRelation relations

/-- `load` (graph.py:327), without `kwargs`. -/
def load (path : String) (d : Files) : OntologyGraph F :=
  match atomicReadJson path none d with
  | .dict data => (loadData convert data {}).2
  | _ => {}

end Load

/-! ## What is stored -/

/-- What the calls store: types are stripped, predicates too, and are not empty; weights are floats;
and attributes and metadata are dicts. -/
structure Stored (g : OntologyGraph F) : Prop where
  types : ∀ p ∈ g.entities, stripText p.2.type = p.2.type
  attributes : ∀ p ∈ g.entities, (p.2.attributes.map Prod.fst).Nodup
  predicates : ∀ r ∈ g.relations, stripText r.predicate = r.predicate ∧ r.predicate ≠ ""
  weights : ∀ r ∈ g.relations, ∃ weight, r.weight = .float weight
  metadata : ∀ r ∈ g.relations, (r.metadata.map Prod.fst).Nodup

theorem stripText_stripText (text : String) : stripText (stripText text) = stripText text := by
  rw [stripText, stripText, String.toList_ofList, strip_strip]

variable {g : OntologyGraph F}

theorem stored_new : ({} : OntologyGraph F).Stored :=
  ⟨fun _ h => absurd h List.not_mem_nil, fun _ h => absurd h List.not_mem_nil,
    fun _ h => absurd h List.not_mem_nil, fun _ h => absurd h List.not_mem_nil,
    fun _ h => absurd h List.not_mem_nil⟩

section Calls

variable [PyInterp F]

theorem Stored.addEntity (h : g.Stored) {entity : Entity}
    (hattributes : (entity.attributes.map Prod.fst).Nodup) : (addEntity entity g).2.Stored := by
  rcases addEntity_cases g entity with ⟨e, heq⟩ | ⟨added, -, htype, hadded, -, heq⟩
  · rw [heq]
    exact h
  · rw [heq]
    refine ⟨fun p hp => ?_, fun p hp => ?_, h.predicates, h.weights, h.metadata⟩
    · rcases mem_dictInsert hp with rfl | hp
      · rw [htype, stripText_stripText]
      · exact h.types p hp
    · rcases mem_dictInsert hp with rfl | hp
      · rw [hadded]
        exact hattributes
      · exact h.attributes p hp

theorem Stored.addRelation (h : g.Stored) (hg : g.Rep) {relation : Relation F}
    (hmetadata : (relation.metadata.map Prod.fst).Nodup) :
    (OntologyGraph.addRelation relation g).2.Stored := by
  rcases hg.addRelation_cases relation with
    ⟨e, heq⟩ | ⟨added, -, -, hpredicate, -, -, ⟨-, heq⟩ | ⟨-, ⟨-, hne, hweight, hadded⟩, heq⟩⟩
  · rw [heq]
    exact h
  · rw [heq]
    exact h
  · rw [heq]
    have hsingle : ∀ {P : Relation F → Prop}, (∀ r ∈ g.relations, P r) → P added →
        ∀ r ∈ g.relations ++ [added], P r := fun hall hnew =>
      List.forall_mem_append.mpr ⟨hall, List.forall_mem_singleton.mpr hnew⟩
    refine ⟨h.types, h.attributes, hsingle h.predicates ⟨?_, hne⟩, hsingle h.weights hweight,
      hsingle h.metadata ?_⟩
    · rw [hpredicate, stripText_stripText]
    · rw [hadded]
      exact hmetadata

end Calls

/-! ## The payload is read back -/

theorem wf_strDict {d : List (String × String)} (h : (d.map Prod.fst).Nodup) :
    (strDict d : PyVal F).WF := by
  refine ⟨by rwa [List.map_map], ?_⟩
  rw [wfPairs_iff, List.forall_mem_map]
  exact fun _ _ => trivial

theorem isJson_strDict (d : List (String × String)) : (strDict d : PyVal F).isJson = true := by
  induction d with
  | nil => rfl
  | cons p d ih => exact ih

namespace Stored

variable (h : g.Stored)
include h

theorem wf_payload : g.payload.WF := by
  refine ⟨by simp, ?_, ?_, trivial⟩
  · refine wfItems_map fun p hp => ?_
    exact ⟨by simp, trivial, trivial, wf_strDict (h.attributes p hp), trivial⟩
  · refine wfItems_map fun r hr => ?_
    obtain ⟨weight, hweight⟩ := h.weights r hr
    have hwf : r.weight.WF := by rw [hweight]; trivial
    exact ⟨by simp, trivial, trivial, trivial, hwf, wf_strDict (h.metadata r hr), trivial⟩

theorem isJson_payload : g.payload.isJson = true := by
  have hentities : isJsonItems (g.entities.map fun p => (p.2.asDict : PyVal F)) = true :=
    isJsonItems_map fun p _ => by simp [Entity.asDict, PyVal.isJson, isJsonPairs, isJson_strDict]
  have hrelations : isJsonItems (g.relations.map Relation.asDict) = true := by
    refine isJsonItems_map fun r hr => ?_
    obtain ⟨weight, hweight⟩ := h.weights r hr
    simp [Relation.asDict, PyVal.isJson, isJsonPairs, isJson_strDict, hweight]
  simp [payload, PyVal.isJson, isJsonPairs, hentities, hrelations]

/-- A graph that was saved is read back as its payload. -/
theorem atomicReadJson_save [PyFloat F] (path random : String) (d : Files) :
    (g.save path random d).1 = .ok () ∧
      atomicReadJson path none (g.save path random d).2 = g.payload := by
  refine ⟨atomicWriteJson_returns rfl, ?_⟩
  have hfile : (g.save path random d).2 path = some (dumpsIndent false 0 g.payload) :=
    file_of_dumped path random d
  have hload := jsonLoad_dumpsIndent h.wf_payload h.isJson_payload
  rw [atomicReadJson, hfile]
  dsimp only
  rw [hload]

end Stored

/-! ## The data is added again -/

section Reload

variable [PyInterp F] (convert : PyVal F → Except PyExc (List (String × String)))

omit [PyInterp F] in
theorem strItems_strDict (d : List (String × String)) : strItems (strDict d : PyVal F) = some d := by
  rw [strDict, strItems]
  induction d with
  | nil => rfl
  | cons p d ih =>
    rw [List.map_cons, List.mapM_cons, ih]
    rfl

theorem entityOf_asDict (e : Entity) : entityOf convert (e.asDict : PyVal F) = .ok e := by
  have hattributes : optionalDict convert
      [("name", .str e.name), ("type", .str e.type), ("attributes", strDict e.attributes)]
      "attributes" = .ok e.attributes := by
    simp [optionalDict, List.lookup, strItems_strDict]
  simp [entityOf, Entity.asDict, itemsOf, required, List.lookup, textOf, hattributes, ok_bind]

theorem relationOf_asDict (r : Relation F) : relationOf convert r.asDict = .ok r := by
  have hmetadata : optionalDict convert
      [("subject", .str r.subject), ("predicate", .str r.predicate), ("object", .str r.object),
        ("weight", r.weight), ("metadata", strDict r.metadata)] "metadata" = .ok r.metadata := by
    simp [optionalDict, List.lookup, strItems_strDict]
  simp [relationOf, Relation.asDict, itemsOf, required, List.lookup, textOf, hmetadata, ok_bind]

omit [PyInterp F] in
/-- A loop over items that are read back. -/
theorem addAll_map {α β : Type} {make : PyVal F → Except PyExc α}
    {add : α → PyM (OntologyGraph F) Unit} {write : β → PyVal F} {item : β → α}
    (hmake : ∀ b, make (write b) = .ok (item b)) (b : β) (rest : List (PyVal F))
    {g g' : OntologyGraph F} (hadd : add (item b) g = (.ok (), g')) :
    addAll make add (write b :: rest) g = addAll make add rest g' := by
  rw [addAll, hmake, PyM.bind_ok (PyM.lift_apply _ _), PyM.bind_ok hadd]

/-- What becomes of an entity when it is loaded. -/
def reloaded (p : String × Entity) : String × Entity :=
  (p.1, { p.2 with type := if p.2.type = "" then "unknown" else p.2.type })

theorem addEntity_ok {g : OntologyGraph F} {e : Entity}
    (hname : cleanName F e.name = .ok e.name) (hcap : g.entities.length < g.maxEntities) :
    addEntity e g = (.ok (), g.setEntity e.name
      { name := e.name, type := stripText (if e.type = "" then "unknown" else e.type),
        attributes := e.attributes }) := by
  rw [addEntity, hname, PyM.bind_ok (PyM.lift_apply _ _), PyM.bind_ok (PyM.get_apply g),
    if_neg fun h => absurd h.2 (by omega)]
  rfl

/-- The first loop, over entities whose names are new. -/
theorem addAll_entities {entities : List (String × Entity)} {sub : OntologyGraph F} (hsub : sub.Rep)
    (hnames : ∀ p ∈ entities, p.2.name = p.1 ∧ cleanName F p.1 = .ok p.1)
    (htypes : ∀ p ∈ entities, stripText p.2.type = p.2.type)
    (hnodup : (sub.names ++ entities.map Prod.fst).Nodup)
    (hcap : ((sub.entities.length + entities.length : Nat) : Int) ≤ sub.maxEntities) :
    ∃ sub', addAll (entityOf convert) addEntity (entities.map fun p => p.2.asDict) sub =
        (.ok (), sub') ∧ sub'.Rep ∧ sub'.entities = sub.entities ++ entities.map reloaded ∧
      sub'.relations = sub.relations ∧ sub'.maxRelations = sub.maxRelations := by
  induction entities generalizing sub with
  | nil => exact ⟨sub, rfl, hsub, (List.append_nil _).symm, rfl, rfl⟩
  | cons p entities ih =>
    obtain ⟨⟨hname, hclean⟩, hnames'⟩ := List.forall_mem_cons.mp hnames
    obtain ⟨htype, htypes'⟩ := List.forall_mem_cons.mp htypes
    obtain ⟨name, e⟩ := p
    obtain rfl : e.name = name := hname
    rw [List.length_cons] at hcap
    have hreloaded : stripText (if e.type = "" then "unknown" else e.type) =
        if e.type = "" then "unknown" else e.type := by
      split
      · decide
      · exact htype
    -- the names are distinct, so each entity is added at the end
    have hnew : e.name ∉ sub.names := fun h =>
      List.disjoint_of_nodup_append hnodup h List.mem_cons_self
    have hadd : addEntity e sub =
        (.ok (), { sub with entities := sub.entities ++ [reloaded (e.name, e)] }) := by
      rw [addEntity_ok hclean (by omega), hreloaded, setEntity, dictInsert_of_not_mem hnew]
      rfl
    have hrep := (hsub.addEntity e).1
    rw [hadd] at hrep
    obtain ⟨sub', hrest, hrep', hentities, hrelations, hmax⟩ := ih hrep hnames' htypes'
      (by simpa [names, reloaded] using hnodup)
      (by simpa [Nat.add_assoc, Nat.add_comm 1] using hcap)
    refine ⟨sub', ?_, hrep', ?_, hrelations, hmax⟩
    · rw [List.map_cons, addAll_map (entityOf_asDict convert) e _ hadd]
      exact hrest
    · rw [hentities, List.map_cons, List.append_assoc]
      rfl

theorem addRelation_ok {sub : OntologyGraph F} (hsub : sub.Rep) {r : Relation F}
    (hsubject : cleanName F r.subject = .ok r.subject)
    (hobject : cleanName F r.object = .ok r.object) (hs : r.subject ∈ sub.names)
    (ho : r.object ∈ sub.names) (hpredicate : stripText r.predicate = r.predicate)
    (hne : r.predicate ≠ "") (hnew : r.triple ∉ sub.relations.map Relation.triple)
    (hcap : (sub.relations.length : Int) < sub.maxRelations) {weight : F}
    (hweight : r.weight = .float weight) :
    addRelation r sub = (.ok (), sub.appendRelation r) := by
  rw [addRelation, hsubject, hobject, PyM.bind_ok (PyM.lift_apply _ _),
    PyM.bind_ok (PyM.lift_apply _ _), PyM.bind_ok (PyM.get_apply sub), if_neg (not_not.mpr hs),
    if_neg (not_not.mpr ho), hpredicate]
  rw [if_neg hne, PyM.bind_ok (by rw [PyM.lift_apply, hsub.hasTriple_eq]),
    if_neg (by simpa [Relation.triple] using hnew), if_neg (not_le.mpr hcap), hweight]
  obtain ⟨subject, predicate, object, _, metadata⟩ := r
  cases hweight
  rfl

/-- The second loop, over relations that are new. -/
theorem addAll_relations {relations : List (Relation F)} {sub : OntologyGraph F} (hsub : sub.Rep)
    (hends : ∀ r ∈ relations, r.subject ∈ sub.names ∧ r.object ∈ sub.names)
    (hpredicates : ∀ r ∈ relations, stripText r.predicate = r.predicate ∧ r.predicate ≠ "")
    (hweights : ∀ r ∈ relations, ∃ weight, r.weight = .float weight)
    (hnodup : ((sub.relations ++ relations).map Relation.triple).Nodup)
    (hcap : ((sub.relations.length + relations.length : Nat) : Int) ≤ sub.maxRelations) :
    ∃ sub', addAll (relationOf convert) addRelation (relations.map Relation.asDict) sub =
        (.ok (), sub') ∧ sub'.entities = sub.entities ∧
      sub'.relations = sub.relations ++ relations := by
  induction relations generalizing sub with
  | nil => exact ⟨sub, rfl, rfl, (List.append_nil _).symm⟩
  | cons r relations ih =>
    obtain ⟨⟨hs, ho⟩, hends⟩ := List.forall_mem_cons.mp hends
    obtain ⟨⟨hpredicate, hne⟩, hpredicates⟩ := List.forall_mem_cons.mp hpredicates
    obtain ⟨⟨weight, hweight⟩, hweights⟩ := List.forall_mem_cons.mp hweights
    rw [List.length_cons] at hcap
    have hclean : ∀ name ∈ sub.names, cleanName F name = .ok name := by
      intro name hname
      obtain ⟨p, hp, rfl⟩ := List.mem_map.mp hname
      exact (hsub.entity_name p hp).2
    have hnew : r.triple ∉ sub.relations.map Relation.triple := by
      rw [List.map_append] at hnodup
      exact fun h => List.disjoint_of_nodup_append hnodup h List.mem_cons_self
    have hlt : (sub.relations.length : Int) < sub.maxRelations := by omega
    have hadd := addRelation_ok hsub (hclean _ hs) (hclean _ ho) hs ho hpredicate hne hnew hlt hweight
    obtain ⟨sub', hrest, hentities, hrelations⟩ := ih (hsub.appendRelation hs ho hnew hlt) hends
      hpredicates hweights (by simpa [appendRelation] using hnodup)
      (by simpa [appendRelation, Nat.add_assoc, Nat.add_comm 1] using hcap)
    refine ⟨sub', ?_, hentities, ?_⟩
    · rw [List.map_cons, addAll_map (relationOf_asDict convert) r _ hadd]
      exact hrest
    · rw [hrelations, appendRelation, List.append_assoc]
      rfl

/-- Loading what was saved: the relations are the same, and an empty type has become `unknown`. -/
theorem load_save {g : OntologyGraph F} (hg : g.Rep) (hstored : g.Stored)
    (hentities : (g.entities.length : Int) ≤ 10000) (hrelations : (g.relations.length : Int) ≤ 50000)
    (path random : String) (d : Files) :
    (load convert path (g.save path random d).2).entities = g.entities.map reloaded ∧
      (load convert path (g.save path random d).2).relations = g.relations := by
  obtain ⟨sub, hadd, hsub, hsubEntities, hnone, hmax⟩ := addAll_entities convert
    (rep_new 10000 50000) hg.entity_name hstored.types hg.names_nodup (by simpa using hentities)
  have hnames : sub.names = g.names := by
    rw [names, hsubEntities, List.nil_append, List.map_map]
    rfl
  have hsubRelations : sub.relations = [] := hnone
  -- the entities are all there, so every relation has its ends
  obtain ⟨sub', hadd', hentities', hrelations'⟩ := addAll_relations convert hsub
    (fun r hr => hnames ▸ ⟨hg.subject_mem r hr, hg.object_mem r hr⟩) hstored.predicates
    hstored.weights (by rw [hsubRelations]; exact hg.triples_nodup)
    (by rw [hsubRelations, hmax]; simpa using hrelations)
  have hload : load convert path (g.save path random d).2 = sub' := by
    rw [load, (hstored.atomicReadJson_save path random d).2, payload]
    dsimp only
    have hlists : ∀ xs ys : List (PyVal F),
        (([("entities", .list xs), ("relations", .list ys)] : List (String × PyVal F)).lookup
          "entities").getD (.list []) = .list xs ∧
        (([("entities", .list xs), ("relations", .list ys)] : List (String × PyVal F)).lookup
          "relations").getD (.list []) = .list ys := fun xs ys => by simp [List.lookup]
    obtain ⟨hfirst, hsecond⟩ := hlists (g.entities.map fun p => p.2.asDict)
      (g.relations.map Relation.asDict)
    rw [loadData, hfirst, hsecond, PyVal.iter, PyVal.iter, PyM.bind_ok (PyM.lift_apply _ _),
      PyM.bind_ok hadd, PyM.bind_ok (PyM.lift_apply _ _), hadd']
  rw [hload, hentities', hrelations', hsubRelations, hsubEntities]
  exact ⟨rfl, rfl⟩

end Reload

end OntologyGraph

/-! ## All graphs -/

/-- A call that adds to a graph. -/
inductive Addition (F : Type) where
  | entity (entity : Entity)
  | relation (relation : Relation F)

/-- The graphs that calls make of an empty one with the default caps. Attributes and metadata are
dicts, without a key twice. -/
def additions (F : Type) [PyInterp F] : System (OntologyGraph F) (Addition F) where
  init := {}
  step g
    | .entity entity =>
      if (entity.attributes.map Prod.fst).Nodup then some (OntologyGraph.addEntity entity g).2
      else none
    | .relation relation =>
      if (relation.metadata.map Prod.fst).Nodup then some (OntologyGraph.addRelation relation g).2
      else none

/-- No entity has an empty type. -/
def OntologyGraph.Typed (g : OntologyGraph F) : Prop := ∀ p ∈ g.entities, p.2.type ≠ ""

theorem reloaded_eq_self_iff {p : String × Entity} :
    OntologyGraph.reloaded p = p ↔ p.2.type ≠ "" := by
  obtain ⟨name, e⟩ := p
  rw [OntologyGraph.reloaded, Prod.mk.injEq, and_iff_right rfl]
  constructor
  · intro h htype
    have htypes := congrArg Entity.type h
    rw [htype, if_pos rfl] at htypes
    have hunknown : "unknown" ≠ "" := by decide
    exact hunknown htypes
  · intro htype
    rw [if_neg htype]

section Runs

variable [PyInterp F]

/-- The caps of a graph do not change. -/
theorem additions_invariant {steps : List (OntologyGraph F × Addition F)} {g : OntologyGraph F}
    (run : (additions F).Run steps g) :
    g.Rep ∧ g.Stored ∧ g.maxEntities = 10000 ∧ g.maxRelations = 50000 := by
  refine run.invariant (P := fun g => g.Rep ∧ g.Stored ∧ g.maxEntities = 10000 ∧
    g.maxRelations = 50000) ⟨OntologyGraph.rep_new _ _, OntologyGraph.stored_new, rfl, rfl⟩ ?_
  rintro g call g' ⟨hg, hstored, hmaxEntities, hmaxRelations⟩ hstep
  cases call with
  | entity entity =>
    obtain ⟨hdict, hstep⟩ := Option.ite_none_right_eq_some.mp hstep
    cases hstep
    refine ⟨(hg.addEntity entity).1, hstored.addEntity hdict, ?_⟩
    rcases OntologyGraph.addEntity_cases g entity with ⟨e, heq⟩ | ⟨added, -, -, -, -, heq⟩
    · rw [heq]
      exact ⟨hmaxEntities, hmaxRelations⟩
    · rw [heq]
      exact ⟨hmaxEntities, hmaxRelations⟩
  | relation relation =>
    obtain ⟨hdict, hstep⟩ := Option.ite_none_right_eq_some.mp hstep
    cases hstep
    refine ⟨(hg.addRelation relation).1, hstored.addRelation hg hdict, ?_⟩
    rcases hg.addRelation_cases relation with
      ⟨e, heq⟩ | ⟨added, -, -, -, -, -, ⟨-, heq⟩ | ⟨-, -, heq⟩⟩
    · rw [heq]
      exact ⟨hmaxEntities, hmaxRelations⟩
    · rw [heq]
      exact ⟨hmaxEntities, hmaxRelations⟩
    · rw [heq]
      exact ⟨hmaxEntities, hmaxRelations⟩

/-- **Saving and loading**, for every graph that calls make within the default caps, and whatever is
in the directory: `save` succeeds, and `load` gives back the same entities and the same relations in
their order if and only if no entity has an empty type. -/
theorem load_save_iff {steps : List (OntologyGraph F × Addition F)} {g : OntologyGraph F}
    (run : (additions F).Run steps g)
    (convert : PyVal F → Except PyExc (List (String × String))) (path random : String) (d : Files) :
    (g.save path random d).1 = .ok () ∧
      (((OntologyGraph.load convert path (g.save path random d).2).entities = g.entities ∧
          (OntologyGraph.load convert path (g.save path random d).2).relations = g.relations) ↔
        g.Typed) := by
  obtain ⟨hg, hstored, hmaxEntities, hmaxRelations⟩ := additions_invariant run
  have hentities := hg.entities_le
  have hrelations := hg.relations_le
  rw [hmaxEntities] at hentities
  rw [hmaxRelations] at hrelations
  obtain ⟨hloadEntities, hloadRelations⟩ := OntologyGraph.load_save convert hg hstored
    (by simpa using hentities) (by simpa using hrelations) path random d
  refine ⟨(hstored.atomicReadJson_save path random d).1, ?_⟩
  rw [hloadEntities, hloadRelations, and_iff_left rfl, OntologyGraph.Typed]
  constructor
  · intro h p hp
    have hmap := List.map_eq_map_iff.mp (h.trans (List.map_id _).symm)
    exact reloaded_eq_self_iff.mp (hmap p hp)
  · intro h
    exact (List.map_congr_left fun p hp => reloaded_eq_self_iff.mpr (h p hp)).trans (List.map_id _)

end Runs

/-- Two entities, the second one without a type, and a relation, with names to strip. -/
def teamAdditions : List (Addition FloatText) :=
  [.entity ⟨" alice", "user", [("role", "admin")]⟩, .entity ⟨"bob", "", []⟩,
    .relation ⟨"alice ", " owns", "bob", weightOne, []⟩]

/-- A value that is no dict of strings is refused. -/
def refuse (_ : PyVal FloatText) : Except PyExc (List (String × String)) :=
  .error (.typeError "no dict of strings")

theorem load_save_iff_team : ∃ g : OntologyGraph FloatText,
    (additions FloatText).exec {} teamAdditions = some g ∧
      (OntologyGraph.load refuse "kb.json" (g.save "kb.json" "x" fun _ => none).2).entities =
        g.entities := by
  have hexec : ((additions FloatText).exec {} teamAdditions).map
      (fun g => g.entities.map fun p => p.2.type) = some ["user", "unknown"] := by
    decide +kernel
  obtain ⟨g, hg, htypes⟩ := Option.map_eq_some_iff.mp hexec
  obtain ⟨steps, run⟩ := System.reachable_of_exec teamAdditions hg
  have hload := (load_save_iff run refuse "kb.json" "x" fun _ => none).2
  refine ⟨g, hg, (hload.mpr fun p hp htype => ?_).1⟩
  have hmem : p.2.type ∈ ["user", "unknown"] := htypes ▸ List.mem_map_of_mem hp
  rw [htype] at hmem
  exact absurd hmem (by decide)

/-- A blank type is stored as an empty one, which is loaded as `unknown`. -/
theorem blank_type_changes : ∃ g : OntologyGraph FloatText,
    (additions FloatText).exec {} [.entity ⟨"alice", " ", []⟩] = some g ∧
      (OntologyGraph.load refuse "kb.json" (g.save "kb.json" "x" fun _ => none).2).entities ≠
        g.entities := by
  have hexec : ((additions FloatText).exec {} [.entity ⟨"alice", " ", []⟩]).map
      (fun g => (g.entities.map (fun p => p.2.type),
        (OntologyGraph.load refuse "kb.json" (g.save "kb.json" "x" fun _ => none).2).entities.map
          fun p => p.2.type)) = some ([""], ["unknown"]) := by
    decide +kernel
  obtain ⟨g, hg, htypes⟩ := Option.map_eq_some_iff.mp hexec
  refine ⟨g, hg, fun h => ?_⟩
  rw [h] at htypes
  obtain ⟨hbefore, hafter⟩ := Prod.mk.inj htypes
  exact absurd (hbefore.symm.trans hafter) (by decide)

end Noema.Ontology
