import Noema.Ontology.Cycle

/-!
# Hypotheses and their validator (`ontology/hypothesis.py`, `ontology/validator.py`)

`EpistemicValidator.validate` admits a hypothesis when its entities are known, no relation of the
ontology speaks against it, and a copy of the ontology has no cycle with it. The comparison with the
relations takes the names as they are, and the copy takes them stripped.

- `conflict`: the first relation that speaks against the hypothesis, which is its opposite on the
  same pair.
- `buildCandidate`, `wouldCreateCycle`: the copy is filled by `add_entity` and `add_relation`, which
  strip what they are given. If one of them raises, the hypothesis is rejected too.
- `acyclic_of_wouldCreateCycle`: when no cycle is found, the relations of the ontology and the one
  of the hypothesis, with its names stripped, have none.
- **`EpistemicValidator.validate_valid`**: what is known of a hypothesis that was admitted.

What pydantic does with fields and how a confidence is printed are parameters (`FieldRules`).
-/

namespace Noema.Ontology

open Noema.Lib PyJson

variable {F : Type}

/-- `Predicate` (hypothesis.py:16). -/
inductive Predicate where
  | requires
  | forbids
  deriving DecidableEq, Repr

/-- The literal of a predicate. -/
def Predicate.text : Predicate → String
  | .requires => "requires"
  | .forbids => "forbids"

/-- `_OPPOSITES` (validator.py:26). -/
def Predicate.opposite : Predicate → Predicate
  | .requires => .forbids
  | .forbids => .requires

/-- `OntologicalHypothesis` (hypothesis.py:19). -/
structure OntologicalHypothesis (F : Type) where
  subject : String
  predicate : Predicate
  object : String
  rationale : String
  confidence : F
  source : String
  trigger : String

/-- `ValidationResult` (hypothesis.py:31). -/
structure ValidationResult where
  valid : Bool
  reason : String
  deriving DecidableEq, Repr

def ValidationResult.accept : ValidationResult := ⟨true, "ok"⟩

def ValidationResult.reject (reason : String) : ValidationResult := ⟨false, reason⟩

/-- What is asked of pydantic and of the formatting of floats. -/
structure FieldRules (F : Type) where
  /-- Validation of `confidence`, with its bounds. -/
  confidence : PyVal F → Except PyExc F
  /-- `f"{x:.2f}"` -/
  fixed : F → String

/-- `EpistemicValidator` (validator.py:31). -/
structure EpistemicValidator (F : Type) where
  minConfidence : F
  typeRules : List (String × (List String × List String))

/-- `EpistemicValidator()`. -/
def EpistemicValidator.new [PyFloat F] : EpistemicValidator F :=
  ⟨PyFloat.ofText ['0', '.', '5'], []⟩

namespace OntologicalHypothesis

variable (h : OntologicalHypothesis F)

/-- `f"{h.subject} {predicate} {h.object}"` -/
def render (predicate : Predicate) : String :=
  h.subject ++ " " ++ predicate.text ++ " " ++ h.object

/-- The loop of `validate` over the relations: the reason of the first that speaks against the
hypothesis. -/
def conflict : List (Relation F) → Option String
  | [] => none
  | r :: rest =>
    if r.subject = h.subject ∧ r.object = h.object ∧ r.predicate = h.predicate.text then
      some ("already_present:" ++ h.render h.predicate)
    else if r.subject = h.subject ∧ r.object = h.object ∧
        r.predicate = h.predicate.opposite.text then
      some ("contradicts_existing_axiom:" ++ h.render h.predicate.opposite)
    else conflict rest

end OntologicalHypothesis

section Candidates

variable [PyInterp F]

/-- `for entity in entities: graph.add_entity(entity)`. -/
def addEntities : List Entity → PyM (OntologyGraph F) Unit
  | [] => pure ()
  | entity :: rest => do
    OntologyGraph.addEntity entity
    addEntities rest

/-- `for relation in relations: graph.add_relation(relation)`. -/
def addRelations : List (Relation F) → PyM (OntologyGraph F) Unit
  | [] => pure ()
  | relation :: rest => do
    OntologyGraph.addRelation relation
    addRelations rest

/-- The candidate of `_would_create_cycle`. -/
def buildCandidate (h : OntologicalHypothesis F) (ontology : OntologyGraph F) :
    PyM (OntologyGraph F) Unit := do
  addEntities ontology.sortedEntities
  addRelations ontology.relations
  OntologyGraph.addRelation
    { subject := h.subject
      predicate := h.predicate.text
      object := h.object
      weight := .float h.confidence }

/-- `_would_create_cycle` (validator.py:102). -/
def wouldCreateCycle (h : OntologicalHypothesis F) (ontology : OntologyGraph F) :
    Except PyExc Bool :=
  match buildCandidate h ontology
      { maxEntities := ontology.maxEntities, maxRelations := ontology.maxRelations } with
  | (.ok (), candidate) => candidate.hasCycle
  | (.error e, _) => .error e

namespace EpistemicValidator

/-- The check of the entity types. -/
def typeConflict (v : EpistemicValidator F) (h : OntologicalHypothesis F)
    (subject object : Entity) : Option String :=
  match v.typeRules.lookup h.predicate.text with
  | none => none
  | some (allowedSubjects, allowedObjects) =>
    let mismatch (role name type : String) : String :=
      "invalid_entity_types:" ++ role ++ " " ++ PyInterp.reprOf (.str name : PyVal F) ++
        " (type " ++ PyInterp.reprOf (.str type : PyVal F) ++ ") not allowed for " ++
        h.predicate.text
    if subject.type ∉ allowedSubjects then some (mismatch "subject" h.subject subject.type)
    else if object.type ∉ allowedObjects then some (mismatch "object" h.object object.type)
    else none

/-- `validate` (validator.py:42). -/
def validate (rules : FieldRules F) (v : EpistemicValidator F) (h : OntologicalHypothesis F)
    (ontology : OntologyGraph F) : Except PyExc ValidationResult :=
  if PyInterp.lt h.confidence v.minConfidence then
    .ok (.reject ("confidence " ++ rules.fixed h.confidence ++ " below threshold " ++
      (PyVal.float v.minConfidence).toStr))
  else do
    let subject ← ontology.getEntity h.subject
    match subject with
    | none => .ok (.reject ("unknown_subject:" ++ h.subject))
    | some subject =>
      let object ← ontology.getEntity h.object
      match object with
      | none => .ok (.reject ("unknown_object:" ++ h.object))
      | some object =>
        -- the relations are compared with the names as they were answered
        match (h.conflict ontology.relations).orElse fun _ => v.typeConflict h subject object with
        | some reason => .ok (.reject reason)
        | none =>
          -- the copy is made of the names as `add_relation` strips them
          match wouldCreateCycle h ontology with
          | .error _ => .ok (.reject "validator_error:cycle_check_unavailable")
          | .ok true => .ok (.reject ("creates_cycle:" ++ h.render h.predicate))
          | .ok false => .ok .accept

end EpistemicValidator

end Candidates

/-! ## What the validator admits -/

theorem OntologicalHypothesis.conflict_eq_none {h : OntologicalHypothesis F}
    {relations : List (Relation F)} (hnone : h.conflict relations = none) :
    ∀ r ∈ relations, r.triple ≠ (h.subject, h.predicate.opposite.text, h.object) := by
  induction relations with
  | nil =>
    intro r hr
    cases hr
  | cons r rest ih =>
    rw [conflict] at hnone
    split at hnone
    · cases hnone
    · split at hnone
      · cases hnone
      · next hopposite =>
        refine List.forall_mem_cons.mpr ⟨?_, ih hnone⟩
        intro heq
        obtain ⟨hsubject, hpredicate, hobject⟩ : r.subject = h.subject ∧
            r.predicate = h.predicate.opposite.text ∧ r.object = h.object := by
          simpa [Relation.triple] using heq
        exact hopposite ⟨hsubject, hobject, hpredicate⟩

section Admitted

variable [PyInterp F] {g g' : OntologyGraph F}

/-- A relation that was added, or was there, is an edge between the stripped names. -/
theorem OntologyGraph.Rep.addRelation_ok (hg : g.Rep) {r : Relation F}
    (h : OntologyGraph.addRelation r g = (.ok (), g')) :
    g'.Rep ∧ g.Edge ≤ g'.Edge ∧ g'.Edge (stripText r.subject) (stripText r.object) := by
  have hrep := (hg.addRelation r).1
  rw [h] at hrep
  refine ⟨hrep, ?_⟩
  rcases hg.addRelation_cases r with ⟨e, heq⟩ | ⟨added, hs, ho, -, -, -, hcases⟩
  · cases heq.symm.trans h
  rw [← cleanName_eq_ok hs, ← cleanName_eq_ok ho]
  rcases hcases with ⟨hmem, heq⟩ | ⟨-, -, heq⟩
  · cases heq.symm.trans h
    obtain ⟨r', hr', htriple⟩ := List.mem_map.mp hmem
    have hends : r'.subject = added.subject ∧ r'.predicate = added.predicate ∧
        r'.object = added.object := by
      simpa [Relation.triple] using htriple
    exact ⟨le_refl _, r', hr', hends.1, hends.2.2⟩
  · cases heq.symm.trans h
    constructor
    · rintro v w ⟨r', hr', hends⟩
      exact ⟨r', List.mem_append_left _ hr', hends⟩
    · exact ⟨added, List.mem_append_right _ List.mem_cons_self, rfl, rfl⟩

theorem addEntities_rep {entities : List Entity} (hg : g.Rep)
    (h : addEntities entities g = (.ok (), g')) : g'.Rep := by
  induction entities generalizing g with
  | nil =>
    cases h
    exact hg
  | cons entity rest ih =>
    obtain ⟨_, g₁, hadd, h⟩ := PyM.bind_inv h
    have hrep := (hg.addEntity entity).1
    rw [hadd] at hrep
    exact ih hrep h

theorem addRelations_edges {relations : List (Relation F)} (hg : g.Rep)
    (h : addRelations relations g = (.ok (), g')) :
    g'.Rep ∧ g.Edge ≤ g'.Edge ∧
      ∀ r ∈ relations, g'.Edge (stripText r.subject) (stripText r.object) := by
  induction relations generalizing g with
  | nil =>
    cases h
    refine ⟨hg, le_refl _, ?_⟩
    intro r hr
    cases hr
  | cons r rest ih =>
    obtain ⟨_, g₁, hadd, h⟩ := PyM.bind_inv h
    obtain ⟨hrep, hle, hedge⟩ := hg.addRelation_ok hadd
    obtain ⟨hrep', hle', hedges⟩ := ih hrep h
    exact ⟨hrep', hle.trans hle', List.forall_mem_cons.mpr ⟨hle' _ _ hedge, hedges⟩⟩

theorem OntologyGraph.Rep.stripText_name (hg : g.Rep) {name : String} (h : name ∈ g.names) :
    stripText name = name := by
  obtain ⟨p, hp, rfl⟩ := List.mem_map.mp h
  exact (cleanName_eq_ok (hg.entity_name p hp).2).symm

/-- When no cycle is found, the relations of the ontology and the one of the hypothesis, with its
names stripped, are part of a graph without a cycle. -/
theorem acyclic_of_wouldCreateCycle (hg : g.Rep) {h : OntologicalHypothesis F}
    (hcheck : wouldCreateCycle h g = .ok false) :
    ∃ candidate : OntologyGraph F, ¬ candidate.Cyclic ∧ g.Edge ≤ candidate.Edge ∧
      candidate.Edge (stripText h.subject) (stripText h.object) := by
  rw [wouldCreateCycle] at hcheck
  split at hcheck
  · next candidate hbuild =>
    obtain ⟨_, g₁, hentities, hbuild⟩ := PyM.bind_inv hbuild
    obtain ⟨_, g₂, hrelations, hadd⟩ := PyM.bind_inv hbuild
    have hrep₁ := addEntities_rep (OntologyGraph.rep_new _ _) hentities
    obtain ⟨hrep₂, -, hedges⟩ := addRelations_edges hrep₁ hrelations
    obtain ⟨hrep, hle, hedge⟩ := hrep₂.addRelation_ok hadd
    obtain ⟨found, hfound, hiff⟩ := hrep.hasCycle_eq
    cases hfound.symm.trans hcheck
    refine ⟨candidate, fun hcyclic => Bool.false_ne_true (hiff.mpr hcyclic), ?_, hedge⟩
    rintro v w ⟨r, hr, rfl, rfl⟩
    have hr' := hle _ _ (hedges r hr)
    rwa [hg.stripText_name (hg.subject_mem r hr), hg.stripText_name (hg.object_mem r hr)] at hr'
  · cases hcheck

/-- What is known of a hypothesis that was admitted. -/
theorem EpistemicValidator.validate_valid {rules : FieldRules F} {v : EpistemicValidator F}
    {h : OntologicalHypothesis F} {check : ValidationResult}
    (hcheck : v.validate rules h g = .ok check) (hvalid : check.valid = true) :
    h.conflict g.relations = none ∧ wouldCreateCycle h g = .ok false := by
  rw [validate] at hcheck
  -- each exit of `validate` but the last one rejects
  split at hcheck
  · cases hcheck
    cases hvalid
  obtain ⟨subject, -, hcheck⟩ := bind_eq_ok hcheck
  rcases subject with _ | subject
  · cases hcheck
    cases hvalid
  obtain ⟨object, -, hcheck⟩ := bind_eq_ok hcheck
  rcases object with _ | object
  · cases hcheck
    cases hvalid
  dsimp only at hcheck
  split at hcheck
  · cases hcheck
    cases hvalid
  · next hnone =>
    split at hcheck
    · cases hcheck
      cases hvalid
    · cases hcheck
      cases hvalid
    · next hcycle =>
      refine ⟨?_, hcycle⟩
      cases hconflict : h.conflict g.relations with
      | none => rfl
      | some reason =>
        rw [hconflict] at hnone
        cases hnone

end Admitted

end Noema.Ontology
