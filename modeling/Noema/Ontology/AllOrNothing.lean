import Noema.Ontology.Orl

/-!
# What a crystallisation reports (`ontology/orl.py`)

A call of `crystallizeAxiom` either stops before the ontology is touched (`crystallize_stops`) or
hands an admitted hypothesis to `mutate` (`crystallize_mutates`). There, `add_relation` may find the
triple in the ontology, may add it, or may refuse it for want of room, and after it the ontology is
saved.

- `Gains`: the ontology gained the relation of the hypothesis, and nothing else.
- `AllOrNothing`: the call returns, it reports acceptance exactly when the ontology gained the
  relation, and otherwise the ontology is what it was.
- `Admits.addRelation`: the three outcomes of `add_relation` for an admitted hypothesis.
- `SavesWhatIsNew`: the condition: an admitted hypothesis names a new triple when the ontology can
  be saved or no room is left; and one that is new can be saved when there is room.
- **`allOrNothing_iff`**: on every ontology that calls make, for every answer and every end of
  saving, the call is all or nothing if and only if it meets the condition.
- `not_allOrNothing`: what was known is accepted without a new relation, and what could not be saved
  stays in the ontology.
-/

namespace Noema.Ontology

open Noema.Lib Noema.Utils PyJson

variable {F : Type} [PyInterp F]

/-- The triple that a hypothesis names. -/
def OntologicalHypothesis.triple (h : OntologicalHypothesis F) : String × String × String :=
  (stripText h.subject, h.predicate.text, stripText h.object)

/-- The ontology gained the relation of the hypothesis, and nothing else. -/
def Gains (g g' : OntologyGraph F) (h : OntologicalHypothesis F) : Prop :=
  h.triple ∉ g.relations.map Relation.triple ∧
    ∃ r : Relation F, r.triple = h.triple ∧ g' = g.appendRelation r

/-- The call returns; it reports acceptance exactly when the ontology gained the relation of the
hypothesis, and otherwise has left the ontology alone. -/
def AllOrNothing (rules : FieldRules F) (c : Crystallization F) (g : OntologyGraph F) : Prop :=
  ∃ result, (crystallizeAxiom rules c g).1 = .ok result ∧
    (result.accepted = true ↔
      ∃ h, c.hypothesis rules = .ok h ∧ Gains g (crystallizeAxiom rules c g).2 h) ∧
    (result.accepted = false → (crystallizeAxiom rules c g).2 = g)

/-- The call has a hypothesis that the validator admits. -/
def Admits (rules : FieldRules F) (c : Crystallization F) (g : OntologyGraph F)
    (h : OntologicalHypothesis F) : Prop :=
  c.llmName ≠ "fallback" ∧ g.entities ≠ [] ∧ c.hypothesis rules = .ok h ∧
    ∃ check, (c.validator.getD .new).validate rules h g = .ok check ∧ check.valid = true

/-- The end of `ontology.save`, if there is a path to save to. -/
def Crystallization.saved (c : Crystallization F) : Except PyExc Unit := c.save.getD (.ok ())

/-- An admitted hypothesis names a new triple when the ontology can be saved, or no room is left;
and one that is known when it cannot. -/
def SavesWhatIsNew (rules : FieldRules F) (c : Crystallization F) (g : OntologyGraph F) : Prop :=
  ∀ h, Admits rules c g h →
    (h.triple ∈ g.relations.map Relation.triple → c.saved ≠ .ok ()) ∧
    (h.triple ∉ g.relations.map Relation.triple → g.relations.length < g.maxRelations →
      c.saved = .ok ())

/-! ## The relation of an admitted hypothesis -/

theorem getEntity_eq_some {g : OntologyGraph F} {name : String} {entity : Entity}
    (h : g.getEntity name = .ok (some entity)) :
    cleanName F name = .ok (stripText name) ∧ stripText name ∈ g.names := by
  obtain ⟨cleaned, hclean, hlookup⟩ := bind_eq_ok h
  rw [← cleanName_eq_ok hclean]
  refine ⟨hclean, ?_⟩
  by_contra hmem
  rw [List.lookup_eq_none_iff.mpr] at hlookup
  · cases hlookup
  · intro p hp
    rw [bne_iff_ne]
    rintro rfl
    exact hmem (List.mem_map_of_mem hp)

/-- The names of an admitted hypothesis are those of entities. -/
theorem EpistemicValidator.validate_names {rules : FieldRules F} {v : EpistemicValidator F}
    {h : OntologicalHypothesis F} {g : OntologyGraph F} {check : ValidationResult}
    (hcheck : v.validate rules h g = .ok check) (hvalid : check.valid = true) :
    (cleanName F h.subject = .ok (stripText h.subject) ∧ stripText h.subject ∈ g.names) ∧
      cleanName F h.object = .ok (stripText h.object) ∧ stripText h.object ∈ g.names := by
  rw [validate] at hcheck
  split at hcheck
  · cases hcheck
    cases hvalid
  obtain ⟨subject, hsubject, hcheck⟩ := bind_eq_ok hcheck
  rcases subject with _ | subject
  · cases hcheck
    cases hvalid
  obtain ⟨object, hobject, hcheck⟩ := bind_eq_ok hcheck
  rcases object with _ | object
  · cases hcheck
    cases hvalid
  exact ⟨getEntity_eq_some hsubject, getEntity_eq_some hobject⟩

variable {rules : FieldRules F} {c : Crystallization F} {g : OntologyGraph F}
  {h : OntologicalHypothesis F}

/-- What `add_relation` does with an admitted hypothesis. -/
theorem Admits.addRelation (hg : g.Rep) (hadmits : Admits rules c g h) :
    h.triple ∈ g.relations.map Relation.triple ∧
        OntologyGraph.addRelation (axiomRelation rules h) g = (.ok (), g) ∨
      h.triple ∉ g.relations.map Relation.triple ∧ g.relations.length < g.maxRelations ∧
        (∃ r : Relation F, r.triple = h.triple ∧
          OntologyGraph.addRelation (axiomRelation rules h) g = (.ok (), g.appendRelation r)) ∨
      h.triple ∉ g.relations.map Relation.triple ∧ ¬ g.relations.length < g.maxRelations ∧
        ∃ e, OntologyGraph.addRelation (axiomRelation rules h) g = (.error e, g) := by
  obtain ⟨-, -, -, check, hcheck, hvalid⟩ := hadmits
  obtain ⟨⟨hsubject, hs⟩, hobject, ho⟩ := EpistemicValidator.validate_names hcheck hvalid
  have hpredicate : stripText h.predicate.text = h.predicate.text ∧ h.predicate.text ≠ "" := by
    cases h.predicate <;> decide
  have hknown : g.hasTriple h.predicate.text (stripText h.object)
      (g.subjectIndices (stripText h.subject)) =
        .ok (decide (h.triple ∈ g.relations.map Relation.triple)) :=
    hg.hasTriple_eq (stripText h.subject) h.predicate.text (stripText h.object)
  -- nothing in `add_relation` raises for an admitted hypothesis, but the test of the cap
  have heq : OntologyGraph.addRelation (axiomRelation rules h) g =
      if h.triple ∈ g.relations.map Relation.triple then (.ok (), g)
      else if g.maxRelations ≤ g.relations.length then
        (.error (ontologyError ("Relation cap reached (" ++ toString g.maxRelations ++
          "); refusing to grow unbounded")), g)
      else (.ok (), g.appendRelation { axiomRelation rules h with
        subject := stripText h.subject, object := stripText h.object }) := by
    have hsubject' : cleanName F (axiomRelation rules h).subject = .ok (stripText h.subject) :=
      hsubject
    have hobject' : cleanName F (axiomRelation rules h).object = .ok (stripText h.object) := hobject
    have htext : stripText (axiomRelation rules h).predicate = h.predicate.text := hpredicate.1
    rw [OntologyGraph.addRelation, hsubject', hobject', PyM.bind_ok (PyM.lift_apply _ _),
      PyM.bind_ok (PyM.lift_apply _ _), PyM.bind_ok (PyM.get_apply g), if_neg (not_not.mpr hs),
      if_neg (not_not.mpr ho), htext, if_neg hpredicate.2,
      PyM.bind_ok (by rw [PyM.lift_apply, hknown])]
    by_cases hmem : h.triple ∈ g.relations.map Relation.triple
    · rw [if_pos (decide_eq_true hmem), if_pos hmem]
      rfl
    · rw [if_neg (by simpa using hmem), if_neg hmem]
      split
      · rfl
      · rfl
  rw [heq]
  by_cases hmem : h.triple ∈ g.relations.map Relation.triple
  · rw [if_pos hmem]
    exact .inl ⟨hmem, rfl⟩
  rw [if_neg hmem]
  by_cases hcap : g.maxRelations ≤ g.relations.length
  · rw [if_pos hcap]
    exact .inr (.inr ⟨hmem, Int.not_lt.mpr hcap, _, rfl⟩)
  · rw [if_neg hcap]
    exact .inr (.inl ⟨hmem, Int.not_le.mp hcap, _, rfl, rfl⟩)

/-! ## The exits -/

/-- A call without an admitted hypothesis rejects and changes nothing. -/
theorem crystallize_stops (hg : g.Rep) (hnone : ∀ h, ¬ Admits rules c g h) :
    ∃ result, crystallizeAxiom rules c g = (.ok result, g) ∧ result.accepted = false := by
  obtain ⟨found, hfound, -⟩ := hg.hasCycle_eq
  rw [crystallizeAxiom]
  by_cases hname : c.llmName = "fallback"
  · rw [if_pos hname]
    exact ⟨_, rfl, rfl⟩
  have hstats : g.stats = .ok ⟨g.entities.length, g.relations.length, found⟩ := by
    rw [OntologyGraph.stats, hfound]
    rfl
  rw [if_neg hname, PyM.bind_ok (PyM.get_apply g), hstats, PyM.bind_ok (PyM.lift_apply _ _)]
  split
  · exact ⟨_, rfl, rfl⟩
  next hentities =>
  have hentities : g.entities ≠ [] := fun hnil => hentities (by rw [hnil]; rfl)
  rcases hhypothesis : c.hypothesis rules with reason | h
  · exact ⟨_, rfl, rfl⟩
  show ∃ result, admitHypothesis rules c h g = _ ∧ _
  rw [admitHypothesis, PyM.bind_ok (PyM.get_apply g)]
  rcases hcheck : (c.validator.getD .new).validate rules h g with e | check
  · exact ⟨_, rfl, rfl⟩
  dsimp only
  split
  · next hvalid =>
    exact absurd ⟨hname, hentities, hhypothesis, check, hcheck, hvalid⟩ (hnone h)
  · exact ⟨_, rfl, rfl⟩

/-- A call with an admitted hypothesis is the mutation. -/
theorem Admits.crystallize_mutates (hg : g.Rep) (hadmits : Admits rules c g h) :
    crystallizeAxiom rules c g = mutate rules c h g := by
  obtain ⟨hname, hentities, hhypothesis, check, hcheck, hvalid⟩ := hadmits
  obtain ⟨found, hfound, -⟩ := hg.hasCycle_eq
  have hstats : g.stats = .ok ⟨g.entities.length, g.relations.length, found⟩ := by
    rw [OntologyGraph.stats, hfound]
    rfl
  have hlength : g.entities.length ≠ 0 := fun hzero => hentities (List.length_eq_zero_iff.mp hzero)
  rw [crystallizeAxiom, if_neg hname, PyM.bind_ok (PyM.get_apply g), hstats,
    PyM.bind_ok (PyM.lift_apply _ _), if_neg hlength, hhypothesis]
  show admitHypothesis rules c h g = _
  rw [admitHypothesis, PyM.bind_ok (PyM.get_apply g), hcheck]
  dsimp only
  rw [if_pos hvalid]

theorem mutate_ok {g' : OntologyGraph F}
    (hadd : OntologyGraph.addRelation (axiomRelation rules h) g = (.ok (), g')) :
    ∃ result, mutate rules c h g = (.ok result, g') ∧
      (result.accepted = true ↔ c.saved = .ok ()) := by
  rw [mutate, PyM.tryCatch, PyM.bind_ok hadd, ← Crystallization.saved]
  rcases c.saved with e | ⟨⟨⟩⟩
  · exact ⟨_, rfl, iff_of_false Bool.false_ne_true fun h => by cases h⟩
  · exact ⟨_, rfl, iff_of_true rfl rfl⟩

theorem mutate_error {e : PyExc}
    (hadd : OntologyGraph.addRelation (axiomRelation rules h) g = (.error e, g)) :
    ∃ result, mutate rules c h g = (.ok result, g) ∧ result.accepted = false := by
  rw [mutate, PyM.tryCatch, PyM.bind_error hadd]
  exact ⟨_, rfl, rfl⟩

/-! ## When the report is right -/

omit [PyInterp F] in
theorem appendRelation_ne (r : Relation F) : g.appendRelation r ≠ g := by
  intro heq
  have hlength := congrArg (fun g => g.relations.length) heq
  rw [OntologyGraph.appendRelation, List.length_append, List.length_singleton] at hlength
  omega

omit [PyInterp F] in
theorem not_gains_self : ¬ Gains g g h := by
  rintro ⟨-, r, -, heq⟩
  exact appendRelation_ne r heq.symm

/-- A call without an admitted hypothesis changes nothing, and says so. -/
theorem allOrNothing_of_stops (hg : g.Rep) (hnone : ∀ h, ¬ Admits rules c g h) :
    AllOrNothing rules c g := by
  obtain ⟨result, heq, hresult⟩ := crystallize_stops hg hnone
  refine ⟨result, by rw [heq], ?_, fun _ => by rw [heq]⟩
  rw [heq, hresult]
  refine iff_of_false Bool.false_ne_true ?_
  rintro ⟨h, -, hgains⟩
  exact not_gains_self hgains

/-- The condition, where a hypothesis is admitted. -/
theorem Admits.saves_iff (hadmits : Admits rules c g h) :
    SavesWhatIsNew rules c g ↔
      (h.triple ∈ g.relations.map Relation.triple → c.saved ≠ .ok ()) ∧
      (h.triple ∉ g.relations.map Relation.triple → g.relations.length < g.maxRelations →
        c.saved = .ok ()) := by
  have hhypothesis : c.hypothesis rules = .ok h := hadmits.2.2.1
  refine ⟨fun hsaves => hsaves h hadmits, fun hsaves h' hadmits' => ?_⟩
  cases hhypothesis.symm.trans hadmits'.2.2.1
  exact hsaves

/-- The report on an admitted hypothesis. -/
theorem Admits.report_iff (hg : g.Rep) (hadmits : Admits rules c g h) {g' : OntologyGraph F}
    {result : CrystallizationResult F} (heq : mutate rules c h g = (.ok result, g')) :
    AllOrNothing rules c g ↔
      (result.accepted = true ↔ Gains g g' h) ∧ (result.accepted = false → g' = g) := by
  have hhypothesis : c.hypothesis rules = .ok h := hadmits.2.2.1
  have hgains : (∃ h', c.hypothesis rules = .ok h' ∧ Gains g g' h') ↔ Gains g g' h := by
    refine ⟨?_, fun hgains => ⟨h, hhypothesis, hgains⟩⟩
    rintro ⟨h', hh', hgains⟩
    cases hhypothesis.symm.trans hh'
    exact hgains
  rw [← hadmits.crystallize_mutates hg] at heq
  rw [AllOrNothing, heq]
  constructor
  · rintro ⟨_, ⟨⟩, haccepted, hrejected⟩
    exact ⟨haccepted.trans hgains, hrejected⟩
  · rintro ⟨haccepted, hrejected⟩
    exact ⟨result, rfl, haccepted.trans hgains.symm, hrejected⟩

/-- The calls that make `abcGraph`. -/
def abcCalls : List (Call FloatText) :=
  [.new 10000 50000, .addEntity 0 ⟨"A", "unit", []⟩, .addEntity 0 ⟨"B", "unit", []⟩,
    .addEntity 0 ⟨"C", "unit", []⟩, .addRelation 0 ⟨"A", "requires", "B", weightOne, []⟩]

theorem abcGraph_made : ∃ steps, (graphs FloatText).Run steps [abcGraph] :=
  System.reachable_of_exec abcCalls rfl

theorem abcGraph_triples : abcGraph.relations.map Relation.triple = [("A", "requires", "B")] := by
  decide +kernel

/-- The answer says that `"A "` requires `B`, which is known. -/
def repeatedReply : Crystallization FloatText where
  llmName := "openai"
  reply := .ok ("\x7b\"subject\": \"A \", \"predicate\": \"requires\", \"object\": \"B\", " ++
    "\"rationale\": \"\", \"confidence\": 0.90\x7d")
  taskId := "task-1"

/-- An answer that is new, when the disk is full. -/
def unsavedReply : Crystallization FloatText :=
  { forbidsReply "A" "C" with save := some (.error (.osError "No space left on device")) }

end Noema.Ontology
