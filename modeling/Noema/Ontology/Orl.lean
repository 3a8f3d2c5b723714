import Noema.Ontology.Validator
import Noema.Utils.JsonUtils

/-!
# Crystallisation of axioms (`ontology/orl.py`)

`crystallizeAxiom` turns the answer of an LLM into a hypothesis and adds the relation when the
validator admits it. The answer may be anything, and so may be the end of saving; both are part of
the call (`Crystallization`).

- `parseHypothesis`, `Crystallization.hypothesis`: the fields of the answer, as pydantic checks
  them, or the reason why there is no hypothesis.
- `mutate`: the last part, which adds entities and the relation and saves the ontology.
- `crystallizeAxiom_cases`: a call leaves the ontology alone, or adds the relation of an admitted
  hypothesis.
- `crystallizeAxiom_acyclic`: the ontology stays acyclic, whatever the answer, since the validator
  looks for cycles in a copy with stripped names.
- **`crystallizations_consistent`**: it also stays without opposed axioms as long as no answer has a
  name in need of stripping on a pair that is related by the opposite predicate
  (`Crystallization.Proper`): the validator looks for the opposite relation under the name as it was
  answered.
- `spaced_name_contradicts`: an answer about `"A "`.
-/

namespace Noema.Ontology

open Noema.Lib Noema.Utils PyJson

variable {F : Type}

/-! ## The answer -/

section Parse

variable [PyInterp F]

/-- A required field of type `str` with `min_length=1`. -/
def requiredName (parsed : List (String × PyVal F)) (key : String) : Except PyExc String :=
  match parsed.lookup key with
  | none => .error (.custom "ValidationError" "Field required")
  | some v => do
    let text ← v.asStr
    if text = "" then
      .error (.custom "ValidationError" "String should have at least 1 character")
    else .ok text

/-- A field of type `Predicate`. -/
def predicateField (parsed : List (String × PyVal F)) : Except PyExc Predicate :=
  match parsed.lookup "predicate" with
  | none => .error (.custom "ValidationError" "Field required")
  | some (.str "requires") => .ok .requires
  | some (.str "forbids") => .ok .forbids
  | some _ => .error (.custom "ValidationError" "Input should be 'requires' or 'forbids'")

/-- `OntologicalHypothesis(**fields, source="healer_orl", trigger=task_id)`. -/
def parseHypothesis (rules : FieldRules F) (parsed : List (String × PyVal F)) (taskId : String) :
    Except PyExc (OntologicalHypothesis F) :=
  let repeated (key : String) : PyExc :=
    .typeError ("noema.ontology.hypothesis.OntologicalHypothesis() got multiple values for " ++
      "keyword argument '" ++ key ++ "'")
  -- Both keys are fields of the model, so they are passed on with the others.
  if "source" ∈ parsed.map Prod.fst then .error (repeated "source")
  else if "trigger" ∈ parsed.map Prod.fst then .error (repeated "trigger")
  else do
    let subject ← requiredName parsed "subject"
    let predicate ← predicateField parsed
    let object ← requiredName parsed "object"
    let rationale ← (getOr parsed "rationale" (.str "")).asStr
    let confidence ← rules.confidence
      (getOr parsed "confidence" (.float (PyFloat.ofText ['0', '.', '5'])))
    .ok
      { subject := subject
        predicate := predicate
        object := object
        rationale := rationale
        confidence := confidence
        source := "healer_orl"
        trigger := taskId }

end Parse

/-! ## The pipeline -/

/-- `CrystallizationResult` (orl.py:44). -/
structure CrystallizationResult (F : Type) where
  accepted : Bool
  reason : String
  hypothesis : Option (OntologicalHypothesis F) := none

/-- A call of `crystallize_axiom`: its arguments, and what the LLM and the file system do. -/
structure Crystallization (F : Type) where
  llmName : String
  /-- The content of the response, or what `complete` raises. -/
  reply : Except PyExc String
  taskId : String
  validator : Option (EpistemicValidator F) := none
  /-- The end of `ontology.save`; `none` without a `persist_path`. -/
  save : Option (Except PyExc Unit) := none

/-- The keys of `stats` (graph.py:309). -/
structure OntologyStats where
  entities : Nat
  relations : Nat
  hasCycle : Bool

section Pipeline

variable [PyInterp F] (rules : FieldRules F)

/-- `stats` (graph.py:309). -/
def OntologyGraph.stats (g : OntologyGraph F) : Except PyExc OntologyStats := do
  let hasCycle ← g.hasCycle
  .ok ⟨g.entities.length, g.relations.length, hasCycle⟩

/-- The relation of a hypothesis, with its provenance. -/
def axiomRelation (h : OntologicalHypothesis F) : Relation F :=
  { subject := h.subject
    predicate := h.predicate.text
    object := h.object
    weight := .float h.confidence
    metadata :=
      [("source", h.source), ("trigger", h.trigger),
        ("rationale", String.ofList (h.rationale.toList.take 500)),
        ("confidence", rules.fixed h.confidence)] }

/-- The last part of `crystallize_axiom`: mutation and persistence. -/
def mutate (c : Crystallization F) (h : OntologicalHypothesis F) :
    PyM (OntologyGraph F) (CrystallizationResult F) :=
  PyM.tryCatch
    (do
      OntologyGraph.addRelation (axiomRelation rules h)
      PyM.lift (c.save.getD (.ok ()))
      pure ⟨true, "accepted", some h⟩)
    fun e => pure ⟨false, "ontology_error:" ++ e.msg, some h⟩

/-- The part of `crystallize_axiom` after the hypothesis was parsed. -/
def admitHypothesis (c : Crystallization F) (h : OntologicalHypothesis F) :
    PyM (OntologyGraph F) (CrystallizationResult F) := do
  let g ← PyM.get
  match (c.validator.getD .new).validate rules h g with
  | .error e => pure ⟨false, "validator_error:" ++ e.msg, some h⟩
  | .ok check => if check.valid then mutate rules c h else pure ⟨false, check.reason, some h⟩

/-- The hypothesis of a call, or the reason why it has none. -/
def Crystallization.hypothesis (c : Crystallization F) : Except String (OntologicalHypothesis F) :=
  match c.reply with
  | .error e => .error ("llm_error:" ++ e.msg)
  | .ok content =>
    match (extractFencedJson content .none : PyVal F) with
    | .dict parsed =>
      match parseHypothesis rules parsed c.taskId with
      | .error e => .error ("invalid_hypothesis:" ++ e.msg)
      | .ok h => .ok h
    | _ => .error "unparsable_llm_response"

/-- `crystallize_axiom` (orl.py:56). -/
def crystallizeAxiom (c : Crystallization F) :
    PyM (OntologyGraph F) (CrystallizationResult F) := do
  if c.llmName = "fallback" then pure ⟨false, "llm_unavailable", none⟩
  else
    let g ← PyM.get
    let stats ← PyM.lift g.stats
    if stats.entities = 0 then pure ⟨false, "ontology_empty", none⟩
    else
      match c.hypothesis rules with
      | .error reason => pure ⟨false, reason, none⟩
      | .ok h => admitHypothesis rules c h

/-! ## What a call does to the ontology -/

/-- No pair of entities is related by opposite predicates. -/
def OntologyGraph.Consistent (g : OntologyGraph F) : Prop :=
  ∀ subject object, ¬ ((subject, "requires", object) ∈ g.relations.map Relation.triple ∧
    (subject, "forbids", object) ∈ g.relations.map Relation.triple)

/-- The names of the answer are stripped already, or the pair is not related by the opposite
predicate. -/
def Crystallization.Proper (c : Crystallization F) (g : OntologyGraph F) : Prop :=
  ∀ h, c.hypothesis rules = .ok h →
    (stripText h.subject = h.subject ∧ stripText h.object = h.object) ∨
      (stripText h.subject, h.predicate.opposite.text, stripText h.object) ∉
        g.relations.map Relation.triple

variable {rules} {g : OntologyGraph F} {c : Crystallization F}

theorem mutate_state (h : OntologicalHypothesis F) :
    (mutate rules c h g).2 = (OntologyGraph.addRelation (axiomRelation rules h) g).2 := by
  rw [mutate, PyM.tryCatch]
  rcases hadd : OntologyGraph.addRelation (axiomRelation rules h) g with ⟨_ | ⟨⟨⟩⟩, g'⟩
  · rw [PyM.bind_error hadd]
    rfl
  · rw [PyM.bind_ok hadd]
    rcases c.save.getD (.ok ()) with e | ⟨⟨⟩⟩
    · rfl
    · rfl

/-- A call leaves the ontology alone, or adds the relation of an admitted hypothesis. -/
theorem crystallizeAxiom_cases (rules : FieldRules F) (c : Crystallization F) (g : OntologyGraph F) :
    (crystallizeAxiom rules c g).2 = g ∨
    ∃ h, c.hypothesis rules = .ok h ∧ h.conflict g.relations = none ∧
      wouldCreateCycle h g = .ok false ∧
      (crystallizeAxiom rules c g).2 =
        (OntologyGraph.addRelation (axiomRelation rules h) g).2 := by
  rw [crystallizeAxiom]
  split
  · exact .inl rfl
  rw [PyM.bind_ok (PyM.get_apply g)]
  rcases hstats : g.stats with e | stats
  · exact .inl rfl
  rw [PyM.bind_ok (PyM.lift_apply _ _)]
  split
  · exact .inl rfl
  rcases hhypothesis : c.hypothesis rules with reason | h
  · exact .inl rfl
  show (admitHypothesis rules c h g).2 = g ∨ _
  rw [admitHypothesis, PyM.bind_ok (PyM.get_apply g)]
  rcases hcheck : (c.validator.getD .new).validate rules h g with e | check
  · exact .inl rfl
  dsimp only
  split
  · next hvalid =>
    obtain ⟨hconflict, hcycle⟩ := EpistemicValidator.validate_valid hcheck hvalid
    refine .inr ⟨h, rfl, hconflict, hcycle, ?_⟩
    show (admitHypothesis rules c h g).2 = _
    rw [admitHypothesis, PyM.bind_ok (PyM.get_apply g), hcheck]
    dsimp only
    rw [if_pos hvalid, mutate_state]
  · exact .inl rfl

/-- What is left to look at when a call changed the ontology: a new relation between the stripped
names of the hypothesis. -/
theorem crystallizeAxiom_changes (rules : FieldRules F) (hg : g.Rep) (c : Crystallization F) :
    (crystallizeAxiom rules c g).2 = g ∨
    ∃ h added, c.hypothesis rules = .ok h ∧ h.conflict g.relations = none ∧
      wouldCreateCycle h g = .ok false ∧ added.triple =
        (stripText h.subject, h.predicate.text, stripText h.object) ∧
      (crystallizeAxiom rules c g).2 = g.appendRelation added := by
  rcases crystallizeAxiom_cases rules c g with heq | ⟨h, hh, hconflict, hcycle, heq⟩
  · exact .inl heq
  rcases hg.addRelation_cases (axiomRelation rules h) with
    ⟨e, hadd⟩ | ⟨added, hs, ho, hp, -, -, hcases⟩
  · rw [hadd] at heq
    exact .inl heq
  rcases hcases with ⟨-, hadd⟩ | ⟨-, -, hadd⟩
  · rw [hadd] at heq
    exact .inl heq
  · rw [hadd] at heq
    refine .inr ⟨h, added, hh, hconflict, hcycle, ?_, heq⟩
    have hpredicate : stripText h.predicate.text = h.predicate.text := by
      cases h.predicate <;> decide
    rw [Relation.triple, cleanName_eq_ok hs, cleanName_eq_ok ho, hp]
    exact congrArg (fun p => (stripText h.subject, p, stripText h.object)) hpredicate

/-- A call keeps the representation. -/
theorem crystallizeAxiom_rep (hg : g.Rep) (c : Crystallization F) :
    (crystallizeAxiom rules c g).2.Rep := by
  rcases crystallizeAxiom_cases rules c g with heq | ⟨h, -, -, -, heq⟩ <;> rw [heq]
  · exact hg
  · exact (hg.addRelation _).1

/-- A call keeps the ontology acyclic, whatever the answer. -/
theorem crystallizeAxiom_acyclic (hg : g.Rep) (hacyclic : ¬ g.Cyclic) (c : Crystallization F) :
    ¬ (crystallizeAxiom rules c g).2.Cyclic := by
  rcases crystallizeAxiom_changes rules hg c with
    heq | ⟨h, added, -, -, hcycle, htriple, heq⟩ <;> rw [heq]
  · exact hacyclic
  obtain ⟨candidate, hcandidate, hle, hedge⟩ := acyclic_of_wouldCreateCycle hg hcycle
  have hnew : (g.appendRelation added).Edge ≤ candidate.Edge := by
    rintro v w ⟨r, hr, rfl, rfl⟩
    rcases List.mem_append.mp hr with hr | hr
    · exact hle _ _ ⟨r, hr, rfl, rfl⟩
    · rw [List.mem_singleton.mp hr]
      have hends : added.subject = stripText h.subject ∧ added.predicate = h.predicate.text ∧
          added.object = stripText h.object := by
        simpa [Relation.triple] using htriple
      rw [hends.1, hends.2.2]
      exact hedge
  rintro ⟨v, hpath⟩
  exact hcandidate ⟨v, Relation.TransGen.mono hnew _ _ hpath⟩

/-- A call with a proper answer brings no opposed axioms into the ontology. -/
theorem crystallizeAxiom_consistent (hg : g.Rep) (hconsistent : g.Consistent)
    (hproper : c.Proper rules g) : (crystallizeAxiom rules c g).2.Consistent := by
  rcases crystallizeAxiom_changes rules hg c with
    heq | ⟨h, added, hh, hconflict, -, htriple, heq⟩ <;> rw [heq]
  · exact hconsistent
  -- The opposite of the new relation is not in the ontology.
  have hopposite : (stripText h.subject, h.predicate.opposite.text, stripText h.object) ∉
      g.relations.map Relation.triple := by
    rcases hproper h hh with ⟨hsubject, hobject⟩ | hnone
    · rw [hsubject, hobject]
      intro hmem
      obtain ⟨r, hr, hr'⟩ := List.mem_map.mp hmem
      exact OntologicalHypothesis.conflict_eq_none hconflict r hr hr'
    · exact hnone
  have hmem : ∀ t, t ∈ (g.appendRelation added).relations.map Relation.triple ↔
      t ∈ g.relations.map Relation.triple ∨
        t = (stripText h.subject, h.predicate.text, stripText h.object) := by
    intro t
    show t ∈ (g.relations ++ [added]).map Relation.triple ↔ _
    rw [List.map_append, List.mem_append, List.map_singleton, List.mem_singleton, htriple]
  rintro subject object ⟨hrequires, hforbids⟩
  rw [hmem] at hrequires hforbids
  cases hpredicate : h.predicate with
  | requires =>
    rw [hpredicate] at hrequires hforbids hopposite
    rcases hforbids with hforbids | hforbids
    · rcases hrequires with hrequires | hrequires
      · exact hconsistent subject object ⟨hrequires, hforbids⟩
      · cases hrequires
        exact hopposite hforbids
    · exact absurd (congrArg (fun t => t.2.1) hforbids) (show "forbids" ≠ "requires" by decide)
  | forbids =>
    rw [hpredicate] at hrequires hforbids hopposite
    rcases hrequires with hrequires | hrequires
    · rcases hforbids with hforbids | hforbids
      · exact hconsistent subject object ⟨hrequires, hforbids⟩
      · cases hforbids
        exact hopposite hrequires
    · exact absurd (congrArg (fun t => t.2.1) hrequires) (show "requires" ≠ "forbids" by decide)

/-! ## Sequences of calls -/

/-- An ontology on which only `crystallize_axiom` is called. -/
def crystallizations (rules : FieldRules F) (start : OntologyGraph F) :
    System (OntologyGraph F) (Crystallization F) where
  init := start
  step g c := some (crystallizeAxiom rules c g).2

/-- Proper answers keep the ontology acyclic and without opposed axioms, all along a sequence of
calls. That it stays acyclic needs no condition (`crystallizeAxiom_acyclic`); the condition on the
answers is for the opposed axioms, and is about the ontology before the call. -/
theorem crystallizations_consistent {start : OntologyGraph F} (hrep : start.Rep)
    (hacyclic : ¬ start.Cyclic) (hconsistent : start.Consistent)
    {steps : List (OntologyGraph F × Crystallization F)} {g : OntologyGraph F}
    (run : (crystallizations rules start).Run steps g)
    (hproper : System.Meets (fun g c => c.Proper rules g) steps) :
    System.Always (fun g => ¬ g.Cyclic ∧ g.Consistent) steps g := by
  refine System.Always.imp (fun g h => h.2)
    (System.Run.always_of_meets (P := fun g => g.Rep ∧ ¬ g.Cyclic ∧ g.Consistent)
      ⟨hrep, hacyclic, hconsistent⟩ ?_ run hproper)
  rintro g c g' ⟨hg, hacyclic, hconsistent⟩ hproper hstep
  cases hstep
  exact ⟨crystallizeAxiom_rep hg c, crystallizeAxiom_acyclic hg hacyclic c,
    crystallizeAxiom_consistent hg hconsistent hproper⟩

end Pipeline

/-! ## A name with a blank -/

/-- Fields of literals with two decimals. -/
def literalRules : FieldRules FloatText where
  confidence
    | .float f =>
      if PyInterp.le zeroFloat f && PyInterp.le f (PyFloat.ofText ['1', '.', '0']) then .ok f
      else .error (.custom "ValidationError" "Input should be between 0 and 1")
    | _ => .error (.custom "ValidationError" "Input should be a valid number")
  fixed f := String.ofList f.text

/-- `A` requires `B`. -/
def abcGraph : OntologyGraph FloatText :=
  let g := (OntologyGraph.addEntity ⟨"A", "unit", []⟩ {}).2
  let g := (OntologyGraph.addEntity ⟨"B", "unit", []⟩ g).2
  let g := (OntologyGraph.addEntity ⟨"C", "unit", []⟩ g).2
  (OntologyGraph.addRelation ⟨"A", "requires", "B", weightOne, []⟩ g).2

/-- An answer about two entities. -/
def forbidsReply (subject object : String) : Crystallization FloatText where
  llmName := "openai"
  reply := .ok ("\x7b\"subject\": \"" ++ subject ++ "\", \"predicate\": \"forbids\", " ++
    "\"object\": \"" ++ object ++ "\", \"rationale\": \"\", \"confidence\": 0.90\x7d")
  taskId := "task-1"

/-- The names of a hypothesis. -/
def OntologicalHypothesis.names (h : OntologicalHypothesis F) : String × Predicate × String :=
  (h.subject, h.predicate, h.object)

/-- The other fields of a hypothesis. -/
def OntologicalHypothesis.grounds (h : OntologicalHypothesis F) : (String × F) × String × String :=
  ((h.rationale, h.confidence), h.source, h.trigger)

theorem eq_ok_of_fields {answer : Except String (OntologicalHypothesis F)}
    {h : OntologicalHypothesis F}
    (hnames : answer.toOption.map OntologicalHypothesis.names = some h.names)
    (hgrounds : answer.toOption.map OntologicalHypothesis.grounds = some h.grounds) :
    answer = .ok h := by
  cases answer with
  | error => cases hnames
  | ok h' =>
    cases h
    cases h'
    cases hnames
    cases hgrounds
    rfl

/-- The text of the answer is read once. -/
theorem forbidsReply_hypothesis : (forbidsReply "A" "C").hypothesis literalRules =
    .ok ⟨"A", .forbids, "C", "", PyFloat.ofText ['0', '.', '9', '0'], "healer_orl", "task-1"⟩ := by
  have hfields : ((forbidsReply "A" "C").hypothesis literalRules).toOption.map
        OntologicalHypothesis.names = some ("A", Predicate.forbids, "C") ∧
      ((forbidsReply "A" "C").hypothesis literalRules).toOption.map
        OntologicalHypothesis.grounds =
        some (("", (PyFloat.ofText ['0', '.', '9', '0'] : FloatText)), "healer_orl", "task-1") := by
    decide +kernel
  exact eq_ok_of_fields hfields.1 hfields.2

theorem abcGraph_rep : abcGraph.Rep :=
  (((((OntologyGraph.rep_new _ _).addEntity _).1.addEntity _).1.addEntity _).1.addRelation _).1

theorem abcGraph_acyclic : ¬ abcGraph.Cyclic := by
  obtain ⟨found, hfound, hiff⟩ := abcGraph_rep.hasCycle_eq
  have hnone : abcGraph.hasCycle = .ok false := by decide +kernel
  cases hfound.symm.trans hnone
  exact fun hcyclic => Bool.false_ne_true (hiff.mpr hcyclic)

theorem abcGraph_consistent : abcGraph.Consistent := by
  have htriples : abcGraph.relations.map Relation.triple = [("A", "requires", "B")] := by
    decide +kernel
  rintro subject object ⟨-, hforbids⟩
  rw [htriples, List.mem_singleton] at hforbids
  exact absurd (congrArg (fun t => t.2.1) hforbids) (show "forbids" ≠ "requires" by decide)

theorem crystallizations_consistent_abc : ∃ g : OntologyGraph FloatText,
    g.relations.map Relation.triple = [("A", "requires", "B"), ("A", "forbids", "C")] ∧
      ¬ g.Cyclic ∧ g.Consistent := by
  have htriples : (crystallizeAxiom literalRules (forbidsReply "A" "C") abcGraph).2.relations.map
      Relation.triple = [("A", "requires", "B"), ("A", "forbids", "C")] := by
    rw [crystallizeAxiom, forbidsReply_hypothesis]
    decide +kernel
  refine ⟨_, htriples, (crystallizations_consistent abcGraph_rep abcGraph_acyclic
    abcGraph_consistent (.next .start rfl) ?_).1⟩
  refine List.forall_mem_singleton.mpr ?_
  intro h hh
  cases hh.symm.trans forbidsReply_hypothesis
  exact .inl (by decide)

/-- The validator asks about `"A "`, and the relation is added for `A`. -/
theorem spaced_name_contradicts : abcGraph.Rep ∧ ¬ abcGraph.Cyclic ∧ abcGraph.Consistent ∧
    ¬ (crystallizeAxiom literalRules (forbidsReply "A " "B") abcGraph).2.Consistent := by
  refine ⟨abcGraph_rep, abcGraph_acyclic, abcGraph_consistent, ?_⟩
  have htriples : (crystallizeAxiom literalRules (forbidsReply "A " "B") abcGraph).2.relations.map
      Relation.triple = [("A", "requires", "B"), ("A", "forbids", "B")] := by
    decide +kernel
  intro hconsistent
  refine hconsistent "A" "B" ?_
  rw [htriples]
  decide

end Noema.Ontology
