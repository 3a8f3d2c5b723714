import Noema.Experiments.Gate

/-!
# What the merge gate lets through

- `mem_requires`, `mem_forbids`: what the tables of the ontology stage have. `setdefault` keeps the
  first object of each subject, so a second `requires` relation of a subject is not checked.
- `mem_fileViolations`: what the stage reports about a Python file that parses: the violated axioms,
  of `requires` only the first of a subject.
- `ontologyViolations_eq_ok`: the stage goes through the files one by one, and an exception for one
  of them ends it.
- **`ontologyGate_exact_iff`**: the stage reports exactly the violated axioms, and the gate passes
  clean files only, if and only if no file violates a `requires` axiom after the first of its
  subject.
- `runMergeGate_passed`: when the gate passes, no stage has anything against the merge.
  `formalStage_passed`, `sandboxStage_passed` and `judgeStage_passed` say what that means for each.
- **`runMergeGate_blocks`**: what is known of a merge that passed: with a verifier, the changed
  `.lean` files are verified and the files under a prefix have their specs; unless no changed file
  is included, the sandbox found all files valid and the judge gave a score that is not below the
  threshold. And the gate reports when nothing is raised that it has no handler for (`Quiet`).
- `second_requirement_ignored`, `empty_diff_passes`: two merges that pass.
-/

namespace Noema.Experiments

open Noema.Core Noema.Lib Noema.Ontology Noema.Sandbox PyJson

variable {F : Type}

/-! ## The tables -/

/-- The object of the first `requires` relation of a subject. -/
def firstRequired (relations : List (Relation F)) (subject : String) : Option String :=
  (relations.find? fun r => r.predicate = "requires" ∧ r.subject = subject).map Relation.object

/-- The axiom is in the list. -/
def HasAxiom (relations : List (Relation F)) (subject : String) (predicate : Predicate)
    (object : String) : Prop :=
  (subject, predicate.text, object) ∈ relations.map Relation.triple

theorem firstRequired_concat (relations : List (Relation F)) (r : Relation F) (subject : String) :
    firstRequired (relations ++ [r]) subject = (firstRequired relations subject).or
      (if r.predicate = "requires" ∧ r.subject = subject then some r.object else none) := by
  rw [firstRequired, List.find?_append, Option.map_or, ← firstRequired, List.find?_singleton]
  congr 1
  by_cases h : r.predicate = "requires" ∧ r.subject = subject
  · simp [h]
  · simp [h]

theorem AxiomTables.mem_requires_add {t : AxiomTables} {r : Relation F} {subject object : String} :
    (subject, object) ∈ (t.add r).requires ↔ (subject, object) ∈ t.requires ∨
      r.predicate = "requires" ∧ r.subject ∉ t.requires.map Prod.fst ∧
        subject = r.subject ∧ object = r.object := by
  rw [add]
  split
  · next hrequires =>
    split
    · next hold => simp [hold]
    · next hnew => simp [hrequires, hnew]
  · next hrequires =>
    split
    · split
      · simp [hrequires]
      · simp [hrequires]
    · simp [hrequires]

theorem AxiomTables.mem_forbids_add {t : AxiomTables} {r : Relation F} {subject object : String} :
    (subject, object) ∈ (t.add r).forbids ↔ (subject, object) ∈ t.forbids ∨
      r.predicate = "forbids" ∧ subject = r.subject ∧ object = r.object := by
  rw [add]
  split
  · next hrequires =>
    have hne : r.predicate ≠ "forbids" := by
      rw [hrequires]
      decide
    split
    · simp [hne]
    · simp [hne]
  · split
    · next hforbids =>
      split
      · next hold =>
        refine (or_iff_left_of_imp ?_).symm
        rintro ⟨-, rfl, rfl⟩
        exact hold
      · simp [hforbids]
    · next hforbids => simp [hforbids]

/-- `setdefault` keeps the first object of each subject. -/
theorem mem_requires (relations : List (Relation F)) (subject object : String) :
    (subject, object) ∈ (relations.foldl AxiomTables.add {}).requires ↔
      firstRequired relations subject = some object := by
  induction relations using List.reverseRecOn generalizing subject object with
  | nil => simp [firstRequired]
  | append_singleton relations r ih =>
    have hkeys : ∀ name, name ∈ (relations.foldl AxiomTables.add {}).requires.map Prod.fst ↔
        (firstRequired relations name).isSome := by
      intro name
      rw [List.mem_map, Option.isSome_iff_exists]
      constructor
      · rintro ⟨⟨name, o⟩, hmem, rfl⟩
        exact ⟨o, (ih name o).mp hmem⟩
      · rintro ⟨o, ho⟩
        exact ⟨(name, o), (ih name o).mpr ho, rfl⟩
    rw [List.foldl_append, List.foldl_cons, List.foldl_nil, AxiomTables.mem_requires_add, ih,
      firstRequired_concat, hkeys]
    -- The subject is new, and its object is kept; or it has one already, and the relation changes
    -- nothing.
    rcases hfirst : firstRequired relations subject with _ | first
    · rw [Option.none_or]
      constructor
      · rintro (h | ⟨hrequires, -, rfl, rfl⟩)
        · cases h
        · rw [if_pos ⟨hrequires, rfl⟩]
      · intro h
        split at h
        · next hr =>
          obtain ⟨hrequires, rfl⟩ := hr
          cases h
          refine .inr ⟨hrequires, ?_, rfl, rfl⟩
          rw [hfirst]
          decide
        · cases h
    · rw [Option.some_or]
      refine or_iff_left_of_imp ?_
      rintro ⟨-, hnew, rfl, -⟩
      rw [hfirst] at hnew
      exact absurd rfl hnew

theorem mem_forbids (relations : List (Relation F)) (subject object : String) :
    (subject, object) ∈ (relations.foldl AxiomTables.add {}).forbids ↔
      HasAxiom relations subject .forbids object := by
  induction relations using List.reverseRecOn with
  | nil => simp [HasAxiom]
  | append_singleton relations r ih =>
    rw [List.foldl_append, List.foldl_cons, List.foldl_nil, AxiomTables.mem_forbids_add, ih,
      HasAxiom, HasAxiom, List.map_append, List.mem_append]
    refine or_congr_right ?_
    rw [List.map_singleton, List.mem_singleton, Relation.triple, Prod.mk.injEq, Prod.mk.injEq,
      Predicate.text, eq_comm (a := "forbids")]
    exact ⟨fun h => ⟨h.2.1, h.1, h.2.2⟩, fun h => ⟨h.2.1, h.1, h.2.2⟩⟩

theorem HasAxiom.of_firstRequired {relations : List (Relation F)} {subject object : String}
    (h : firstRequired relations subject = some object) :
    HasAxiom relations subject .requires object := by
  obtain ⟨r, hfind, rfl⟩ := Option.map_eq_some_iff.mp h
  obtain ⟨hpredicate, rfl⟩ : r.predicate = "requires" ∧ r.subject = subject := by
    simpa using List.find?_some hfind
  refine List.mem_map.mpr ⟨r, List.mem_of_find?_eq_some hfind, ?_⟩
  rw [Relation.triple, hpredicate]
  rfl

/-! ## The ontology stage -/

/-- A file with these identifiers violates the axiom. -/
def Violated (relations : List (Relation F)) (ids : List String) (subject : String)
    (predicate : Predicate) (object : String) : Prop :=
  HasAxiom relations subject predicate object ∧ subject ∈ ids ∧
    match predicate with
    | .requires => object ∉ ids
    | .forbids => object ∈ ids

section Stage

variable (env : GateEnv F)

/-- What the stage reports about a Python file that parses. -/
theorem mem_fileViolations (ontology : OntologyGraph F) {f : ChangedFile} {root : Ast}
    (hparse : env.parse f.content = .tree root) :
    ∃ found, fileViolations env (axiomTables ontology) f = .ok found ∧ ∀ v, v ∈ found ↔
      v.path = f.path ∧ Violated ontology.relations (identifiers root) v.subject v.predicate
        v.object ∧ (v.predicate = .requires →
          firstRequired ontology.relations v.subject = some v.object) := by
  have hids : referencedIdentifiers env f.content = .ok (identifiers root) := by
    rw [referencedIdentifiers, hparse]
  rw [fileViolations, hids]
  refine ⟨_, rfl, ?_⟩
  rintro ⟨path, subject, predicate, object⟩
  rw [List.mem_append, List.mem_map, List.mem_map]
  -- The two tables have axioms of one kind each.
  cases predicate with
  | requires =>
    constructor
    · rintro (⟨⟨s, o⟩, hmem, heq⟩ | ⟨p, -, heq⟩)
      · cases heq
        obtain ⟨htable, hviolated⟩ := List.mem_filter.mp hmem
        have hfirst := (mem_requires ontology.relations subject object).mp htable
        exact ⟨rfl, ⟨.of_firstRequired hfirst, of_decide_eq_true hviolated⟩, fun _ => hfirst⟩
      · cases heq
    · rintro ⟨rfl, ⟨-, hviolated⟩, hfirst⟩
      exact .inl ⟨(subject, object), List.mem_filter.mpr
        ⟨(mem_requires ontology.relations subject object).mpr (hfirst rfl),
          decide_eq_true hviolated⟩, rfl⟩
  | forbids =>
    constructor
    · rintro (⟨p, -, heq⟩ | ⟨⟨s, o⟩, hmem, heq⟩)
      · cases heq
      · cases heq
        obtain ⟨htable, hviolated⟩ := List.mem_filter.mp hmem
        have hforbid := (mem_forbids ontology.relations subject object).mp
          ((env.perm _).subset htable)
        exact ⟨rfl, ⟨hforbid, of_decide_eq_true hviolated⟩, fun h => by cases h⟩
    · rintro ⟨rfl, ⟨hforbid, hviolated⟩, -⟩
      exact .inr ⟨(subject, object), List.mem_filter.mpr
        ⟨(env.perm _).symm.subset ((mem_forbids ontology.relations subject object).mpr hforbid),
          decide_eq_true hviolated⟩, rfl⟩

/-- What the stage reports about one file. -/
theorem mem_ontologyViolations (ontology : OntologyGraph F) {f : ChangedFile} {root : Ast}
    (hpy : endsWith f.path ".py" = true) (hparse : env.parse f.content = .tree root) :
    ∃ found, ontologyViolations env [f] ontology = .ok found ∧ ∀ v, v ∈ found ↔
      v.path = f.path ∧ Violated ontology.relations (identifiers root) v.subject v.predicate
        v.object ∧ (v.predicate = .requires →
          firstRequired ontology.relations v.subject = some v.object) := by
  obtain ⟨found, hfound, hmem⟩ := mem_fileViolations env ontology hparse
  rw [ontologyViolations]
  split
  · next hempty =>
    refine ⟨[], rfl, fun v => ?_⟩
    -- Without axioms nothing is violated.
    rw [← hmem v, iff_comm]
    refine iff_of_false (fun hv => ?_) List.not_mem_nil
    obtain ⟨-, hviolated, hfirst⟩ := (hmem v).mp hv
    obtain ⟨path, subject, predicate, object⟩ := v
    cases predicate with
    | requires =>
      have htable := (mem_requires ontology.relations subject object).mpr (hfirst rfl)
      rw [← axiomTables, hempty.1] at htable
      cases htable
    | forbids =>
      have htable := (mem_forbids ontology.relations subject object).mpr hviolated.1
      rw [← axiomTables, hempty.2] at htable
      cases htable
  · rw [filesViolations, if_pos hpy, hfound]
    exact ⟨found ++ [], rfl, by simpa using hmem⟩

/-- The stage goes through the files one by one. -/
theorem ontologyViolations_eq_ok {ontology : OntologyGraph F} {files : List ChangedFile}
    {found : List Violation} (h : ontologyViolations env files ontology = .ok found) :
    ∃ founds, List.Forall₂ (fun f found => ontologyViolations env [f] ontology = .ok found) files
      founds ∧ found = founds.flatten := by
  -- Without axioms no file is read; otherwise one after the other.
  by_cases hempty : (axiomTables ontology).requires = [] ∧ (axiomTables ontology).forbids = []
  · have hnone : ∀ files, ontologyViolations env files ontology = .ok [] := by
      intro files
      rw [ontologyViolations]
      exact if_pos hempty
    cases (hnone files).symm.trans h
    refine ⟨files.map fun _ => [], ?_, by simp⟩
    rw [List.forall₂_map_right_iff]
    exact List.forall₂_same.mpr fun f _ => hnone [f]
  · have hfiles : ∀ files, ontologyViolations env files ontology =
        filesViolations env (axiomTables ontology) files := by
      intro files
      rw [ontologyViolations]
      exact if_neg hempty
    simp only [hfiles] at h ⊢
    induction files generalizing found with
    | nil =>
      cases h
      exact ⟨[], .nil, rfl⟩
    | cons f files ih =>
      rw [filesViolations] at h
      split at h
      · next hpy =>
        obtain ⟨first, hfirst, h⟩ := bind_eq_ok h
        obtain ⟨rest, hrest, h⟩ := bind_eq_ok h
        cases h
        obtain ⟨founds, hfounds, rfl⟩ := ih hrest
        refine ⟨first :: founds, .cons ?_ hfounds, rfl⟩
        rw [filesViolations, if_pos hpy, hfirst]
        exact congrArg Except.ok (List.append_nil first)
      · next hpy =>
        obtain ⟨founds, hfounds, rfl⟩ := ih h
        refine ⟨[] :: founds, .cons ?_ hfounds, rfl⟩
        rw [filesViolations, if_neg hpy]
        rfl

/-- No file violates a `requires` axiom after the first of its subject. -/
def OnlyFirstViolated (env : GateEnv F) (ontology : OntologyGraph F) (files : List ChangedFile) :
    Prop :=
  ∀ f ∈ files, endsWith f.path ".py" = true → ∀ root, env.parse f.content = .tree root →
    ∀ subject object, Violated ontology.relations (identifiers root) subject .requires object →
      firstRequired ontology.relations subject = some object

/-- The violations that are reported of each Python file that parses are the violated axioms. -/
def ReportsExactly (env : GateEnv F) (ontology : OntologyGraph F) (files : List ChangedFile) :
    Prop :=
  ∀ f ∈ files, endsWith f.path ".py" = true → ∀ root, env.parse f.content = .tree root →
    ∃ found, ontologyViolations env [f] ontology = .ok found ∧ ∀ v, v ∈ found ↔
      v.path = f.path ∧
        Violated ontology.relations (identifiers root) v.subject v.predicate v.object

theorem reportsExactly_iff (env : GateEnv F) (ontology : OntologyGraph F)
    (files : List ChangedFile) :
    ReportsExactly env ontology files ↔ OnlyFirstViolated env ontology files := by
  constructor
  · intro h f hf hpy root hparse subject object hviolated
    obtain ⟨found, hfound, hmem⟩ := h f hf hpy root hparse
    obtain ⟨found', hfound', hmem'⟩ := mem_ontologyViolations env ontology hpy hparse
    cases hfound.symm.trans hfound'
    have hreported := (hmem ⟨f.path, subject, .requires, object⟩).mpr ⟨rfl, hviolated⟩
    exact ((hmem' _).mp hreported).2.2 rfl
  · intro h f hf hpy root hparse
    obtain ⟨found, hfound, hmem⟩ := mem_ontologyViolations env ontology hpy hparse
    refine ⟨found, hfound, fun v => ?_⟩
    rw [hmem v]
    refine and_congr_right fun _ => and_iff_left_of_imp ?_
    intro hviolated hrequires
    obtain ⟨path, subject, predicate, object⟩ := v
    cases hrequires
    exact h f hf hpy root hparse subject object hviolated

end Stage

/-! ## A merge that passed -/

/-- The files that the verifier gets. -/
def leanFiles (rawFiles : List ChangedFile) : List (String × String) :=
  (rawFiles.filter fun f => endsWith f.path ".lean").map fun f => (f.path, f.content)

section Gate

variable [PyInterp F] {env : GateEnv F} {cfg : GateConfig F} {report : GateReport F}

/-- When the gate passes, no stage has anything against the merge. -/
theorem runMergeGate_passed (h : runMergeGate env cfg = .ok report)
    (hpassed : report.passed = true) :
    ∃ rawFiles, rawChangedFiles env cfg = .ok rawFiles ∧
      ontologyStage env cfg (rawFiles.filter cfg.includes) = .ok [] ∧
      (formalStage cfg rawFiles (rawFiles.filter cfg.includes)).blockedBy = [] ∧
      (rawFiles.filter cfg.includes ≠ [] → ∃ sandbox judge,
        sandboxStage env cfg (rawFiles.filter cfg.includes) = .ok sandbox ∧
        judgeStage env cfg (rawFiles.filter cfg.includes) = .ok judge ∧
        sandbox.blockedBy = [] ∧ judge.blockedBy = []) := by
  obtain ⟨rawFiles, hraw, h⟩ := bind_eq_ok h
  dsimp only at h
  obtain ⟨found, hfound, h⟩ := bind_eq_ok h
  -- What is in `blockedBy` for the ontology is one text for each violation.
  have hontology : found.map Violation.text = [] →
      ontologyStage env cfg (rawFiles.filter cfg.includes) = .ok [] := by
    intro hnone
    rw [hfound, List.map_eq_nil_iff.mp hnone]
  refine ⟨rawFiles, hraw, ?_⟩
  split at h
  · next hempty =>
    cases h
    have hnil := List.isEmpty_iff.mp hpassed
    rw [List.append_eq_nil_iff] at hnil
    exact ⟨hontology hnil.1, hnil.2, fun hne => absurd hempty hne⟩
  · obtain ⟨sandbox, hsandbox, h⟩ := bind_eq_ok h
    obtain ⟨judge, hjudge, h⟩ := bind_eq_ok h
    cases h
    have hnil := List.isEmpty_iff.mp hpassed
    simp only [List.append_eq_nil_iff] at hnil
    obtain ⟨⟨⟨hnone, hformal⟩, hsandbox'⟩, hjudge'⟩ := hnil
    exact ⟨hontology hnone, hformal, fun _ => ⟨sandbox, judge, hsandbox, hjudge, hsandbox', hjudge'⟩⟩

/-- A merge passes only if no changed file violates an axiom. -/
def PassesOnlyClean (env : GateEnv F) (ontology : OntologyGraph F) (files : List ChangedFile) :
    Prop :=
  ∀ (cfg : GateConfig F) (report : GateReport F), cfg.ontology = some ontology →
    collectFiles env cfg = .ok files → runMergeGate env cfg = .ok report →
    report.passed = true → ∀ f ∈ files, endsWith f.path ".py" = true →
    ∀ root, env.parse f.content = .tree root → ∀ subject predicate object,
      ¬ Violated ontology.relations (identifiers root) subject predicate object

/-- With the axioms that are reported, the gate finds all. -/
theorem passesOnlyClean_of_onlyFirst {ontology : OntologyGraph F} {files : List ChangedFile}
    (honly : OnlyFirstViolated env ontology files) : PassesOnlyClean env ontology files := by
  intro cfg report hontology hfiles hrun hpassed f hf hpy root hparse subject predicate object
    hviolated
  obtain ⟨rawFiles, hraw, hstage, -⟩ := runMergeGate_passed hrun hpassed
  have hfiles' : files = rawFiles.filter cfg.includes := by
    rw [collectFiles, hraw] at hfiles
    exact (Except.ok.inj hfiles).symm
  rw [ontologyStage, hontology, ← hfiles'] at hstage
  obtain ⟨founds, hfounds, hnil⟩ := ontologyViolations_eq_ok env hstage
  obtain ⟨found, hfound, hmem⟩ := (reportsExactly_iff env ontology files).mpr honly f hf hpy root
    hparse
  -- The violation is among those of its file, and there is none.
  have hreported := (hmem ⟨f.path, subject, predicate, object⟩).mpr ⟨rfl, hviolated⟩
  obtain ⟨found', hmem', hfound'⟩ := exists_mem_of_forall₂ hfounds hf
  cases hfound.symm.trans hfound'
  rw [List.flatten_eq_nil_iff.mp hnil.symm found hmem'] at hreported
  cases hreported

/-- The ontology stage goes through the files one by one. It reports exactly the violated axioms,
and the gate passes only without one, if and only if no `requires` axiom is violated but the first
of its subject. -/
theorem ontologyGate_exact_iff (env : GateEnv F) (ontology : OntologyGraph F)
    (files : List ChangedFile) :
    (∀ found, ontologyViolations env files ontology = .ok found →
      ∃ founds, List.Forall₂ (fun f found => ontologyViolations env [f] ontology = .ok found) files
        founds ∧ found = founds.flatten) ∧
    (ReportsExactly env ontology files ∧ PassesOnlyClean env ontology files ↔
      OnlyFirstViolated env ontology files) := by
  refine ⟨fun found => ontologyViolations_eq_ok env, ?_⟩
  constructor
  · intro h
    exact (reportsExactly_iff env ontology files).mp h.1
  · intro h
    exact ⟨(reportsExactly_iff env ontology files).mpr h, passesOnlyClean_of_onlyFirst h⟩

/-! ## The other stages -/

omit [PyInterp F] in
theorem formalStage_passed {rawFiles files : List ChangedFile}
    (h : (formalStage cfg rawFiles files).blockedBy = [])
    {verifier : List (String × String) → Except PyExc CheckResult}
    (hverifier : cfg.verifier = some verifier) :
    (leanFiles rawFiles ≠ [] →
      ∃ result, verifier (leanFiles rawFiles) = .ok result ∧ result.passed = true) ∧
    ∀ f ∈ files, needsSpec cfg.requireSpecPatterns f = true →
      ∃ c ∈ specCandidates f.path, c ∈ (leanFiles rawFiles).map Prod.fst := by
  rw [formalStage, hverifier] at h
  dsimp only at h
  rw [← leanFiles] at h
  -- the verifier is asked only when there is something to verify
  have hverify : (verifyFiles verifier (leanFiles rawFiles)).blockedBy = [] →
      leanFiles rawFiles ≠ [] →
        ∃ result, verifier (leanFiles rawFiles) = .ok result ∧ result.passed = true := by
    intro hnone hne
    rw [verifyFiles, if_neg hne] at hnone
    split at hnone
    · next result hresult =>
      refine ⟨result, hresult, ?_⟩
      by_contra hfailed
      rw [if_neg hfailed] at hnone
      cases hnone
    · cases hnone
  split at h
  -- without patterns no file needs a specification
  · next hpatterns =>
    refine ⟨hverify h, fun f _ hneeds => ?_⟩
    rw [needsSpec, hpatterns] at hneeds
    simp at hneeds
  · obtain ⟨hnone, hmissing⟩ := List.append_eq_nil_iff.mp h
    refine ⟨hverify hnone, fun f hf hneeds => ?_⟩
    by_contra hspec
    push Not at hspec
    rw [List.map_eq_nil_iff, missingFormalSpecs, List.map_eq_nil_iff, List.filter_eq_nil_iff]
      at hmissing
    exact hmissing f hf (decide_eq_true ⟨hneeds, hspec⟩)

omit [PyInterp F] in
theorem sandboxStage_passed {files : List ChangedFile} {outcome : SandboxOutcome}
    (henabled : cfg.sandboxEnabled = true) (h : sandboxStage env cfg files = .ok outcome)
    (hpassed : outcome.blockedBy = []) : ∃ sandbox result, gateSandbox env cfg = .ok sandbox ∧
      sandbox files cfg.runTests = .ok result ∧ result.passed = true := by
  rw [sandboxStage, if_pos henabled] at h
  obtain ⟨sandbox, hsandbox, h⟩ := bind_eq_ok h
  split at h
  · next result hresult =>
    cases h
    refine ⟨sandbox, result, hsandbox, hresult, ?_⟩
    by_contra hfailed
    rw [if_neg hfailed] at hpassed
    cases hpassed
  · cases h
    cases hpassed

theorem judgeStage_passed {files : List ChangedFile} {outcome : JudgeOutcome F}
    (h : judgeStage env cfg files = .ok outcome) (hpassed : outcome.blockedBy = []) :
    ∃ judge verdict score, gateJudge env cfg = .ok judge ∧
      judge (gateSolution files) = .ok verdict ∧ verdict.score = .ok score ∧
      PyInterp.lt score cfg.judgeThreshold = false := by
  obtain ⟨judge, hjudge, h⟩ := bind_eq_ok h
  rcases hask : askJudge judge files with e | ⟨verdict, score⟩
  · simp only [judgeOutcome, hask] at h
    split at h
    · cases h
      exact absurd (List.append_eq_nil_iff.mp hpassed).2 (List.cons_ne_nil _ _)
    · cases h
      cases hpassed
  · obtain ⟨verdict', hverdict, hscore⟩ := bind_eq_ok hask
    obtain ⟨score', hscore, heq⟩ := bind_eq_ok hscore
    cases heq
    refine ⟨judge, verdict, score, hjudge, hverdict, hscore, ?_⟩
    simp only [judgeOutcome, hask] at h
    split at h
    · cases h
      exact absurd (List.append_eq_nil_iff.mp hpassed).2 (List.cons_ne_nil _ _)
    · next hthreshold => exact Bool.not_eq_true _ |>.mp hthreshold

/-- What the gate calls without a handler does not raise: git, the reading of files, the parser,
and the making of a sandbox and a judge. -/
structure Quiet (env : GateEnv F) (cfg : GateConfig F) : Prop where
  git : cfg.explicitFiles = none → ∀ args, ∃ out, (cfg.git.getD (runGit env)) args = .ok out
  readText : ∀ path e, env.readText path ≠ .raised e
  parse : ∀ content e, env.parse content ≠ .raised e
  newSandbox : ∃ sandbox, gateSandbox env cfg = .ok sandbox
  defaultJudge : ∃ judge, gateJudge env cfg = .ok judge

omit [PyInterp F] in
theorem Quiet.rawChangedFiles (h : Quiet env cfg) : ∃ files, rawChangedFiles env cfg = .ok files := by
  have hread : ∀ paths, ∃ files, readFiles env paths = .ok files := by
    intro paths
    induction paths with
    | nil => exact ⟨[], rfl⟩
    | cons path paths ih =>
      obtain ⟨files, hfiles⟩ := ih
      rw [readFiles]
      split
      · exact ⟨files, hfiles⟩
      · next e he => exact absurd he (h.readText path e)
      · rw [hfiles]
        exact ⟨_, rfl⟩
  rw [Experiments.rawChangedFiles]
  split
  · exact ⟨_, rfl⟩
  · next hnone =>
    obtain ⟨out, hout⟩ := h.git hnone
      ["diff", "--name-only", "--diff-filter=ACMR", cfg.diffTarget, "--", "."]
    rw [changedFilePaths, hout]
    exact hread _

omit [PyInterp F] in
theorem Quiet.ontologyStage (h : Quiet env cfg) (files : List ChangedFile) :
    ∃ found, ontologyStage env cfg files = .ok found := by
  have hfile : ∀ t f, ∃ found, fileViolations env t f = .ok found := by
    intro t f
    rw [fileViolations, referencedIdentifiers]
    split
    · exact ⟨_, rfl⟩
    · exact ⟨_, rfl⟩
    · next e he => exact absurd he (h.parse f.content e)
  have hfiles : ∀ t files, ∃ found, filesViolations env t files = .ok found := by
    intro t files
    induction files with
    | nil => exact ⟨[], rfl⟩
    | cons f files ih =>
      obtain ⟨rest, hrest⟩ := ih
      obtain ⟨found, hfound⟩ := hfile t f
      rw [filesViolations]
      split
      · rw [hfound, hrest]
        exact ⟨_, rfl⟩
      · exact ⟨rest, hrest⟩
  rw [Experiments.ontologyStage]
  split
  · rw [ontologyViolations]
    split
    · exact ⟨[], rfl⟩
    · exact hfiles _ files
  · exact ⟨[], rfl⟩

/-- The gate reports when nothing is raised that it has no handler for. -/
theorem Quiet.runMergeGate (h : Quiet env cfg) : ∃ report, runMergeGate env cfg = .ok report := by
  obtain ⟨rawFiles, hraw⟩ := h.rawChangedFiles
  obtain ⟨found, hfound⟩ := h.ontologyStage (rawFiles.filter cfg.includes)
  obtain ⟨judge, hjudge⟩ := h.defaultJudge
  obtain ⟨sandbox, hsandbox⟩ := h.newSandbox
  have hsandboxStage : ∃ outcome, sandboxStage env cfg (rawFiles.filter cfg.includes) =
      .ok outcome := by
    rw [sandboxStage]
    split
    · rw [hsandbox, ok_bind]
      split
      · exact ⟨_, rfl⟩
      · exact ⟨_, rfl⟩
    · exact ⟨_, rfl⟩
  have hjudgeStage : ∃ outcome, judgeStage env cfg (rawFiles.filter cfg.includes) = .ok outcome := by
    rw [judgeStage, hjudge, ok_bind]
    dsimp only
    split
    · exact ⟨_, rfl⟩
    · exact ⟨_, rfl⟩
  obtain ⟨sandboxOutcome, hsandboxOutcome⟩ := hsandboxStage
  obtain ⟨judgeOutcome, hjudgeOutcome⟩ := hjudgeStage
  rw [Experiments.runMergeGate, hraw, ok_bind]
  dsimp only
  rw [hfound, ok_bind]
  split
  · exact ⟨_, rfl⟩
  · rw [hsandboxOutcome, ok_bind, hjudgeOutcome, ok_bind]
    exact ⟨_, rfl⟩

/-- A merge that passed: with a verifier, the changed `.lean` files are verified and the files under
a prefix have their specs; unless no changed file is included, the sandbox found all files valid and
the judge gave a score that is not below the threshold. And the gate reports when nothing is raised
that it has no handler for. -/
theorem runMergeGate_blocks (env : GateEnv F) (cfg : GateConfig F) :
    (∀ report, runMergeGate env cfg = .ok report → report.passed = true →
      ∃ rawFiles, rawChangedFiles env cfg = .ok rawFiles ∧
        (∀ verifier, cfg.verifier = some verifier →
          (leanFiles rawFiles ≠ [] →
            ∃ result, verifier (leanFiles rawFiles) = .ok result ∧ result.passed = true) ∧
          ∀ f ∈ rawFiles.filter cfg.includes, needsSpec cfg.requireSpecPatterns f = true →
            ∃ c ∈ specCandidates f.path, c ∈ (leanFiles rawFiles).map Prod.fst) ∧
        (rawFiles.filter cfg.includes ≠ [] →
          (cfg.sandboxEnabled = true → ∃ sandbox result, gateSandbox env cfg = .ok sandbox ∧
            sandbox (rawFiles.filter cfg.includes) cfg.runTests = .ok result ∧
            result.passed = true) ∧
          ∃ judge verdict score, gateJudge env cfg = .ok judge ∧
            judge (gateSolution (rawFiles.filter cfg.includes)) = .ok verdict ∧
            verdict.score = .ok score ∧ PyInterp.lt score cfg.judgeThreshold = false)) ∧
    (Quiet env cfg → ∃ report, runMergeGate env cfg = .ok report) := by
  refine ⟨?_, Quiet.runMergeGate⟩
  intro report hrun hpassed
  obtain ⟨rawFiles, hraw, -, hformal, hstages⟩ := runMergeGate_passed hrun hpassed
  refine ⟨rawFiles, hraw, fun verifier hverifier => formalStage_passed hformal hverifier, ?_⟩
  intro hne
  obtain ⟨sandbox, judge, hsandbox, hjudge, hsandbox', hjudge'⟩ := hstages hne
  exact ⟨fun henabled => sandboxStage_passed henabled hsandbox hsandbox',
    judgeStage_passed hjudge hjudge'⟩

end Gate

/-! ## Merges -/

/-- An outside without files; the parser knows lines that are a name each, the sandbox finds
nothing valid, and the judge is out of reach. -/
def bareEnv : GateEnv FloatText where
  process _ := .ok ⟨0, ""⟩
  readText _ := .osError
  parse content := .tree (.node 0 .module ((splitLinesFrom [] content.toList).map fun line =>
    (.body, .node 1 .expr [(.value, .node 1 (.name (String.ofList line) .load) [])])))
  order pairs := pairs
  perm _ := .refl _
  newSandbox _ := .ok fun _ _ => .ok ⟨false, "broken"⟩
  defaultJudge := .error (.runtimeError "llm unreachable")
  fixed f := String.ofList f.text

/-- `0.9`. -/
def highScore : FloatText := PyFloat.ofText ['0', '.', '9']

/-- A judge and a sandbox that are content with everything. -/
def contentConfig (files : List (String × String)) : GateConfig FloatText where
  judgeThreshold := highScore
  explicitFiles := some files
  judge := some fun _ => .ok ⟨.float highScore, true, "fine"⟩
  sandbox := some fun _ _ => .ok ⟨true, "1 files valid"⟩

/-- `A` requires `B` and `C`. -/
def twoRequires : OntologyGraph FloatText :=
  let g := (OntologyGraph.addEntity ⟨"A", "unit", []⟩ {}).2
  let g := (OntologyGraph.addEntity ⟨"B", "unit", []⟩ g).2
  let g := (OntologyGraph.addEntity ⟨"C", "unit", []⟩ g).2
  let g := (OntologyGraph.addRelation ⟨"A", "requires", "B", .float highScore, []⟩ g).2
  (OntologyGraph.addRelation ⟨"A", "requires", "C", .float highScore, []⟩ g).2

def twoRequiresConfig (files : List (String × String)) : GateConfig FloatText :=
  { contentConfig files with ontology := some twoRequires }

/-- A file with `A` and `B` and without `C` is not reported, and passes. -/
theorem second_requirement_ignored :
    ¬ ReportsExactly bareEnv twoRequires [⟨"app.py", "python", "A\nB\n"⟩] ∧
      ¬ PassesOnlyClean bareEnv twoRequires [⟨"app.py", "python", "A\nB\n"⟩] := by
  have hviolated : Violated twoRequires.relations ["A", "B"] "A" .requires "C" := by
    have htriples : twoRequires.relations.map Relation.triple =
        [("A", "requires", "B"), ("A", "requires", "C")] := by
      decide +kernel
    rw [Violated, HasAxiom, htriples]
    decide
  have hpy : endsWith "app.py" ".py" = true := by decide
  have hids : ∃ root, bareEnv.parse "A\nB\n" = .tree root ∧ identifiers root = ["A", "B"] :=
    ⟨_, rfl, by decide +kernel⟩
  obtain ⟨root, hparse, hids⟩ := hids
  rw [← hids] at hviolated
  constructor
  · intro hexact
    have hfirst := (reportsExactly_iff _ _ _).mp hexact _ List.mem_cons_self hpy root hparse "A" "C"
      hviolated
    have hfirst' : firstRequired twoRequires.relations "A" = some "B" := by decide +kernel
    rw [hfirst'] at hfirst
    exact absurd hfirst (by decide)
  · intro hclean
    have hrun : (runMergeGate bareEnv (twoRequiresConfig [("app.py", "A\nB\n")])).toOption.map
        GateReport.passed = some true := by
      decide +kernel
    obtain ⟨report, hreport, hpassed⟩ := Option.map_eq_some_iff.mp hrun
    have hfiles : collectFiles bareEnv (twoRequiresConfig [("app.py", "A\nB\n")]) =
        .ok [⟨"app.py", "python", "A\nB\n"⟩] := by
      decide +kernel
    exact hclean _ report rfl hfiles (eq_ok_of_toOption hreport) hpassed _ List.mem_cons_self hpy
      root hparse "A" .requires "C" hviolated

/-- Without a changed file the gate passes, whatever the sandbox and the judge have to say. -/
theorem empty_diff_passes : ∃ report,
    runMergeGate bareEnv { judgeThreshold := highScore } = .ok report ∧ report.passed = true ∧
      report.sandboxAllValid = none ∧ report.judgePassed = false :=
  ⟨_, rfl, rfl, rfl, rfl⟩

theorem runMergeGate_blocks_content : ∃ sandbox result judge verdict score,
    gateSandbox bareEnv (contentConfig [("app.py", "A\n")]) = .ok sandbox ∧
      sandbox [⟨"app.py", "python", "A\n"⟩] false = .ok result ∧ result.passed = true ∧
      gateJudge bareEnv (contentConfig [("app.py", "A\n")]) = .ok judge ∧
      judge (gateSolution [⟨"app.py", "python", "A\n"⟩]) = .ok verdict ∧
      verdict.score = .ok score ∧ PyInterp.lt score highScore = false := by
  have hrun : (runMergeGate bareEnv (contentConfig [("app.py", "A\n")])).toOption.map
      GateReport.passed = some true := by
    decide +kernel
  obtain ⟨report, hreport, hpassed⟩ := Option.map_eq_some_iff.mp hrun
  obtain ⟨rawFiles, hraw, -, hstages⟩ := (runMergeGate_blocks bareEnv
    (contentConfig [("app.py", "A\n")])).1 report (eq_ok_of_toOption hreport) hpassed
  cases hraw
  obtain ⟨hsandbox, hjudge⟩ := hstages (by decide)
  obtain ⟨sandbox, result, hsandbox, hresult, hvalid⟩ := hsandbox rfl
  obtain ⟨judge, verdict, score, hjudge⟩ := hjudge
  exact ⟨sandbox, result, judge, verdict, score, hsandbox, hresult, hvalid, hjudge⟩

end Noema.Experiments
