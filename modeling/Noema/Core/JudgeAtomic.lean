import Noema.Core.Judge

/-!
# What the judge leaves behind (`judge.py`)

`_parse_verdict` writes the scores and the weaknesses of an answer into the metadata of the solution
and then goes on reading. The last thing that it reads is the summary, of which it takes the first
500 characters; when the summary is neither a text nor a list, this raises, and `evaluate_solution`
makes a verdict of the exception. The verdict then says that nothing was judged, and the metadata
has scores.

- `evaluateSolution_cases`: the four ways a call can end: the LLM raises, the answer is no document
  with scores, the verdict is read, or the summary raises.
- `SummaryFits`: the condition on the answer, that a document with readable scores has a text or a
  list as its summary, or says what the metadata says already.
- **`failsClosed_iff_summaryFits`**: for every answer and every failure, the judge has a verdict
  with scores from 0 to 1, passes what got one half, and changes the metadata only for a verdict
  that was read, if and only if the summary fits.
- `null_summary_written`: a summary that is `null`.

Floats are abstract; the one fact about them is that zero is less than one half.
-/

namespace Noema.Core

open Noema.Lib PyJson Noema.Utils

section Atomic

variable {F : Type} [PyInterp F]

/-- The scores of a verdict. -/
def JudgeScore.toList (s : JudgeScore F) : List F :=
  [s.architecture, s.codeQuality, s.security, s.performance, s.maintainability, s.completeness,
    s.overall]

/-- `1.0`. -/
def oneFloat : F := PyFloat.ofText ['1', '.', '0']

/-- A float from 0 to 1. -/
def InUnit (f : F) : Prop :=
  f = zeroFloat ∨ f = oneFloat ∨ PyInterp.lt zeroFloat f = true ∧ PyInterp.lt f oneFloat = true

/-- What a verdict is that was not read from an answer. -/
def skippedVerdict (summary rawFeedback : String) : JudgeVerdict F :=
  { scores := .zero, summary := .str summary, rawFeedback }

/-- The verdict that is read from a document with the scores and with a summary. -/
def documentVerdict (raw : String) (kvs : List (String × PyVal F)) (scores : JudgeScore F)
    (summary : PyVal F) : JudgeVerdict F where
  passed := scores.passes
  scores := scores
  strengths := getOr kvs "strengths" (.list [])
  weaknesses := getOr kvs "weaknesses" (.list [])
  improvements := getOr kvs "improvements" (.list [])
  productionReadiness := getOr kvs "production_readiness" (.str "needs-work")
  summary := summary
  rawFeedback := pySlice raw 500

/-- The metadata with the scores and the weaknesses of a document. -/
def JudgeNotes.graded (notes : JudgeNotes F) (kvs : List (String × PyVal F))
    (scores : JudgeScore F) : JudgeNotes F :=
  { notes with scores := some scores, weaknesses := some (getOr kvs "weaknesses" (.list [])) }

/-- An answer is a document with scores that can be read. -/
def Graded (content : String) (kvs : List (String × PyVal F)) (scores : JudgeScore F) : Prop :=
  loads (stripFences content.toList) = some (.dict kvs) ∧ gradesOf (.dict kvs) = .ok scores

/-- The summary of a document. -/
def summaryIn (kvs : List (String × PyVal F)) : PyVal F := getOr kvs "summary" (.str "")

/-! ## How a call ends -/

variable {complete : List LLMMessage → Except PyExc String} {solution : Solution}
  {taskDescription : String} {taskTags checklist : List String} {notes : JudgeNotes F}

/-- Only a dict has scores. -/
theorem dict_of_gradesOf {data : PyVal F} {scores : JudgeScore F} (h : gradesOf data = .ok scores) :
    ∃ kvs, data = .dict kvs := by
  obtain ⟨scoresData, hscores, -⟩ := bind_eq_ok h
  cases data with
  | dict kvs => exact ⟨kvs, rfl⟩
  | _ => cases hscores

/-- Reading a document whose scores can be read. -/
theorem readVerdict_graded {raw : String} {kvs : List (String × PyVal F)} {scores : JudgeScore F}
    (h : gradesOf (.dict kvs) = .ok scores) :
    readVerdict raw (.dict kvs) notes =
      (((summaryIn kvs).sliceTo 500).map (documentVerdict raw kvs scores),
        notes.graded kvs scores) := by
  rw [readVerdict, h]
  show (PyM.lift ((summaryIn kvs).sliceTo 500) >>= fun summary =>
    pure (documentVerdict raw kvs scores summary)) (notes.graded kvs scores) = _
  cases (summaryIn kvs).sliceTo 500 with
  | ok summary => rfl
  | error e => rfl

/-- A call changes nothing and has no verdict of its own, or reads a verdict, or fails over the
summary after it has written. -/
theorem evaluateSolution_cases :
    (∃ summary rawFeedback,
      evaluateSolution complete solution taskDescription taskTags checklist notes =
        (.ok (skippedVerdict summary rawFeedback), notes) ∧
      ∀ content, complete (judgeMessages solution taskDescription taskTags checklist) = .ok content →
        ∀ kvs scores, ¬ Graded (F := F) content kvs scores) ∨
    ∃ content kvs scores,
      complete (judgeMessages solution taskDescription taskTags checklist) = .ok content ∧
      Graded (F := F) content kvs scores ∧
      ((∃ summary, (summaryIn kvs).sliceTo 500 = .ok summary ∧
        evaluateSolution complete solution taskDescription taskTags checklist notes =
          (.ok (documentVerdict content kvs scores summary), notes.graded kvs scores)) ∨
      ∃ e, (summaryIn kvs).sliceTo 500 = .error e ∧
        evaluateSolution complete solution taskDescription taskTags checklist notes =
          (.ok (skippedVerdict ("Judge evaluation skipped: " ++ e.msg) ""),
            notes.graded kvs scores)) := by
  rw [evaluateSolution, PyM.tryCatch]
  rcases hcomplete : complete (judgeMessages solution taskDescription taskTags checklist) with
    e | content
  · rw [PyM.bind_error (PyM.lift_apply _ _)]
    exact .inl ⟨_, _, rfl, fun content h => by cases h⟩
  rw [PyM.bind_ok (PyM.lift_apply _ _), parseVerdict]
  rcases hloads : (loads (stripFences content.toList) : Option (PyVal F)) with _ | data
  · refine .inl ⟨_, _, rfl, fun content' h kvs scores hgraded => ?_⟩
    cases h
    cases hloads.symm.trans hgraded.1
  rcases hgrades : gradesOf data with e | scores
  · have hrun : readVerdict content data notes = (.error e, notes) := by
      rw [readVerdict, hgrades]
      rfl
    dsimp only
    rw [hrun]
    refine .inl ⟨_, _, rfl, fun content' h kvs scores hgraded => ?_⟩
    cases h
    cases hloads.symm.trans hgraded.1
    cases hgrades.symm.trans hgraded.2
  -- The scores are written. What is left is the summary.
  · obtain ⟨kvs, rfl⟩ := dict_of_gradesOf hgrades
    refine .inr ⟨content, kvs, scores, rfl, ⟨hloads, hgrades⟩, ?_⟩
    dsimp only
    rw [readVerdict_graded hgrades]
    rcases hslice : (summaryIn kvs).sliceTo 500 with e | summary
    · exact .inr ⟨e, rfl, rfl⟩
    · exact .inl ⟨summary, rfl, rfl⟩

/-! ## The scores -/

theorem score_inUnit {value : PyVal F} {f : F} (h : score value = .ok f) : InUnit f := by
  rw [score] at h
  split at h
  · next parsed hparsed =>
    split at h
    · rw [← Except.ok.inj h, pyMax, pyMin]
      by_cases hlow : PyInterp.lt zeroFloat (if PyInterp.lt parsed oneFloat then parsed else oneFloat)
      · rw [show (PyFloat.ofText ['1', '.', '0'] : F) = oneFloat from rfl, if_pos hlow]
        split at hlow
        · next hhigh => exact .inr (.inr ⟨by rwa [if_pos hhigh], by rwa [if_pos hhigh]⟩)
        · next hhigh => exact .inr (.inl (if_neg hhigh))
      · exact .inl (if_neg hlow)
    · exact .inl (Except.ok.inj h).symm
  · exact .inl (Except.ok.inj h).symm
  · exact .inl (Except.ok.inj h).symm
  · cases h

/-- A score is read from a document or is a default. -/
theorem scoreOf_inUnit {data : PyVal F} {key : String} {f : F}
    (h : (do score (← data.getKey key .none)) = .ok f) : InUnit f := by
  obtain ⟨value, -, hscore⟩ := bind_eq_ok h
  exact score_inUnit hscore

theorem grades_inUnit {data : PyVal F} {scores : JudgeScore F} (h : gradesOf data = .ok scores) :
    ∀ f ∈ scores.toList, InUnit f := by
  obtain ⟨scoresData, -, h⟩ := bind_eq_ok h
  obtain ⟨architecture, h₁, h⟩ := bind_eq_ok h
  obtain ⟨codeQuality, h₂, h⟩ := bind_eq_ok h
  obtain ⟨security, h₃, h⟩ := bind_eq_ok h
  obtain ⟨performance, h₄, h⟩ := bind_eq_ok h
  obtain ⟨maintainability, h₅, h⟩ := bind_eq_ok h
  obtain ⟨completeness, h₆, h⟩ := bind_eq_ok h
  obtain ⟨overall, h₇, h⟩ := bind_eq_ok h
  cases h
  simp only [JudgeScore.toList, List.forall_mem_cons]
  exact ⟨scoreOf_inUnit h₁, scoreOf_inUnit h₂, scoreOf_inUnit h₃, scoreOf_inUnit h₄,
    scoreOf_inUnit h₅, scoreOf_inUnit h₆, scoreOf_inUnit h₇, fun f hf => by cases hf⟩

theorem zero_inUnit : ∀ f ∈ (JudgeScore.zero : JudgeScore F).toList, InUnit f := by
  intro f hf
  simp only [JudgeScore.toList, JudgeScore.zero, List.mem_cons, List.not_mem_nil, or_false,
    or_self] at hf
  exact .inl hf

/-! ## What a call leaves -/

/-- The verdict is the one that was read from the answer. -/
def FromAnswer (complete : List LLMMessage → Except PyExc String) (messages : List LLMMessage)
    (verdict : JudgeVerdict F) : Prop :=
  ∃ content kvs scores summary, complete messages = .ok content ∧ Graded content kvs scores ∧
    (summaryIn kvs).sliceTo 500 = .ok summary ∧
    verdict = documentVerdict content kvs scores summary

/-- The judge has a verdict, with scores from 0 to 1, passes what got one half, and changes the
metadata only for a verdict that it read. -/
def FailsClosed (complete : List LLMMessage → Except PyExc String) (solution : Solution)
    (taskDescription : String) (taskTags checklist : List String) (notes : JudgeNotes F) : Prop :=
  ∃ verdict notes',
    evaluateSolution complete solution taskDescription taskTags checklist notes =
      (.ok verdict, notes') ∧
    (∀ f ∈ verdict.scores.toList, InUnit f) ∧ verdict.passed = verdict.scores.passes ∧
    (notes' ≠ notes →
      FromAnswer complete (judgeMessages solution taskDescription taskTags checklist) verdict)

/-- A document with readable scores has a text or a list as its summary, or says what the metadata
says already. -/
def SummaryFits (content : String) (notes : JudgeNotes F) : Prop :=
  ∀ kvs scores, Graded content kvs scores →
    (∃ text, summaryIn kvs = .str text) ∨ (∃ items, summaryIn kvs = .list items) ∨
      notes.graded kvs scores = notes

omit [PyInterp F] in
theorem sliceTo_eq_ok_iff {n : Nat} {v : PyVal F} :
    (∃ w, v.sliceTo n = .ok w) ↔ (∃ text, v = .str text) ∨ ∃ items, v = .list items := by
  cases v with
  | str text => exact iff_of_true ⟨_, rfl⟩ (.inl ⟨text, rfl⟩)
  | list items => exact iff_of_true ⟨_, rfl⟩ (.inr ⟨items, rfl⟩)
  | _ =>
    refine iff_of_false ?_ ?_
    · rintro ⟨w, h⟩
      cases h
    · rintro (⟨_, h⟩ | ⟨_, h⟩) <;> cases h

/-- **The judge fails closed.** For every answer of the LLM and every failure of the call, on every
solution, the judge fails closed if and only if the summary fits. -/
theorem failsClosed_iff_summaryFits
    (hhalf : PyInterp.le (PyFloat.ofText ['0', '.', '5']) (zeroFloat : F) = false) :
    FailsClosed complete solution taskDescription taskTags checklist notes ↔
      ∀ content, complete (judgeMessages solution taskDescription taskTags checklist) = .ok content →
        SummaryFits content notes := by
  have hskipped : ∀ summary rawFeedback, (skippedVerdict summary rawFeedback : JudgeVerdict F).passed =
      (skippedVerdict summary rawFeedback : JudgeVerdict F).scores.passes :=
    fun _ _ => hhalf.symm
  rcases @evaluateSolution_cases F _ complete solution taskDescription taskTags checklist notes with
    ⟨summary, rawFeedback, hrun, hnone⟩ | ⟨content, kvs, scores, hcomplete, hgraded, hend⟩
  · refine iff_of_true ?_ fun content hcontent kvs scores hgraded => ?_
    · exact ⟨_, _, hrun, zero_inUnit, hskipped _ _, fun hne => absurd rfl hne⟩
    · exact absurd hgraded (hnone content hcontent kvs scores)
  -- A summary that can be cut gives the verdict of the document, and fits by that. For another one
  -- the verdict is that nothing was judged, so the metadata must not have changed.
  rcases hend with ⟨summary, hsummary, hrun⟩ | ⟨e, hsummary, hrun⟩
  · refine iff_of_true ?_ fun content' hcontent' kvs' scores' hgraded' => ?_
    · exact ⟨_, _, hrun, grades_inUnit hgraded.2, rfl,
        fun _ => ⟨content, kvs, scores, summary, hcomplete, hgraded, hsummary, rfl⟩⟩
    · cases hcomplete.symm.trans hcontent'
      cases hgraded.1.symm.trans hgraded'.1
      rcases sliceTo_eq_ok_iff.mp ⟨summary, hsummary⟩ with h | h
      · exact .inl h
      · exact .inr (.inl h)
  · have hnot : ¬ ∃ w, (summaryIn kvs).sliceTo 500 = .ok w := by
      rintro ⟨w, hw⟩
      cases hsummary.symm.trans hw
    constructor
    · rintro ⟨verdict, notes', hrun', -, -, hchanged⟩ content' hcontent' kvs' scores' hgraded'
      cases hcomplete.symm.trans hcontent'
      cases hgraded.1.symm.trans hgraded'.1
      cases hgraded.2.symm.trans hgraded'.2
      cases hrun.symm.trans hrun'
      refine .inr (.inr (by_contra fun hne => ?_))
      obtain ⟨content', kvs', scores', summary, hcontent', hgraded', hsummary', -⟩ := hchanged hne
      cases hcomplete.symm.trans hcontent'
      cases hgraded.1.symm.trans hgraded'.1
      exact hnot ⟨summary, hsummary'⟩
    · intro hfits
      refine ⟨_, _, hrun, zero_inUnit, hskipped _ _, fun hne => ?_⟩
      rcases hfits content hcomplete kvs scores hgraded with h | h | h
      · exact absurd (sliceTo_eq_ok_iff.mpr (.inl h)) hnot
      · exact absurd (sliceTo_eq_ok_iff.mpr (.inr h)) hnot
      · exact absurd h hne

end Atomic

/-! ## Samples -/

/-- A solution to grade. -/
def gradedSolution : Solution where
  taskId := "t1"
  title := "Cache"
  summary := "A cache."

/-- The overall score in an answer, as its text, and the type of the summary. -/
def outline (content : String) : Option (List Char × String) :=
  match (loads (stripFences content.toList) : Option (PyVal FloatText)) with
  | some (.dict kvs) => (gradesOf (.dict kvs)).toOption.map fun scores =>
      (scores.overall.text, (summaryIn kvs).typeName)
  | _ => none

theorem graded_of_outline {content typeName : String} {overall : List Char}
    (h : outline content = some (overall, typeName)) :
    ∃ kvs scores, Graded (F := FloatText) content kvs scores ∧ scores.overall.text = overall ∧
      (summaryIn kvs).typeName = typeName := by
  rw [outline] at h
  split at h
  · next kvs hloads =>
    obtain ⟨scores, hscores, heq⟩ := Option.map_eq_some_iff.mp h
    cases heq
    exact ⟨kvs, scores, ⟨hloads, eq_ok_of_toOption hscores⟩, rfl, rfl⟩
  · cases h

/-- An answer with one score, and a text as the summary. -/
def textAnswer : String :=
  "\x7b\"scores\": \x7b\"overall\": 0.9\x7d, \"summary\": \"Good.\"\x7d"

/-- The same with `null` as the summary. -/
def nullAnswer : String :=
  "\x7b\"scores\": \x7b\"overall\": 0.9\x7d, \"summary\": null\x7d"

theorem outline_text : outline textAnswer = some (['0', '.', '9'], "str") := by decide +kernel

theorem outline_null : outline nullAnswer = some (['0', '.', '9'], "NoneType") := by decide +kernel

/-- A text as the summary. -/
theorem failsClosed_text : FailsClosed (F := FloatText)
    (fun _ => .ok textAnswer) gradedSolution "Build a cache" [] [] {} := by
  obtain ⟨kvs, scores, hgraded, -, htype⟩ := graded_of_outline outline_text
  refine (failsClosed_iff_summaryFits (by decide +kernel)).mpr
    fun content hcontent kvs' scores' hgraded' => ?_
  cases hcontent
  cases hgraded.1.symm.trans hgraded'.1
  cases hsummary : summaryIn kvs with
  | str text => exact .inl ⟨text, rfl⟩
  | _ => simp [hsummary, PyVal.typeName] at htype

/-- The summary is `null`: the verdict is that nothing was judged, and the metadata has the score.
-/
theorem null_summary_written :
    (∃ verdict notes', evaluateSolution (F := FloatText) (fun _ => .ok nullAnswer)
        gradedSolution "Build a cache" [] [] {} = (.ok verdict, notes') ∧
      verdict.passed = false ∧ verdict.scores.overall = zeroFloat ∧
      ∃ scores, notes'.scores = some scores ∧ scores.overall.text = ['0', '.', '9']) ∧
    ¬ FailsClosed (F := FloatText) (fun _ => .ok nullAnswer) gradedSolution
      "Build a cache" [] [] {} := by
  obtain ⟨kvs, scores, hgraded, hoverall, htype⟩ := graded_of_outline outline_null
  have hnot : ∀ summary, (summaryIn kvs).sliceTo 500 ≠ .ok summary := by
    intro summary hslice
    rcases sliceTo_eq_ok_iff.mp ⟨summary, hslice⟩ with ⟨text, heq⟩ | ⟨items, heq⟩
    · simp [heq, PyVal.typeName] at htype
    · simp [heq, PyVal.typeName] at htype
  rcases @evaluateSolution_cases FloatText _ (fun _ => .ok nullAnswer) gradedSolution
      "Build a cache" [] [] {} with
    ⟨_, _, -, hnone⟩ | ⟨content, kvs', scores', hcontent, hgraded', hend⟩
  · exact absurd hgraded (hnone _ rfl _ _)
  cases hcontent
  cases hgraded.1.symm.trans hgraded'.1
  cases hgraded.2.symm.trans hgraded'.2
  rcases hend with ⟨summary, hsummary, -⟩ | ⟨e, -, hrun⟩
  · exact absurd hsummary (hnot summary)
  refine ⟨⟨_, _, hrun, rfl, rfl, scores, rfl, hoverall⟩, ?_⟩
  rintro ⟨verdict, notes', hrun', -, -, hchanged⟩
  cases hrun.symm.trans hrun'
  -- The metadata has changed, so there would have to be a verdict that was read.
  obtain ⟨content, kvs', scores', summary, hcontent, hgraded', hsummary, -⟩ :=
    hchanged fun heq => by cases congrArg JudgeNotes.scores heq
  cases hcontent
  cases hgraded.1.symm.trans hgraded'.1
  exact hnot summary hsummary

end Noema.Core
