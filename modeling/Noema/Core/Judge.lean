import Noema.Core.Assemble
import Noema.Lib.PyNumber
import Noema.Lib.PyTriple

/-!
# The judge (`judge.py`)

`evaluateSolution` asks an LLM to grade a solution, and reads a verdict from its answer. It writes
into the metadata of the solution while it reads (`JudgeNotes`), so it is a computation in `PyM
(JudgeNotes F)`: what it has written stays, also when something raises after it.

The prompt is built with all parts that the source gives it, since the answer may depend on any of
them. Reading follows `_parse_verdict` line by line: fences are stripped, the text is parsed, each
score is read with its default and clamped, the weaknesses and the summary are cut.

- `readVerdict_triple`, `parseVerdict_triple`: what a verdict says that was read from a document.
- **`evaluateSolution_triple`**: it never raises, and a solution passes only if the answer is a
  document whose overall score is at least one half.

What is left in the metadata when reading fails half-way is in `JudgeAtomic`.
-/

namespace Noema.Core

open Noema.Lib PyJson Noema.Utils
open Noema.Lib.PyM (Triple anything)

/-! ## Verdicts -/

/-- `JudgeScore`. -/
structure JudgeScore (F : Type) where
  architecture : F
  codeQuality : F
  security : F
  performance : F
  maintainability : F
  completeness : F
  overall : F

/-- `JudgeVerdict`. -/
structure JudgeVerdict (F : Type) where
  passed : Bool := false
  scores : JudgeScore F
  strengths : PyVal F := .list []
  weaknesses : PyVal F := .list []
  improvements : PyVal F := .list []
  productionReadiness : PyVal F := .str "needs-work"
  summary : PyVal F := .str ""
  rawFeedback : String := ""

/-- The keys `judge_*` of the metadata of a solution. -/
structure JudgeNotes (F : Type) where
  scores : Option (JudgeScore F) := none
  weaknesses : Option (PyVal F) := none
  passed : Option Bool := none
  reflexionAttempt : Option Nat := none
  error : Option String := none

/-! ## The prompt -/

/-- `JUDGE_SYSTEM_PROMPT`. -/
def judgeSystemPrompt : String :=
  "You are a senior technical lead evaluating an AI-generated solution.\n" ++
    "You must be CRITICAL and HONEST. Grade each category from 0.0 to 1.0.\n\n" ++
    "Evaluation criteria:\n" ++
    "- architecture: design quality, patterns, scalability, trade-offs\n" ++
    "- code_quality: readability, structure, typing, error handling\n" ++
    "- security: threat model, OWASP coverage, data protection\n" ++
    "- performance: caching, optimization, async processing\n" ++
    "- maintainability: modularity, documentation, testing strategy\n" ++
    "- completeness: how well the solution addresses the original task\n\n" ++
    "Return ONLY valid JSON:\n" ++
    "\x7b\n  " ++
    "\"scores\": \x7b\"architecture\": 0.0-1.0, \"code_quality\": 0.0-1.0, " ++
    "\"security\": 0.0-1.0, \"performance\": 0.0-1.0, \"maintainability\": 0.0-1.0, " ++
    "\"completeness\": 0.0-1.0, \"overall\": 0.0-1.0\x7d,\n  " ++
    "\"strengths\": [\"list of 2-3 key strengths\"],\n  " ++
    "\"weaknesses\": [\"list of 2-3 key weaknesses\"],\n  " ++
    "\"improvements\": [\"list of 2-3 actionable improvements\"],\n  " ++
    "\"production_readiness\": \"ready|needs-work|major-issues\",\n  " ++
    "\"summary\": \"one paragraph summary of the evaluation\"\n" ++
    "\x7d\n\n" ++
    "Be strict. A score above 0.8 should mean truly excellent. Below 0.4 means major issues."

/-- A section with the lines of a list, if it has any. -/
def listPart (heading : String) (lines : List String) : List String :=
  if lines = [] then [] else ["\n### " ++ heading ++ "\n" ++ "\n".intercalate lines]

/-- The user prompt of `evaluate_solution`. -/
def judgePrompt (solution : Solution) (taskDescription : String)
    (taskTags checklist : List String) : String :=
  let architecture :=
    match solution.architecture with
    | some arch => ["\n### Architecture\nPattern: " ++ arch.name ++ "\n" ++
        pySlice arch.description 500]
    | none => []
  let files := (solution.codeBlocks.take 5).map fun cb =>
    "- " ++ cb.filename ++ " (" ++ cb.language ++ ", " ++ toString cb.content.length ++ " chars)"
  "\n".intercalate (
    ["## Task\n" ++ taskDescription, "Tags: " ++ ", ".intercalate taskTags,
      "\n## Solution: " ++ solution.title, "\n### Summary\n" ++ pySlice solution.summary 500] ++
    listPart "Required Checklist" (checklist.map fun item => "- [ ] " ++ item) ++
    architecture ++ ["\n### Tech Stack\n" ++ solution.stack.summary] ++
    listPart "Generated Files" files ++
    listPart "Performance" (solution.performanceNotes.take 5) ++
    listPart "Security" (solution.securityNotes.take 5))

/-- The messages that the judge is asked with. -/
def judgeMessages (solution : Solution) (taskDescription : String)
    (taskTags checklist : List String) : List LLMMessage :=
  [⟨"system", judgeSystemPrompt⟩,
    ⟨"user", judgePrompt solution taskDescription taskTags checklist⟩]

/-! ## The answer -/

section Verdict

variable {F : Type} [PyInterp F]

/-- `JudgeScore()`. -/
def JudgeScore.zero : JudgeScore F :=
  ⟨zeroFloat, zeroFloat, zeroFloat, zeroFloat, zeroFloat, zeroFloat, zeroFloat⟩

/-- `_score` (judge.py:248). -/
def score (value : PyVal F) : Except PyExc F :=
  match value.pyFloat with
  | .ok parsed =>
    -- a NaN is not equal to itself
    if PyInterp.eq parsed parsed then
      .ok (pyMax zeroFloat (pyMin (PyFloat.ofText ['1', '.', '0']) parsed))
    else .ok zeroFloat
  | .error (.typeError _) | .error (.valueError _) => .ok zeroFloat
  | .error e => .error e

/-- `JudgeScore(...)` of the scores in a document. -/
def scoresOf (data : PyVal F) : Except PyExc (JudgeScore F) := do
  let of (key : String) : Except PyExc F := do score (← data.getKey key .none)
  return {
    architecture := ← of "architecture"
    codeQuality := ← of "code_quality"
    security := ← of "security"
    performance := ← of "performance"
    maintainability := ← of "maintainability"
    completeness := ← of "completeness"
    overall := ← of "overall" }

/-- The scores in a document. -/
def gradesOf (data : PyVal F) : Except PyExc (JudgeScore F) := do
  let scoresData ← data.getKey "scores" (.dict [])
  scoresOf scoresData

/-- `scores.overall >= 0.5`. -/
def JudgeScore.passes (scores : JudgeScore F) : Bool :=
  PyInterp.le (PyFloat.ofText ['0', '.', '5']) scores.overall

/-- The verdict in a document. -/
def readVerdict (raw : String) (data : PyVal F) : PyM (JudgeNotes F) (JudgeVerdict F) := do
  let scores ← PyM.lift (gradesOf data)
  PyM.modify fun notes => { notes with scores := some scores }
  let weaknesses ← PyM.lift (data.getKey "weaknesses" (.list []))
  PyM.modify fun notes => { notes with weaknesses := some weaknesses }
  let strengths ← PyM.lift (data.getKey "strengths" (.list []))
  let improvements ← PyM.lift (data.getKey "improvements" (.list []))
  let productionReadiness ← PyM.lift (data.getKey "production_readiness" (.str "needs-work"))
  let summary ← PyM.lift (do PyVal.sliceTo 500 (← data.getKey "summary" (.str "")))
  pure {
    passed := scores.passes, scores, strengths, weaknesses, improvements, productionReadiness,
    summary, rawFeedback := pySlice raw 500 }

/-- `_parse_verdict` (judge.py:262). -/
def parseVerdict (raw : String) : PyM (JudgeNotes F) (JudgeVerdict F) :=
  match loads (stripFences raw.toList) with
  | some data => readVerdict raw data
  | none => pure {
      scores := .zero, rawFeedback := pySlice raw 500
      summary := .str "Raw (unparseable) judge feedback" }

/-- `evaluate_solution` (judge.py:113); `complete` is what the LLM answers. -/
def evaluateSolution (complete : List LLMMessage → Except PyExc String) (solution : Solution)
    (taskDescription : String) (taskTags checklist : List String) :
    PyM (JudgeNotes F) (JudgeVerdict F) :=
  PyM.tryCatch
    (do
      let content ← PyM.lift (complete (judgeMessages solution taskDescription taskTags checklist))
      parseVerdict content)
    fun e => pure { scores := .zero, summary := .str ("Judge evaluation skipped: " ++ e.msg) }

/-! ## Who passes -/

variable {data : PyVal F} {raw : String}

theorem readVerdict_triple :
    Triple (fun _ => True) (readVerdict raw data)
      (fun verdict _ => verdict.passed = true →
        gradesOf data = .ok verdict.scores ∧ verdict.scores.passes = true) anything := by
  refine .bind .lift_eq fun scores => .of_pure fun hgrades => ?_
  refine .any_bind fun _ => ?_
  refine .any_bind fun weaknesses => ?_
  refine .any_bind fun _ => ?_
  refine .any_bind fun strengths => ?_
  refine .any_bind fun improvements => ?_
  refine .any_bind fun productionReadiness => ?_
  refine .any_bind fun summary => ?_
  exact .pure fun _ _ hpassed => ⟨hgrades, hpassed⟩

/-- The document of an answer gives a solution at least one half. -/
def Approves (content : String) (scores : JudgeScore F) : Prop :=
  ∃ data : PyVal F, loads (stripFences content.toList) = some data ∧
    gradesOf data = .ok scores ∧ scores.passes = true

theorem parseVerdict_triple :
    Triple (fun _ => True) (parseVerdict (F := F) raw)
      (fun verdict _ => verdict.passed = true → Approves raw verdict.scores) anything := by
  rw [parseVerdict]
  split
  next data hdata =>
    refine readVerdict_triple.post ?_
    intro verdict _ h hpassed
    exact ⟨data, hdata, h hpassed⟩
  next => exact .pure fun _ _ hpassed => by cases hpassed

/-- The judge never raises, and lets a solution pass only if the LLM gave it one half. -/
theorem evaluateSolution_triple {complete : List LLMMessage → Except PyExc String}
    {solution : Solution} {taskDescription : String} {taskTags checklist : List String} :
    Triple (fun _ => True)
      (evaluateSolution (F := F) complete solution taskDescription taskTags checklist)
      (fun verdict _ => verdict.passed = true → ∃ content,
        complete (judgeMessages solution taskDescription taskTags checklist) = .ok content ∧
          Approves content verdict.scores) fun _ _ => False := by
  refine .tryCatch (E := anything) ?_ fun e => .pure fun _ _ hpassed => by cases hpassed
  refine .bind .lift_eq fun content => .of_pure fun hcontent => ?_
  refine parseVerdict_triple.post ?_
  intro verdict _ h hpassed
  exact ⟨content, hcontent, h hpassed⟩

end Verdict

end Noema.Core
