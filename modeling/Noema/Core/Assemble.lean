import Noema.Core.Resume
import Noema.Utils.JsonUtils

/-!
# From reasoning to a solution (`core/engine.py`)

`assembleSolutionFromReasoning` builds a `Solution` from the context that `reason` returns: the
summary, the stack, the architecture, the code blocks and the notes. The values in it come out of
JSON that an LLM wrote, so every access to them may raise, and most of them are guarded by a type
test and some are not; the order of the accesses is the source's.

The code blocks are read from the key `code`; the context has the answer of the step that generates
code under `codegen`, which is the name of the step.

- `lookup_code_items`: the context of a run has no key `code`. Its keys are those of the request,
  and names of steps.
- `codeBlocks_assemble`: so a solution that is built from a run has no code blocks.
- **`delivers_iff`**: the generated document is in the context under `codegen`, but there is a code
  block for each of its first 50 files that is to become one if and only if there is no such file.
- `programRun_not_delivered`: a run whose LLM answers with a program.

`codeBlockOf` is the conversion of one entry of `files`, with the defaults and the guesses of the
source for its language.
-/

namespace Noema.Core

open Noema.Lib PyJson Noema.Utils Noema.Budget

variable {F B : Type}

/-! ## Models -/

/-- The fields of a `Task` that a solution shows. -/
structure Task where
  id : String
  title : String

/-- `TechStack` (types.py:90), without the tools, which the summary does not read. Reasoning leaves
the cloud empty. -/
structure TechStack where
  languages : List String := []
  frameworks : List String := []
  databases : List String := []
  infrastructure : List String := []
  cloud : List String := []
  deriving DecidableEq, Repr

/-- `parts.append(label + ", ".join(items))`, if there are items. -/
def stackPart (label : String) (items : List String) : List String :=
  if items = [] then [] else [label ++ ", ".intercalate items]

/-- `TechStack.summary` (types.py:100). -/
def TechStack.summary (stack : TechStack) : String :=
  let parts := stackPart "Languages: " stack.languages ++
    stackPart "Frameworks: " stack.frameworks ++ stackPart "Databases: " stack.databases ++
    stackPart "Infrastructure: " stack.infrastructure ++ stackPart "Cloud: " stack.cloud
  if parts = [] then "Undefined" else " | ".intercalate parts

/-- `ArchitecturePattern`. -/
structure ArchitecturePattern where
  name : String
  description : String
  pros : List String
  cons : List String
  deriving DecidableEq, Repr

/-- `CodeBlock`. -/
structure CodeBlock where
  filename : String
  language : String
  content : String
  description : String := ""
  deriving DecidableEq, Repr

/-- The fields of a `Solution` that are assembled. -/
structure Solution where
  taskId : String
  title : String
  summary : String
  architecture : Option ArchitecturePattern := none
  stack : TechStack := {}
  codeBlocks : List CodeBlock := []
  performanceNotes : List String := []
  securityNotes : List String := []
  metadata : List (String × String) := []
  deriving DecidableEq, Repr

/-! ## Parts of a solution -/

section Assemble

variable [PyInterp F]

/-- `_safe_parse` (engine.py:1148). -/
def safeParse : PyVal F → PyVal F
  | .dict d => .dict d
  | .list xs => .list xs
  | .str s =>
    match extractFencedJson s (.none : PyVal F) with
    | .none => .dict [("raw", .str (pySlice (String.ofList (strip s.toList)) 500))]
    | v => v
  | _ => .dict []

/-- `" | ".join(p for p in parts if p)`. -/
def joinParts (parts : List (PyVal F)) : Except PyExc String := do
  let texts ← (parts.filter PyVal.truthy).zipIdx.mapM fun (part, i) =>
    match part with
    | .str s => .ok s
    | v => .error (.typeError ("sequence item " ++ toString i ++
        ": expected str instance, " ++ v.typeName ++ " found"))
  return " | ".intercalate texts

/-- A part of the summary: the first 200 items of a field of a parsed dict. -/
def summaryPart (data : PyVal F) (key : String) : Except PyExc (List (PyVal F)) :=
  match data with
  | .dict d => (PyVal.sliceTo 200 (getOr d key (.str ""))).map fun part => [part]
  | _ => .ok []

/-- `_extract_summary` (engine.py:1133). -/
def extractSummary (reasoning : List (String × PyVal F)) : Except PyExc String := do
  let arch ← summaryPart (safeParse (getOr reasoning "architecture" (.str "\x7b\x7d")))
    "high_level_design"
  let review ← summaryPart (safeParse (getOr reasoning "review" (.str "\x7b\x7d"))) "final_summary"
  let joined ← joinParts (arch ++ review)
  return if joined = "" then "Solution generated via Chain-of-Thought reasoning" else joined

/-- The names in a list of the stack: a field of the dicts in it, and the text of other items. -/
def namesIn (stack : List (String × PyVal F)) (key field : String) :
    Except PyExc (List (PyVal F)) := do
  let items ← PyVal.iter (getOr stack key (.list []))
  return items.map fun item =>
    match item with
    | .dict d => getOr d field (.str "")
    | v => .str v.toStr

/-- The stack of a solution. -/
def stackOf (data : PyVal F) : Except PyExc TechStack :=
  match data with
  | .dict stack => do
    let languages ← namesIn stack "languages" "name"
    let frameworks ← namesIn stack "frameworks" "name"
    let databases ← namesIn stack "databases" "name"
    let infrastructure ← namesIn stack "infrastructure" "tool"
    return {
      languages := ← languages.mapM PyVal.asStr
      frameworks := ← frameworks.mapM PyVal.asStr
      databases := ← databases.mapM PyVal.asStr
      infrastructure := ← infrastructure.mapM PyVal.asStr }
  | _ => .ok {}

/-- The texts in a list; other values give none. -/
def textsIn : PyVal F → List String
  | .list xs => xs.map PyVal.toStr
  | _ => []

/-- The architecture of a solution. -/
def architectureOf (data : PyVal F) : Option ArchitecturePattern :=
  match data with
  | .dict arch =>
    match arch.lookup "pattern" with
    | some (.dict pattern) => some {
        name := (getOr pattern "name" (.str "Custom")).toStr
        description :=
          (getOr pattern "description" (getOr arch "high_level_design" (.str ""))).toStr
        pros := textsIn (getOr pattern "pros" (.list []))
        cons := textsIn (getOr pattern "cons" (.list [])) }
    | _ => none
  | _ => none

/-- The language of a file extension. -/
def languageOf (ext : String) : String :=
  (List.lookup ext [("py", "python"), ("ts", "typescript"), ("js", "javascript"), ("go", "go"),
    ("rs", "rust"), ("java", "java"), ("yml", "yaml"), ("yaml", "yaml")]).getD ext

/-- `path.rsplit(".", 1)[-1] if "." in path else "py"`. -/
def extensionOf : PyVal F → Except PyExc String
  | .str s =>
    .ok (if '.' ∈ s.toList then String.ofList (s.toList.reverse.takeWhile (· ≠ '.')).reverse
      else "py")
  | .list xs =>
    if xs.any fun x => x.pyEq (.str ".") then
      .error (.attributeError "'list' object has no attribute 'rsplit'")
    else .ok "py"
  | .dict d =>
    if "." ∈ d.map Prod.fst then
      .error (.attributeError "'dict' object has no attribute 'rsplit'")
    else .ok "py"
  | v => .error (.typeError ("argument of type '" ++ v.typeName ++ "' is not iterable"))

/-- The code block of an entry of `files`, if it gets one. -/
def codeBlockOf : PyVal F → Except PyExc (Option CodeBlock)
  | .dict f => do
    let path := ((dictGet f "path").pyOr (dictGet f "filename")).pyOr (.str "main.py")
    let content := getOr f "content" (.str "")
    if !content.truthy then return none
    let length ← content.len
    -- content that is too short or too long is dropped
    if length ≤ 10 ∨ 200000 < length then return none
    let ext ← extensionOf path
    let filename ← path.asStr
    let text ← content.asStr
    let description ← (getOr f "description" (.str "")).asStr
    return some { filename, language := languageOf ext, content := text, description }
  | _ => .ok none

/-- The code blocks of a solution. -/
def codeBlocksOf (data : PyVal F) : Except PyExc (List CodeBlock) :=
  match data with
  | .dict code =>
    match code.lookup "files" with
    | some files => do
      let entries ← (← PyVal.sliceTo 50 files).iter
      return (← entries.mapM codeBlockOf).filterMap id
    | none => .ok []
  | _ => .ok []

/-- The performance notes of a solution. -/
def performanceNotesOf : PyVal F → List String
  | .dict d => d.flatMap fun (key, val) =>
    match val with
    | .dict inner => ["[" ++ key ++ "] " ++ pySlice (String.ofList (dumps false (.dict inner))) 200]
    | .list xs => (xs.take 3).map fun item => "[" ++ key ++ "] " ++ pySlice item.toStr 200
    | _ => []
  | _ => []

/-- The security notes of a solution. -/
def securityNotesOf (data : PyVal F) : Except PyExc (List String) :=
  match data with
  | .dict d => do
    let threats ← (← PyVal.sliceTo 5 (getOr d "threat_model" (.list []))).iter
    return threats.filterMap fun threat =>
      match threat with
      | .dict t => some ("[" ++ (getOr t "likelihood" (.str "medium")).toStr ++ "] " ++
          (getOr t "threat" (.str "")).toStr ++ ": " ++ (getOr t "mitigation" (.str "")).toStr)
      | _ => none
  | _ => .ok []

/-- `self.llm.name` and `self.llm.model_name`. -/
structure LLMInfo where
  name : String
  modelName : String

/-- `_assemble_solution_from_reasoning` (engine.py:1012). -/
def assembleSolutionFromReasoning (llm : LLMInfo) (task : Task)
    (reasoning : List (String × PyVal F)) : Except PyExc Solution := do
  let part (key : String) : PyVal F := safeParse (getOr reasoning key (.str "\x7b\x7d"))
  let summary ← extractSummary reasoning
  let stack ← stackOf (part "stack")
  -- the key is `code`, and the step has left its answer under `codegen`
  let codeBlocks ← codeBlocksOf (part "code")
  let securityNotes ← securityNotesOf (part "security")
  return {
    taskId := task.id
    title := "Solution: " ++ task.title
    summary
    architecture := architectureOf (part "architecture")
    stack
    codeBlocks
    performanceNotes := performanceNotesOf (part "optimization")
    securityNotes
    metadata := [("llm_provider", llm.name), ("llm_model", llm.modelName),
      ("review", pySlice (getOr reasoning "review" (.str "")).toStr 500)] }

/-! ## Code blocks -/

theorem stripFences_empty : stripFences "\x7b\x7d".toList = "\x7b\x7d".toList := by
  decide +kernel

theorem safeParse_empty : safeParse (.str "\x7b\x7d" : PyVal F) = .dict [] := by
  have hloads : loads "\x7b\x7d".toList = some (.dict [] : PyVal F) := rfl
  unfold safeParse extractFencedJson
  simp only [stripFences_empty, hloads]
  rfl

/-- Without the key `code` there are no code blocks. -/
theorem codeBlocks_assemble {llm : LLMInfo} {task : Task} {reasoning : List (String × PyVal F)}
    {solution : Solution} (hcode : reasoning.lookup "code" = none)
    (h : assembleSolutionFromReasoning llm task reasoning = .ok solution) :
    solution.codeBlocks = [] := by
  have hblocks : codeBlocksOf (safeParse (getOr reasoning "code" (.str "\x7b\x7d"))) = .ok [] := by
    rw [getOr, hcode, Option.getD_none, safeParse_empty]
    rfl
  obtain ⟨summary, -, h⟩ := bind_eq_ok h
  obtain ⟨stack, -, h⟩ := bind_eq_ok h
  obtain ⟨codeBlocks, hcodeBlocks, h⟩ := bind_eq_ok h
  obtain ⟨notes, -, h⟩ := bind_eq_ok h
  rw [hblocks] at hcodeBlocks
  cases hcodeBlocks
  cases h
  rfl

omit [PyInterp F] in
/-- The context of a run has no key `code`. -/
theorem lookup_code_items (ctx : Context F) : ctx.items.lookup "code" = none := by
  rw [List.lookup_eq_none_iff]
  intro p hp
  have hkey : p.1 ≠ "code" := by
    rcases List.mem_append.mp hp with hrequest | hresult
    · intro heq
      have hmem := mem_requestKeys hrequest
      rw [heq] at hmem
      revert hmem
      decide
    · obtain ⟨⟨n, r⟩, -, rfl⟩ := List.mem_map.mp hresult
      show n.text ≠ "code"
      cases n <;> decide
  simpa using Ne.symm hkey

/-- The content of an entry that is to become a code block. -/
def deliverable : PyVal F → Option String
  | .dict f =>
    match f.lookup "content" with
    | some (.str content) =>
      if 10 < content.length ∧ content.length ≤ 200000 then some content else none
    | _ => none
  | _ => none

/-- There is one code block for each of the first 50 entries that is to become one. -/
def Delivers (blocks : List CodeBlock) (files : List (PyVal F)) : Prop :=
  blocks.map CodeBlock.content = (files.take 50).filterMap deliverable

/-- The files of a document `{"files": [...]}`. -/
def filesIn (F : Type) [PyInterp F] (text : String) : List (PyVal F) :=
  match safeParse (.str text) with
  | .dict doc =>
    match doc.lookup "files" with
    | some (.list files) => files
    | _ => []
  | _ => []

variable [PyFraction B]

/-- **Generated code.** The context of a run has the generated document under `codegen`; but a
solution that is built from it has a code block for each of the first 50 files that is to become
one if and only if there is no such file. -/
theorem delivers_iff (x : Executor) (u : Unicode) (req : Request F)
    (resume : List (String × String)) (budget : Option (TokenBudget B)) (s : State F B)
    (h : Reasons x u req resume budget s) (hstatus : (s.steps .codegen).status = .completed)
    (llm : LLMInfo) (task : Task) (solution : Solution)
    (hbuilt : assembleSolutionFromReasoning llm task s.context.items = .ok solution) :
    s.context.items.lookup "codegen" = some (.str (s.steps .codegen).result) ∧
      (Delivers solution.codeBlocks (filesIn F (s.steps .codegen).result) ↔
        ∀ f ∈ (filesIn F (s.steps .codegen).result).take 50, deliverable f = none) := by
  constructor
  · show s.context.items.lookup StepName.codegen.text = _
    rw [lookup_items, (runInv_reason h).results, finalResult, if_pos hstatus, Option.map_some]
  · rw [Delivers, codeBlocks_assemble (lookup_code_items s.context) hbuilt, List.map_nil,
      ← List.filterMap_eq_nil_iff]
    exact eq_comm

end Assemble

/-! ## A run that generates a program -/

/-- A document with one file. -/
def programText : String :=
  "\x7b\"files\": [\x7b\"path\": \"main.py\", \"content\": \"print('hello')\"\x7d]\x7d"

/-- An LLM that answers every call with the document. -/
def programmer : List LLMMessage → Except PyExc LLMResponse := fun _ => .ok ⟨programText, 2, "stop"⟩

/-- Its run. -/
def programRun : State FloatText ℚ :=
  reasonInTurn (functional programmer) programmer .ascii simpleRequest [] none

theorem reasons_programRun :
    Reasons (functional programmer) .ascii simpleRequest [] none programRun :=
  reasons_reasonInTurn (fun _ => rfl) _ _ _ _

theorem mem_plannedSteps_simple {n : StepName} :
    n ∈ plannedSteps .ascii simpleRequest ↔ n ∈ minimalSteps := by
  have hplan : plannedSteps .ascii simpleRequest = minimalSteps := by decide +kernel
  rw [hplan]

/-- Every planned step has the document as its result. -/
theorem steps_programRun {n : StepName} (hn : n ∈ minimalSteps) :
    (programRun.steps n).status = .completed ∧ (programRun.steps n).result = programText := by
  obtain ⟨ctx, -, -, hanswer⟩ := answered_reason reasons_programRun
    (mem_plannedSteps_simple.mpr hn) (restoredResult_nil _ _ n)
  have houtcome : ((programRun.steps n).status, (programRun.steps n).result) =
      (StepStatus.completed, programText) := hanswer.outcome
  simpa using houtcome

theorem lookup_programRun (n : StepName) : programRun.context.items.lookup n.text =
    if n ∈ minimalSteps then some (.str programText) else none := by
  rw [(reason_contract _ _ _ _ _ _ reasons_programRun).context n]
  by_cases hn : n ∈ minimalSteps
  · simp [mem_plannedSteps_simple, hn, steps_programRun hn]
  · simp [mem_plannedSteps_simple, hn]

/-- The keys of a dict. -/
def keysOf : PyVal FloatText → List String
  | .dict d => d.map Prod.fst
  | _ => []

/-- The document is a dict with the key `files` only. -/
theorem safeParse_programText :
    ∃ v : PyVal FloatText, safeParse (.str programText) = .dict [("files", v)] := by
  have hkeys : keysOf (safeParse (.str programText)) = ["files"] := by decide +kernel
  cases hdoc : safeParse (.str programText : PyVal FloatText) with
  | dict d =>
    rw [hdoc, keysOf] at hkeys
    rcases d with _ | ⟨⟨k, v⟩, _ | _⟩
    · cases hkeys
    · simp only [List.map_cons, List.map_nil, List.cons.injEq, and_true] at hkeys
      exact ⟨v, by rw [hkeys]⟩
    · cases hkeys
  | _ =>
    rw [hdoc] at hkeys
    cases hkeys

theorem assemble_programRun (llm : LLMInfo) (task : Task) :
    ∃ solution, assembleSolutionFromReasoning llm task programRun.context.items = .ok solution := by
  obtain ⟨v, hdoc⟩ := safeParse_programText
  have hplanned : ∀ n ∈ minimalSteps, safeParse (getOr programRun.context.items n.text
      (.str "\x7b\x7d")) = .dict [("files", v)] := by
    intro n hn
    rw [getOr, lookup_programRun, if_pos hn, Option.getD_some, hdoc]
  have hother : ∀ n ∉ minimalSteps, safeParse (getOr programRun.context.items n.text
      (.str "\x7b\x7d")) = .dict [] := by
    intro n hn
    rw [getOr, lookup_programRun, if_neg hn, Option.getD_none, safeParse_empty]
  have hcode : safeParse (getOr programRun.context.items "code" (.str "\x7b\x7d")) =
      .dict [] := by
    rw [getOr, lookup_code_items, Option.getD_none, safeParse_empty]
  have harchitecture := hplanned .architecture (by decide)
  have hreview := hplanned .review (by decide)
  have hstack := hplanned .stack (by decide)
  have hsecurity := hother .security (by decide)
  simp only [StepName.text] at harchitecture hreview hstack hsecurity
  unfold assembleSolutionFromReasoning extractSummary
  simp only [harchitecture, hreview, hstack, hsecurity, hcode]
  exact ⟨_, rfl⟩

/-- The solution of the run. -/
def builtSolution : Solution :=
  match assembleSolutionFromReasoning ⟨"mock", "mock"⟩ ⟨"t1", "Sort"⟩ programRun.context.items with
  | .ok solution => solution
  | .error _ => ⟨"", "", "", none, {}, [], [], [], []⟩

theorem assemble_builtSolution :
    assembleSolutionFromReasoning ⟨"mock", "mock"⟩ ⟨"t1", "Sort"⟩ programRun.context.items =
      .ok builtSolution := by
  obtain ⟨solution, hsolution⟩ := assemble_programRun ⟨"mock", "mock"⟩ ⟨"t1", "Sort"⟩
  unfold builtSolution
  generalize assembleSolutionFromReasoning ⟨"mock", "mock"⟩ ⟨"t1", "Sort"⟩
    programRun.context.items = run at hsolution ⊢
  rw [hsolution]

theorem delivers_programRun :
    programRun.context.items.lookup "codegen" = some (.str (programRun.steps .codegen).result) ∧
      (Delivers builtSolution.codeBlocks (filesIn FloatText (programRun.steps .codegen).result) ↔
        ∀ f ∈ (filesIn FloatText (programRun.steps .codegen).result).take 50,
          deliverable f = none) :=
  delivers_iff _ _ _ _ _ _ reasons_programRun (steps_programRun (by decide)).1 _ _ _
    assemble_builtSolution

/-- The generated program does not reach the solution. -/
theorem programRun_not_delivered :
    (filesIn FloatText (programRun.steps .codegen).result).filterMap deliverable =
        ["print('hello')"] ∧
      ¬ Delivers builtSolution.codeBlocks
        (filesIn FloatText (programRun.steps .codegen).result) := by
  have hresult := (steps_programRun (n := .codegen) (by decide)).2
  have hcontents : (filesIn FloatText programText).filterMap deliverable =
      ["print('hello')"] := by decide +kernel
  have hshort : ((filesIn FloatText programText).take 50).filterMap deliverable =
      ["print('hello')"] := by decide +kernel
  rw [hresult]
  refine ⟨hcontents, fun hdelivers => ?_⟩
  rw [Delivers, hshort, codeBlocks_assemble (lookup_code_items _) assemble_builtSolution]
    at hdelivers
  cases hdelivers

end Noema.Core
