import Noema.Lib.PyInterp
import Noema.Sandbox.StaticCheck

/-!
# Static verdicts over a hypothesis (`neurosymbolic/static.py`)

`analyzeSolutionStatic` collects the code inside a hypothesis and runs the static pass over each
snippet. Code is what stands under one of the keys of `_CODE_HINT_KEYS` or looks like Python, at any
depth of dicts and lists; the recursion of the source is `findCodeStrings`, with its loops over
pairs and items.

What is code, and the pass itself, are parameters (`CodeCheck`): both start from Python's parser,
which may raise on some texts, and an exception leaves the function. The pass over a module is in
`Sandbox.StaticCheck`; here only its issues are added up, each rendered as the source does it.
-/

namespace Noema.Neurosymbolic

open Noema.Lib PyJson Noema.Sandbox

/-- `_is_python_code` and `analyze_code`. -/
structure CodeCheck where
  isPythonCode : String → Except PyExc Bool
  analyzeCode : String → Except PyExc (List StaticIssue)

/-- `StaticIssue.render` (static_check.py:53). -/
def renderIssue (issue : StaticIssue) : String :=
  "line " ++ toString issue.line ++ ": [" ++ issue.rule ++ "] " ++ issue.message

/-- `_CODE_HINT_KEYS`. -/
def codeHintKeys : List String :=
  ["code", "implementation", "implementation_code", "source", "snippet", "python", "solution_code"]

/-- `StaticAnalysisVerdict` (static.py:35). -/
structure StaticAnalysisVerdict where
  analyzed : Bool := false
  codeSnippets : Nat := 0
  passed : Bool := true
  issues : List String := []
  deriving DecidableEq, Repr

variable {F : Type}

/-- `as_dict` (static.py:44). -/
def StaticAnalysisVerdict.asDict (v : StaticAnalysisVerdict) : PyVal F :=
  .dict [("analyzed", .bool v.analyzed), ("code_snippets", .int v.codeSnippets),
    ("passed", .bool v.passed), ("issues", .list (v.issues.map .str))]

section Find

variable (cc : CodeCheck)

mutual
/-- `_find_code_strings` (static.py:71). -/
def findCodeStrings : PyVal F → Except PyExc (List String)
  | .dict d => findInPairs d
  | .list xs => findInItems xs
  | _ => .ok []
def findInPairs : List (String × PyVal F) → Except PyExc (List String)
  | [] => .ok []
  | (key, item) :: rest => do
    let found ← match item with
      | .str s => do
        let isCode ← if key ∈ codeHintKeys then .ok true else cc.isPythonCode s
        if isCode then .ok [s] else findCodeStrings item
      | _ => findCodeStrings item
    return found ++ (← findInPairs rest)
def findInItems : List (PyVal F) → Except PyExc (List String)
  | [] => .ok []
  | item :: rest => do
    let found ← findCodeStrings item
    return found ++ (← findInItems rest)
end

/-- The verdict after the issues of one snippet. -/
def StaticAnalysisVerdict.addIssues (v : StaticAnalysisVerdict) (index : Nat)
    (issues : List StaticIssue) : StaticAnalysisVerdict :=
  if issues.isEmpty then v
  else
    { v with
      passed := false
      issues := v.issues ++ issues.map fun issue =>
        "snippet " ++ toString (index + 1) ++ ": " ++ renderIssue issue }

/-- The loop over the snippets. -/
def analyzeSnippets : Nat → List String → StaticAnalysisVerdict →
    Except PyExc StaticAnalysisVerdict
  | _, [], v => .ok v
  | index, snippet :: rest, v => do
    let issues ← cc.analyzeCode snippet
    analyzeSnippets (index + 1) rest (v.addIssues index issues)

/-- `analyze_solution_static` (static.py:86). -/
def analyzeSolutionStatic (solution : PyVal F) : Except PyExc StaticAnalysisVerdict := do
  let snippets ← findCodeStrings cc solution
  if snippets.isEmpty then return { codeSnippets := snippets.length }
  else analyzeSnippets cc 0 snippets { analyzed := true, codeSnippets := snippets.length }

end Find

end Noema.Neurosymbolic
