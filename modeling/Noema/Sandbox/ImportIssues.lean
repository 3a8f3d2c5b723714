import Noema.Sandbox.Engine

/-!
# Import hygiene (`sandbox/static_check.py`)

- `Ast.walk`: `ast.walk`, which goes through a tree level by level, so that the issues come in its
  order;
- `importIssues`: the imports that are not allowed: relative ones, wildcards, and modules whose
  first component is in no set of allowed roots;
- `analyzeCode`: both passes on a text, or the syntax error of the parser as an issue;
- `pythonCheck`: the two passes as `Engine` and the judge call them;
- **`importIssues_eq_nil_iff`**: the set of allowed roots matters only for absolute imports.
  `Faulty` is what no set of roots makes good, and `analyzeCode_eq_nil_iff` says that a text that
  parses has no issue if and only if it is not faulty and imports only allowed roots.

The recursion limit of the interpreter, at which the second pass gives up, is left out.
-/

namespace Noema.Sandbox

open Noema.Lib

/-! ## The walk -/

/-- The levels of two trees side by side. -/
def joinLevels {α : Type} : List (List α) → List (List α) → List (List α)
  | [], ys => ys
  | xs, [] => xs
  | x :: xs, y :: ys => (x ++ y) :: joinLevels xs ys

mutual
/-- The nodes of a tree by their depth. -/
def Ast.levels : Ast → List (List Ast)
  | .node line kind cs => [.node line kind cs] :: levelsOf cs
def levelsOf : List (Field × Ast) → List (List Ast)
  | [] => []
  | (_, a) :: cs => joinLevels a.levels (levelsOf cs)
end

/-- `ast.walk`. -/
def Ast.walk (a : Ast) : List Ast := a.levels.flatten

/-! ## The pass -/

/-- `node.names`: the names of the aliases. -/
def importedNames : List (Field × Ast) → List String
  | (.names, .node _ (.alias name _) _) :: cs => name :: importedNames cs
  | _ :: cs => importedNames cs
  | [] => []

def importNotAllowed (line : Nat) (root : String) : StaticIssue :=
  ⟨line, "import-not-allowed", "import '" ++ root ++ "' is not available in the sandbox"⟩

/-- The issues of one node. -/
def nodeIssues (allowed : List String) : Ast → List StaticIssue
  | .node line .import_ cs =>
    ((importedNames cs).map firstComponent).filterMap fun root =>
      if root ∉ allowed then some (importNotAllowed line root) else none
  | .node line (.importFrom module level) cs =>
    if 0 < level then [⟨line, "relative-import", "relative imports are not allowed"⟩]
    else
      (importedNames cs).filterMap fun name =>
        if name = "*" then
          some ⟨line, "wildcard-import", "wildcard imports ('import *') are not allowed"⟩
        else
          let root := firstComponent (module.getD "")
          if root ≠ "" ∧ root ∉ allowed then some (importNotAllowed line root) else none
  | _ => []

/-- `_import_issues` (static_check.py:356). -/
def importIssues (tree : Ast) (allowed : List String) : List StaticIssue :=
  tree.walk.flatMap (nodeIssues allowed)

/-- A `SyntaxError`: its text, and the line and the message that it carries. -/
structure SyntaxProblem where
  text : String
  line : Option Nat
  msg : Option String

/-- `exc.lineno or 1`, `exc.msg or "invalid syntax"`. -/
def SyntaxProblem.issue (e : SyntaxProblem) : StaticIssue where
  line := if e.line.getD 0 = 0 then 1 else e.line.getD 0
  rule := "syntax"
  message := if e.msg.getD "" = "" then "invalid syntax" else e.msg.getD ""

section Analyze

variable (parse : String → Except SyntaxProblem Ast) (builtins : List String)

/-- `analyze_code` (static_check.py:401). -/
def analyzeCode (code : String) (allowed : List String) : List StaticIssue :=
  match parse code with
  | .error e => [e.issue]
  | .ok tree => importIssues tree allowed ++ run builtins tree

/-- The parser and the two passes, as the sandbox calls them. -/
def pythonCheck : PythonCheck where
  parse code :=
    match parse code with
    | .error e => .ok (some e.text)
    | .ok _ => .ok none
  analyzeCode code allowed := .ok (analyzeCode parse builtins code allowed)

end Analyze

/-! ## What the allowed roots decide -/

/-- The import is relative, or has a wildcard: no set of roots allows it. -/
def nodeForbidden : Ast → Bool
  | .node _ (.importFrom _ level) cs => 0 < level || "*" ∈ importedNames cs
  | _ => false

/-- The roots of the modules that a node imports by their full names. -/
def nodeRoots : Ast → List String
  | .node _ .import_ cs => (importedNames cs).map firstComponent
  | .node _ (.importFrom module level) cs =>
    let root := firstComponent (module.getD "")
    if level = 0 ∧ root ≠ "" ∧ (∃ name ∈ importedNames cs, name ≠ "*") then [root] else []
  | _ => []

/-- A relative or a wildcard import is in the tree, or a name that is never defined. -/
def Faulty (builtins : List String) (tree : Ast) : Prop :=
  (∃ node ∈ tree.walk, nodeForbidden node = true) ∨ run builtins tree ≠ []

/-- The tree imports a module with the root by its full name. -/
def Imports (tree : Ast) (root : String) : Prop := ∃ node ∈ tree.walk, root ∈ nodeRoots node

theorem nodeIssues_eq_nil_iff (allowed : List String) (node : Ast) :
    nodeIssues allowed node = [] ↔
      nodeForbidden node = false ∧ ∀ root ∈ nodeRoots node, root ∈ allowed := by
  obtain ⟨line, kind, cs⟩ := node
  cases kind
  case import_ => simp [nodeIssues, nodeForbidden, nodeRoots, List.filterMap_eq_nil_iff]
  case importFrom module level =>
    by_cases hlevel : 0 < level
    · simp [nodeIssues, nodeForbidden, hlevel]
    · have hzero : level = 0 := by omega
      subst hzero
      generalize hroot : firstComponent (module.getD "") = root
      have hname : ∀ name, ((if name = "*" then some (⟨line, "wildcard-import",
            "wildcard imports ('import *') are not allowed"⟩ : StaticIssue)
          else if root ≠ "" ∧ root ∉ allowed then some (importNotAllowed line root) else none) = none ↔
          name ≠ "*" ∧ (root ≠ "" → root ∈ allowed)) := by
        intro name
        by_cases hstar : name = "*" <;> simp [hstar]
      simp only [nodeIssues, nodeForbidden, nodeRoots, hroot, if_neg hlevel,
        List.filterMap_eq_nil_iff, hname]
      constructor
      · intro h
        have hstar : "*" ∉ importedNames cs := fun hmem => (h "*" hmem).1 rfl
        refine ⟨by simpa using hstar, fun r hr => ?_⟩
        split at hr
        · next hused =>
          obtain ⟨-, hne, name, hmem, -⟩ := hused
          rw [List.mem_singleton.mp hr]
          exact (h name hmem).2 hne
        · cases hr
      · rintro ⟨hstar, hroots⟩ name hmem
        have hname : name ≠ "*" := by
          rintro rfl
          simp [hmem] at hstar
        exact ⟨hname, fun hne => hroots root (by rw [if_pos ⟨trivial, hne, name, hmem, hname⟩]; simp)⟩
  all_goals simp [nodeIssues, nodeForbidden, nodeRoots]

/-- **The import issues** of a tree, as a function of the allowed roots. -/
theorem importIssues_eq_nil_iff (tree : Ast) (allowed : List String) :
    importIssues tree allowed = [] ↔
      (∀ node ∈ tree.walk, nodeForbidden node = false) ∧ ∀ root, Imports tree root → root ∈ allowed := by
  rw [importIssues, List.flatMap_eq_nil_iff]
  constructor
  · intro h
    refine ⟨fun node hnode => ((nodeIssues_eq_nil_iff allowed node).mp (h node hnode)).1, ?_⟩
    rintro root ⟨node, hnode, hroot⟩
    exact ((nodeIssues_eq_nil_iff allowed node).mp (h node hnode)).2 root hroot
  · rintro ⟨hforbidden, hroots⟩ node hnode
    exact (nodeIssues_eq_nil_iff allowed node).mpr
      ⟨hforbidden node hnode, fun root hroot => hroots root ⟨node, hnode, hroot⟩⟩

/-- A text that parses has no issue if and only if it is not faulty and imports only allowed
roots. -/
theorem analyzeCode_eq_nil_iff {parse : String → Except SyntaxProblem Ast} {builtins : List String}
    {code : String} {tree : Ast} (h : parse code = .ok tree) (allowed : List String) :
    analyzeCode parse builtins code allowed = [] ↔
      ¬ Faulty builtins tree ∧ ∀ root, Imports tree root → root ∈ allowed := by
  rw [analyzeCode, h]
  dsimp only
  rw [List.append_eq_nil_iff, importIssues_eq_nil_iff, Faulty]
  simp only [not_or, not_exists, not_and, Bool.not_eq_true, not_not]
  tauto

end Noema.Sandbox
