import Noema.Sandbox.ImportIssues
import Noema.Sandbox.ShortCircuit
import Noema.Sandbox.StaticCheckSound

/-!
# Which imports pass the sandbox

`ast.walk` meets every node of a tree (`mem_walk`), so a parsed text has no import issue if and only
if each of its imports is allowed (`analyzeCode_imports`). `validateFiles` allows the standard
library, the configured roots and what the paths of its files name.

- `Ast.Within`: a node is somewhere in a tree, at any depth. `mem_levels` is the induction over the
  tree.
- `Ast.ImportsOnly`: the node is no import, or it is absolute, has no wildcard, and the first
  component of each module that it names is allowed.
- `Ast.ProperImport`: what the grammar says of a `from` import, and the one thing that is asked of
  the parser.
- `nodeIssues_rule`, `run_rule`: the issues of the two passes have different rules, so that a text
  with an undefined name can still have no import issue.
- `allowedImports_sanctioned`: the roots that `validate_files` allows are of the standard library,
  configured, or named by the path of a file (`Sanctioned`).
- **`importHygiene`**: both halves over every tree and every list of files: what has no issue
  imports only what is allowed, and a file that passed in a validation only what is sanctioned.
-/

namespace Noema.Sandbox

open Noema.Lib

/-! ## The nodes of a tree -/

/-- A node is somewhere in a tree. -/
inductive Ast.Within (node : Ast) : Ast → Prop
  | self : Within node node
  | child {line : Nat} {kind : Kind} {cs : List (Field × Ast)} {p : Field × Ast} (hp : p ∈ cs)
      (h : Within node p.2) : Within node (.node line kind cs)

theorem mem_joinLevels {α : Type} {x : α} (xs ys : List (List α)) :
    x ∈ (joinLevels xs ys).flatten ↔ x ∈ xs.flatten ∨ x ∈ ys.flatten := by
  induction xs generalizing ys with
  | nil => simp [joinLevels]
  | cons level xs ih =>
    cases ys with
    | nil => simp [joinLevels]
    | cons level' ys =>
      rw [joinLevels, List.flatten_cons, List.mem_append, ih, List.mem_append, List.flatten_cons,
        List.flatten_cons, List.mem_append, List.mem_append]
      tauto

mutual
theorem mem_levels (node : Ast) : ∀ tree : Ast, node ∈ tree.levels.flatten ↔ node.Within tree
  | .node line kind cs => by
    rw [Ast.levels, List.flatten_cons, List.mem_append, List.mem_singleton, mem_levelsOf node cs]
    constructor
    · rintro (rfl | ⟨p, hp, h⟩)
      · exact .self
      · exact .child hp h
    · rintro (_ | ⟨hp, h⟩)
      · exact .inl rfl
      · exact .inr ⟨_, hp, h⟩
theorem mem_levelsOf (node : Ast) : ∀ cs : List (Field × Ast),
    node ∈ (levelsOf cs).flatten ↔ ∃ p ∈ cs, node.Within p.2
  | [] => by simp [levelsOf]
  | (field, a) :: cs => by
    rw [levelsOf, mem_joinLevels, mem_levels node a, mem_levelsOf node cs, List.exists_mem_cons_iff]
end

/-- `ast.walk` meets the nodes of the tree. -/
theorem mem_walk {node tree : Ast} : node ∈ tree.walk ↔ node.Within tree := mem_levels node tree

/-! ## Allowed imports -/

/-- The rules of the import pass. -/
def importRules : List String := ["import-not-allowed", "relative-import", "wildcard-import"]

/-- The node is no import, or it is absolute, has no wildcard, and the first component of each
module that it names is allowed. -/
def Ast.ImportsOnly (allowed : String → Prop) : Ast → Prop
  | .node _ .import_ cs => ∀ name ∈ importedNames cs, allowed (firstComponent name)
  | .node _ (.importFrom module level) cs =>
    level = 0 ∧ "*" ∉ importedNames cs ∧ allowed (firstComponent (module.getD ""))
  | _ => True

/-- What the grammar says of a `from` import: there is something to import, and a module unless
the import is relative. -/
def Ast.ProperImport : Ast → Prop
  | .node _ (.importFrom module level) cs =>
    importedNames cs ≠ [] ∧ (level = 0 → firstComponent (module.getD "") ≠ "")
  | _ => True

theorem Ast.ImportsOnly.mono {allowed allowed' : String → Prop} {node : Ast}
    (h : node.ImportsOnly allowed) (hle : ∀ root, allowed root → allowed' root) :
    node.ImportsOnly allowed' := by
  obtain ⟨line, kind, cs⟩ := node
  cases kind
  case import_ => exact fun name hname => hle _ (h name hname)
  case importFrom module level =>
    obtain ⟨hlevel, hstar, hroot⟩ := h
    exact ⟨hlevel, hstar, hle _ hroot⟩
  all_goals trivial

theorem nodeIssues_eq_nil_iff_importsOnly {node : Ast} (hproper : node.ProperImport)
    (allowed : List String) :
    nodeIssues allowed node = [] ↔ node.ImportsOnly (· ∈ allowed) := by
  rw [nodeIssues_eq_nil_iff]
  obtain ⟨line, kind, cs⟩ := node
  cases kind
  case import_ => simp [nodeForbidden, nodeRoots, Ast.ImportsOnly]
  case importFrom module level =>
    obtain ⟨hnames, hmodule⟩ := hproper
    obtain ⟨name, hname⟩ := List.exists_mem_of_ne_nil _ hnames
    simp only [nodeForbidden, nodeRoots, Ast.ImportsOnly, Bool.or_eq_false_iff,
      decide_eq_false_iff_not, Nat.not_lt, Nat.le_zero]
    constructor
    · rintro ⟨⟨hlevel, hstar⟩, hroots⟩
      have hne : name ≠ "*" := fun heq => hstar (heq ▸ hname)
      refine ⟨hlevel, hstar, hroots _ ?_⟩
      rw [if_pos ⟨hlevel, hmodule hlevel, name, hname, hne⟩]
      exact List.mem_singleton_self _
    · rintro ⟨hlevel, hstar, hroot⟩
      refine ⟨⟨hlevel, hstar⟩, fun root hmem => ?_⟩
      split at hmem
      · rwa [List.mem_singleton.mp hmem]
      · cases hmem
  all_goals simp [nodeForbidden, nodeRoots, Ast.ImportsOnly]

/-- The issues of the import pass have its rules. -/
theorem nodeIssues_rule {allowed : List String} {node : Ast} {issue : StaticIssue}
    (h : issue ∈ nodeIssues allowed node) : issue.rule ∈ importRules := by
  obtain ⟨line, kind, cs⟩ := node
  cases kind
  case import_ =>
    obtain ⟨root, -, h⟩ := List.mem_filterMap.mp h
    split at h
    · cases h
      exact List.mem_cons_self
    · cases h
  case importFrom module level =>
    rw [nodeIssues] at h
    split at h
    · cases List.mem_singleton.mp h
      exact List.mem_cons_of_mem _ List.mem_cons_self
    · obtain ⟨name, -, h⟩ := List.mem_filterMap.mp h
      split at h
      · cases h
        exact List.mem_cons_of_mem _ (List.mem_cons_of_mem _ List.mem_cons_self)
      · dsimp only at h
        split at h
        · cases h
          exact List.mem_cons_self
        · cases h
  all_goals cases h

/-- The other pass has a rule of its own. -/
theorem run_rule {builtins : List String} {tree : Ast} {issue : StaticIssue}
    (h : issue ∈ run builtins tree) : issue.rule = "undefined-name" := by
  rw [run_eq] at h
  obtain ⟨load, -, h⟩ := List.mem_filterMap.mp h
  rw [Load.issue?] at h
  split at h
  · cases h
  · cases h
    rfl

variable {parse : String → Except SyntaxProblem Ast} {builtins : List String}

/-- A parsed text has no import issue if and only if every import in it is allowed. -/
theorem analyzeCode_imports {code : String} {tree : Ast} (hparse : parse code = .ok tree)
    (hproper : ∀ node : Ast, node.Within tree → node.ProperImport) (allowed : List String) :
    (∀ issue ∈ analyzeCode parse builtins code allowed, issue.rule ∉ importRules) ↔
      ∀ node : Ast, node.Within tree → node.ImportsOnly (· ∈ allowed) := by
  have hnodes : (∀ issue ∈ analyzeCode parse builtins code allowed, issue.rule ∉ importRules) ↔
      ∀ node ∈ tree.walk, nodeIssues allowed node = [] := by
    rw [analyzeCode, hparse]
    dsimp only
    rw [List.forall_mem_append, importIssues]
    constructor
    · rintro ⟨himports, -⟩ node hnode
      refine List.eq_nil_iff_forall_not_mem.mpr fun issue hissue => ?_
      exact himports issue (List.mem_flatMap.mpr ⟨node, hnode, hissue⟩) (nodeIssues_rule hissue)
    · intro hnone
      constructor
      · intro issue hissue
        obtain ⟨node, hnode, hissue⟩ := List.mem_flatMap.mp hissue
        rw [hnone node hnode] at hissue
        cases hissue
      · intro issue hissue
        rw [run_rule hissue]
        decide
  rw [hnodes]
  constructor
  · intro hnone node hnode
    exact (nodeIssues_eq_nil_iff_importsOnly (hproper node hnode) allowed).mp
      (hnone node (mem_walk.mpr hnode))
  · intro honly node hnode
    have hwithin := mem_walk.mp hnode
    exact (nodeIssues_eq_nil_iff_importsOnly (hproper node hwithin) allowed).mpr
      (honly node hwithin)

/-! ## What the files add -/

/-- `name.replace("\\", "/")` -/
def slashed (path : String) : List Char := path.toList.map fun c => if c = '\\' then '/' else c

/-- The root is the first component of a path with several. -/
def FirstOfPath (root path : String) : Prop :=
  '/' ∉ root.toList ∧ ∃ rest, slashed path = root.toList ++ '/' :: rest

/-- The root is the stem of a path with one component. -/
def StemOfPath (root path : String) : Prop :=
  '/' ∉ slashed path ∧ root = stem (String.ofList (slashed path))

/-- The root is of the standard library, configured, or named by the path of a file. -/
def Sanctioned (engine : SandboxEngine) (files : List SourceFile) (root : String) : Prop :=
  root ∈ engine.stdlib ∨ root ∈ engine.config.staticAllowImports ∨
    ∃ f ∈ files, FirstOfPath root f.path ∨ StemOfPath root f.path

theorem siblingRoot_named (f : SourceFile) :
    FirstOfPath (siblingRoot f) f.path ∨ StemOfPath (siblingRoot f) f.path := by
  rw [siblingRoot, ← slashed]
  by_cases hslash : '/' ∈ slashed f.path
  · left
    obtain ⟨first, rest, hpath, hfirst⟩ := List.eq_append_cons_of_mem hslash
    obtain ⟨second, parts, hrest⟩ := List.exists_cons_of_ne_nil (List.splitOn_ne_nil '/' rest)
    rw [hpath, List.splitOn_append_cons_self_of_not_mem hfirst, hrest]
    refine ⟨?_, rest, ?_⟩
    · simpa using hfirst
    · rw [hpath]
      simp
  · right
    rw [List.splitOn_eq_singleton hslash]
    exact ⟨hslash, rfl⟩

/-- The set of `validate_files` is not wider than it should be. -/
theorem allowedImports_sanctioned (engine : SandboxEngine) (files : List SourceFile) :
    ∀ root ∈ allowedImports engine.stdlib engine.config files, Sanctioned engine files root := by
  intro root hroot
  rw [allowedImports, List.mem_append, List.mem_append] at hroot
  rcases hroot with (hroot | hroot) | hroot
  · exact .inl hroot
  · exact .inr (.inl hroot)
  · obtain ⟨f, hf, rfl⟩ := List.mem_map.mp (List.mem_filter.mp hroot).1
    exact .inr (.inr ⟨f, hf, siblingRoot_named f⟩)

/-- A Python file that the static check of a validation passed imports only what it may. -/
theorem staticPassed_imports {engine : SandboxEngine} {b : Behaviour} {files : List SourceFile}
    {withTests : Bool} {log log' : List Process} {result : SandboxResult}
    (hcheck : engine.check = pythonCheck parse builtins)
    (h : validateFiles engine b files withTests log = (.ok result, log'))
    (henabled : engine.config.staticCheckEnabled = true) {i : Nat} {f : SourceFile}
    {vr : CodeValidationResult} (hf : files[i]? = some f) (hvr : result.files[i]? = some vr)
    (hpython : f.language = "python") (hpassed : vr.staticPassed = true) {tree : Ast}
    (hparse : parse f.content = .ok tree)
    (hproper : ∀ node : Ast, node.Within tree → node.ProperImport) :
    ∀ node : Ast, node.Within tree → node.ImportsOnly (Sanctioned engine files) := by
  obtain ⟨vr', hvr', -, hstatic, -⟩ := (validateFiles_flags h).1.flags i f hf
  cases hvr.symm.trans hvr'
  have hissues : analyzeCode parse builtins f.content
      (allowedImports engine.stdlib engine.config files) = [] := by
    by_contra hne
    obtain ⟨issue, issues, heq⟩ := List.exists_cons_of_ne_nil hne
    refine hstatic.mp hpassed ⟨hpython, ?_, henabled, issue, issues, ?_⟩
    · simp only [hcheck, pythonCheck, hparse]
    · simp only [hcheck, pythonCheck, heq]
  intro node hnode
  have honly := (analyzeCode_imports hparse hproper _).mp (fun issue hissue => by
    rw [hissues] at hissue
    cases hissue) node hnode
  exact honly.mono (allowedImports_sanctioned engine files)

/-- **Import hygiene**, for a parser whose trees have proper imports: a parsed text has no import
issue if and only if all its imports are absolute, without a wildcard and of allowed roots; and a
validation allows the standard library, the configured roots, and the first components and stems
of its paths, no more. -/
theorem importHygiene (hgrammar : ∀ code tree, parse code = .ok tree →
      ∀ node : Ast, node.Within tree → node.ProperImport) :
    (∀ code tree, parse code = .ok tree → ∀ allowed,
      ((∀ issue ∈ analyzeCode parse builtins code allowed, issue.rule ∉ importRules) ↔
        ∀ node : Ast, node.Within tree → node.ImportsOnly (· ∈ allowed))) ∧
    ∀ engine files, engine.check = pythonCheck parse builtins →
      (∀ root ∈ allowedImports engine.stdlib engine.config files, Sanctioned engine files root) ∧
      ∀ b withTests log result log',
        validateFiles engine b files withTests log = (.ok result, log') →
        engine.config.staticCheckEnabled = true → ∀ (i : Nat) f vr, files[i]? = some f →
        result.files[i]? = some vr → f.language = "python" → vr.staticPassed = true →
        ∀ tree, parse f.content = .ok tree →
        ∀ node : Ast, node.Within tree → node.ImportsOnly (Sanctioned engine files) := by
  constructor
  · intro code tree hparse allowed
    exact analyzeCode_imports hparse (hgrammar code tree hparse) allowed
  · intro engine files hcheck
    refine ⟨allowedImports_sanctioned engine files, ?_⟩
    intro b withTests log result log' h henabled i f vr hf hvr hpython hpassed tree hparse
    exact staticPassed_imports hcheck h henabled hf hvr hpython hpassed hparse
      (hgrammar _ tree hparse)

/-! ## Samples -/

/-- A class whose body has `if x: import os.path`, and `from . import y` when asked for. -/
def nestedImports (withRelative : Bool) : Ast :=
  let relative : List (Field × Ast) :=
    if withRelative then
      [(.body, .node 4 (.importFrom none 1) [(.names, .node 4 (.alias "y" none) [])])]
    else []
  .node 1 .module [(.body, .node 1 (.classDef "C")
    ((.body, .node 2 .if_ [(.body, .node 3 .import_ [(.names, .node 3 (.alias "os.path" none) [])])])
      :: relative))]

/-- A parser of the two modules. -/
def parseNested (code : String) : Except SyntaxProblem Ast :=
  .ok (nestedImports (code = "relative"))

theorem nestedImports_proper (withRelative : Bool) :
    ∀ node : Ast, node.Within (nestedImports withRelative) → node.ProperImport := by
  intro node hnode
  rw [← mem_walk] at hnode
  revert node
  cases withRelative <;>
    simp [nestedImports, Ast.walk, Ast.levels, levelsOf, joinLevels, Ast.ProperImport, importedNames]

/-- An engine whose standard library has one module. -/
def nestedEngine : SandboxEngine where
  check := pythonCheck parseNested []
  stdlib := ["os"]
  config := { lintEnabled := false, runEnabled := false }
  unicode := .ascii
  digit _ := 0

/-- The relative import is found below the class; the file without it passes. -/
theorem importHygiene_nested :
    (∃ issue ∈ analyzeCode parseNested [] "relative" ["os"], issue.rule ∈ importRules) ∧
      ∀ node : Ast, node.Within (nestedImports false) →
        node.ImportsOnly (Sanctioned nestedEngine [{ contentKey := some "absolute" }]) := by
  have hygiene := @importHygiene parseNested [] (fun code tree htree => by
    cases htree
    exact nestedImports_proper _)
  constructor
  · by_contra hnone
    push Not at hnone
    have honly := (hygiene.1 "relative" _ rfl ["os"]).mp hnone
      (.node 4 (.importFrom none 1) [(.names, .node 4 (.alias "y" none) [])])
      (.child List.mem_cons_self (.child (List.mem_cons_of_mem _ List.mem_cons_self) .self))
    exact absurd honly.1 (by decide)
  · obtain ⟨result, log, hrun, vr, hvr, hpassed⟩ : ∃ result log,
        validateFiles nestedEngine smooth [{ contentKey := some "absolute" }] false [] =
          (.ok result, log) ∧ ∃ vr, result.files[0]? = some vr ∧ vr.staticPassed = true :=
      ⟨_, _, rfl, _, rfl, rfl⟩
    exact (hygiene.2 nestedEngine _ rfl).2 smooth false [] result log hrun rfl 0 _ vr rfl hvr rfl
      hpassed _ rfl

end Noema.Sandbox
