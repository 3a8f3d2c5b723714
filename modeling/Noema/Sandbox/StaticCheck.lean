import Noema.Sandbox.Ast

/-!
# The undefined-name pass (`sandbox/static_check.py`)

`_UndefinedNameFinder` and the helpers it collects bindings with, under the source's names. Sets of
names are lists; only membership matters. A scope is the set of its names, and the stack of scopes
has the innermost one first.

- `bindStmt`, `bindings`: the names that a statement or a body binds, as the pass collects them: by
  the class of a statement, with a walk for walruses beside it.
- `visitStmt`, `visitExpr`: the two visitors. A function, a class, a lambda and a comprehension push
  a scope, and what a name is looked up in is the whole stack, so the scope of a class is seen from
  its methods.
- `run`: the issues of a module, in the order of the visit.

`builtins` stands for `dir(builtins)` of the running interpreter. The mutual recursion over a node,
its statements, its expressions and the parts of a comprehension is the one of the source.
-/

namespace Noema.Sandbox

/-! ## Bindings -/

mutual
/-- `_target_names` (static_check.py:57): every name stored to under the node. -/
def targetNames : Ast → List String
  | .node _ (.name id .store) cs => id :: targetNamesAll cs
  | .node _ _ cs => targetNamesAll cs
def targetNamesAll : List (Field × Ast) → List String
  | [] => []
  | (_, a) :: cs => targetNames a ++ targetNamesAll cs
end

/-- The names of the targets in the given field. -/
def targetsIn (field : Field) : List (Field × Ast) → List String
  | [] => []
  | (f, a) :: cs => (if f = field then targetNames a else []) ++ targetsIn field cs

mutual
/-- One node of the walk of `_bind_walrus_targets`. -/
def walrusTargets : Ast → List String
  | .node _ kind cs =>
    if kind = .namedExpr then targetsIn .target cs
    else if kind.isDefOrLambda then []
    else bindWalrusTargets cs
/-- `_bind_walrus_targets` (static_check.py:66), on the children of the statement. -/
def bindWalrusTargets : List (Field × Ast) → List String
  | [] => []
  | (_, a) :: cs => walrusTargets a ++ bindWalrusTargets cs
end

/-- `name.split(".")[0]`. -/
def firstComponent (name : String) : String := String.ofList (name.toList.takeWhile (· ≠ '.'))

/-- `alias.asname or alias.name.split(".")[0]`; a wildcard binds nothing. -/
def aliasName (name : String) (asname : Option String) : List String :=
  if name = "*" then []
  else
    match asname with
    | none => [firstComponent name]
    | some asname => if asname = "" then [firstComponent name] else [asname]

/-- The names bound by the aliases of an import. -/
def aliasNames : List (Field × Ast) → List String
  | (.names, .node _ (.alias name asname) _) :: cs => aliasName name asname ++ aliasNames cs
  | _ :: cs => aliasNames cs
  | [] => []

/-- The targets of the items of a `with` statement. -/
def optionalVars : List (Field × Ast) → List String
  | (.items, .node _ .withItem ics) :: cs => targetsIn .optionalVars ics ++ optionalVars cs
  | _ :: cs => optionalVars cs
  | [] => []

/-- `handler.name`, if there is one. -/
def handlerName : Kind → List String
  | .exceptHandler name => name.toList
  | _ => []

mutual
/-- `_bind_stmt` (static_check.py:99). -/
def bindStmt : Ast → List String
  | .node _ kind cs => bindWalrusTargets cs ++
    match kind with
    | .functionDef name | .asyncFunctionDef name | .classDef name => [name]
    | .import_ | .importFrom _ _ => aliasNames cs
    | .assign => targetsIn .targets cs
    | .annAssign | .augAssign => targetsIn .target cs
    | .for_ | .asyncFor => targetsIn .target cs ++ bindings [.body, .orelse] cs
    | .with_ | .asyncWith => optionalVars cs ++ bindings [.body] cs
    | .exceptHandler name => name.toList ++ bindings [.body] cs
    | .if_ | .while_ => bindings [.body, .orelse] cs
    | .try_ => bindings [.body, .orelse, .finalbody] cs ++ bindHandlers cs
    -- `match` statements among others
    | _ => []
/-- `_bindings` (static_check.py:168) of the statements in the given fields. -/
def bindings (fields : List Field) : List (Field × Ast) → List String
  | [] => []
  | (f, a) :: cs => (if f ∈ fields then bindStmt a else []) ++ bindings fields cs
/-- The handlers of a `try` statement. -/
def bindHandlers : List (Field × Ast) → List String
  | [] => []
  | (f, .node _ kind hcs) :: cs =>
    (if f = .handlers then handlerName kind ++ bindings [.body] hcs else []) ++ bindHandlers cs
end

/-- The fields of `arguments` that hold parameters. -/
def paramFields : List Field := [.posonlyargs, .args, .kwonlyargs, .vararg, .kwarg]

/-- The parameters among the children of an `arguments` node. -/
def argNames : List (Field × Ast) → List String
  | (f, .node _ (.arg name) _) :: cs => (if f ∈ paramFields then [name] else []) ++ argNames cs
  | _ :: cs => argNames cs
  | [] => []

/-- `_param_names` (static_check.py:183) of the `args` field of a function or lambda. -/
def paramNames : List (Field × Ast) → List String
  | (.args, .node _ .arguments acs) :: cs => argNames acs ++ paramNames cs
  | _ :: cs => paramNames cs
  | [] => []

/-- The targets of the generators of a comprehension. -/
def generatorTargets : List (Field × Ast) → List String
  | (.generators, .node _ .comprehension gcs) :: cs => targetsIn .target gcs ++ generatorTargets cs
  | _ :: cs => generatorTargets cs
  | [] => []

/-! ## The finder -/

/-- `StaticIssue` (static_check.py:46). -/
structure StaticIssue where
  line : Nat
  rule : String
  message : String
  deriving DecidableEq, Repr

/-- `_IMPLICIT` (static_check.py:33). -/
def implicitNames : List String :=
  ["__name__", "__file__", "__doc__", "__package__", "__loader__", "__spec__", "__builtins__",
    "__annotations__"]

/-- `_report` (static_check.py:218). -/
def report (line : Nat) (id : String) : StaticIssue :=
  ⟨line, "undefined-name", s!"'{id}' is never defined"⟩

section Finder

variable (builtins : List String)

/-- `_resolves` (static_check.py:212). -/
def resolves (stack : List (List String)) (id : String) : Bool :=
  stack.any (fun defined => id ∈ defined) || id ∈ builtins || id ∈ implicitNames

mutual
/-- `_visit_stmt` (static_check.py:223). -/
def visitStmt (stack : List (List String)) : Ast → List StaticIssue
  | .node _ kind cs =>
    match kind with
    | .functionDef _ | .asyncFunctionDef _ =>
      -- decorators and defaults are looked up outside of the scope of the function
      visitExprs stack [.decoratorList] cs ++ visitInner stack .args [.defaults] cs ++
        visitInner stack .args [.kwDefaults] cs ++
        visitStmts ((bindings [.body] cs ++ paramNames cs) :: stack) [.body] cs
    | .classDef _ =>
      -- the scope of a class is pushed like that of a function, so its methods see it
      visitExprs stack [.decoratorList] cs ++ visitExprs stack [.bases] cs ++
        visitInner stack .keywords [.value] cs ++
        visitStmts (bindings [.body] cs :: stack) [.body] cs
    | .for_ | .asyncFor => visitExprs stack [.iter] cs ++ visitStmts stack [.body, .orelse] cs
    | .with_ | .asyncWith =>
      visitInner stack .items [.contextExpr] cs ++ visitStmts stack [.body] cs
    | .while_ | .if_ => visitExprs stack [.test] cs ++ visitStmts stack [.body, .orelse] cs
    | .try_ => visitHandlers stack cs ++ visitStmts stack [.body, .orelse, .finalbody] cs
    | .return_ | .raise | .assert | .expr | .assign | .annAssign | .augAssign | .delete =>
      visitChildren stack false cs
    | .import_ | .importFrom _ _ | .global _ | .nonlocal _ | .pass | .break_ | .continue_ => []
    -- `match` and type aliases: whatever is under them, in the same scope
    | _ => visitChildren stack true cs
/-- `_visit_expr` (static_check.py:309). -/
def visitExpr (stack : List (List String)) : Ast → List StaticIssue
  | .node line kind cs =>
    match kind with
    | .name id ctx => if ctx = .load ∧ ¬ resolves builtins stack id then [report line id] else []
    | .lambda => visitExprs (paramNames cs :: stack) [.body] cs
    | .listComp | .setComp | .generatorExp =>
      visitGenerators (generatorTargets cs :: stack) cs ++
        visitExprs (generatorTargets cs :: stack) [.elt] cs
    | .dictComp =>
      visitGenerators (generatorTargets cs :: stack) cs ++
        visitExprs (generatorTargets cs :: stack) [.key] cs ++
        visitExprs (generatorTargets cs :: stack) [.value] cs
    -- the target of a walrus is a store, and is not visited
    | .namedExpr => visitExprs stack [.value] cs
    | _ => visitChildren stack false cs
/-- The statements in the given fields. -/
def visitStmts (stack : List (List String)) (fields : List Field) :
    List (Field × Ast) → List StaticIssue
  | [] => []
  | (f, a) :: cs => (if f ∈ fields then visitStmt stack a else []) ++ visitStmts stack fields cs
/-- The expressions in the given fields. -/
def visitExprs (stack : List (List String)) (fields : List Field) :
    List (Field × Ast) → List StaticIssue
  | [] => []
  | (f, a) :: cs => (if f ∈ fields then visitExpr stack a else []) ++ visitExprs stack fields cs
/-- The expressions in the given fields of the children in the field `outer`. -/
def visitInner (stack : List (List String)) (outer : Field) (fields : List Field) :
    List (Field × Ast) → List StaticIssue
  | [] => []
  | (f, .node _ _ ics) :: cs =>
    (if f = outer then visitExprs stack fields ics else []) ++ visitInner stack outer fields cs
/-- The handlers of a `try` statement. -/
def visitHandlers (stack : List (List String)) : List (Field × Ast) → List StaticIssue
  | [] => []
  | (f, .node _ _ hcs) :: cs =>
    (if f = .handlers then visitExprs stack [.type] hcs ++ visitStmts stack [.body] hcs else []) ++
      visitHandlers stack cs
/-- The generators of a comprehension. -/
def visitGenerators (stack : List (List String)) : List (Field × Ast) → List StaticIssue
  | [] => []
  | (f, .node _ _ gcs) :: cs =>
    (if f = .generators then visitExprs stack [.iter] gcs ++ visitExprs stack [.ifs] gcs else []) ++
      visitGenerators stack cs
/-- `for sub in ast.iter_child_nodes(…)`: expressions, and statements if `stmts`. -/
def visitChildren (stack : List (List String)) (stmts : Bool) :
    List (Field × Ast) → List StaticIssue
  | [] => []
  | (_, a) :: cs =>
    (if a.kind.isExpr then visitExpr stack a
      else if stmts && a.kind.isStmt then visitStmt stack a
      else []) ++ visitChildren stack stmts cs
end

/-- `run` (static_check.py:207): the issues of the pass on a module. -/
def run : Ast → List StaticIssue
  | .node _ _ cs => visitStmts builtins [bindings [.body] cs] [.body] cs

end Finder

end Noema.Sandbox
