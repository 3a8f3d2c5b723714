import Mathlib

/-!
# Python syntax trees (`ast`, Python 3.12)

A node has a class, a line and child nodes, each in one of the fields of its class, in the order of
`ast.iter_child_nodes`. `Kind` lists the classes of the abstract grammar with the identifiers they
carry; operators, expression contexts (other than that of a name) and constants have no child of
their own and nothing looks at them, so they are left out.

As in Python, the type does not force a field to hold nodes of the right class; a syntactically
valid module is a particular tree. A function over trees is therefore total, and says nothing
special about trees that no parser makes. Functions recurse over a node and, mutually, over its list
of children, so that they are structural and can be evaluated on a concrete tree.
-/

namespace Noema.Sandbox

/-- The context of a name. -/
inductive Ctx where
  | load
  | store
  | del
  deriving DecidableEq, Repr

/-- The classes of nodes, with their identifiers. -/
inductive Kind where
  | module
  -- statements
  | functionDef (name : String)
  | asyncFunctionDef (name : String)
  | classDef (name : String)
  | return_
  | delete
  | assign
  | typeAlias
  | augAssign
  | annAssign
  | for_
  | asyncFor
  | while_
  | if_
  | with_
  | asyncWith
  | match_
  | raise
  | try_
  | tryStar
  | assert
  | import_
  | importFrom (module : Option String) (level : Nat)
  | global (names : List String)
  | nonlocal (names : List String)
  | expr
  | pass
  | break_
  | continue_
  -- expressions
  | boolOp
  | namedExpr
  | binOp
  | unaryOp
  | lambda
  | ifExp
  | dict
  | set
  | listComp
  | setComp
  | dictComp
  | generatorExp
  | await
  | yield
  | yieldFrom
  | compare
  | call
  | formattedValue
  | joinedStr
  | constant
  | attribute
  | subscript
  | starred
  | name (id : String) (ctx : Ctx)
  | list
  | tuple
  | slice
  -- patterns
  | matchValue
  | matchSingleton
  | matchSequence
  | matchMapping (rest : Option String)
  | matchClass
  | matchStar (name : Option String)
  | matchAs (name : Option String)
  | matchOr
  -- type parameters
  | typeVar (name : String)
  | paramSpec (name : String)
  | typeVarTuple (name : String)
  -- the rest
  | comprehension
  | exceptHandler (name : Option String)
  | arguments
  | arg (arg : String)
  | keyword
  | alias (name : String) (asname : Option String)
  | withItem
  | matchCase
  deriving DecidableEq, Repr

/-- The fields that hold nodes. -/
inductive Field where
  | annotation
  | args
  | bases
  | body
  | bound
  | cases
  | cause
  | cls
  | comparators
  | contextExpr
  | decoratorList
  | defaults
  | elt
  | elts
  | exc
  | finalbody
  | formatSpec
  | func
  | generators
  | guard
  | handlers
  | ifs
  | items
  | iter
  | key
  | keys
  | keywords
  | kwDefaults
  | kwarg
  | kwdPatterns
  | kwonlyargs
  | left
  | lower
  | msg
  | name
  | names
  | operand
  | optionalVars
  | orelse
  | pattern
  | patterns
  | posonlyargs
  | returns
  | right
  | slice
  | step
  | subject
  | target
  | targets
  | test
  | type
  | typeParams
  | upper
  | value
  | values
  | vararg
  deriving DecidableEq, Repr

/-- A node of a syntax tree. -/
inductive Ast where
  | node (line : Nat) (kind : Kind) (children : List (Field × Ast))
  deriving Repr

/-- `isinstance(node, ast.stmt)`. -/
def Kind.isStmt : Kind → Bool
  | .functionDef _ | .asyncFunctionDef _ | .classDef _ | .return_ | .delete | .assign | .typeAlias
  | .augAssign | .annAssign | .for_ | .asyncFor | .while_ | .if_ | .with_ | .asyncWith | .match_
  | .raise | .try_ | .tryStar | .assert | .import_ | .importFrom _ _ | .global _ | .nonlocal _ | .expr
  | .pass | .break_ | .continue_ => true
  | _ => false

/-- `isinstance(node, ast.expr)`. -/
def Kind.isExpr : Kind → Bool
  | .boolOp | .namedExpr | .binOp | .unaryOp | .lambda | .ifExp | .dict | .set | .listComp | .setComp
  | .dictComp | .generatorExp | .await | .yield | .yieldFrom | .compare | .call | .formattedValue
  | .joinedStr | .constant | .attribute | .subscript | .starred | .name _ _ | .list | .tuple
  | .slice => true
  | _ => false

/-- `isinstance(node, (ast.FunctionDef, ast.AsyncFunctionDef, ast.ClassDef, ast.Lambda))`. -/
def Kind.isDefOrLambda : Kind → Bool
  | .functionDef _ | .asyncFunctionDef _ | .classDef _ | .lambda => true
  | _ => false

/-- The class of a node. -/
def Ast.kind : Ast → Kind
  | .node _ kind _ => kind

end Noema.Sandbox
