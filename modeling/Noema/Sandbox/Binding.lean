import Noema.Sandbox.StaticCheck

/-!
# Which names Python binds, and where

The binding constructs of the language reference, independent of the pass. This is what the pass of
`StaticCheck` is compared with, and it is written from the language and not from the source.

- `blockBinds`: the names a node binds in the block it belongs to. Bodies of nested functions and
  classes are blocks of their own, and so are lambda bodies and the targets of comprehensions; a
  walrus in a comprehension binds outside of it;
- `declared`: the names that `global` and `nonlocal` statements take out of a block, and
  `globalBinds` those that functions and classes bind in the module that way;
- `Scope`: the scopes a name can be looked up in, `Scope.names` the names bound there;
- `visibleScopes`: the scopes seen from inside a chain of scopes. A class scope is seen only from
  its own block.

A wildcard import binds no name that can be read off the tree, and a `del` binds none.
-/

namespace Noema.Sandbox

/-! ## Blocks -/

mutual
/-- The identifiers an assignment target binds. -/
def targetIds : Ast → List String
  | .node _ kind cs =>
    match kind with
    | .name id .store => [id]
    | .tuple | .list | .starred => targetIdsAll cs
    | _ => []
def targetIdsAll : List (Field × Ast) → List String
  | [] => []
  | (_, a) :: cs => targetIds a ++ targetIdsAll cs
end

/-- The identifiers bound by the targets in the given field. -/
def idsIn (field : Field) : List (Field × Ast) → List String
  | [] => []
  | (f, a) :: cs => (if f = field then targetIds a else []) ++ idsIn field cs

/-- The identifiers after `as` in the items of a `with` statement. -/
def withIds : List (Field × Ast) → List String
  | (.items, .node _ .withItem ics) :: cs => idsIn .optionalVars ics ++ withIds cs
  | _ :: cs => withIds cs
  | [] => []

/-- The identifiers bound by the generators of a comprehension. -/
def generatorIds : List (Field × Ast) → List String
  | (.generators, .node _ .comprehension gcs) :: cs => idsIn .target gcs ++ generatorIds cs
  | _ :: cs => generatorIds cs
  | [] => []

/-- The names a node itself binds in its block. -/
def ownBinds (kind : Kind) (cs : List (Field × Ast)) : List String :=
  match kind with
  | .functionDef name | .asyncFunctionDef name | .classDef name => [name]
  | .import_ | .importFrom _ _ => aliasNames cs
  | .assign => idsIn .targets cs
  | .annAssign | .augAssign | .for_ | .asyncFor | .namedExpr => idsIn .target cs
  | .with_ | .asyncWith => withIds cs
  | .exceptHandler name => name.toList
  | .typeAlias => idsIn .name cs
  | .matchAs name | .matchStar name | .matchMapping name => name.toList
  | _ => []

/-- The fields whose nodes belong to the block of their parent. -/
def inBlock (kind : Kind) (f : Field) : Bool :=
  match kind with
  | .functionDef _ | .asyncFunctionDef _ => f ∈ [.decoratorList, .args, .returns]
  | .classDef _ => f ∈ [.decoratorList, .bases, .keywords]
  | .lambda => f = .args
  | .comprehension => f ∈ [.iter, .ifs]
  -- the value of a type alias and type parameters are evaluated in scopes of their own
  | .typeAlias => false
  | _ => true

mutual
/-- The names bound in the block of a node by the node and what lies under it. -/
def blockBinds : Ast → List String
  | .node _ kind cs => ownBinds kind cs ++ blockBindsIn (inBlock kind) cs
def blockBindsIn (sel : Field → Bool) : List (Field × Ast) → List String
  | [] => []
  | (f, a) :: cs => (if sel f then blockBinds a else []) ++ blockBindsIn sel cs
end

mutual
/-- The names that `global` (and `nonlocal`, if `both`) statements of the block declare. -/
def declared (both : Bool) : Ast → List String
  | .node _ kind cs =>
    match kind with
    | .global names => names
    | .nonlocal names => if both then names else []
    | _ => declaredIn both (inBlock kind) cs
def declaredIn (both : Bool) (sel : Field → Bool) : List (Field × Ast) → List String
  | [] => []
  | (f, a) :: cs => (if sel f then declared both a else []) ++ declaredIn both sel cs
end

/-- The statements of a body. -/
def isBody (f : Field) : Bool := f = .body

mutual
/-- The names that functions and classes under a node bind in the module: those they
declare `global`. -/
def globalBinds : Ast → List String
  | .node _ kind cs =>
    (match kind with
      | .functionDef _ | .asyncFunctionDef _ | .classDef _ =>
        (blockBindsIn isBody cs).filter fun x => x ∈ declaredIn false isBody cs
      | _ => []) ++ globalBindsAll cs
def globalBindsAll : List (Field × Ast) → List String
  | [] => []
  | (_, a) :: cs => globalBinds a ++ globalBindsAll cs
end

/-- The names of a type parameter list. -/
def typeParamNames : List (Field × Ast) → List String
  | (.typeParams, .node _ kind _) :: cs =>
    (match kind with
      | .typeVar name | .paramSpec name | .typeVarTuple name => [name]
      | _ => []) ++ typeParamNames cs
  | _ :: cs => typeParamNames cs
  | [] => []

/-! ## Scopes -/

/-- A scope, with the children of the node that opens it. The iterable of the first
generator of a comprehension is evaluated outside the comprehension, although it
stands inside; `compIter` marks it. -/
inductive Scope where
  | module (cs : List (Field × Ast))
  | function (cs : List (Field × Ast))
  | class_ (cs : List (Field × Ast))
  | lambda (cs : List (Field × Ast))
  | comp (cs : List (Field × Ast))
  | compIter (cs : List (Field × Ast))
  | typeParams (cs : List (Field × Ast))

/-- The names Python binds in a scope. A name that a function or class declares
`global` or `nonlocal` is bound elsewhere. -/
def Scope.names : Scope → List String
  | .module cs => blockBindsIn isBody cs ++ globalBindsAll cs
  | .function cs =>
    paramNames cs ++ (blockBindsIn isBody cs).filter fun x => x ∉ declaredIn true isBody cs
  | .class_ cs => (blockBindsIn isBody cs).filter fun x => x ∉ declaredIn true isBody cs
  | .lambda cs => paramNames cs ++ blockBindsIn isBody cs
  | .comp cs => generatorIds cs
  | .compIter _ => []
  | .typeParams cs => typeParamNames cs

def Scope.isClass : Scope → Bool
  | .class_ _ => true
  | _ => false

/-- The scopes that are seen from inside a chain of scopes, the innermost first: those
around the innermost one are all seen but the classes. Type parameter lists and first
iterables do not hide a class around them. -/
def visibleScopes : List Scope → List Scope
  | [] => []
  | s :: chain =>
    match s with
    | .typeParams _ | .compIter _ => s :: visibleScopes chain
    | _ => s :: chain.filter fun s => !s.isClass

theorem visibleScopes_subset : ∀ chain : List Scope, visibleScopes chain ⊆ chain
  | [] => List.Subset.refl _
  | s :: chain => by
    have ih := visibleScopes_subset chain
    unfold visibleScopes
    split
    · exact List.cons_subset_cons _ ih
    · exact List.cons_subset_cons _ ih
    · exact List.cons_subset_cons _ (List.filter_subset_self _)

/-- A name is bound in a scope that is seen from inside the chain. -/
def BoundIn (chain : List Scope) (x : String) : Prop :=
  ∃ s ∈ visibleScopes chain, x ∈ s.names

instance (chain : List Scope) (x : String) : Decidable (BoundIn chain x) :=
  inferInstanceAs (Decidable (∃ s ∈ visibleScopes chain, _))

end Noema.Sandbox
