import Noema.Sandbox.Binding

/-!
# Which resolvable names the pass flags

The pass collects the names of a scope with `_bindings` and flags the loads that no scope around
them defines. Against the binding rules of the language (`Binding`):

- `uncollected`: the names a statement binds that `_bind_stmt` does not collect: those of patterns,
  of type aliases, and of walruses that its walk loses; `Scope.uncollected`: those of a scope;
- `mem_bindStmt_or_uncollected`: what a statement binds is collected or uncollected, by mutual
  induction over a statement, its bodies and its handlers. `Scope.mem_collected_or_uncollected`:
  nothing else is missed;
- `loads`: the name loads the pass visits, each with the scopes around it. `visitStmt_eq` and the
  lemmas after it follow the visitors, and `run_eq` says that the issues are those of the loads that
  do not resolve;
- **`flags_sound_iff`**: no resolvable name is flagged, if and only if every load that sees a
  binding of its name by an uncollected construct resolves all the same (`NoUncollectedLoad`).

So the pass flags a resolvable name exactly where a load gets its name only from an uncollected
construct; `flags_captured_name` is the name that a `match` captures.
-/

namespace Noema.Sandbox

/-! ## What the pass does not collect -/

mutual
/-- The names bound under a node that the walrus walk loses: those of walruses in the
value of a walrus or in the defaults of a lambda, and every name that another construct
binds. -/
def lost : Ast → List String
  | .node line kind cs =>
    if kind = .namedExpr then blockBindsIn (inBlock kind) cs
    else if kind.isDefOrLambda then blockBinds (.node line kind cs)
    else ownBinds kind cs ++ lostIn (inBlock kind) cs
def lostIn (sel : Field → Bool) : List (Field × Ast) → List String
  | [] => []
  | (f, a) :: cs => (if sel f then lost a else []) ++ lostIn sel cs
end

/-- The statements whose own names `_bind_stmt` collects. -/
def collectsOwn : Kind → Bool
  | .functionDef _ | .asyncFunctionDef _ | .classDef _ | .import_ | .importFrom _ _ | .assign | .annAssign
  | .augAssign | .for_ | .asyncFor | .with_ | .asyncWith | .exceptHandler _ => true
  | _ => false

/-- The bodies `_bind_stmt` descends into, handlers apart. -/
def bodies : Kind → List Field
  | .for_ | .asyncFor | .if_ | .while_ => [.body, .orelse]
  | .with_ | .asyncWith | .exceptHandler _ => [.body]
  | .try_ => [.body, .orelse, .finalbody]
  | _ => []

/-- The fields of a statement that only the walrus walk looks at. -/
def walrusOnly (kind : Kind) (f : Field) : Bool :=
  inBlock kind f && f ∉ bodies kind && !(kind = .try_ && f = .handlers)

/-- The class of the nodes in the `handlers` field. -/
def isHandler : Kind → Bool
  | .exceptHandler _ => true
  | _ => false

mutual
/-- The names a statement binds that `_bind_stmt` does not collect: those of type
aliases and of patterns, those of the statements in a `match` case or in a `try` with
`except*`, and the lost walruses of its other parts. -/
def uncollected : Ast → List String
  | .node _ kind cs =>
    (if collectsOwn kind then [] else ownBinds kind cs) ++ lostIn (walrusOnly kind) cs ++
      uncollectedIn (bodies kind) cs ++ (if kind = .try_ then uncollectedHandlers cs else [])
def uncollectedIn (fields : List Field) : List (Field × Ast) → List String
  | [] => []
  | (f, a) :: cs => (if f ∈ fields then uncollected a else []) ++ uncollectedIn fields cs
def uncollectedHandlers : List (Field × Ast) → List String
  | [] => []
  | (f, .node line kind hcs) :: cs =>
    (if f = .handlers then
      if isHandler kind then uncollected (.node line kind hcs) else blockBinds (.node line kind hcs)
    else []) ++ uncollectedHandlers cs
end

/-! ## Collected and uncollected names make up all names -/

mutual
theorem mem_targetNames (x : String) : ∀ a : Ast, x ∈ targetIds a → x ∈ targetNames a
  | .node line kind cs, h => by
    have hall : x ∈ targetIdsAll cs → x ∈ targetNames (.node line kind cs) := by
      intro hx
      have hnames := mem_targetNamesAll x cs hx
      unfold targetNames
      split
      · rename_i heq
        cases heq
        exact List.mem_cons_of_mem _ hnames
      · rename_i heq
        cases heq
        exact hnames
    unfold targetIds at h
    split at h
    · rw [List.mem_singleton.mp h, targetNames]
      exact List.mem_cons_self
    · exact hall h
    · exact hall h
    · exact hall h
    · cases h
theorem mem_targetNamesAll (x : String) : ∀ cs : List (Field × Ast),
    x ∈ targetIdsAll cs → x ∈ targetNamesAll cs
  | [], h => by cases h
  | (_, a) :: cs, h => by
    rw [targetIdsAll, List.mem_append] at h
    rw [targetNamesAll, List.mem_append]
    exact h.imp (mem_targetNames x a) (mem_targetNamesAll x cs)
end

variable {x : String}

theorem mem_targetsIn {field : Field} {cs : List (Field × Ast)} (h : x ∈ idsIn field cs) :
    x ∈ targetsIn field cs := by
  induction cs with
  | nil => cases h
  | cons c cs ih =>
    rw [idsIn, List.mem_append, List.mem_ite_nil_right] at h
    rw [targetsIn, List.mem_append, List.mem_ite_nil_right]
    exact h.imp (fun h => ⟨h.1, mem_targetNames x _ h.2⟩) ih

theorem mem_optionalVars {cs : List (Field × Ast)} (h : x ∈ withIds cs) : x ∈ optionalVars cs := by
  induction cs using withIds.induct with
  | case1 line ics cs ih =>
    rw [withIds, List.mem_append] at h
    rw [optionalVars, List.mem_append]
    exact h.imp mem_targetsIn ih
  | case2 c cs hne ih =>
    rw [withIds] at h
    rw [optionalVars]
    exact ih h
    all_goals exact hne
  | case3 => cases h

theorem mem_generatorTargets {cs : List (Field × Ast)} (h : x ∈ generatorIds cs) :
    x ∈ generatorTargets cs := by
  induction cs using generatorIds.induct with
  | case1 line gcs cs ih =>
    rw [generatorIds, List.mem_append] at h
    rw [generatorTargets, List.mem_append]
    exact h.imp mem_targetsIn ih
  | case2 c cs hne ih =>
    rw [generatorIds] at h
    rw [generatorTargets]
    exact ih h
    all_goals exact hne
  | case3 => cases h

mutual
/-- What a node binds in its block is collected by the walrus walk or lost to it. -/
theorem mem_walrusTargets_or_lost (x : String) : ∀ a : Ast,
    x ∈ blockBinds a → x ∈ walrusTargets a ∨ x ∈ lost a
  | .node line kind cs, h => by
    rw [walrusTargets, lost]
    by_cases hwalrus : kind = .namedExpr
    · subst hwalrus
      rw [if_pos rfl, if_pos rfl]
      rw [blockBinds, List.mem_append] at h
      exact h.imp_left mem_targetsIn
    · rw [if_neg hwalrus, if_neg hwalrus]
      by_cases hdef : kind.isDefOrLambda = true
      · rw [if_pos hdef, if_pos hdef]
        exact .inr h
      · rw [if_neg hdef, if_neg hdef, List.mem_append]
        rw [blockBinds, List.mem_append] at h
        rcases h with h | h
        · exact .inr (.inl h)
        · exact (mem_bindWalrusTargets_or_lostIn x cs _ h).imp_right .inr
theorem mem_bindWalrusTargets_or_lostIn (x : String) : ∀ (cs : List (Field × Ast))
    (sel : Field → Bool), x ∈ blockBindsIn sel cs → x ∈ bindWalrusTargets cs ∨ x ∈ lostIn sel cs
  | [], _, h => by cases h
  | (f, a) :: cs, sel, h => by
    rw [blockBindsIn, List.mem_append, List.mem_ite_nil_right] at h
    rw [bindWalrusTargets, lostIn, List.mem_append, List.mem_append, List.mem_ite_nil_right]
    rcases h with ⟨hf, h⟩ | h
    · exact (mem_walrusTargets_or_lost x a h).imp .inl fun hl => .inl ⟨hf, hl⟩
    · exact (mem_bindWalrusTargets_or_lostIn x cs sel h).imp .inr .inr
end

mutual
theorem mem_blockBinds_of_lost (x : String) : ∀ a : Ast, x ∈ lost a → x ∈ blockBinds a
  | .node line kind cs, h => by
    rw [lost] at h
    split at h
    · rw [blockBinds]
      exact List.mem_append_right _ h
    · split at h
      · exact h
      · rw [blockBinds, List.mem_append]
        exact (List.mem_append.mp h).imp_right (mem_blockBindsIn_of_lostIn x cs _)
theorem mem_blockBindsIn_of_lostIn (x : String) : ∀ (cs : List (Field × Ast)) (sel : Field → Bool),
    x ∈ lostIn sel cs → x ∈ blockBindsIn sel cs
  | [], _, h => by cases h
  | (f, a) :: cs, sel, h => by
    rw [lostIn, List.mem_append, List.mem_ite_nil_right] at h
    rw [blockBindsIn, List.mem_append, List.mem_ite_nil_right]
    exact h.imp (fun h => ⟨h.1, mem_blockBinds_of_lost x a h.2⟩) (mem_blockBindsIn_of_lostIn x cs sel)
end

theorem mem_blockBindsIn {sel : Field → Bool} {cs : List (Field × Ast)} :
    x ∈ blockBindsIn sel cs ↔ ∃ c ∈ cs, sel c.1 = true ∧ x ∈ blockBinds c.2 := by
  induction cs with
  | nil => simp [blockBindsIn]
  | cons c cs ih =>
    rw [blockBindsIn, List.mem_append, List.mem_ite_nil_right, ih, List.exists_mem_cons_iff]

/-- The fields of a block: bodies, handlers, and those only the walrus walk looks at. -/
theorem inBlock_cases {kind : Kind} {f : Field} (h : inBlock kind f = true) :
    f ∈ bodies kind ∨ (kind = .try_ ∧ f = .handlers) ∨ walrusOnly kind f = true := by
  by_cases hbody : f ∈ bodies kind
  · exact .inl hbody
  · by_cases hhandler : kind = .try_ ∧ f = .handlers
    · exact .inr (.inl hhandler)
    · refine .inr (.inr ?_)
      simp only [walrusOnly, h, hbody, Bool.true_and, Bool.and_eq_true, Bool.not_eq_true',
        Bool.and_eq_false_iff, decide_eq_true_eq, decide_eq_false_iff_not, not_false_eq_true, true_and]
      exact not_and_or.mp hhandler

/-- The own names `_bind_stmt` collects. -/
def ownBound (kind : Kind) (cs : List (Field × Ast)) : List String :=
  match kind with
  | .functionDef name | .asyncFunctionDef name | .classDef name => [name]
  | .import_ | .importFrom _ _ => aliasNames cs
  | .assign => targetsIn .targets cs
  | .annAssign | .augAssign | .for_ | .asyncFor => targetsIn .target cs
  | .with_ | .asyncWith => optionalVars cs
  | .exceptHandler name => name.toList
  | _ => []

/-- `_bind_stmt` by its four sources of names. -/
theorem bindStmt_eq (line : Nat) (kind : Kind) (cs : List (Field × Ast)) :
    bindStmt (.node line kind cs) = bindWalrusTargets cs ++ (ownBound kind cs ++
      (bindings (bodies kind) cs ++ if kind = .try_ then bindHandlers cs else [])) := by
  have hnil : bindings [] cs = [] := by
    induction cs with
    | nil => rfl
    | cons c cs ih => rw [bindings, ih]; rfl
  cases kind <;> simp [bindStmt, ownBound, bodies, hnil]

theorem mem_ownBound {kind : Kind} (hown : collectsOwn kind = true) {cs : List (Field × Ast)}
    (h : x ∈ ownBinds kind cs) : x ∈ ownBound kind cs := by
  cases kind <;> first | exact absurd hown (by decide) | skip
  all_goals first | exact h | exact mem_targetsIn h | exact mem_optionalVars h | simp [collectsOwn] at hown

mutual
/-- What a statement binds is collected by `_bind_stmt` or uncollected. -/
theorem mem_bindStmt_or_uncollected (x : String) : ∀ a : Ast,
    x ∈ blockBinds a → x ∈ bindStmt a ∨ x ∈ uncollected a
  | .node line kind cs, h => by
    simp only [bindStmt_eq, uncollected, List.mem_append, List.mem_ite_nil_left, List.mem_ite_nil_right]
    rw [blockBinds, List.mem_append] at h
    -- the own names of the statement, or those of one of its children
    rcases h with h | h
    · by_cases hown : collectsOwn kind = true
      · exact .inl (.inr (.inl (mem_ownBound hown h)))
      · exact .inr (.inl (.inl (.inl ⟨hown, h⟩)))
    obtain ⟨c, hc, hf, hx⟩ := mem_blockBindsIn.mp h
    -- a body, a handler, or an expression of the statement, which only the walk for walruses looks
    -- at
    rcases inBlock_cases hf with hbody | ⟨rfl, hhandler⟩ | hwalrus
    · rcases mem_bindings_or_uncollectedIn x cs (bodies kind)
        (mem_blockBindsIn.mpr ⟨c, hc, decide_eq_true hbody, hx⟩) with h | h
      · exact .inl (.inr (.inr (.inl h)))
      · exact .inr (.inl (.inr h))
    · rcases mem_bindHandlers_or_uncollectedHandlers x cs
        (mem_blockBindsIn.mpr ⟨c, hc, decide_eq_true hhandler, hx⟩) with h | h | h
      · exact .inl (.inl h)
      · exact .inl (.inr (.inr (.inr ⟨rfl, h⟩)))
      · exact .inr (.inr ⟨rfl, h⟩)
    · rcases mem_bindWalrusTargets_or_lostIn x cs _ (mem_blockBindsIn.mpr ⟨c, hc, hwalrus, hx⟩) with h | h
      · exact .inl (.inl h)
      · exact .inr (.inl (.inl (.inr h)))
theorem mem_bindings_or_uncollectedIn (x : String) : ∀ (cs : List (Field × Ast))
    (fields : List Field), x ∈ blockBindsIn (fun f => f ∈ fields) cs →
      x ∈ bindings fields cs ∨ x ∈ uncollectedIn fields cs
  | [], _, h => by cases h
  | (f, a) :: cs, fields, h => by
    rw [blockBindsIn, List.mem_append, List.mem_ite_nil_right, decide_eq_true_iff] at h
    rw [bindings, uncollectedIn, List.mem_append, List.mem_append, List.mem_ite_nil_right,
      List.mem_ite_nil_right]
    rcases h with ⟨hf, h⟩ | h
    · exact (mem_bindStmt_or_uncollected x a h).imp (fun h => .inl ⟨hf, h⟩) (fun h => .inl ⟨hf, h⟩)
    · exact (mem_bindings_or_uncollectedIn x cs fields h).imp .inr .inr
theorem mem_bindHandlers_or_uncollectedHandlers (x : String) : ∀ cs : List (Field × Ast),
    x ∈ blockBindsIn (fun f => f = Field.handlers) cs →
      x ∈ bindWalrusTargets cs ∨ x ∈ bindHandlers cs ∨ x ∈ uncollectedHandlers cs
  | [], h => by cases h
  | (f, .node line kind hcs) :: cs, h => by
    rw [blockBindsIn, List.mem_append, List.mem_ite_nil_right, decide_eq_true_iff] at h
    rw [bindWalrusTargets, bindHandlers, uncollectedHandlers, List.mem_append, List.mem_append,
      List.mem_append, List.mem_ite_nil_right, List.mem_ite_nil_right]
    rcases h with ⟨hf, h⟩ | h
    · by_cases hkind : isHandler kind = true
      · obtain ⟨name, rfl⟩ : ∃ name, kind = .exceptHandler name := by
          cases kind <;> first | exact ⟨_, rfl⟩ | cases hkind
        rw [if_pos hkind]
        rcases mem_bindStmt_or_uncollected x _ h with h | h
        · rw [bindStmt_eq, List.mem_append] at h
          refine h.imp .inl fun h => .inl (.inl ⟨hf, ?_⟩)
          simpa [ownBound, bodies, handlerName] using h
        · exact .inr (.inr (.inl ⟨hf, h⟩))
      · rw [if_neg hkind]
        exact .inr (.inr (.inl ⟨hf, h⟩))
    · exact (mem_bindHandlers_or_uncollectedHandlers x cs h).imp .inr (Or.imp .inr .inr)
end

theorem inBlock_of_bodies {kind : Kind} {f : Field} (h : f ∈ bodies kind) : inBlock kind f = true := by
  cases kind <;> first | rfl | cases h

mutual
/-- Uncollected names are bound. -/
theorem mem_blockBinds_of_uncollected (x : String) : ∀ a : Ast, x ∈ uncollected a → x ∈ blockBinds a
  | .node line kind cs, h => by
    simp only [uncollected, List.mem_append, List.mem_ite_nil_left, List.mem_ite_nil_right] at h
    rw [blockBinds, List.mem_append]
    rcases h with ((⟨-, h⟩ | h) | h) | ⟨rfl, h⟩
    · exact .inl h
    · obtain ⟨c, hc, hf, hx⟩ := mem_blockBindsIn.mp (mem_blockBindsIn_of_lostIn x cs _ h)
      rw [walrusOnly, Bool.and_eq_true, Bool.and_eq_true] at hf
      exact .inr (mem_blockBindsIn.mpr ⟨c, hc, hf.1.1, hx⟩)
    · obtain ⟨c, hc, hf, hx⟩ := mem_blockBindsIn.mp (mem_blockBindsIn_of_uncollectedIn x cs _ h)
      exact .inr (mem_blockBindsIn.mpr ⟨c, hc, inBlock_of_bodies (of_decide_eq_true hf), hx⟩)
    · exact .inr (mem_blockBindsIn_of_uncollectedHandlers x cs h)
theorem mem_blockBindsIn_of_uncollectedIn (x : String) : ∀ (cs : List (Field × Ast))
    (fields : List Field), x ∈ uncollectedIn fields cs → x ∈ blockBindsIn (fun f => f ∈ fields) cs
  | [], _, h => by cases h
  | (f, a) :: cs, fields, h => by
    rw [uncollectedIn, List.mem_append, List.mem_ite_nil_right] at h
    rw [blockBindsIn, List.mem_append, List.mem_ite_nil_right, decide_eq_true_iff]
    exact h.imp (fun h => ⟨h.1, mem_blockBinds_of_uncollected x a h.2⟩)
      (mem_blockBindsIn_of_uncollectedIn x cs fields)
theorem mem_blockBindsIn_of_uncollectedHandlers (x : String) : ∀ cs : List (Field × Ast),
    x ∈ uncollectedHandlers cs → x ∈ blockBindsIn (inBlock .try_) cs
  | [], h => by cases h
  | (f, .node line kind hcs) :: cs, h => by
    rw [uncollectedHandlers, List.mem_append, List.mem_ite_nil_right] at h
    rw [blockBindsIn, List.mem_append, List.mem_ite_nil_right]
    refine h.imp (fun h => ⟨rfl, ?_⟩) (mem_blockBindsIn_of_uncollectedHandlers x cs)
    have hx := h.2
    split at hx
    · exact mem_blockBinds_of_uncollected x _ hx
    · exact hx
end

/-! ## Scopes -/

/-- The names the pass gives a scope. -/
def Scope.collected : Scope → List String
  | .module cs => bindings [.body] cs
  | .function cs => bindings [.body] cs ++ paramNames cs
  | .class_ cs => bindings [.body] cs
  | .lambda cs => paramNames cs
  | .comp cs | .compIter cs => generatorTargets cs
  | .typeParams _ => []

/-- The names of a scope that are bound by constructs the pass does not collect: for a
module also those that functions and classes declare `global`, for a lambda every
walrus of its body, and all type parameters. -/
def Scope.uncollected : Scope → List String
  | .module cs => uncollectedIn [.body] cs ++ globalBindsAll cs
  | .function cs | .class_ cs =>
    (uncollectedIn [.body] cs).filter fun x => x ∉ declaredIn true isBody cs
  | .lambda cs => blockBindsIn isBody cs
  | .comp _ | .compIter _ => []
  | .typeParams cs => typeParamNames cs

theorem isBody_eq : isBody = fun f => decide (f ∈ [Field.body]) := by
  funext f
  simp [isBody]

theorem mem_body_iff {cs : List (Field × Ast)} :
    (x ∈ blockBindsIn isBody cs → x ∈ bindings [.body] cs ∨ x ∈ uncollectedIn [.body] cs) ∧
      (x ∈ uncollectedIn [.body] cs → x ∈ blockBindsIn isBody cs) := by
  rw [isBody_eq]
  exact ⟨mem_bindings_or_uncollectedIn x cs _, mem_blockBindsIn_of_uncollectedIn x cs _⟩

/-- The names of a scope are the collected and the uncollected ones. -/
theorem Scope.mem_collected_or_uncollected {s : Scope} (h : x ∈ s.names) :
    x ∈ s.collected ∨ x ∈ s.uncollected := by
  cases s with
  | module cs =>
    simp only [names, collected, Scope.uncollected, List.mem_append] at h ⊢
    exact h.elim (fun h => (mem_body_iff.1 h).imp_right .inl) (fun h => .inr (.inr h))
  | function cs =>
    simp only [names, collected, Scope.uncollected, List.mem_append, List.mem_filter] at h ⊢
    rcases h with h | ⟨h, hdecl⟩
    · exact .inl (.inr h)
    · exact (mem_body_iff.1 h).imp .inl fun h => ⟨h, hdecl⟩
  | class_ cs =>
    simp only [names, collected, Scope.uncollected, List.mem_filter] at h ⊢
    exact (mem_body_iff.1 h.1).imp_right fun hx => ⟨hx, h.2⟩
  | lambda cs =>
    rw [names, List.mem_append] at h
    exact h
  | comp cs => exact .inl (mem_generatorTargets h)
  | compIter cs => cases h
  | typeParams cs => exact .inr h

theorem Scope.mem_names_of_uncollected {s : Scope} (h : x ∈ s.uncollected) : x ∈ s.names := by
  cases s with
  | module cs =>
    simp only [names, Scope.uncollected, List.mem_append] at h ⊢
    exact h.imp_left mem_body_iff.2
  | function cs =>
    simp only [names, Scope.uncollected, List.mem_append, List.mem_filter] at h ⊢
    exact .inr ⟨mem_body_iff.2 h.1, h.2⟩
  | class_ cs =>
    simp only [names, Scope.uncollected, List.mem_filter] at h ⊢
    exact ⟨mem_body_iff.2 h.1, h.2⟩
  | lambda cs => exact List.mem_append_right _ h
  | comp cs => cases h
  | compIter cs => cases h
  | typeParams cs => exact h

/-! ## The loads the pass visits -/

/-- A name load with the scopes around it, the innermost first. -/
structure Load where
  line : Nat
  id : String
  chain : List Scope

mutual
/-- The loads `_visit_stmt` visits. -/
def loadsStmt (chain : List Scope) : Ast → List Load
  | .node _ kind cs =>
    match kind with
    | .functionDef _ | .asyncFunctionDef _ =>
      loadsExprs chain [.decoratorList] cs ++ loadsInner chain .args [.defaults] cs ++
        loadsInner chain .args [.kwDefaults] cs ++
        loadsStmts (.function cs :: .typeParams cs :: chain) [.body] cs
    | .classDef _ =>
      loadsExprs chain [.decoratorList] cs ++ loadsExprs (.typeParams cs :: chain) [.bases] cs ++
        loadsInner (.typeParams cs :: chain) .keywords [.value] cs ++
        loadsStmts (.class_ cs :: .typeParams cs :: chain) [.body] cs
    | .for_ | .asyncFor => loadsExprs chain [.iter] cs ++ loadsStmts chain [.body, .orelse] cs
    | .with_ | .asyncWith =>
      loadsInner chain .items [.contextExpr] cs ++ loadsStmts chain [.body] cs
    | .while_ | .if_ => loadsExprs chain [.test] cs ++ loadsStmts chain [.body, .orelse] cs
    | .try_ => loadsHandlers chain cs ++ loadsStmts chain [.body, .orelse, .finalbody] cs
    | .return_ | .raise | .assert | .expr | .assign | .annAssign | .augAssign | .delete =>
      loadsChildren chain false cs
    | .import_ | .importFrom _ _ | .global _ | .nonlocal _ | .pass | .break_ | .continue_ => []
    | .typeAlias => loadsChildren (.typeParams cs :: chain) true cs
    | _ => loadsChildren chain true cs
/-- The loads `_visit_expr` visits. -/
def loadsExpr (chain : List Scope) : Ast → List Load
  | .node line kind cs =>
    match kind with
    | .name id ctx => if ctx = .load then [⟨line, id, chain⟩] else []
    | .lambda => loadsExprs (.lambda cs :: chain) [.body] cs
    | .listComp | .setComp | .generatorExp =>
      loadsGenerators (.compIter cs :: chain) (.comp cs :: chain) cs ++
        loadsExprs (.comp cs :: chain) [.elt] cs
    | .dictComp =>
      loadsGenerators (.compIter cs :: chain) (.comp cs :: chain) cs ++
        loadsExprs (.comp cs :: chain) [.key] cs ++ loadsExprs (.comp cs :: chain) [.value] cs
    | .namedExpr => loadsExprs chain [.value] cs
    | _ => loadsChildren chain false cs
def loadsStmts (chain : List Scope) (fields : List Field) : List (Field × Ast) → List Load
  | [] => []
  | (f, a) :: cs => (if f ∈ fields then loadsStmt chain a else []) ++ loadsStmts chain fields cs
def loadsExprs (chain : List Scope) (fields : List Field) : List (Field × Ast) → List Load
  | [] => []
  | (f, a) :: cs => (if f ∈ fields then loadsExpr chain a else []) ++ loadsExprs chain fields cs
def loadsInner (chain : List Scope) (outer : Field) (fields : List Field) :
    List (Field × Ast) → List Load
  | [] => []
  | (f, .node _ _ ics) :: cs =>
    (if f = outer then loadsExprs chain fields ics else []) ++ loadsInner chain outer fields cs
def loadsHandlers (chain : List Scope) : List (Field × Ast) → List Load
  | [] => []
  | (f, .node _ _ hcs) :: cs =>
    (if f = .handlers then loadsExprs chain [.type] hcs ++ loadsStmts chain [.body] hcs else []) ++
      loadsHandlers chain cs
/-- The loads of the generators; `first` is the chain of the next iterable. -/
def loadsGenerators (first chain : List Scope) : List (Field × Ast) → List Load
  | [] => []
  | (f, .node _ _ gcs) :: cs =>
    if f = .generators then
      loadsExprs first [.iter] gcs ++ loadsExprs chain [.ifs] gcs ++ loadsGenerators chain chain cs
    else loadsGenerators first chain cs
def loadsChildren (chain : List Scope) (stmts : Bool) : List (Field × Ast) → List Load
  | [] => []
  | (_, a) :: cs =>
    (if a.kind.isExpr then loadsExpr chain a
      else if stmts && a.kind.isStmt then loadsStmt chain a
      else []) ++ loadsChildren chain stmts cs
end

/-- The loads of a module. -/
def loads : Ast → List Load
  | .node _ _ cs => loadsStmts [.module cs] [.body] cs

section Finder

variable (builtins : List String)

/-- The name of the load is collected in a scope of its chain, or is a builtin or implicit
name. -/
def Load.Resolved (l : Load) : Prop :=
  l.id ∈ l.chain.flatMap Scope.collected ∨ l.id ∈ builtins ∨ l.id ∈ implicitNames

instance (l : Load) : Decidable (l.Resolved builtins) :=
  inferInstanceAs (Decidable (_ ∨ _))

/-- The issue of a load that does not resolve. -/
def Load.issue? (l : Load) : Option StaticIssue :=
  if l.Resolved builtins then none else some (report l.line l.id)

/-- The stack of the pass holds the names of the chain. -/
def Agrees (stack : List (List String)) (chain : List Scope) : Prop :=
  ∀ id, id ∈ stack.flatten ↔ id ∈ chain.flatMap Scope.collected

theorem Agrees.push {stack : List (List String)} {chain : List Scope} (h : Agrees stack chain)
    (s : Scope) : Agrees (s.collected :: stack) (s :: chain) := by
  intro id
  rw [List.flatten_cons, List.flatMap_cons, List.mem_append, List.mem_append, h id]

theorem Agrees.typeParams {stack : List (List String)} {chain : List Scope} (h : Agrees stack chain)
    (cs : List (Field × Ast)) : Agrees stack (.typeParams cs :: chain) :=
  h

theorem Agrees.resolves_iff {stack : List (List String)} {chain : List Scope}
    (h : Agrees stack chain) (line : Nat) (id : String) :
    resolves builtins stack id = true ↔ (Load.mk line id chain).Resolved builtins := by
  rw [Load.Resolved, ← h id]
  simp [resolves, or_assoc]

variable {builtins}

mutual
/-- The issues of the pass are those of the loads it visits. -/
theorem visitStmt_eq : ∀ (a : Ast) {stack : List (List String)} {chain : List Scope},
    Agrees stack chain → visitStmt builtins stack a = (loadsStmt chain a).filterMap (Load.issue? builtins)
  | .node line kind cs, stack, chain, h => by
    have htype := h.typeParams cs
    have hexprs := fun fields => visitExprs_eq cs fields h
    have hstmts := fun fields => visitStmts_eq cs fields h
    have hinner := fun outer fields => visitInner_eq cs outer fields h
    have hhandlers := visitHandlers_eq cs h
    have hchildren := fun stmts => visitChildren_eq cs stmts h
    -- a definition pushes the scope of its body; any other statement stays in its scope
    cases kind with
    | functionDef name =>
      have hbody := visitStmts_eq cs [.body] (htype.push (.function cs))
      rw [Scope.collected] at hbody
      simp only [visitStmt, loadsStmt, List.filterMap_append, hexprs, hinner, hbody]
    | asyncFunctionDef name =>
      have hbody := visitStmts_eq cs [.body] (htype.push (.function cs))
      rw [Scope.collected] at hbody
      simp only [visitStmt, loadsStmt, List.filterMap_append, hexprs, hinner, hbody]
    | classDef name =>
      have hbody := visitStmts_eq cs [.body] (htype.push (.class_ cs))
      rw [Scope.collected] at hbody
      simp only [visitStmt, loadsStmt, List.filterMap_append, hbody]
      rw [hexprs [.decoratorList], visitExprs_eq cs [.bases] htype, visitInner_eq cs _ _ htype]
    | typeAlias => simp only [visitStmt, loadsStmt, visitChildren_eq cs true htype]
    | _ =>
      simp only [visitStmt, loadsStmt, List.filterMap_append, List.filterMap_nil, hexprs, hstmts,
        hinner, hhandlers, hchildren]
theorem visitExpr_eq : ∀ (a : Ast) {stack : List (List String)} {chain : List Scope},
    Agrees stack chain → visitExpr builtins stack a = (loadsExpr chain a).filterMap (Load.issue? builtins)
  | .node line kind cs, stack, chain, h => by
    have hcomp := h.push (.comp cs)
    have hgens := visitGenerators_eq cs (h.push (.compIter cs)) hcomp
    have hbody := fun fields => visitExprs_eq cs fields hcomp
    simp only [Scope.collected] at hgens hbody
    cases kind with
    | name id ctx =>
      have hiff := h.resolves_iff builtins line id
      rw [visitExpr, loadsExpr]
      by_cases hload : ctx = .load
      · by_cases hres : (Load.mk line id chain).Resolved builtins
        · simp [hload, hiff.mpr hres, Load.issue?, hres]
        · simp [hload, mt hiff.mp hres, Load.issue?, hres]
      · simp [hload]
    | lambda => rw [visitExpr, loadsExpr, ← visitExprs_eq cs [.body] (h.push (.lambda cs)), Scope.collected]
    | namedExpr => rw [visitExpr, loadsExpr, visitExprs_eq cs [.value] h]
    | listComp => simp only [visitExpr, loadsExpr, List.filterMap_append, hgens, hbody]
    | setComp => simp only [visitExpr, loadsExpr, List.filterMap_append, hgens, hbody]
    | generatorExp => simp only [visitExpr, loadsExpr, List.filterMap_append, hgens, hbody]
    | dictComp => simp only [visitExpr, loadsExpr, List.filterMap_append, hgens, hbody]
    | _ => simp only [visitExpr, loadsExpr, visitChildren_eq cs false h]
theorem visitStmts_eq : ∀ (cs : List (Field × Ast)) (fields : List Field)
    {stack : List (List String)} {chain : List Scope}, Agrees stack chain →
    visitStmts builtins stack fields cs
      = (loadsStmts chain fields cs).filterMap (Load.issue? builtins)
  | [], _, _, _, _ => rfl
  | (f, a) :: cs, fields, stack, chain, h => by
    rw [visitStmts, loadsStmts, List.filterMap_append, visitStmts_eq cs fields h]
    split
    · rw [visitStmt_eq a h]
    · rfl
theorem visitExprs_eq : ∀ (cs : List (Field × Ast)) (fields : List Field)
    {stack : List (List String)} {chain : List Scope}, Agrees stack chain →
    visitExprs builtins stack fields cs
      = (loadsExprs chain fields cs).filterMap (Load.issue? builtins)
  | [], _, _, _, _ => rfl
  | (f, a) :: cs, fields, stack, chain, h => by
    rw [visitExprs, loadsExprs, List.filterMap_append, visitExprs_eq cs fields h]
    split
    · rw [visitExpr_eq a h]
    · rfl
theorem visitInner_eq : ∀ (cs : List (Field × Ast)) (outer : Field) (fields : List Field)
    {stack : List (List String)} {chain : List Scope}, Agrees stack chain →
    visitInner builtins stack outer fields cs
      = (loadsInner chain outer fields cs).filterMap (Load.issue? builtins)
  | [], _, _, _, _, _ => rfl
  | (f, .node _ _ ics) :: cs, outer, fields, stack, chain, h => by
    rw [visitInner, loadsInner, List.filterMap_append, visitInner_eq cs outer fields h]
    split
    · rw [visitExprs_eq ics fields h]
    · rfl
theorem visitHandlers_eq : ∀ (cs : List (Field × Ast)) {stack : List (List String)}
    {chain : List Scope}, Agrees stack chain →
    visitHandlers builtins stack cs = (loadsHandlers chain cs).filterMap (Load.issue? builtins)
  | [], _, _, _ => rfl
  | (f, .node _ _ hcs) :: cs, stack, chain, h => by
    rw [visitHandlers, loadsHandlers, List.filterMap_append, visitHandlers_eq cs h]
    split
    · rw [visitExprs_eq hcs [.type] h, visitStmts_eq hcs [.body] h, List.filterMap_append]
    · rfl
theorem visitGenerators_eq : ∀ (cs : List (Field × Ast)) {stack : List (List String)}
    {first chain : List Scope}, Agrees stack first → Agrees stack chain →
    visitGenerators builtins stack cs
      = (loadsGenerators first chain cs).filterMap (Load.issue? builtins)
  | [], _, _, _, _, _ => rfl
  | (f, .node _ _ gcs) :: cs, stack, first, chain, hfirst, h => by
    rw [visitGenerators, loadsGenerators]
    split
    · rw [visitExprs_eq gcs [.iter] hfirst, visitExprs_eq gcs [.ifs] h, visitGenerators_eq cs h h,
        List.filterMap_append, List.filterMap_append]
    · rw [visitGenerators_eq cs hfirst h]
      rfl
theorem visitChildren_eq : ∀ (cs : List (Field × Ast)) (stmts : Bool)
    {stack : List (List String)} {chain : List Scope}, Agrees stack chain →
    visitChildren builtins stack stmts cs
      = (loadsChildren chain stmts cs).filterMap (Load.issue? builtins)
  | [], _, _, _, _ => rfl
  | (f, a) :: cs, stmts, stack, chain, h => by
    rw [visitChildren, loadsChildren, List.filterMap_append, visitChildren_eq cs stmts h]
    split
    · rw [visitExpr_eq a h]
    · split
      · rw [visitStmt_eq a h]
      · rfl
end

/-- The issues of a module are those of its loads that do not resolve. -/
theorem run_eq (tree : Ast) : run builtins tree = (loads tree).filterMap (Load.issue? builtins) := by
  obtain ⟨line, kind, cs⟩ := tree
  refine visitStmts_eq cs [.body] (fun id => ?_)
  simp [Scope.collected]

/-- Every load the pass visits that sees a binding of its name by an uncollected construct
resolves all the same, to a collected name or a builtin. -/
def NoUncollectedLoad (builtins : List String) (tree : Ast) : Prop :=
  ∀ l ∈ loads tree, (∃ s ∈ visibleScopes l.chain, l.id ∈ s.uncollected) → l.Resolved builtins

/-- **Which modules are flagged soundly.** The issues of the pass are exactly those of
the loads it visits and does not resolve; and no issue is for a name that a binding
construct binds in the scope of the load or in a function or module scope around it, if
and only if no load gets its name only from constructs the pass does not collect. -/
theorem flags_sound_iff (builtins : List String) (tree : Ast) :
    run builtins tree = ((loads tree).filter fun l => ¬ l.Resolved builtins).map
        (fun l => report l.line l.id) ∧
      ((∀ l ∈ loads tree, ¬ l.Resolved builtins → ¬ BoundIn l.chain l.id) ↔
        NoUncollectedLoad builtins tree) := by
  refine ⟨?_, ?_, ?_⟩
  · rw [run_eq, ← List.filterMap_eq_map, List.filterMap_filter]
    refine List.filterMap_congr ?_
    intro l _
    unfold Load.issue?
    by_cases hres : l.Resolved builtins <;> simp [hres]
  · rintro hsound l hl ⟨s, hs, hx⟩
    by_contra hres
    exact hsound l hl hres ⟨s, hs, Scope.mem_names_of_uncollected hx⟩
  · rintro hcond l hl hres ⟨s, hs, hx⟩
    rcases Scope.mem_collected_or_uncollected hx with h | h
    · exact hres (.inl (List.mem_flatMap.mpr ⟨s, visibleScopes_subset _ hs, h⟩))
    · exact hres (hcond l hl ⟨s, hs, h⟩)

/-- The module

```
match 0:
    case y:
        pass
print(y)
```
-/
def captureModule : Ast :=
  .node 1 .module [
    (.body, .node 1 .match_ [(.subject, .node 1 .constant []),
      (.cases, .node 2 .matchCase [(.pattern, .node 2 (.matchAs (some "y")) []),
        (.body, .node 3 .pass [])])]),
    (.body, .node 4 .expr [(.value, .node 4 .call [(.func, .node 4 (.name "print" .load) []),
      (.args, .node 4 (.name "y" .load) [])])])]

/-- A captured name is flagged, although the capture binds it. -/
theorem flags_captured_name :
    run ["print"] captureModule = [⟨4, "undefined-name", "'y' is never defined"⟩] ∧
      ¬ ∀ l ∈ loads captureModule, ¬ l.Resolved ["print"] → ¬ BoundIn l.chain l.id := by
  decide +kernel

end Finder

end Noema.Sandbox
