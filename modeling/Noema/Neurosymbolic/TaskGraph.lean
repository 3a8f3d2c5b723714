import Noema.Neurosymbolic.Names

/-!
# The task graph that `parse_task` builds

`parse_task` runs over the requirements and then over the constraints. It gives each entry a name,
parses what it can, stops at a limit, and enters the variables into one dict. This module says what
the graph is in terms of the entries, so that nothing later runs the loops again.

- `parsed`, `addVars`: what the loops collect: the entries that parse, and their variables in a
  dict.
- **`parseTask_graph`**: the requirements and the constraints of the graph are the first ones that
  parse, up to the limit, each under the name given to its entry, and the variables are those of the
  requirements, overwritten by those of the constraints (`GraphOf`).
- `parseRequirement_some`, `parseConstraint_some`: what a parsed entry is.
- `GraphOf.names_nodup`: the names of what parses are distinct, as the names of all entries are.
- `GraphOf.lookup_constraint`, `GraphOf.lookup_requirement`: the variable that a name is bound to. A
  requirement whose name is also that of a constraint has lost its variable.
-/

namespace Noema.Neurosymbolic

open Noema.Lib PyJson Smt

variable {F : Type}

/-! ## The loops -/

/-- The entries that parse. -/
def parsed (parse : Item F → String → Except PyExc (Option Constraint))
    (items : List (Item F × String)) : List Constraint :=
  items.filterMap fun (item, name) => (parse item name).toOption.join

/-- The variables of parsed entries, entered into a dict in their order. -/
def addVars (cs : List Constraint) (vars : List (String × Var)) : List (String × Var) :=
  cs.foldl (fun d c => dictInsert c.name c.var d) vars

theorem collect_ok {parse : Item F → String → Except PyExc (Option Constraint)}
    {maxConstraints : Int} {items : List (Item F × String)} {cs : List Constraint}
    {vars : List (String × Var)} {result : List Constraint × List (String × Var)}
    (h : collect parse maxConstraints items (cs, vars) = .ok result) :
    result.1 = cs ++ (parsed parse items).take (maxConstraints - cs.length).toNat ∧
      result.2 = addVars ((parsed parse items).take (maxConstraints - cs.length).toNat) vars := by
  induction items generalizing cs vars with
  | nil =>
    rw [collect, Except.ok.injEq] at h
    subst h
    simp [parsed, addVars]
  | cons entry rest ih =>
    obtain ⟨item, name⟩ := entry
    rw [collect] at h
    split at h
    -- `max_constraints` is reached, and the rest of the items is not read
    next hmax =>
      rw [Except.ok.injEq] at h
      subst h
      have hzero : (maxConstraints - cs.length).toNat = 0 := by omega
      simp [hzero, addVars]
    next hmax =>
      cases hparse : parse item name with
      | error e => simp [hparse] at h
      | ok c =>
        rw [hparse, ok_bind] at h
        cases c with
        -- an item without a constraint does not count
        | none =>
          have hskip : parsed parse ((item, name) :: rest) = parsed parse rest := by
            simp [parsed, hparse, Except.toOption]
          rw [hskip]
          exact ih h
        | some c =>
          have hcons : parsed parse ((item, name) :: rest) = c :: parsed parse rest := by
            simp [parsed, hparse, Except.toOption]
          obtain ⟨h₁, h₂⟩ := ih h
          have hsucc : (maxConstraints - cs.length).toNat =
              (maxConstraints - (cs ++ [c]).length).toNat + 1 := by
            rw [List.length_append, List.length_singleton]
            omega
          rw [hcons, hsucc, List.take_succ_cons]
          constructor
          · rw [h₁, List.append_assoc, List.singleton_append]
          · rw [h₂]
            rfl

theorem lookup_addVars_of_not_mem {cs : List Constraint} {name : String}
    (h : name ∉ cs.map Constraint.name) (vars : List (String × Var)) :
    (addVars cs vars).lookup name = vars.lookup name := by
  induction cs generalizing vars with
  | nil => rfl
  | cons c cs ih =>
    rw [List.map_cons, List.mem_cons, not_or] at h
    show (addVars cs (dictInsert c.name c.var vars)).lookup name = _
    rw [ih h.2, lookup_dictInsert, if_neg h.1]

theorem lookup_addVars_of_mem {cs : List Constraint} {c : Constraint}
    (hnodup : (cs.map Constraint.name).Nodup) (hc : c ∈ cs) (vars : List (String × Var)) :
    (addVars cs vars).lookup c.name = some c.var := by
  induction cs generalizing vars with
  | nil => cases hc
  | cons c' cs ih =>
    rw [List.map_cons, List.nodup_cons] at hnodup
    show (addVars cs (dictInsert c'.name c'.var vars)).lookup c.name = _
    rcases List.mem_cons.mp hc with rfl | hc
    · rw [lookup_addVars_of_not_mem hnodup.1, lookup_dictInsert, if_pos rfl]
    · exact ih hnodup.2 hc _

/-- A parser that gives an entry the name it is told. -/
def KeepsName (parse : Item F → String → Except PyExc (Option Constraint)) : Prop :=
  ∀ item name c, name ≠ "" → parse item name = .ok (some c) → c.name = name

/-- What parses carries the names of its entries, in their order. -/
theorem parsed_names_sublist {parse : Item F → String → Except PyExc (Option Constraint)}
    (hparse : KeepsName parse) {items : List (Item F × String)}
    (hne : ∀ entry ∈ items, entry.2 ≠ "") :
    ((parsed parse items).map Constraint.name).Sublist (items.map Prod.snd) := by
  induction items with
  | nil => exact .slnil
  | cons entry rest ih =>
    obtain ⟨item, name⟩ := entry
    have ih := ih fun entry h => hne entry (List.mem_cons_of_mem _ h)
    have hname : name ≠ "" := hne (item, name) List.mem_cons_self
    rcases hrun : parse item name with e | (_ | c)
    · simpa [parsed, hrun, Except.toOption] using ih.cons name
    · simpa [parsed, hrun, Except.toOption] using ih.cons name
    · have hc : c.name = name := hparse item name c hname hrun
      simpa [parsed, hrun, Except.toOption, hc] using ih

theorem mem_parsed {parse : Item F → String → Except PyExc (Option Constraint)}
    {items : List (Item F × String)} {c : Constraint} (h : c ∈ parsed parse items) :
    ∃ item name, (item, name) ∈ items ∧ parse item name = .ok (some c) := by
  obtain ⟨⟨item, name⟩, hmem, hc⟩ := List.mem_filterMap.mp h
  refine ⟨item, name, hmem, ?_⟩
  rcases hrun : parse item name with e | (_ | c')
  · simp [hrun, Except.toOption] at hc
  · simp [hrun, Except.toOption] at hc
  · simp only [hrun, Except.toOption, Option.join_some, Option.some.injEq] at hc
    rw [hc]

/-! ## One entry -/

variable [PyInterp F] {u : Unicode} {z3 : Z3 F} {imp : Z3Import}

/-- What a parsed requirement is: the bounds of the entry over a variable of its name, of a
sort that holds them. -/
theorem parseRequirement_some {req : Item F} {name : String} {c : Constraint} (hname : name ≠ "")
    (h : parseRequirement u z3 imp req name = .ok (some c)) :
    ∃ d b lower upper, req.asDict? = some d ∧ extractBounds u d = .ok b ∧
      clause z3 (.ge ⟨name, boundSort b⟩) b.lower = .ok lower ∧
      clause z3 (.le ⟨name, boundSort b⟩) b.upper = .ok upper ∧
      c = ⟨name, .and (lower ++ upper), ⟨name, boundSort b⟩⟩ := by
  cases imp with
  | unavailable => simp [parseRequirement] at h
  | broken e => simp [parseRequirement] at h
  | available =>
    -- only an import that works lets the requirement be read
    have h : parseNumeric u z3 req name = .ok (some c) := by
      rw [parseRequirement] at h
      cases hrun : parseNumeric u z3 req name with
      | error e => simp [hrun] at h
      | ok c' => simpa [hrun] using h
    unfold parseNumeric at h
    cases hd : req.asDict? with
    | none => simp [hd] at h
    | some d =>
      simp only [hd, ok_bind, if_neg hname] at h
      split at h
      · cases hb : extractBounds u d with
        | error e => simp [hb] at h
        | ok b =>
          simp only [hb, ok_bind] at h
          split at h
          · simp [pure, Except.pure] at h
          · cases hlower : clause z3 (.ge ⟨name, boundSort b⟩) b.lower with
            | error e => simp [hlower] at h
            | ok lower =>
              cases hupper : clause z3 (.le ⟨name, boundSort b⟩) b.upper with
              | error e => simp [hlower, hupper] at h
              | ok upper =>
                simp only [hlower, hupper, ok_bind, pure, Except.pure, Except.ok.injEq,
                  Option.some.injEq] at h
                exact ⟨d, b, lower, upper, rfl, hb, hlower, hupper, h.symm⟩
      · simp [pure, Except.pure] at h

theorem parseConstraint_some {const : Item F} {name : String} {c : Constraint}
    (hname : name ≠ "") (h : parseConstraint imp const name = .ok (some c)) :
    c = ⟨name, .atom (.isTrue ⟨name, .bool⟩), ⟨name, .bool⟩⟩ := by
  unfold parseConstraint at h
  split at h
  · simpa [hname, eq_comm] using h
  · simp at h

theorem keepsName_parseRequirement : KeepsName (parseRequirement u z3 imp) := by
  intro req name c hname h
  obtain ⟨_, _, _, _, _, _, _, _, rfl⟩ := parseRequirement_some hname h
  rfl

theorem keepsName_parseConstraint : KeepsName (F := F) (parseConstraint imp) := by
  intro const name c hname h
  rw [parseConstraint_some hname h]

/-! ## The graph -/

/-- The graph of the entries `reqs` and `consts`. -/
structure GraphOf (u : Unicode) (z3 : Z3 F) (imp : Z3Import) (maxConstraints : Int)
    (reqs consts : List (Item F)) (graph : TaskGraph F) : Prop where
  requirements : graph.requirements =
    (parsed (parseRequirement u z3 imp) (reqs.zip (itemNames "req_" reqs))).take
      maxConstraints.toNat
  constraints : graph.constraints =
    (parsed (parseConstraint imp) (consts.zip (itemNames "constraint_" consts))).take
      maxConstraints.toNat
  vars : graph.vars = addVars graph.constraints (addVars graph.requirements [])

theorem parseTask_graph {maxConstraints : Int} {task : StructuredTask F} {graph : TaskGraph F}
    (h : parseTask u z3 imp maxConstraints task = .ok graph) :
    ∃ reqs consts, validateTaskStructure task = .ok reqs ∧
      (task.constraints.getD (.items [])).iter = .ok consts ∧
      GraphOf u z3 imp maxConstraints reqs consts graph := by
  unfold parseTask at h
  cases hreqs : validateTaskStructure task with
  | error e => simp [hreqs] at h
  | ok reqs =>
    simp only [hreqs, ok_bind] at h
    cases hfirst : collect (parseRequirement u z3 imp) maxConstraints
        (reqs.zip (itemNames "req_" reqs)) ([], []) with
    | error e => simp [hfirst] at h
    | ok first =>
      simp only [hfirst, ok_bind] at h
      cases hconsts : (task.constraints.getD (.items [])).iter with
      | error e => simp [hconsts] at h
      | ok consts =>
        simp only [hconsts, ok_bind] at h
        -- the constraints are counted from zero again, over the variables of the requirements
        cases hsecond : collect (parseConstraint imp) maxConstraints
            (consts.zip (itemNames "constraint_" consts)) ([], first.2) with
        | error e => simp [hsecond] at h
        | ok second =>
          simp only [hsecond, ok_bind] at h
          cases hlen : pyLen (task.goals.getD (.list [])) with
          | error e => simp [hlen] at h
          | ok n =>
            simp only [hlen, ok_bind, pure, Except.pure, Except.ok.injEq] at h
            subst h
            obtain ⟨hcs, hvars⟩ := collect_ok hfirst
            obtain ⟨hcs', hvars'⟩ := collect_ok hsecond
            simp only [List.nil_append, List.length_nil, Int.natCast_zero, Int.sub_zero] at *
            refine ⟨reqs, consts, rfl, rfl, hcs, hcs', ?_⟩
            show second.2 = addVars second.1 (addVars first.1 [])
            rw [hvars', hvars, hcs, hcs']

namespace GraphOf

variable {maxConstraints : Int} {reqs consts : List (Item F)} {graph : TaskGraph F}

theorem zip_names_ne_empty {fallback : String} (h : fallback ≠ "") (items : List (Item F)) :
    ∀ entry ∈ items.zip (itemNames fallback items), entry.2 ≠ "" :=
  fun _ hentry => itemNames_ne_empty h items _ (List.of_mem_zip hentry).2

/-- The names of what parses are distinct. -/
theorem names_nodup {parse : Item F → String → Except PyExc (Option Constraint)}
    (hparse : KeepsName parse) {fallback : String} (hfallback : fallback ≠ "")
    (items : List (Item F)) (n : Nat) :
    (((parsed parse (items.zip (itemNames fallback items))).take n).map Constraint.name).Nodup := by
  have hsub := parsed_names_sublist hparse (zip_names_ne_empty hfallback items)
  rw [List.map_snd_zip (by rw [itemNames_length])] at hsub
  exact ((itemNames_nodup fallback items).sublist hsub).sublist
    ((List.take_sublist n _).map Constraint.name)

theorem constraints_nodup (h : GraphOf u z3 imp maxConstraints reqs consts graph) :
    (graph.constraints.map Constraint.name).Nodup := by
  rw [h.constraints]
  exact names_nodup keepsName_parseConstraint (by decide) consts _

theorem requirements_nodup (h : GraphOf u z3 imp maxConstraints reqs consts graph) :
    (graph.requirements.map Constraint.name).Nodup := by
  rw [h.requirements]
  exact names_nodup keepsName_parseRequirement (by decide) reqs _

/-- The name of a constraint is bound to its own variable. -/
theorem lookup_constraint (h : GraphOf u z3 imp maxConstraints reqs consts graph)
    {c : Constraint} (hc : c ∈ graph.constraints) : graph.vars.lookup c.name = some c.var := by
  rw [h.vars]
  exact lookup_addVars_of_mem h.constraints_nodup hc _

/-- The name of a requirement is bound to its own variable, unless a constraint has the
name too. -/
theorem lookup_requirement (h : GraphOf u z3 imp maxConstraints reqs consts graph)
    {c : Constraint} (hc : c ∈ graph.requirements)
    (hfresh : c.name ∉ graph.constraints.map Constraint.name) :
    graph.vars.lookup c.name = some c.var := by
  rw [h.vars, lookup_addVars_of_not_mem hfresh]
  exact lookup_addVars_of_mem h.requirements_nodup hc _

theorem constraint_eq (h : GraphOf u z3 imp maxConstraints reqs consts graph)
    {c : Constraint} (hc : c ∈ graph.constraints) :
    c = ⟨c.name, .atom (.isTrue ⟨c.name, .bool⟩), ⟨c.name, .bool⟩⟩ := by
  rw [h.constraints] at hc
  obtain ⟨const, name, hmem, hparse⟩ := mem_parsed (List.mem_of_mem_take hc)
  have heq := parseConstraint_some (zip_names_ne_empty (by decide) consts _ hmem) hparse
  rw [heq]

/-- A requirement of the graph comes from the entry that was given its name. -/
theorem requirement_entry (h : GraphOf u z3 imp maxConstraints reqs consts graph)
    {c : Constraint} (hc : c ∈ graph.requirements) :
    ∃ (i : Nat) (req : Item F), reqs[i]? = some req ∧ (itemNames "req_" reqs)[i]? = some c.name ∧
      c.name ≠ "" ∧ parseRequirement u z3 imp req c.name = .ok (some c) := by
  rw [h.requirements] at hc
  obtain ⟨req, name, hmem, hparse⟩ := mem_parsed (List.mem_of_mem_take hc)
  have hne : name ≠ "" := zip_names_ne_empty (by decide) reqs _ hmem
  have hname : c.name = name := keepsName_parseRequirement req name c hne hparse
  obtain ⟨i, hi⟩ := List.mem_iff_getElem?.mp hmem
  obtain ⟨hreq, hentry⟩ := List.getElem?_zip_eq_some.mp hi
  subst hname
  exact ⟨i, req, hreq, hentry, hne, hparse⟩

end GraphOf

end Noema.Neurosymbolic
