import Noema.Core.ChainOfThought

/-!
# Runs of one level

The tasks of a level share the state, but each part of a task changes only what belongs to its own
step. `TaskView` says what a task has done so far: its step and the entries of the log that are
about it. `LevelInv` is the invariant of a level, that every task has its view; `LevelInv.step`
shows that every part keeps it, whatever the order of the parts, and `levelSpec` what a level that
is over has done (`LevelSpec`).

- `about`: the entries about a step. Interleaving the tasks of a level interleaves the log, but not
  the entries about one step, so that the views are independent.
- `LevelInv.update`: a part keeps the invariant if it changes only its own step, and gives the task
  its next view. `create`, `begin` and `finish` are the three parts, each by this rule.
- `consult_cases`: the budget is never a reason to skip a step, and only a budget is a reason to
  raise.
- `StepEnd`: how a step has ended, with all entries about it: completed by an answer, refused by the
  LLM, or raised before it was asked.
- `foldl_joinTask`: `asyncio.gather` is over, and the outcomes are read in the order of the tasks;
  each adds its result to the context.

Nothing here knows of the other levels; `ReasonRuns` puts levels together.
-/

namespace Noema.Core

open Noema.Lib PyJson Noema.Budget

variable {F B : Type}

/-! ## Entries of the log -/

/-- The step that an entry is about. -/
def Entry.name : Entry B → StepName
  | .started n | .began n _ _ | .called n _ _ | .ended n _ => n

/-- The entries about a step. -/
def about (n : StepName) (log : List (Entry B)) : List (Entry B) :=
  log.filter fun e => e.name = n

@[simp] theorem about_append (n : StepName) (log log' : List (Entry B)) :
    about n (log ++ log') = about n log ++ about n log' :=
  List.filter_append ..

theorem about_eq_nil {n : StepName} {log : List (Entry B)} (h : ∀ e ∈ log, e.name ≠ n) :
    about n log = [] := by
  simpa [about, List.filter_eq_nil_iff] using h

theorem about_eq_self {n : StepName} {log : List (Entry B)} (h : ∀ e ∈ log, e.name = n) :
    about n log = log := by
  simpa [about, List.filter_eq_self] using h

theorem about_cons_self {n : StepName} {e : Entry B} {log : List (Entry B)} (h : e.name = n) :
    about n (e :: log) = e :: about n log := by
  simp [about, h]

theorem about_cons_ne {n : StepName} {e : Entry B} {log : List (Entry B)} (h : e.name ≠ n) :
    about n (e :: log) = about n log := by
  simp [about, h]

/-! ## State updates -/

section Update

variable (s : State F B) (n m : StepName) (f : CoTStep → CoTStep) (e : Entry B)

@[simp] theorem setStep_context : (s.setStep n f).context = s.context := rfl

@[simp] theorem setStep_log : (s.setStep n f).log = s.log := rfl

@[simp] theorem setStep_budget : (s.setStep n f).budget = s.budget := rfl

@[simp] theorem setStep_self : (s.setStep n f).steps n = f (s.steps n) := Function.update_self ..

@[simp] theorem note_steps : (s.note e).steps = s.steps := rfl

@[simp] theorem note_context : (s.note e).context = s.context := rfl

@[simp] theorem note_budget : (s.note e).budget = s.budget := rfl

@[simp] theorem note_log : (s.note e).log = s.log ++ [e] := rfl

end Update

/-! ## Prompts -/

variable [PyInterp F]

omit [PyInterp F] in
theorem append_ne_empty (s : String) {t : String} (h : t ≠ "") : s ++ t ≠ "" := by
  simp [h]

omit [PyInterp F] in
theorem intercalate_ne_empty {s : String} (h : s ≠ "") (sep t : String) (rest : List String) :
    sep.intercalate ((s ++ t) :: rest) ≠ "" := by
  rw [String.intercalate_cons_append]
  simp [h]

/-- Every prompt has a text of its own in it. -/
theorem resolvePrompt_ne_empty (ctx : Context F) (name : StepName) :
    resolvePrompt ctx name ≠ "" := by
  cases name with
  | analysis => exact intercalate_ne_empty (by decide) _ _ _
  | architecture => exact intercalate_ne_empty (by decide) _ _ _
  | stack =>
    unfold resolvePrompt stackPrompt
    exact append_ne_empty _ (by decide)
  | components =>
    unfold resolvePrompt componentPrompt
    exact append_ne_empty _ (by decide)
  | dataModel =>
    unfold resolvePrompt dataModelPrompt
    exact append_ne_empty _ (by decide)
  | apiDesign =>
    unfold resolvePrompt apiPrompt
    exact append_ne_empty _ (by decide)
  | codegen =>
    unfold resolvePrompt codegenPrompt
    exact append_ne_empty _ (by decide)
  | testing =>
    unfold resolvePrompt testingPrompt checkPrompt
    exact append_ne_empty _ (by decide)
  | security =>
    unfold resolvePrompt securityPrompt checkPrompt
    exact append_ne_empty _ (by decide)
  | optimization =>
    unfold resolvePrompt optimizationPrompt
    exact append_ne_empty _ (by decide)
  | deployment =>
    unfold resolvePrompt deploymentPrompt
    exact append_ne_empty _ (by decide)
  | repair =>
    unfold resolvePrompt repairPrompt
    exact append_ne_empty _ (by decide)
  | review =>
    unfold resolvePrompt reviewPrompt
    exact append_ne_empty _ (by decide)

/-! ## The parts of a task -/

section Parts

variable [PyFraction B]

/-- The budget is never a reason to skip a step, and only a budget is a reason to raise. -/
theorem consult_cases (router : Option (Except PyExc Unit)) (cost : Int) (n : StepName)
    (b : Option (TokenBudget B)) :
    (consult router cost n b).1.isSome = b.isSome ∧
      ((∃ p, (consult router cost n b).2 = .ok (some p)) ∨
        ∃ e, (consult router cost n b).2 = .error e ∧ b.isSome = true) := by
  rcases b with _ | b
  · exact ⟨rfl, .inl ⟨.main, rfl⟩⟩
  rw [consult]
  rcases hcheck : b.check cost n.text with e | ⟨action, b'⟩
  · exact ⟨rfl, .inr ⟨e, rfl, rfl⟩⟩
  have hskip := TokenBudget.check_ne_skip hcheck
  -- apart from `skip`, the action of the check is not looked at
  cases action with
  -- the budget never answers that
  | skip => exact absurd rfl hskip
  | _ =>
    rcases router with _ | select
    · exact ⟨rfl, .inl ⟨.main, rfl⟩⟩
    · dsimp only
      rcases b'.shouldDegrade with e | ⟨_ | _, b''⟩
      · exact ⟨rfl, .inr ⟨e, rfl, rfl⟩⟩
      · exact ⟨rfl, .inl ⟨.main, rfl⟩⟩
      · rcases select with e | _
        · exact ⟨rfl, .inr ⟨e, rfl, rfl⟩⟩
        · exact ⟨rfl, .inl ⟨.degraded, rfl⟩⟩

/-- What the first part of a task does: it raises, or calls the LLM. -/
structure Began (n : StepName) (s s' : State F B) (task : TaskState) : Prop where
  context : s'.context = s.context
  budget : s'.budget.isSome = s.budget.isSome
  others : ∀ m ≠ n, s'.steps m = s.steps m
  status : (s'.steps n).status = (s.steps n).status
  log : (∃ e, task = .done (.error e) ∧ s.budget.isSome = true ∧
      s'.log = s.log ++ [.began n (estimatedCost s.context n) s.budget]) ∨
    ∃ p, task = .awaiting (messagesOf s.context n) ∧
      s'.log = s.log ++ [.began n (estimatedCost s.context n) s.budget,
        .called n (messagesOf s.context n) p]

theorem beginStep_began (x : Executor) (n : StepName) (s : State F B) :
    Began n s (beginStep x n s).1 (beginStep x n s).2 := by
  obtain ⟨hbudget, hresult⟩ := consult_cases x.router (estimatedCost s.context n) n s.budget
  rw [beginStep, if_neg (resolvePrompt_ne_empty s.context n)]
  simp only [setStep_context, note_context, setStep_budget, note_budget]
  rcases hconsult : consult x.router (estimatedCost s.context n) n s.budget with ⟨budget, result⟩
  rw [hconsult] at hbudget hresult
  dsimp only at hbudget hresult
  rcases hresult with ⟨p, rfl⟩ | ⟨e, rfl, hsome⟩
  · refine ⟨rfl, hbudget, fun m hm => ?_, ?_, .inr ⟨p, rfl, ?_⟩⟩
    · exact Function.update_of_ne hm _ _
    · simp [State.note, State.setStep]
    · simp [State.note, State.setStep]
  · refine ⟨rfl, hbudget, fun m hm => ?_, ?_, .inl ⟨e, rfl, hsome, ?_⟩⟩
    · exact Function.update_of_ne hm _ _
    · simp [State.note, State.setStep]
    · simp [State.note, State.setStep]

end Parts

/-! ## Views of tasks -/

/-- Where the task of a step is, with its step and the entries about it. A task can only raise
before the call because of the budget or the router, which need a budget. -/
inductive TaskView (x : Executor) (hasBudget : Bool) (ctx : Context F) (n : StepName) :
    TaskState → CoTStep → List (Entry B) → Prop
  | created {c : CoTStep} (hc : c.status = .running) :
      TaskView x hasBudget ctx n .created c [.started n]
  | awaiting {c : CoTStep} {b : Option (TokenBudget B)} {p : Provider} (hc : c.status = .running) :
      TaskView x hasBudget ctx n (.awaiting (messagesOf ctx n)) c
        [.started n, .began n (estimatedCost ctx n) b, .called n (messagesOf ctx n) p]
  | raised {c : CoTStep} {b : Option (TokenBudget B)} {e : PyExc} (hc : c.status = .running)
      (hbudget : hasBudget = true) :
      TaskView x hasBudget ctx n (.done (.error e)) c [.started n, .began n (estimatedCost ctx n) b]
  | answered {c : CoTStep} {b : Option (TokenBudget B)} {p : Provider} {r : LLMResponse}
      (hc : c.status = .running) (hanswer : x.llm (messagesOf ctx n) (.ok r))
      (hresult : c.result = r.content) :
      TaskView x hasBudget ctx n (.done (.ok ())) c
        [.started n, .began n (estimatedCost ctx n) b, .called n (messagesOf ctx n) p]
  | refused {c : CoTStep} {b : Option (TokenBudget B)} {p : Provider} {e : PyExc}
      (hc : c.status = .running) (hanswer : x.llm (messagesOf ctx n) (.error e)) :
      TaskView x hasBudget ctx n (.done (.error e)) c
        [.started n, .began n (estimatedCost ctx n) b, .called n (messagesOf ctx n) p]

/-- The invariant of a level that was opened in the state `s₀` with the steps `todo`. -/
structure LevelInv (x : Executor) (s₀ : State F B) (todo : List StepName) (ls : LevelState F B) :
    Prop where
  order : ls.created ++ ls.toCreate = todo
  context : ls.state.context = s₀.context
  budget : ls.state.budget.isSome = s₀.budget.isSome
  log : ∃ mid, ls.state.log = s₀.log ++ mid ∧ (∀ e ∈ mid, e.name ∈ ls.created) ∧
    ∀ n ∈ ls.created, TaskView x s₀.budget.isSome s₀.context n (ls.task n) (ls.state.steps n)
      (about n mid)
  absent : ∀ n, n ∉ ls.created → ls.task n = .absent ∧ ls.state.steps n = s₀.steps n

/-- A part of a task keeps the invariant if it changes only its own step, and gives the task its
next view. -/
theorem LevelInv.update {x : Executor} {s₀ : State F B} {todo : List StepName}
    {ls : LevelState F B} (h : LevelInv x s₀ todo ls) (ls' : LevelState F B) (n : StepName)
    (new : List (Entry B)) (hn : n ∈ ls'.created)
    (horder : ls'.created ++ ls'.toCreate = todo)
    (hcreated : ∀ m, m ∈ ls'.created ↔ m ∈ ls.created ∨ m = n)
    (hcontext : ls'.state.context = ls.state.context)
    (hbudget : ls'.state.budget.isSome = ls.state.budget.isSome)
    (hothers : ∀ m ≠ n, ls'.task m = ls.task m ∧ ls'.state.steps m = ls.state.steps m)
    (hlog : ls'.state.log = ls.state.log ++ new) (hnew : ∀ e ∈ new, e.name = n)
    (hview : ∀ mid, ls.state.log = s₀.log ++ mid → (∀ e ∈ mid, e.name ∈ ls.created) →
      (n ∈ ls.created → TaskView x s₀.budget.isSome s₀.context n (ls.task n) (ls.state.steps n)
        (about n mid)) →
      TaskView x s₀.budget.isSome s₀.context n (ls'.task n) (ls'.state.steps n)
        (about n mid ++ new)) : LevelInv x s₀ todo ls' := by
  obtain ⟨mid, hmid, hnames, hviews⟩ := h.log
  refine ⟨horder, hcontext.trans h.context, hbudget.trans h.budget, ⟨mid ++ new, ?_, ?_, ?_⟩, ?_⟩
  · rw [hlog, hmid, List.append_assoc]
  · intro e he
    rcases List.mem_append.mp he with he | he
    · exact (hcreated _).mpr (.inl (hnames e he))
    · rw [hnew e he]
      exact hn
  · intro m hm
    rw [about_append]
    -- the new entries are about `n`, so the other steps keep theirs
    by_cases hmn : m = n
    · subst hmn
      rw [about_eq_self hnew]
      exact hview mid hmid hnames (hviews m)
    · have hnone : about m new = [] := about_eq_nil fun e he => by
        rw [hnew e he]
        exact Ne.symm hmn
      rw [hnone, List.append_nil, (hothers m hmn).1, (hothers m hmn).2]
      exact hviews m (((hcreated m).mp hm).resolve_right hmn)
  · intro m hm
    have hmn : m ≠ n := fun h => hm (h ▸ hn)
    rw [(hothers m hmn).1, (hothers m hmn).2]
    exact h.absent m fun hmem => hm ((hcreated m).mpr (.inl hmem))

section Step

variable {x : Executor} {s₀ : State F B} {todo : List StepName} {ls : LevelState F B} {n : StepName}

theorem LevelInv.create {rest : List StepName} (htodo : todo.Nodup) (h : LevelInv x s₀ todo ls)
    (hcreate : ls.toCreate = n :: rest) : LevelInv x s₀ todo (ls.createTask n rest) := by
  have horder := h.order
  rw [hcreate] at horder
  have hfresh : n ∉ ls.created := by
    rw [← horder] at htodo
    exact fun hmem => (List.nodup_append.mp htodo).2.2 n hmem n List.mem_cons_self rfl
  refine h.update (ls.createTask n rest) n [.started n] (by simp [LevelState.createTask])
    (by simpa [LevelState.createTask] using horder) (fun m => by simp [LevelState.createTask])
    rfl rfl (fun m hm => ⟨Function.update_of_ne hm _ _, Function.update_of_ne hm _ _⟩) rfl
    (by simp [Entry.name]) ?_
  intro mid _ hnames _
  have hnone : about n mid = [] := about_eq_nil fun e he heq => hfresh (heq ▸ hnames e he)
  rw [hnone, List.nil_append]
  simp only [LevelState.createTask, Function.update_self, setStep_self]
  exact .created rfl

/-- A task that is somewhere was created. -/
theorem LevelInv.mem_created {t : TaskState} (h : LevelInv x s₀ todo ls) (ht : ls.task n = t)
    (hne : t ≠ .absent) : n ∈ ls.created := by
  by_contra hmem
  exact hne (ht ▸ (h.absent n hmem).1)

theorem LevelInv.begin [PyFraction B] (h : LevelInv x s₀ todo ls)
    (hcreated : ls.task n = .created) : LevelInv x s₀ todo (ls.beginTask x n) := by
  have hmem : n ∈ ls.created := h.mem_created hcreated nofun
  have hbegan : Began n ls.state (beginStep x n ls.state).1 (beginStep x n ls.state).2 :=
    beginStep_began x n ls.state
  have hothers : ∀ m ≠ n, (ls.beginTask x n).task m = ls.task m ∧
      (ls.beginTask x n).state.steps m = ls.state.steps m :=
    fun m hm => ⟨Function.update_of_ne hm _ _, hbegan.others m hm⟩
  have hcreatedIff : ∀ m, m ∈ (ls.beginTask x n).created ↔ m ∈ ls.created ∨ m = n :=
    fun m => ⟨.inl, fun hm => hm.elim id fun hm => hm ▸ hmem⟩
  have htask : (ls.beginTask x n).task n = (beginStep x n ls.state).2 := Function.update_self ..
  -- the budget check or the choice of the provider raised, or the call goes out
  rcases hbegan.log with ⟨e, hdone, hsome, hlog⟩ | ⟨p, hawait, hlog⟩
  · refine h.update (ls.beginTask x n) n _ hmem h.order hcreatedIff hbegan.context
      hbegan.budget hothers hlog (by simp [Entry.name]) ?_
    intro mid _ _ hview
    have hview := hview hmem
    rw [hcreated] at hview
    rw [htask, hdone, h.context]
    generalize about n mid = entries at hview ⊢
    cases hview with
    | created hc => exact .raised (hbegan.status.trans hc) (h.budget ▸ hsome)
  · refine h.update (ls.beginTask x n) n _ hmem h.order hcreatedIff hbegan.context
      hbegan.budget hothers hlog (by simp [Entry.name]) ?_
    intro mid _ _ hview
    have hview := hview hmem
    rw [hcreated] at hview
    rw [htask, hawait, h.context]
    generalize about n mid = entries at hview ⊢
    cases hview with
    | created hc => exact .awaiting (hbegan.status.trans hc)

theorem LevelInv.finish {messages : List LLMMessage} {answer : Except PyExc LLMResponse}
    (h : LevelInv x s₀ todo ls) (hawaiting : ls.task n = .awaiting messages)
    (hanswer : x.llm messages answer) : LevelInv x s₀ todo (ls.finishTask n answer) := by
  have hmem : n ∈ ls.created := h.mem_created hawaiting nofun
  -- The LLM has raised, or has answered; in both cases only this step changes.
  rcases answer with e | r
  · refine h.update (ls.finishTask n (.error e)) n [] hmem h.order
      (fun m => ⟨.inl, fun hm => hm.elim id fun hm => hm ▸ hmem⟩) rfl rfl
      (fun m hm => ⟨Function.update_of_ne hm _ _, rfl⟩) (List.append_nil _).symm (by simp) ?_
    intro mid _ _ hview
    have hview := hview hmem
    rw [hawaiting] at hview
    rw [List.append_nil]
    simp only [LevelState.finishTask, Function.update_self]
    generalize about n mid = entries at hview ⊢
    cases hview with
    | awaiting hc => exact .refused hc hanswer
  · refine h.update (ls.finishTask n (.ok r)) n [] hmem h.order
      (fun m => ⟨.inl, fun hm => hm.elim id fun hm => hm ▸ hmem⟩) rfl ?_
      (fun m hm => ⟨Function.update_of_ne hm _ _, Function.update_of_ne hm _ _⟩)
      (List.append_nil _).symm (by simp) ?_
    · simp [LevelState.finishTask, finishStep]
    · intro mid _ _ hview
      have hview := hview hmem
      rw [hawaiting] at hview
      rw [List.append_nil]
      simp only [LevelState.finishTask, finishStep, Function.update_self, setStep_self]
      generalize about n mid = entries at hview ⊢
      cases hview with
      | awaiting hc => exact .answered hc hanswer rfl

/-- Every part of a level keeps the invariant. -/
theorem LevelInv.step [PyFraction B] {ls' : LevelState F B} (htodo : todo.Nodup)
    (h : LevelInv x s₀ todo ls) (hstep : LevelStep x ls ls') : LevelInv x s₀ todo ls' := by
  cases hstep with
  | create hcreate => exact h.create htodo hcreate
  | begin hcreated => exact h.begin hcreated
  | finish hawaiting hanswer => exact h.finish hawaiting hanswer

/-- The invariant holds of every state of a level. -/
theorem LevelInv.run [PyFraction B] {level : List StepName} (hlevel : level.Nodup)
    (hrun : Relation.ReflTransGen (LevelStep x) (openLevel level s₀) ls) :
    LevelInv x s₀ (openLevel level s₀).toCreate ls := by
  induction hrun with
  | refl =>
    exact ⟨rfl, rfl, rfl, ⟨[], by simp [openLevel], by simp, by simp [openLevel]⟩,
      fun n _ => ⟨rfl, rfl⟩⟩
  | tail _ hstep ih => exact ih.step (hlevel.filter _) hstep

end Step

/-! ## The end of a level -/

/-- How a step has ended, with all entries about it. -/
inductive StepEnd (x : Executor) (hasBudget : Bool) (ctx : Context F) (n : StepName) :
    CoTStep → List (Entry B) → Prop
  | completed {c : CoTStep} {b : Option (TokenBudget B)} {p : Provider} {r : LLMResponse}
      (hc : c.status = .completed) (hanswer : x.llm (messagesOf ctx n) (.ok r))
      (hresult : c.result = r.content) :
      StepEnd x hasBudget ctx n c
        [.started n, .began n (estimatedCost ctx n) b, .called n (messagesOf ctx n) p,
          .ended n .completed]
  | refused {c : CoTStep} {b : Option (TokenBudget B)} {p : Provider} {e : PyExc}
      (hc : c.status = .failed) (hanswer : x.llm (messagesOf ctx n) (.error e))
      (hresult : c.result = "Error: " ++ e.msg) :
      StepEnd x hasBudget ctx n c
        [.started n, .began n (estimatedCost ctx n) b, .called n (messagesOf ctx n) p,
          .ended n .failed]
  | raised {c : CoTStep} {b : Option (TokenBudget B)} (hc : c.status = .failed)
      (hbudget : hasBudget = true) :
      StepEnd x hasBudget ctx n c [.started n, .began n (estimatedCost ctx n) b, .ended n .failed]

/-- The result of a step that has ended completed. -/
def finalResult (steps : StepName → CoTStep) (n : StepName) : Option String :=
  if (steps n).status = .completed then some (steps n).result else none

/-- What a step adds to the context. -/
def contribution (steps : StepName → CoTStep) (n : StepName) : Option (StepName × String) :=
  (finalResult steps n).map fun r => (n, r)

/-- What the steps `todo` of a level have done, from the state `s`. -/
structure LevelSpec (x : Executor) (todo : List StepName) (s s' : State F B) : Prop where
  request : s'.context.request = s.context.request
  budget : s'.budget.isSome = s.budget.isSome
  results : s'.context.results = s.context.results ++ todo.filterMap (contribution s'.steps)
  log : ∃ new, s'.log = s.log ++ new ∧ (∀ e ∈ new, e.name ∈ todo) ∧
    ∀ n ∈ todo, StepEnd x s.budget.isSome s.context n (s'.steps n) (about n new)
  others : ∀ n, n ∉ todo → s'.steps n = s.steps n

/-- What joining one task does. -/
structure Joined (x : Executor) (hasBudget : Bool) (ctx : Context F) (n : StepName)
    (entries : List (Entry B)) (s s' : State F B) : Prop where
  request : s'.context.request = s.context.request
  budget : s'.budget = s.budget
  results : s'.context.results = s.context.results ++ (contribution s'.steps n).toList
  others : ∀ m ≠ n, s'.steps m = s.steps m
  log : ∃ e, s'.log = s.log ++ [e] ∧ e.name = n ∧
    StepEnd x hasBudget ctx n (s'.steps n) (entries ++ [e])

theorem joinTask_joined {x : Executor} {hasBudget : Bool} {ctx : Context F} {n : StepName}
    {entries : List (Entry B)} {s : State F B} {task : StepName → TaskState}
    {r : Except PyExc Unit} (hdone : task n = .done r)
    (hview : TaskView x hasBudget ctx n (task n) (s.steps n) entries)
    (hfresh : n ∉ s.context.results.map Prod.fst) :
    Joined x hasBudget ctx n entries s (joinTask task s n) := by
  rw [hdone] at hview
  rw [joinTask, hdone]
  cases hview with
  | raised hc hbudget =>
    refine ⟨rfl, rfl, ?_, fun m hm => Function.update_of_ne hm _ _, _, rfl, rfl, ?_⟩
    · simp [contribution, finalResult]
    · exact .raised (by simp) hbudget
  | refused hc hanswer =>
    refine ⟨rfl, rfl, ?_, fun m hm => Function.update_of_ne hm _ _, _, rfl, rfl, ?_⟩
    · simp [contribution, finalResult]
    · exact .refused (by simp) hanswer (by simp)
  | answered hc hanswer hresult =>
    dsimp only
    rw [if_neg (by rw [hc]; nofun)]
    refine ⟨rfl, rfl, ?_, fun m hm => Function.update_of_ne hm _ _, _, rfl, rfl, ?_⟩
    · simp [contribution, finalResult, Context.set, hfresh, State.note]
    · exact .completed (by simp [State.note]) hanswer (by simpa [State.note] using hresult)

omit [PyInterp F] in
theorem contribution_congr {steps steps' : StepName → CoTStep} {n : StepName}
    (h : steps n = steps' n) : contribution steps n = contribution steps' n := by
  rw [contribution, finalResult, h, contribution, finalResult]

/-- What joining the tasks `todo` does, `entries` being what they have done before. -/
structure JoinedAll (x : Executor) (hasBudget : Bool) (ctx : Context F) (todo : List StepName)
    (entries : StepName → List (Entry B)) (s s' : State F B) : Prop where
  request : s'.context.request = s.context.request
  budget : s'.budget = s.budget
  results : s'.context.results = s.context.results ++ todo.filterMap (contribution s'.steps)
  others : ∀ m, m ∉ todo → s'.steps m = s.steps m
  log : ∃ ends, s'.log = s.log ++ ends ∧ (∀ e ∈ ends, e.name ∈ todo) ∧
    ∀ n ∈ todo, StepEnd x hasBudget ctx n (s'.steps n) (entries n ++ about n ends)

theorem foldl_joinTask {x : Executor} {hasBudget : Bool} {ctx : Context F}
    {entries : StepName → List (Entry B)} {task : StepName → TaskState} {todo : List StepName}
    {s : State F B} (htodo : todo.Nodup) (hdone : ∀ n ∈ todo, ∃ r, task n = .done r)
    (hviews : ∀ n ∈ todo, TaskView x hasBudget ctx n (task n) (s.steps n) (entries n))
    (hfresh : ∀ n ∈ todo, n ∉ s.context.results.map Prod.fst) :
    JoinedAll x hasBudget ctx todo entries s (todo.foldl (joinTask task) s) := by
  induction todo generalizing s with
  | nil => exact ⟨rfl, rfl, by simp, fun _ _ => rfl, [], by simp, by simp, by simp⟩
  | cons n todo ih =>
    obtain ⟨hn, htodo⟩ := List.nodup_cons.mp htodo
    obtain ⟨r, hr⟩ := hdone n List.mem_cons_self
    have hfirst : Joined x hasBudget ctx n (entries n) s (joinTask task s n) :=
      joinTask_joined hr (hviews n List.mem_cons_self) (hfresh n List.mem_cons_self)
    rw [List.foldl_cons]
    set s₁ := joinTask task s n
    have hne : ∀ m ∈ todo, m ≠ n := fun m hm h => hn (h ▸ hm)
    have hrest : JoinedAll x hasBudget ctx todo entries s₁ (todo.foldl (joinTask task) s₁) := by
      refine ih htodo (fun m hm => hdone m (List.mem_cons_of_mem _ hm)) (fun m hm => ?_)
        fun m hm => ?_
      · rw [hfirst.others m (hne m hm)]
        exact hviews m (List.mem_cons_of_mem _ hm)
      · -- only the name of the joined step is new among the results
        rw [hfirst.results, List.map_append, List.mem_append, not_or]
        refine ⟨hfresh m (List.mem_cons_of_mem _ hm), ?_⟩
        rw [contribution]
        rcases finalResult s₁.steps n with _ | r <;> simp [hne m hm]
    set s' := todo.foldl (joinTask task) s₁
    obtain ⟨e, hlog, hname, hend⟩ := hfirst.log
    obtain ⟨ends, hlogs, hnames, hends⟩ := hrest.log
    -- the later joins are of other steps
    have hsame : s'.steps n = s₁.steps n := hrest.others n hn
    refine ⟨hrest.request.trans hfirst.request, hrest.budget.trans hfirst.budget, ?_, ?_,
      e :: ends, ?_, ?_, ?_⟩
    · rw [hrest.results, hfirst.results, List.append_assoc, List.filterMap_cons,
        contribution_congr hsame]
      rcases contribution s₁.steps n with _ | _ <;> rfl
    · intro m hm
      obtain ⟨hmn, hm⟩ := not_or.mp (mt List.mem_cons.mpr hm)
      rw [hrest.others m hm, hfirst.others m hmn]
    · rw [hlogs, hlog, List.append_assoc]
      rfl
    · intro e' he'
      rcases List.mem_cons.mp he' with rfl | he'
      · rw [hname]
        exact List.mem_cons_self
      · exact List.mem_cons_of_mem _ (hnames e' he')
    · intro m hm
      rcases List.mem_cons.mp hm with rfl | hm
      · have hnone : about m ends = [] :=
          about_eq_nil fun e he heq => hn (heq ▸ hnames e he)
        rw [about_cons_self hname, hnone, hsame]
        exact hend
      · rw [about_cons_ne (hname ▸ (hne m hm).symm)]
        exact hends m hm

/-- What a level that is over has done: the steps for which tasks were created have ended, and
nothing else has changed. -/
theorem levelSpec [PyFraction B] {x : Executor} {level : List StepName} {s : State F B}
    {ls : LevelState F B} (hlevel : level.Nodup)
    (hrun : Relation.ReflTransGen (LevelStep x) (openLevel level s) ls) (hover : ls.IsOver)
    (hfresh : ∀ n ∈ (openLevel level s).toCreate, n ∉ s.context.results.map Prod.fst) :
    LevelSpec x (openLevel level s).toCreate s ls.join := by
  have hinv := LevelInv.run hlevel hrun
  have hcreated : ls.created = (openLevel level s).toCreate := by
    rw [← hinv.order, hover.1, List.append_nil]
  rw [← hcreated] at hfresh ⊢
  obtain ⟨mid, hmid, hnames, hviews⟩ := hinv.log
  have hnodup : ls.created.Nodup := hcreated ▸ hlevel.filter _
  -- The tasks are done; reading their outcomes is the last thing that is added to the log.
  have hjoin : JoinedAll x s.budget.isSome s.context ls.created (fun n => about n mid) ls.state
      ls.join := foldl_joinTask hnodup hover.2 hviews (hinv.context ▸ hfresh)
  obtain ⟨ends, hlog, hendNames, hends⟩ := hjoin.log
  refine ⟨hjoin.request.trans (by rw [hinv.context]), ?_, ?_, ⟨mid ++ ends, ?_, ?_, ?_⟩, ?_⟩
  · rw [hjoin.budget, hinv.budget]
  · rw [hjoin.results, hinv.context]
  · rw [hlog, hmid, List.append_assoc]
  · intro e he
    exact (List.mem_append.mp he).elim (hnames e) (hendNames e)
  · intro n hn
    rw [about_append]
    exact hends n hn
  · intro n hn
    rw [hjoin.others n hn]
    exact (hinv.absent n hn).2

end Noema.Core
