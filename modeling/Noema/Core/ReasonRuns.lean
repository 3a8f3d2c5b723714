import Noema.Core.Schedule

/-!
# Whole runs of `reason`

`RunInv` is the invariant of a run between two levels: the steps of the levels that were run have
ended, or were restored (`Settled`), and the others are as they were. A level takes it from one
state to the next by what `levelSpec` says of it, and the plan has every step in exactly one level.
From it:

- **`reason_contract`**: the execution contract of the DAG. When `reason` returns, every planned
  step has ended; the LLM was called at most once for a step, and not at all for a restored one; a
  step was started after the steps it depends on had ended; and the context has the results of the
  completed steps. This holds for every LLM, router and budget, and every interleaving.
- **`hardCap_iff`**: the token budget is a cap on the steps if and only if no step starts at or
  above it. The engine tests the answer of the budget for `SKIP`, and the budget answers `REJECT`;
  so no step is ever skipped (`not_skipped_of_mem`).
- `simpleRun_not_hardCap`: a run whose budget was used up before.

The names of the steps are not among the other keys of the context (`lookup_request_items`), so that
a lookup in the dict is a lookup among the results.
-/

namespace Noema.Core

open Noema.Lib PyJson Noema.Budget

variable {F B : Type}

/-! ## The context as a dict -/

theorem lookup_map_text {α : Type} (g : String → α) (results : List (StepName × String))
    (n : StepName) : (results.map fun (name, result) => (name.text, g result)).lookup n.text =
      (results.lookup n).map g := by
  induction results with
  | nil => rfl
  | cons kv results ih =>
    rw [List.map_cons, List.lookup_cons, List.lookup_cons, ih]
    by_cases h : n = kv.1
    · simp [h]
    · simp [beq_false_of_ne h, beq_false_of_ne fun heq => h (StepName.text_injective heq)]

/-- The keys of the context that are not names of steps. -/
def requestKeys : List String :=
  ["task", "tags", "requirements", "knowledge", "graph", "ontology", "_reflexion_errors"]

theorem mem_requestKeys {req : Request F} {p : String × PyVal F} (hp : p ∈ req.items) :
    p.1 ∈ requestKeys := by
  rw [Request.items] at hp
  split at hp
  · simp only [List.append_nil] at hp
    have := List.mem_map_of_mem (f := Prod.fst) hp
    simp only [List.map_cons, List.map_nil] at this
    exact List.mem_append_left ["_reflexion_errors"] this
  · exact List.mem_map_of_mem (f := Prod.fst) hp

/-- The names of the steps are not among the other keys of the context. -/
theorem lookup_request_items (req : Request F) (n : StepName) :
    req.items.lookup n.text = none := by
  rw [List.lookup_eq_none_iff]
  intro p hp
  have hkey := mem_requestKeys hp
  simp only [bne_iff_ne, ne_eq]
  rintro heq
  rw [← heq] at hkey
  revert hkey
  cases n <;> decide

theorem lookup_items (ctx : Context F) (n : StepName) :
    ctx.items.lookup n.text = (ctx.results.lookup n).map .str := by
  rw [Context.items, List.lookup_append, lookup_request_items, Option.none_or, lookup_map_text]

/-! ## Properties of runs -/

/-- A call of the LLM for the step. -/
def Entry.isCall (n : StepName) : Entry B → Bool
  | .called m _ _ => m = n
  | _ => false

/-- What holds when `reason` returns: every planned step has ended; the LLM was called at most
once for a step, and never for a restored one; a step was started only after the steps it
depends on had ended; and the context has a result exactly for the completed steps. -/
structure Contract (planned : List StepName) (restored : StepName → Option String)
    (s : State F B) : Prop where
  ended : ∀ n ∈ planned, (s.steps n).status ∈ [.completed, .failed, .skipped]
  calls : ∀ n, s.log.countP (Entry.isCall n) ≤ 1
  uncalled : ∀ n, (restored n).isSome = true → s.log.countP (Entry.isCall n) = 0
  order : ∀ pre n post, s.log = pre ++ .started n :: post → ∀ d ∈ filteredDeps planned n,
    (restored d).isSome = true ∨ ∃ st, .ended d st ∈ pre
  context : ∀ n, s.context.items.lookup n.text =
    if n ∈ planned ∧ (s.steps n).status = .completed then some (.str (s.steps n).result) else none

theorem countP_isCall (n : StepName) (log : List (Entry B)) :
    log.countP (Entry.isCall n) = (about n log).countP (Entry.isCall n) := by
  rw [about, List.countP_filter]
  refine List.countP_congr ?_
  intro e _
  cases e <;> simp +contextual [Entry.isCall, Entry.name]

/-- A step began although its projected fraction of the budget is at or above the hard cap. -/
def OverCap [PyFraction B] : Entry B → Prop
  | .began _ cost (some b) =>
    ∃ frac, b.projected cost = .ok frac ∧ PyFraction.ge frac b.hardCapAt = true
  | _ => False

/-- The budget is a hard cap: a step that began at or above it did not call the LLM, has ended
skipped and is not in the context. -/
def HardCap [PyFraction B] (s : State F B) : Prop :=
  ∀ e ∈ s.log, OverCap e → s.log.countP (Entry.isCall e.name) = 0 ∧
    (s.steps e.name).status = .skipped ∧ s.context.items.lookup e.name.text = none

/-! ## Between two levels -/

section Runs

variable [PyInterp F]

omit [PyInterp F] in
/-- The steps of a list that are not restored. -/
def unrestored (restored : StepName → Option String) (ns : List StepName) : List StepName :=
  ns.filter fun n => (restored n).isNone

omit [PyInterp F] in
theorem mem_unrestored {restored : StepName → Option String} {ns : List StepName} {n : StepName} :
    n ∈ unrestored restored ns ↔ n ∈ ns ∧ restored n = none := by
  simp [unrestored]

/-- The state between two levels, when the steps `ran` have been run or passed over. -/
structure RunInv (x : Executor) (hasBudget : Bool) (planned : List StepName)
    (restored : StepName → Option String) (ran : List StepName) (s : State F B) : Prop where
  budget : s.budget.isSome = hasBudget
  kept : ∀ n r, restored n = some r →
    (s.steps n).status = .completed ∧ (s.steps n).result = r ∧ about n s.log = []
  ended : ∀ n ∈ ran, restored n = none →
    ∃ ctx : Context F, StepEnd x hasBudget ctx n (s.steps n) (about n s.log)
  pending : ∀ n, n ∉ ran → restored n = none →
    (s.steps n).status = .pending ∧ about n s.log = []
  results : ∀ n, s.context.results.lookup n = finalResult s.steps n
  order : ∀ pre n post, s.log = pre ++ .started n :: post → ∀ d ∈ filteredDeps planned n,
    (restored d).isSome = true ∨ ∃ st, .ended d st ∈ pre

/-- A step that has ended says so in the log. -/
theorem StepEnd.exists_ended {x : Executor} {hasBudget : Bool} {ctx : Context F} {n : StepName}
    {c : CoTStep} {entries : List (Entry B)} (h : StepEnd x hasBudget ctx n c entries) :
    ∃ st, .ended n st ∈ entries := by
  cases h with
  | completed => exact ⟨.completed, by simp⟩
  | refused => exact ⟨.failed, by simp⟩
  | raised => exact ⟨.failed, by simp⟩

omit [PyInterp F] in
theorem mem_of_mem_about {n : StepName} {e : Entry B} {log : List (Entry B)}
    (h : e ∈ about n log) : e ∈ log :=
  (List.mem_filter.mp h).1

/-- A level keeps the invariant. -/
theorem RunInv.level {x : Executor} {hasBudget : Bool} {planned : List StepName}
    {restored : StepName → Option String} {ran level : List StepName} {s s' : State F B}
    (h : RunInv x hasBudget planned restored ran s)
    (hspec : LevelSpec x (unrestored restored level) s s') (hdisjoint : ∀ n ∈ level, n ∉ ran)
    (hdeps : ∀ n ∈ level, ∀ d ∈ filteredDeps planned n, d ∈ ran) :
    RunInv x hasBudget planned restored (ran ++ level) s' := by
  obtain ⟨new, hlog, hnames, hends⟩ := hspec.log
  have htodo : ∀ n, n ∈ unrestored restored level ↔ n ∈ level ∧ restored n = none :=
    fun n => mem_unrestored
  set todo := unrestored restored level
  have hother : ∀ n, n ∉ todo → about n new = [] := fun n hn =>
    about_eq_nil fun e he heq => hn (heq ▸ hnames e he)
  refine ⟨hspec.budget.trans h.budget, ?_, ?_, ?_, ?_, ?_⟩
  · intro n r hr
    have hn : n ∉ todo := fun hmem => by
      rw [((htodo n).mp hmem).2] at hr
      cases hr
    rw [hspec.others n hn, hlog, about_append, hother n hn, List.append_nil]
    exact h.kept n r hr
  · intro n hn hr
    by_cases hmem : n ∈ todo
    · have hnone := (h.pending n (hdisjoint n ((htodo n).mp hmem).1) hr).2
      rw [hlog, about_append, hnone, List.nil_append, ← h.budget]
      exact ⟨s.context, hends n hmem⟩
    · have hran : n ∈ ran := (List.mem_append.mp hn).resolve_right fun hlevel =>
        hmem ((htodo n).mpr ⟨hlevel, hr⟩)
      rw [hspec.others n hmem, hlog, about_append, hother n hmem, List.append_nil]
      exact h.ended n hran hr
  · intro n hn hr
    obtain ⟨hran, hlevel⟩ := not_or.mp (mt List.mem_append.mpr hn)
    have hmem : n ∉ todo := fun hmem => hlevel ((htodo n).mp hmem).1
    rw [hspec.others n hmem, hlog, about_append, hother n hmem, List.append_nil]
    exact h.pending n hran hr
  · intro n
    have hnew : (todo.filterMap (contribution s'.steps)).lookup n =
        if n ∈ todo then finalResult s'.steps n else none := lookup_filterMap _ todo n
    rw [hspec.results, List.lookup_append, h.results, hnew]
    by_cases hmem : n ∈ todo
    · obtain ⟨hlevel, hr⟩ := (htodo n).mp hmem
      have hpending := (h.pending n (hdisjoint n hlevel) hr).1
      simp [finalResult, hpending, hmem]
    · simp [finalResult, hspec.others n hmem, hmem]
  · intro pre n post hsplit d hd
    rw [hlog] at hsplit
    -- a step that was started in this level: its dependencies have ended in earlier ones
    have hstarted : .started n ∈ new → (∀ e ∈ s.log, e ∈ pre) →
        (restored d).isSome = true ∨ ∃ st, .ended d st ∈ pre := by
      intro hmem hpre
      rcases hr : restored d with _ | r
      · have hlevel : n ∈ level := ((htodo n).mp (hnames _ hmem)).1
        obtain ⟨ctx, hend⟩ := h.ended d (hdeps n hlevel d hd) hr
        obtain ⟨st, hst⟩ := hend.exists_ended
        exact .inr ⟨st, hpre _ (mem_of_mem_about hst)⟩
      · exact .inl rfl
    rcases List.append_eq_append_iff.mp hsplit with ⟨mid, hpre, hnew⟩ | ⟨mid, hold, hstart⟩
    · refine hstarted (by simp [hnew]) ?_
      intro e he
      rw [hpre]
      exact List.mem_append_left _ he
    · rcases mid with _ | ⟨e, mid⟩
      · rw [List.nil_append] at hstart
        refine hstarted (by simp [← hstart]) ?_
        intro e he
        rw [hold, List.append_nil] at he
        exact he
      · rw [List.cons_append] at hstart
        injection hstart with he _
        subst he
        exact h.order pre n mid hold d hd

theorem runInv_initial (x : Executor) (u : Unicode) (req : Request F)
    (resume : List (String × String)) (budget : Option (TokenBudget B)) :
    RunInv x budget.isSome (plannedSteps u req) (restoredResult u req resume) []
      (initialState u req resume budget) := by
  refine ⟨rfl, ?_, by simp, ?_, ?_, by simp [initialState]⟩
  · intro n r hr
    simp [initialState, hr, about]
  · intro n _ hr
    simp [initialState, hr, about]
  · intro n
    simp only [initialState]
    rw [lookup_filterMap]
    by_cases hn : n ∈ stepsOf (plannedSteps u req)
    · rw [if_pos hn, finalResult]
      rcases restoredResult u req resume n with _ | r <;> simp
    · have hr : restoredResult u req resume n = none := by rw [restoredResult, if_neg hn]
      simp [hn, finalResult, hr]

/-- The steps of a level that get a task are those that were not restored. -/
theorem RunInv.toCreate_eq {x : Executor} {hasBudget : Bool} {planned : List StepName}
    {restored : StepName → Option String} {ran level : List StepName} {s : State F B}
    (h : RunInv x hasBudget planned restored ran s) (hdisjoint : ∀ n ∈ level, n ∉ ran) :
    (openLevel level s).toCreate = unrestored restored level := by
  refine List.filter_congr ?_
  intro n hn
  rcases hr : restored n with _ | r
  · simp [(h.pending n (hdisjoint n hn) hr).1]
  · simp [(h.kept n r hr).1]

variable [PyFraction B]

/-- What a level of a run has done, and the invariant after it. -/
theorem RunInv.next {x : Executor} {hasBudget : Bool} {planned : List StepName}
    {restored : StepName → Option String} {ran level : List StepName} {s : State F B}
    {ls : LevelState F B} (h : RunInv x hasBudget planned restored ran s)
    (hdeps : ∀ n ∈ level, ∀ d ∈ filteredDeps planned n, d ∈ ran) (hnodup : (ran ++ level).Nodup)
    (hrun : Relation.ReflTransGen (LevelStep x) (openLevel level s) ls) (hover : ls.IsOver) :
    LevelSpec x (unrestored restored level) s ls.join ∧
      RunInv x hasBudget planned restored (ran ++ level) ls.join := by
  obtain ⟨-, hlevel, hne⟩ := List.nodup_append.mp hnodup
  have hdisjoint : ∀ n ∈ level, n ∉ ran := fun n hn hran => hne n hran n hn rfl
  have hspec : LevelSpec x (unrestored restored level) s ls.join := by
    rw [← h.toCreate_eq hdisjoint]
    refine levelSpec hlevel hrun hover ?_
    intro n hn
    rw [h.toCreate_eq hdisjoint] at hn
    obtain ⟨hmem, hr⟩ := mem_unrestored.mp hn
    refine not_mem_keys_of_lookup ?_
    rw [h.results n, finalResult, (h.pending n (hdisjoint n hmem) hr).1]
    rfl
  exact ⟨hspec, h.level hspec hdisjoint hdeps⟩

/-- A run keeps the invariant. -/
theorem RunInv.run {x : Executor} {hasBudget : Bool} {planned : List StepName}
    {restored : StepName → Option String} {ran : List StepName} {levels : List (List StepName)}
    {s s' : State F B} (h : RunInv x hasBudget planned restored ran s)
    (hlayered : Kahn.Layered (filteredDeps planned) ran levels)
    (hnodup : (ran ++ levels.flatten).Nodup) (hrun : RunLevels x levels s s') :
    RunInv x hasBudget planned restored (ran ++ levels.flatten) s' := by
  induction hrun generalizing ran with
  | nil => simpa using h
  | @cons level rest s s' ls hlevel hover hrest ih =>
    obtain ⟨hdeps, hlayered⟩ := hlayered
    rw [List.flatten_cons, ← List.append_assoc] at hnodup ⊢
    exact ih (h.next hdeps (List.nodup_append.mp hnodup).1 hlevel hover).2 hlayered hnodup

/-- A run of `reason` ends in a state in which every planned step was run or passed over. -/
theorem runInv_reason {x : Executor} {u : Unicode} {req : Request F}
    {resume : List (String × String)} {budget : Option (TokenBudget B)} {s : State F B}
    (h : Reasons x u req resume budget s) :
    RunInv x budget.isSome (plannedSteps u req) (restoredResult u req resume)
      (topologicalLevels (plannedSteps u req)).flatten s := by
  have hnodup : ([] ++ (topologicalLevels (plannedSteps u req)).flatten).Nodup :=
    (flatten_topologicalLevels _).nodup_iff.mpr (nodup_stepsOf _)
  exact (runInv_initial x u req resume budget).run (Kahn.layered_levels _) hnodup h

/-! ## The execution contract -/

omit [PyFraction B] in
/-- A step that has ended was called for at most once. -/
theorem StepEnd.calls_le {x : Executor} {hasBudget : Bool} {ctx : Context F} {n : StepName}
    {c : CoTStep} {entries : List (Entry B)} (h : StepEnd x hasBudget ctx n c entries) :
    entries.countP (Entry.isCall n) ≤ 1 := by
  cases h <;> simp [Entry.isCall]

omit [PyFraction B] in
theorem StepEnd.status_mem {x : Executor} {hasBudget : Bool} {ctx : Context F} {n : StepName}
    {c : CoTStep} {entries : List (Entry B)} (h : StepEnd x hasBudget ctx n c entries) :
    c.status = .completed ∨ c.status = .failed := by
  cases h with
  | completed hc => exact .inl hc
  | refused hc => exact .inr hc
  | raised hc => exact .inr hc

/-- **The execution contract.** Whatever the LLM answers, in whatever order the tasks of a level go
on, and with or without a budget, a run of `reason` that returns keeps its `Contract`: every planned
step ends with a status, the LLM is asked at most once for each step, a step that was restored from
a checkpoint is not asked again and keeps its result, a step begins only after its planned
dependencies have ended or were restored, and the context has the result of a step exactly when the
step was completed. -/
theorem reason_contract (x : Executor) (u : Unicode) (req : Request F)
    (resume : List (String × String)) (budget : Option (TokenBudget B)) (s : State F B)
    (h : Reasons x u req resume budget s) :
    Contract (plannedSteps u req) (restoredResult u req resume) s := by
  have hinv := runInv_reason h
  have hran : ∀ n, n ∈ (topologicalLevels (plannedSteps u req)).flatten ↔ n ∈ plannedSteps u req :=
    fun n => (flatten_topologicalLevels _).mem_iff.trans mem_stepsOf
  have hunplanned : ∀ n, n ∉ plannedSteps u req → restoredResult u req resume n = none :=
    fun n hn => if_neg (mt mem_stepsOf.mp hn)
  have huncalled : ∀ n, about n s.log = [] → s.log.countP (Entry.isCall n) = 0 := by
    intro n hn
    rw [countP_isCall, hn]
    rfl
  refine ⟨?_, ?_, ?_, hinv.order, ?_⟩
  · intro n hn
    -- a step whose result was restored is completed without a call
    rcases hr : restoredResult u req resume n with _ | r
    · obtain ⟨ctx, hend⟩ := hinv.ended n ((hran n).mpr hn) hr
      rcases hend.status_mem with hc | hc <;> simp [hc]
    · simp [(hinv.kept n r hr).1]
  · intro n
    rcases hr : restoredResult u req resume n with _ | r
    · by_cases hn : n ∈ plannedSteps u req
      · obtain ⟨ctx, hend⟩ := hinv.ended n ((hran n).mpr hn) hr
        rw [countP_isCall]
        exact hend.calls_le
      -- a step that is not planned has no entries at all
      · have hnone := (hinv.pending n (mt (hran n).mp hn) hr).2
        exact (huncalled n hnone).le.trans (Nat.zero_le 1)
    · exact (huncalled n (hinv.kept n r hr).2.2).le.trans (Nat.zero_le 1)
  · intro n hn
    obtain ⟨r, hr⟩ := Option.isSome_iff_exists.mp hn
    exact huncalled n (hinv.kept n r hr).2.2
  · intro n
    -- the context has the results of the completed steps and no others
    rw [lookup_items, hinv.results, finalResult]
    by_cases hn : n ∈ plannedSteps u req
    · by_cases hc : (s.steps n).status = .completed <;> simp [hn, hc]
    · have hpending := (hinv.pending n (mt (hran n).mp hn) (hunplanned n hn)).1
      simp [hn, hpending]

/-! ## The token budget -/

/-- A step with an entry in the log has ended, and steps never end skipped. -/
theorem not_skipped_of_mem {x : Executor} {u : Unicode} {req : Request F}
    {resume : List (String × String)} {budget : Option (TokenBudget B)} {s : State F B}
    (h : Reasons x u req resume budget s) {e : Entry B} (he : e ∈ s.log) :
    (s.steps e.name).status ≠ .skipped := by
  have hinv := runInv_reason h
  have hmem : e ∈ about e.name s.log := List.mem_filter.mpr ⟨he, by simp⟩
  rcases hr : restoredResult u req resume e.name with _ | r
  · by_cases hn : e.name ∈ (topologicalLevels (plannedSteps u req)).flatten
    · obtain ⟨ctx, hend⟩ := hinv.ended _ hn hr
      rcases hend.status_mem with hc | hc <;> rw [hc] <;> nofun
    · rw [(hinv.pending _ hn hr).2] at hmem
      cases hmem
  · rw [(hinv.kept _ r hr).2.2] at hmem
    cases hmem

/-- **The hard cap.** The budget is a hard cap of a run if and only if no step of the run began
at or above it. -/
theorem hardCap_iff (x : Executor) (u : Unicode) (req : Request F)
    (resume : List (String × String)) (budget : TokenBudget B) (s : State F B)
    (h : Reasons x u req resume (some budget) s) : HardCap s ↔ ∀ e ∈ s.log, ¬ OverCap e := by
  constructor
  · intro hcap e he hover
    exact not_skipped_of_mem h he (hcap e he hover).2.1
  · intro hnone e he hover
    exact absurd hover (hnone e he)

end Runs

/-- An LLM that answers every call with `{}`, without a router. -/
def shortAnswers : Executor where
  router := none
  llm _ answer := answer = .ok ⟨"{}", 2, "stop"⟩

/-- A request for which the minimal steps are planned. -/
def simpleRequest : Request FloatText where
  taskDescription := "Sort a list"
  taskTags := []
  requirements := []
  complexity := "simple"

/-- The run of the request, with the tasks of a level in turn. -/
def simpleRun (budget : Option (TokenBudget ℚ)) : State FloatText ℚ :=
  reasonInTurn shortAnswers (fun _ => .ok ⟨"{}", 2, "stop"⟩) .ascii simpleRequest [] budget

theorem reasons_simpleRun (budget : Option (TokenBudget ℚ)) :
    Reasons shortAnswers .ascii simpleRequest [] budget (simpleRun budget) :=
  reasons_reasonInTurn (fun _ => rfl) _ _ _ _

theorem simpleRun_contract :
    Contract (plannedSteps .ascii simpleRequest) (restoredResult .ascii simpleRequest [])
      (simpleRun none) :=
  reason_contract _ _ _ _ _ _ (reasons_simpleRun none)

/-- A budget that an earlier task has used up. -/
def usedBudget : TokenBudget ℚ where
  maxTokens := 1000
  warnAt := 7 / 10
  hardCapAt := 95 / 100
  used := 1000

theorem topologicalLevels_simple :
    topologicalLevels (plannedSteps .ascii simpleRequest) =
      [[.analysis], [.architecture], [.stack], [.codegen], [.review]] := by
  decide +kernel

/-- The analysis begins when the budget is used up. -/
theorem began_mem_simpleRun :
    .began .analysis (estimatedCost ⟨simpleRequest, []⟩ .analysis) (some usedBudget) ∈
      (simpleRun (some usedBudget)).log := by
  rw [simpleRun, reasonInTurn, topologicalLevels_simple, List.foldl_cons]
  exact (log_runLevels _ _).subset (began_mem_runLevel rfl)

theorem overCap_usedBudget {n : StepName} {cost : Int} (hcost : 0 ≤ cost) :
    OverCap (.began n cost (some usedBudget)) := by
  refine ⟨_, rfl, ?_⟩
  have hle : (95 / 100 : ℚ) ≤ ((1000 + cost : Int) : ℚ) / ((max 1000 1 : Int) : ℚ) := by
    rw [le_div_iff₀ (by norm_num)]
    push_cast
    norm_num
    have : (0 : ℚ) ≤ cost := by exact_mod_cast hcost
    linarith
  exact decide_eq_true hle

theorem estimatedCost_nonneg (ctx : Context F) [PyInterp F] (n : StepName) :
    0 ≤ estimatedCost ctx n := by
  rw [estimatedCost]
  omega

/-- The analysis of the run calls the LLM although the budget is used up. -/
theorem simpleRun_not_hardCap : ¬ HardCap (simpleRun (some usedBudget)) := by
  intro hcap
  have hcost := estimatedCost_nonneg ⟨simpleRequest, []⟩ .analysis
  exact not_skipped_of_mem (reasons_simpleRun _) began_mem_simpleRun
    (hcap _ began_mem_simpleRun (overCap_usedBudget hcost)).2.1

theorem simpleRun_hardCap :
    HardCap (simpleRun (some usedBudget)) ↔ ∀ e ∈ (simpleRun (some usedBudget)).log, ¬ OverCap e :=
  hardCap_iff _ _ _ _ _ _ (reasons_simpleRun (some usedBudget))

end Noema.Core
