import Noema.Core.ReasonRuns

/-!
# Resuming a run

With an LLM that is a function of its messages, without a budget and a router, a run is determined:
`DetRun` says what every step is asked and how it ends, from the context in which its level begins,
whatever the order in which the tasks of the level were run. Two runs are then compared step by
step.

The prompts of all steps but the review look up the results of their dependencies; the review shows
the whole context, in its order. A resumed run has the restored steps first, in the order of
`ALL_STEPS`, and then the others (`resumedOrder`), while an uninterrupted run has them level by
level (`levelOrder`).

- `topologicalLevels_review`: the review is planned, and is a level of its own after all others, for
  every plan.
- `lookup_levelContext`: in the context of its level, a step finds the results of the steps it
  depends on, restored or run.
- `alikeIn_of_ne_review`: so the two runs are alike in every step but the review, by induction on
  the levels.
- **`resume_iff`**: a resumed run is like the uninterrupted one if and only if the review was
  restored, or its prompt is the same in the two orders of the context.
- `resumedRun_not_alike`: a run that was stopped after its deployment and before its code, which are
  in one level.
-/

namespace Noema.Core

open Noema.Lib PyJson Noema.Budget

variable {F B : Type}

/-! ## Determined runs -/

/-- An LLM that is a function of its messages, without a router. -/
def functional (f : List LLMMessage → Except PyExc LLMResponse) : Executor where
  router := none
  llm messages answer := answer = f messages

/-- The messages of the calls in a list of entries. -/
def messagesIn (entries : List (Entry B)) : List (List LLMMessage) :=
  entries.filterMap fun
    | .called _ messages _ => some messages
    | _ => none

/-- What was asked of the LLM for a step. -/
def sentFor (n : StepName) (log : List (Entry B)) : List (List LLMMessage) :=
  messagesIn (about n log)

/-- How a step ends with an answer: its status and its result. -/
def outcome : Except PyExc LLMResponse → StepStatus × String
  | .ok r => (.completed, r.content)
  | .error e => (.failed, "Error: " ++ e.msg)

/-- The step has ended with the answer to its messages in a context. -/
structure Answered [PyInterp F] (f : List LLMMessage → Except PyExc LLMResponse) (ctx : Context F)
    (n : StepName) (s : State F B) : Prop where
  outcome : ((s.steps n).status, (s.steps n).result) = outcome (f (messagesOf ctx n))
  sent : sentFor n s.log = [messagesOf ctx n]

/-- The context of a level, when the steps `before` have been run. -/
def levelContext (s s' : State F B) (before : List StepName) : Context F :=
  ⟨s.context.request, s.context.results ++ before.filterMap (contribution s'.steps)⟩

/-! ## The review is last -/

/-- The plan of a task that is not simple, by the optional steps that are in it. -/
def fullPlan (repair data api testing security optimization : Bool) : List StepName :=
  let opt (b : Bool) (n : StepName) : List StepName := if b then [n] else []
  let steps : List StepName := [.analysis, .architecture, .stack, .components] ++
    opt data .dataModel ++ opt api .apiDesign ++ [.codegen] ++ opt testing .testing ++
    opt security .security ++ opt optimization .optimization ++ [.deployment, .review]
  if repair then steps.insertIdx 1 .repair else steps

theorem plan_cases (u : Unicode) (tags : List String) (complexity errors : String)
    (past : List String) : plan u tags complexity errors past = minimalSteps ∨
      ∃ r d a t s o, plan u tags complexity errors past = fullPlan r d a t s o := by
  let tagged (ts : List String) : Bool :=
    ts.any fun t => t ∈ tags.map fun t => String.ofList (u.lower t.toList)
  rw [plan]
  dsimp only
  split
  · exact .inl rfl
  · refine .inr ⟨decide (errors ≠ "" ∧ past ≠ []), tagged ["data", "database"],
      tagged ["api", "web", "rest"], tagged ["test", "qa"], tagged ["security", "auth"],
      tagged ["performance", "high-load"], ?_⟩
    simp [fullPlan, tagged]

/-- The review is planned, and is a level of its own after all others. -/
theorem topologicalLevels_review (u : Unicode) (req : Request F) :
    ∃ init, topologicalLevels (plannedSteps u req) = init ++ [[.review]] := by
  have hminimal : (topologicalLevels minimalSteps).getLast? = some [.review] := by decide +kernel
  have hfull : ∀ r d a t s o,
      (topologicalLevels (fullPlan r d a t s o)).getLast? = some [.review] := by
    intro r d a
    cases r <;> cases d <;> cases a <;> decide +kernel
  refine List.getLast?_eq_some_iff.mp ?_
  rw [plannedSteps]
  rcases plan_cases u req.taskTags req.complexity _ req.reflexionErrors with
    hplan | ⟨r, d, a, t, s, o, hplan⟩
  · rw [hplan, hminimal]
  · rw [hplan, hfull]


/-! ## The resumed run -/

/-- `resume_context` with the results that the steps `S` had in a run; failed steps had none. -/
def resumeContext (S : List StepName) (s : State F B) : List (String × String) :=
  (S.filterMap (contribution s.steps)).map fun (n, r) => (n.text, r)

/-- The step is restored from the run. -/
def Restored (S : List StepName) (s : State F B) (n : StepName) : Prop :=
  n ∈ S ∧ (s.steps n).status = .completed

/-- The resumed run `s'` is like the uninterrupted run `s`: the remaining steps are sent the same
messages, all steps end in the same way, and the context has the same results. -/
structure Alike (S : List StepName) (s s' : State F B) : Prop where
  sent : ∀ n : StepName, ¬ Restored S s n → sentFor n s'.log = sentFor n s.log
  status : ∀ n : StepName, (s'.steps n).status = (s.steps n).status
  result : ∀ n : StepName, (s'.steps n).result = (s.steps n).result
  context : ∀ n : StepName, s'.context.items.lookup n.text = s.context.items.lookup n.text

/-- The order in which the steps before the review get into the context of a run. -/
def levelOrder (planned : List StepName) : List StepName :=
  (topologicalLevels planned).flatten.filter fun n => n ≠ .review

/-- The order in a resumed run: the restored steps in the order of `ALL_STEPS`, then the others. -/
def resumedOrder (planned S : List StepName) : List StepName :=
  (stepsOf planned).filter (fun n => n ∈ S) ++ (levelOrder planned).filter fun n => n ∉ S

/-- The context with the results of a run, in a given order. -/
def contextIn (req : Request F) (s : State F B) (order : List StepName) : Context F :=
  ⟨req, order.filterMap (contribution s.steps)⟩

theorem lookup_resumeContext (S : List StepName) (s : State F B) (n : StepName) :
    (resumeContext S s).lookup n.text = if n ∈ S then finalResult s.steps n else none := by
  have hlookup : (S.filterMap (contribution s.steps)).lookup n =
      if n ∈ S then finalResult s.steps n else none := lookup_filterMap _ _ _
  rw [resumeContext, lookup_map_text (fun r => r), hlookup, Option.map_id']

/-! ## Levels -/

theorem restoredResult_nil (u : Unicode) (req : Request F) (n : StepName) :
    restoredResult u req [] n = none := by
  rw [restoredResult]
  exact ite_self none

variable [PyInterp F]

/-- What the levels of a determined run have done: a step that was not restored was asked its
messages in the context of its level. -/
structure DetRun (f : List LLMMessage → Except PyExc LLMResponse)
    (restored : StepName → Option String) (levels : List (List StepName)) (s s' : State F B) :
    Prop where
  request : s'.context.request = s.context.request
  others : ∀ n, n ∉ unrestored restored levels.flatten →
    s'.steps n = s.steps n ∧ about n s'.log = about n s.log
  answered : ∀ pre level post, levels = pre ++ level :: post → ∀ n ∈ unrestored restored level,
    Answered f (levelContext s s' (unrestored restored pre.flatten)) n s'

theorem StepEnd.of_functional {f : List LLMMessage → Except PyExc LLMResponse} {ctx : Context F}
    {n : StepName} {c : CoTStep} {entries : List (Entry B)}
    (h : StepEnd (functional f) false ctx n c entries) :
    (c.status, c.result) = outcome (f (messagesOf ctx n)) ∧
      messagesIn entries = [messagesOf ctx n] := by
  cases h with
  | completed hc hanswer hresult =>
    have hanswer : .ok _ = f (messagesOf ctx n) := hanswer
    rw [← hanswer, hc, hresult]
    exact ⟨rfl, rfl⟩
  | refused hc hanswer hresult =>
    have hanswer : .error _ = f (messagesOf ctx n) := hanswer
    rw [← hanswer, hc, hresult]
    exact ⟨rfl, rfl⟩
  | raised hc hbudget => cases hbudget

omit [PyInterp F] in
theorem unrestored_append (restored : StepName → Option String) (ns ms : List StepName) :
    unrestored restored (ns ++ ms) = unrestored restored ns ++ unrestored restored ms :=
  List.filter_append ..

variable [PyFraction B]

theorem RunInv.detRun {f : List LLMMessage → Except PyExc LLMResponse} {planned : List StepName}
    {restored : StepName → Option String} {ran : List StepName} {levels : List (List StepName)}
    {s s' : State F B} (h : RunInv (functional f) false planned restored ran s)
    (hlayered : Kahn.Layered (filteredDeps planned) ran levels)
    (hnodup : (ran ++ levels.flatten).Nodup) (hrun : RunLevels (functional f) levels s s') :
    DetRun f restored levels s s' := by
  induction hrun generalizing ran with
  | nil s =>
    refine ⟨rfl, fun _ _ => ⟨rfl, rfl⟩, ?_⟩
    intro pre level post hsplit
    simp at hsplit
  | @cons level rest s s' ls hlevel hover hrest ih =>
    obtain ⟨hdeps, hlayered⟩ := hlayered
    rw [List.flatten_cons, ← List.append_assoc] at hnodup
    obtain ⟨hspec, hnext⟩ := h.next hdeps (List.nodup_append.mp hnodup).1 hlevel hover
    have hdet := ih hnext hlayered hnodup
    set s₁ := ls.join
    obtain ⟨new, hlog, hnames, hends⟩ := hspec.log
    have hbudget : s.budget.isSome = false := h.budget
    -- the steps of the level are not changed later
    have hfinal : ∀ n ∈ level, s'.steps n = s₁.steps n ∧ about n s'.log = about n s₁.log := by
      intro n hn
      refine hdet.others n ?_
      intro hlater
      exact (List.nodup_append.mp hnodup).2.2 n (List.mem_append_right _ hn) n
        (mem_unrestored.mp hlater).1 rfl
    have hresults : s₁.context.results = s.context.results ++
        (unrestored restored level).filterMap (contribution s'.steps) := by
      rw [hspec.results]
      congr 1
      refine List.filterMap_congr ?_
      intro n hn
      exact (contribution_congr (hfinal n (mem_unrestored.mp hn).1).1).symm
    refine ⟨hdet.request.trans hspec.request, ?_, ?_⟩
    · intro n hn
      rw [List.flatten_cons, unrestored_append, List.mem_append, not_or] at hn
      have hnone : about n new = [] := about_eq_nil fun e he heq => hn.1 (heq ▸ hnames e he)
      obtain ⟨hsteps, habout⟩ := hdet.others n hn.2
      rw [hsteps, habout, hspec.others n hn.1, hlog, about_append, hnone, List.append_nil]
      exact ⟨rfl, rfl⟩
    · intro pre level' post hsplit n hn
      rcases pre with _ | ⟨first, pre⟩
      · rw [List.nil_append] at hsplit
        injection hsplit with hlevel' _
        subst hlevel'
        obtain ⟨hmem, hr⟩ := mem_unrestored.mp hn
        have hran : n ∉ ran := fun hran =>
          (List.nodup_append.mp (List.nodup_append.mp hnodup).1).2.2 n hran n hmem rfl
        have hend := hends n hn
        rw [hbudget] at hend
        obtain ⟨houtcome, hsent⟩ := hend.of_functional
        have hctx : levelContext s s' (unrestored restored [].flatten) = s.context := by
          simp [levelContext, unrestored]
        rw [hctx]
        constructor
        · rw [(hfinal n hmem).1]
          exact houtcome
        · rw [sentFor, (hfinal n hmem).2, hlog, about_append, (h.pending n hran hr).2,
            List.nil_append]
          exact hsent
      · rw [List.cons_append] at hsplit
        injection hsplit with hfirst hrest'
        subst hfirst
        have hctx : levelContext s s' (unrestored restored (level :: pre).flatten) =
            levelContext s₁ s' (unrestored restored pre.flatten) := by
          rw [levelContext, levelContext, hspec.request, hresults, List.flatten_cons,
            unrestored_append, List.filterMap_append, List.append_assoc]
        rw [hctx]
        exact hdet.answered pre level' post hrest' n hn

/-! ## A run of `reason` -/

/-- Where a planned step is in the levels. -/
theorem exists_level {planned : List StepName} {n : StepName} (h : n ∈ planned) :
    ∃ pre level post, topologicalLevels planned = pre ++ level :: post ∧ n ∈ level := by
  have hmem := (flatten_topologicalLevels planned).mem_iff.mpr (mem_stepsOf.mpr h)
  obtain ⟨level, hlevel, hn⟩ := List.mem_flatten.mp hmem
  obtain ⟨pre, post, hsplit⟩ := List.append_of_mem hlevel
  exact ⟨pre, level, post, hsplit, hn⟩

section Runs

variable {f : List LLMMessage → Except PyExc LLMResponse} {u : Unicode} {req : Request F}
  {resume : List (String × String)} {s : State F B}

theorem detRun_reason (h : Reasons (functional f) u req resume none s) :
    DetRun f (restoredResult u req resume) (topologicalLevels (plannedSteps u req))
      (initialState u req resume none) s := by
  have hnodup : ([] ++ (topologicalLevels (plannedSteps u req)).flatten).Nodup :=
    (flatten_topologicalLevels _).nodup_iff.mpr (nodup_stepsOf _)
  exact (runInv_initial _ u req resume none).detRun (Kahn.layered_levels _) hnodup h

/-- A step that is not planned stays as it was built. -/
theorem steps_of_not_planned (h : Reasons (functional f) u req resume none s) {n : StepName}
    (hn : n ∉ plannedSteps u req) : s.steps n = {} ∧ about n s.log = [] := by
  have hr : restoredResult u req resume n = none := if_neg (mt mem_stepsOf.mp hn)
  have hnot : n ∉ unrestored (restoredResult u req resume)
      (topologicalLevels (plannedSteps u req)).flatten := fun hmem =>
    hn (mem_stepsOf.mp ((flatten_topologicalLevels _).mem_iff.mp (mem_unrestored.mp hmem).1))
  obtain ⟨hsteps, hlog⟩ := (detRun_reason h).others n hnot
  rw [hsteps, hlog]
  simp [initialState, hr, about]

/-- In the context of its level, a step finds the results of the steps it depends on. -/
theorem lookup_levelContext (h : Reasons (functional f) u req resume none s)
    {pre : List (List StepName)} {level : List StepName} {post : List (List StepName)}
    (hsplit : topologicalLevels (plannedSteps u req) = pre ++ level :: post) {n d : StepName}
    (hn : n ∈ level) (hd : d ∈ dependsOn n) :
    (levelContext (initialState u req resume none) s
      (unrestored (restoredResult u req resume) pre.flatten)).results.lookup d =
        finalResult s.steps d := by
  have hran : ∀ m, (List.filterMap (contribution s.steps)
      (unrestored (restoredResult u req resume) pre.flatten)).lookup m =
        if m ∈ unrestored (restoredResult u req resume) pre.flatten then finalResult s.steps m
        else none := lookup_filterMap _ _
  simp only [levelContext, initialState]
  rw [List.lookup_append, lookup_filterMap, hran]
  -- A dependency that is not planned has no result anywhere.
  by_cases hplanned : d ∈ plannedSteps u req
  · rw [if_pos (mem_stepsOf.mpr hplanned)]
    rcases hr : restoredResult u req resume d with _ | r
    · -- its dependencies were run in earlier levels
      have hlayered : Kahn.Layered (filteredDeps (plannedSteps u req)) [] (pre ++ level :: post) :=
        hsplit ▸ Kahn.layered_levels _
      have hmem : d ∈ pre.flatten :=
        hlayered.mem_earlier n hn d (mem_filteredDeps.mpr ⟨hd, hplanned⟩)
      rw [if_pos (mem_unrestored.mpr ⟨hmem, hr⟩), Option.none_or]
    · obtain ⟨hstatus, hresult, _⟩ := (runInv_reason h).kept d r hr
      simp [finalResult, hstatus, hresult]
  · have hnone : finalResult s.steps d = none := by
      rw [finalResult, (steps_of_not_planned h hplanned).1]
      rfl
    rw [if_neg (mt mem_stepsOf.mp hplanned), hnone]
    simp

/-- A planned step that was not restored has ended with the answer to its messages, in a context
in which it finds the results of the steps it depends on. -/
theorem answered_reason (h : Reasons (functional f) u req resume none s) {n : StepName}
    (hn : n ∈ plannedSteps u req) (hr : restoredResult u req resume n = none) :
    ∃ ctx : Context F, ctx.request = req ∧
      (∀ d ∈ dependsOn n, ctx.results.lookup d = finalResult s.steps d) ∧ Answered f ctx n s := by
  obtain ⟨pre, level, post, hsplit, hmem⟩ := exists_level hn
  refine ⟨_, rfl, fun d hd => lookup_levelContext h hsplit hmem hd, ?_⟩
  exact (detRun_reason h).answered pre level post hsplit n (mem_unrestored.mpr ⟨hmem, hr⟩)

end Runs

/-! ## Prompts -/

omit [PyFraction B] in
/-- The prompts of all steps but the review depend on the results of their dependencies only. -/
theorem messagesOf_congr {ctx ctx' : Context F} {n : StepName} (hn : n ≠ .review)
    (hrequest : ctx.request = ctx'.request)
    (hresults : ∀ d ∈ dependsOn n, ctx.results.lookup d = ctx'.results.lookup d) :
    messagesOf ctx n = messagesOf ctx' n := by
  have hbrief : ∀ d ∈ dependsOn n, ∀ k, ctx.brief d k = ctx'.brief d k := by
    intro d hd k
    rw [Context.brief, Context.result, hresults d hd, Context.brief, Context.result]
  rw [messagesOf, messagesOf]
  congr 3
  cases n with
  | review => exact absurd rfl hn
  | repair =>
    unfold resolvePrompt repairPrompt
    rw [hrequest, hresults .analysis (by decide)]
  | _ => simp (disch := decide) only [resolvePrompt, hrequest, hbrief]

/-- What the review shows of an item of the context. -/
def reviewLine : String × PyVal F → List Char
  | (k, v) => "  ".toList ++ dumpsStr false k ++ ": ".toList ++
      dumpsStr false (pySlice v.toStr 500)

/-- What the review shows of the context before it is cut. -/
def summaryOf (items : List (String × PyVal F)) : List Char :=
  "\x7b\n".toList ++ ",\n".toList.intercalate (items.map reviewLine) ++ "\n\x7d".toList

theorem toList_dumpsIndented (items : List (String × PyVal F)) :
    (dumpsIndented (items.map fun (k, v) => (k, pySlice v.toStr 500))).toList =
      summaryOf items := by
  have hlines : ∀ kv : String × PyVal F, ("  " ++ String.ofList (dumpsStr false kv.1) ++ ": " ++
      String.ofList (dumpsStr false (pySlice kv.2.toStr 500))).toList = reviewLine kv := by
    intro kv
    unfold reviewLine
    simp only [String.toList_append, String.toList_ofList]
  unfold dumpsIndented summaryOf
  rw [String.toList_append, String.toList_append, String.toList_intercalate,
    List.map_map, List.map_map, ← List.map_congr_left fun kv _ => hlines kv]
  simp only [Function.comp_def]

/-- The review shows the first 4000 characters. -/
theorem reviewPrompt_eq_iff (ctx ctx' : Context F) : reviewPrompt ctx = reviewPrompt ctx' ↔
    (summaryOf ctx.items).take 4000 = (summaryOf ctx'.items).take 4000 := by
  rw [← String.toList_inj]
  unfold reviewPrompt
  rw [← toList_dumpsIndented, ← toList_dumpsIndented]
  generalize dumpsIndented _ = d
  generalize dumpsIndented _ = d'
  simp only [String.toList_append, List.append_cancel_right_eq, List.append_cancel_left_eq,
    pySlice, String.toList_ofList]

/-! ## The two runs -/

section Resumed

variable {f : List LLMMessage → Except PyExc LLMResponse} {u : Unicode} {req : Request F}
  {S : List StepName} {s s' : State F B}

/-- The steps restored in a resumed run. -/
theorem restoredResult_resumeContext (h : Reasons (functional f) u req [] none s) (n : StepName) :
    restoredResult u req (resumeContext S s) n = if n ∈ S then finalResult s.steps n else none := by
  rw [restoredResult, lookup_resumeContext]
  by_cases hn : n ∈ plannedSteps u req
  · rw [if_pos (mem_stepsOf.mpr hn)]
  · have hnone : finalResult s.steps n = none := by
      rw [finalResult, (steps_of_not_planned h hn).1]
      rfl
    rw [if_neg (mt mem_stepsOf.mp hn), hnone, ite_self]

theorem restoredResult_of_restored (h : Reasons (functional f) u req [] none s) {n : StepName}
    (hn : Restored S s n) :
    restoredResult u req (resumeContext S s) n = some (s.steps n).result := by
  rw [restoredResult_resumeContext h, if_pos hn.1, finalResult, if_pos hn.2]

theorem restoredResult_of_not_restored (h : Reasons (functional f) u req [] none s) {n : StepName}
    (hn : ¬ Restored S s n) : restoredResult u req (resumeContext S s) n = none := by
  rw [restoredResult_resumeContext h]
  by_cases hS : n ∈ S
  · rw [if_pos hS, finalResult, if_neg fun hc => hn ⟨hS, hc⟩]
  · rw [if_neg hS]

/-- The two runs are alike in one step. -/
structure AlikeIn (S : List StepName) (s s' : State F B) (n : StepName) : Prop where
  sent : ¬ Restored S s n → sentFor n s'.log = sentFor n s.log
  status : (s'.steps n).status = (s.steps n).status
  result : (s'.steps n).result = (s.steps n).result

omit [PyInterp F] [PyFraction B] in
theorem AlikeIn.finalResult_eq {n : StepName} (h : AlikeIn S s s' n) :
    finalResult s'.steps n = finalResult s.steps n := by
  rw [finalResult, h.status, h.result, finalResult]

omit [PyFraction B] in
theorem Answered.alikeIn {ctx ctx' : Context F} {n : StepName} (h : Answered f ctx n s)
    (h' : Answered f ctx' n s') (heq : messagesOf ctx' n = messagesOf ctx n) :
    AlikeIn S s s' n := by
  have houtcome := h'.outcome
  rw [heq, ← h.outcome, Prod.mk.injEq] at houtcome
  refine ⟨fun _ => ?_, houtcome.1, houtcome.2⟩
  rw [h'.sent, heq, h.sent]

theorem alikeIn_restored (h : Reasons (functional f) u req [] none s)
    (h' : Reasons (functional f) u req (resumeContext S s) none s') {n : StepName}
    (hn : Restored S s n) : AlikeIn S s s' n := by
  obtain ⟨hstatus, hresult, _⟩ :=
    (runInv_reason h').kept n _ (restoredResult_of_restored h hn)
  exact ⟨fun hnot => absurd hn hnot, hstatus.trans hn.2.symm, hresult⟩

/-- The runs are alike in every step but the review. -/
theorem alikeIn_of_ne_review (h : Reasons (functional f) u req [] none s)
    (h' : Reasons (functional f) u req (resumeContext S s) none s') (n : StepName)
    (hn : n ≠ .review) : AlikeIn S s s' n := by
  -- by induction on the level of the step
  induction hk : rank n using Nat.strong_induction_on generalizing n with
  | _ k ih =>
    subst hk
    by_cases hplanned : n ∈ plannedSteps u req
    · by_cases hr : Restored S s n
      · exact alikeIn_restored h h' hr
      · obtain ⟨ctx, hreq, hresults, hanswer⟩ :=
          answered_reason h hplanned (restoredResult_nil u req n)
        obtain ⟨ctx', hreq', hresults', hanswer'⟩ :=
          answered_reason h' hplanned (restoredResult_of_not_restored h hr)
        refine hanswer.alikeIn hanswer' (messagesOf_congr hn (hreq'.trans hreq.symm) ?_)
        intro d hd
        have hlt := rank_dependsOn n d hd
        have hd' : d ≠ .review := by
          rintro rfl
          revert hlt
          cases n <;> decide
        rw [hresults d hd, hresults' d hd, (ih _ hlt d hd' rfl).finalResult_eq]
    · obtain ⟨hstep, hlog⟩ := steps_of_not_planned h hplanned
      obtain ⟨hstep', hlog'⟩ := steps_of_not_planned h' hplanned
      refine ⟨fun _ => ?_, ?_, ?_⟩
      · rw [sentFor, hlog', sentFor, hlog]
      · rw [hstep, hstep']
      · rw [hstep, hstep']

/-- The review is asked in the context of all other steps. -/
theorem answered_review {resume : List (String × String)}
    (h : Reasons (functional f) u req resume none s)
    (hr : restoredResult u req resume .review = none) :
    Answered f (levelContext (initialState u req resume none) s
      (unrestored (restoredResult u req resume) (levelOrder (plannedSteps u req)))) .review s := by
  obtain ⟨init, hsplit⟩ := topologicalLevels_review u req
  have horder : levelOrder (plannedSteps u req) = init.flatten := by
    have hnodup : (topologicalLevels (plannedSteps u req)).flatten.Nodup :=
      (flatten_topologicalLevels _).nodup_iff.mpr (nodup_stepsOf _)
    rw [hsplit, List.flatten_append, List.nodup_append] at hnodup
    have hinit : ∀ n ∈ init.flatten, n ≠ .review := fun n hn => hnodup.2.2 n hn _ (by simp)
    rw [levelOrder, hsplit, List.flatten_append, List.filter_append,
      List.filter_eq_self.mpr (by simpa using hinit)]
    simp
  rw [horder]
  exact (detRun_reason h).answered init [.review] [] hsplit .review
    (mem_unrestored.mpr ⟨List.mem_singleton.mpr rfl, hr⟩)

omit [PyInterp F] [PyFraction B] in
theorem levelContext_uninterrupted :
    levelContext (initialState (B := B) u req [] none) s
      (unrestored (restoredResult u req []) (levelOrder (plannedSteps u req))) =
        contextIn req s (levelOrder (plannedSteps u req)) := by
  have hnone : restoredResult u req [] = fun _ => none := funext (restoredResult_nil u req)
  simp [levelContext, initialState, hnone, unrestored, contextIn]

theorem levelContext_resumed (h : Reasons (functional f) u req [] none s)
    (h' : Reasons (functional f) u req (resumeContext S s) none s') :
    levelContext (initialState (B := B) u req (resumeContext S s) none) s'
      (unrestored (restoredResult u req (resumeContext S s)) (levelOrder (plannedSteps u req))) =
        contextIn req s (resumedOrder (plannedSteps u req) S) := by
  rw [levelContext, contextIn, resumedOrder, List.filterMap_append, List.filterMap_filter,
    List.filterMap_filter, unrestored, List.filterMap_filter]
  simp only [initialState]
  -- First what was restored, in the order of the restored context; then what was run again, with
  -- the results it had before.
  congr 2
  · refine List.filterMap_congr ?_
    intro n _
    rw [restoredResult_resumeContext h]
    by_cases hS : n ∈ S
    · simp [hS, contribution]
    · simp [hS]
  · refine List.filterMap_congr ?_
    intro n hn
    have hreview : n ≠ .review := by simpa using (List.mem_filter.mp hn).2
    have hsame : contribution s'.steps n = contribution s.steps n := by
      rw [contribution, (alikeIn_of_ne_review h h' n hreview).finalResult_eq, contribution]
    rw [restoredResult_resumeContext h, hsame]
    by_cases hS : n ∈ S
    · -- a step of `S` that is run again has failed, and adds nothing
      rcases hfinal : finalResult s.steps n with _ | r
      · simp [hS, contribution, hfinal]
      · simp [hS]
    · simp [hS]

/-- What the review is asked in the uninterrupted run. -/
theorem answered_review_uninterrupted (h : Reasons (functional f) u req [] none s) :
    Answered f (contextIn req s (levelOrder (plannedSteps u req))) .review s := by
  have hreview := answered_review h (restoredResult_nil u req .review)
  rw [levelContext_uninterrupted] at hreview
  exact hreview

/-- What it is asked in the resumed run. -/
theorem answered_review_resumed (h : Reasons (functional f) u req [] none s)
    (h' : Reasons (functional f) u req (resumeContext S s) none s')
    (hr : ¬ Restored S s .review) :
    Answered f (contextIn req s (resumedOrder (plannedSteps u req) S)) .review s' := by
  have hreview := answered_review h' (restoredResult_of_not_restored h hr)
  rw [levelContext_resumed h h'] at hreview
  exact hreview

/-- If the runs are alike, then so is the prompt of a review that is run again. -/
theorem Alike.reviewPrompt_eq (halike : Alike S s s')
    (h : Reasons (functional f) u req [] none s)
    (h' : Reasons (functional f) u req (resumeContext S s) none s')
    (hr : ¬ Restored S s .review) :
    reviewPrompt (contextIn req s (resumedOrder (plannedSteps u req) S)) =
      reviewPrompt (contextIn req s (levelOrder (plannedSteps u req))) := by
  have hsent := halike.sent .review hr
  rw [(answered_review_resumed h h' hr).sent, (answered_review_uninterrupted h).sent] at hsent
  simpa [messagesOf, resolvePrompt] using hsent

/-- **Resuming.** A resumed run is like the uninterrupted one if and only if the review was
restored, or its prompt is the same in the two orders of the context. -/
theorem resume_iff (f : List LLMMessage → Except PyExc LLMResponse) (u : Unicode)
    (req : Request F) (S : List StepName) (s s' : State F B)
    (h : Reasons (functional f) u req [] none s)
    (h' : Reasons (functional f) u req (resumeContext S s) none s') :
    Alike S s s' ↔ Restored S s .review ∨
      reviewPrompt (contextIn req s (resumedOrder (plannedSteps u req) S)) =
        reviewPrompt (contextIn req s (levelOrder (plannedSteps u req))) := by
  constructor
  · intro halike
    by_cases hr : Restored S s .review
    · exact .inl hr
    · exact .inr (halike.reviewPrompt_eq h h' hr)
  · intro hcond
    have hall : ∀ n, AlikeIn S s s' n := by
      intro n
      -- every step but `review` is sent the same prompt again
      by_cases hn : n = .review
      · subst hn
        by_cases hr : Restored S s .review
        · exact alikeIn_restored h h' hr
        · refine (answered_review_uninterrupted h).alikeIn (answered_review_resumed h h' hr) ?_
          have hprompt := hcond.resolve_left hr
          simpa [messagesOf, resolvePrompt] using hprompt
      · exact alikeIn_of_ne_review h h' n hn
    refine ⟨fun n => (hall n).sent, fun n => (hall n).status, fun n => (hall n).result, ?_⟩
    intro n
    rw [lookup_items, lookup_items, (runInv_reason h').results, (runInv_reason h).results,
      (hall n).finalResult_eq]

end Resumed

/-! ## A run that was stopped before its code was generated -/

/-- A request for which the code and the deployment are planned in one level. -/
def moderateRequest : Request FloatText where
  taskDescription := "Sort a list"
  taskTags := []
  requirements := []

/-- An LLM that answers every call with `{}`. -/
def emptyAnswer : List LLMMessage → Except PyExc LLMResponse := fun _ => .ok ⟨"{}", 2, "stop"⟩

/-- The uninterrupted run. -/
def wholeRun : State FloatText ℚ :=
  reasonInTurn (functional emptyAnswer) emptyAnswer .ascii moderateRequest [] none

/-- The steps that had been completed; the deployment does not wait for the code. -/
def beforeCodegen : List StepName := [.analysis, .architecture, .stack, .components, .deployment]

/-- The resumed run. -/
def resumedRun : State FloatText ℚ :=
  reasonInTurn (functional emptyAnswer) emptyAnswer .ascii moderateRequest
    (resumeContext beforeCodegen wholeRun) none

theorem reasons_wholeRun :
    Reasons (functional emptyAnswer) .ascii moderateRequest [] none wholeRun :=
  reasons_reasonInTurn (fun _ => rfl) _ _ _ _

theorem reasons_resumedRun :
    Reasons (functional emptyAnswer) .ascii moderateRequest
      (resumeContext beforeCodegen wholeRun) none resumedRun :=
  reasons_reasonInTurn (fun _ => rfl) _ _ _ _

theorem resumedRun_alike_iff :
    Alike beforeCodegen wholeRun resumedRun ↔ Restored beforeCodegen wholeRun .review ∨
      reviewPrompt (contextIn moderateRequest wholeRun
        (resumedOrder (plannedSteps .ascii moderateRequest) beforeCodegen)) =
      reviewPrompt (contextIn moderateRequest wholeRun
        (levelOrder (plannedSteps .ascii moderateRequest))) :=
  resume_iff _ _ _ _ _ _ reasons_wholeRun reasons_resumedRun

/-- The context with the answers of the LLM, in a given order. -/
def emptyContext (order : List StepName) : Context FloatText :=
  ⟨moderateRequest, order.map fun n => (n, "{}")⟩

theorem contextIn_wholeRun {order : List StepName}
    (horder : ∀ n ∈ order, n ∈ plannedSteps .ascii moderateRequest) :
    contextIn moderateRequest wholeRun order = emptyContext order := by
  rw [contextIn, emptyContext, ← List.filterMap_eq_map]
  congr 1
  refine List.filterMap_congr ?_
  intro n hn
  obtain ⟨ctx, -, -, hanswer⟩ :=
    answered_reason reasons_wholeRun (horder n hn) (restoredResult_nil _ _ n)
  have houtcome : ((wholeRun.steps n).status, (wholeRun.steps n).result) =
      (StepStatus.completed, "{}") := hanswer.outcome
  rw [Prod.mk.injEq] at houtcome
  simp [contribution, finalResult, houtcome.1, houtcome.2]

theorem levelOrder_moderate : levelOrder (plannedSteps .ascii moderateRequest) =
    [.analysis, .architecture, .stack, .components, .codegen, .deployment] := by
  decide +kernel

theorem resumedOrder_moderate :
    resumedOrder (plannedSteps .ascii moderateRequest) beforeCodegen =
      [.analysis, .architecture, .stack, .components, .deployment, .codegen] := by
  decide +kernel

/-- The set of completed steps is closed, and the resumed run asks for another review. -/
theorem resumedRun_not_alike :
    (∀ n ∈ beforeCodegen, ∀ d ∈ dependsOn n, d ∈ beforeCodegen) ∧
      ¬ Alike beforeCodegen wholeRun resumedRun := by
  refine ⟨by decide, fun halike => ?_⟩
  have hr : ¬ Restored beforeCodegen wholeRun .review := by
    rintro ⟨hmem, -⟩
    revert hmem
    decide
  have heq := halike.reviewPrompt_eq reasons_wholeRun reasons_resumedRun hr
  rw [levelOrder_moderate, resumedOrder_moderate, contextIn_wholeRun (by decide +kernel),
    contextIn_wholeRun (by decide +kernel), reviewPrompt_eq_iff] at heq
  -- the name of the fifth step begins with another letter
  have hletter : ((summaryOf (emptyContext [.analysis, .architecture, .stack, .components,
      .deployment, .codegen]).items).take 4000)[205]? = some 'd' := by decide +kernel
  have hletter' : ((summaryOf (emptyContext [.analysis, .architecture, .stack, .components,
      .codegen, .deployment]).items).take 4000)[205]? = some 'c' := by decide +kernel
  rw [heq, hletter'] at hletter
  exact absurd hletter (by decide)

end Noema.Core
