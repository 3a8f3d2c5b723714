import Noema.Lib.System
import Noema.Tracing.Tracer

/-!
# Runs that share a tracer (`tracing/tracer.py`)

Every run of `think` opens and closes its spans in a well-nested way, and all of them do so on the
one stack of the tracer. The parent of a span is whatever is on top of that stack.

- `spanSystem`: the runs take turns; each starts spans, ends the innermost of its own, and calls an
  LLM.
- `Attributed`: every span has a parent of its own run, or none.
- `Shared`: the invariant, that the spans that are open in a run are those of the stack that it
  opened, in the same order. `Shared.start` and `Shared.finish` are its two rules; a span that is
  ended may be in the middle of the stack.
- `Shared.ownParent_iff`: the new span gets a parent of its own run if and only if no other run has
  opened a span since the innermost one of this run.
- **`attributed_iff`**: so the spans are attributed all along a run of the system if and only if
  every start is of that kind (`StartsInnermost`).
- `overlapping_misattributed`: two runs at the same time.
-/

namespace Noema.Tracing

open Noema.Lib

/-- A span that was started, with the spans that were open in its run then. -/
structure StartedSpan where
  run : Nat
  span : TraceSpan
  within : List TraceSpan

/-- A tracer, and the open spans of each run, the innermost first. -/
structure SpanRuns where
  tracer : Tracer
  opened : Nat → List TraceSpan
  started : List StartedSpan

/-- A step of a run: `start_span`, `end_span` with the innermost of its spans, or
`trace_llm_call`. -/
inductive SpanEvent where
  | start (run : Nat) (name kind : String) (attributes : List (String × Nat))
  | finish (run : Nat) (status error : String)
  | llmCall (run : Nat) (provider : String) (call : LlmCall)

namespace SpanRuns

variable (s : SpanRuns)

/-- The span that a run starts. -/
def next (name kind : String) (attributes : List (String × Nat)) : TraceSpan :=
  (s.tracer.startSpan name kind attributes).1

/-- A run has started a span. -/
def note (run : Nat) (span : TraceSpan) : List StartedSpan := ⟨run, span, s.opened run⟩ :: s.started

end SpanRuns

/-- Runs that share a tracer. -/
def spanSystem (config : TraceConfig) : System SpanRuns SpanEvent where
  init := ⟨.new config, fun _ => [], []⟩
  step s e :=
    match e with
    | .start run name kind attributes =>
      let span := s.next name kind attributes
      some {
        tracer := (s.tracer.startSpan name kind attributes).2
        opened := Function.update s.opened run (span :: s.opened run)
        started := s.note run span }
    -- a run ends the innermost of its own spans, wherever that is in the stack
    | .finish run status error =>
      match s.opened run with
      | [] => none
      | span :: rest =>
        some { s with
          tracer := s.tracer.endSpan span status error
          opened := Function.update s.opened run rest }
    -- the span of an LLM call starts and ends in one step
    | .llmCall run provider call =>
      some { s with
        tracer := s.tracer.traceLlmCall provider call
        started := s.note run (s.next ("llm." ++ provider) "llm" call.attributes) }

/-- The parent is a span that was open in the run, or there is none. -/
def StartedSpan.OwnParent (started : StartedSpan) : Prop :=
  started.span.parentId = none ∨
    ∃ span ∈ started.within, started.span.parentId = some span.spanId

/-- Every span has a parent of its own run, or none. -/
def Attributed (s : SpanRuns) : Prop := ∀ started ∈ s.started, started.OwnParent

/-- The run that starts a span, if the step does. -/
def SpanEvent.starts : SpanEvent → Option Nat
  | .start run .. | .llmCall run .. => some run
  | .finish .. => none

/-- The condition on a step. When a run starts a span, every open span of another run is older than
some open span of its own. -/
def StartsInnermost (s : SpanRuns) (e : SpanEvent) : Prop :=
  ∀ run ∈ e.starts, ∀ other, ∀ span ∈ s.opened other, other ≠ run →
    ∃ own ∈ s.opened run, span.spanId < own.spanId

/-! ## The invariant -/

/-- The stack has the open spans of all runs, the newest first, and `owner` tells whose they are. -/
structure Shared (owner : Nat → Nat) (s : SpanRuns) : Prop where
  sorted : s.tracer.stack.Pairwise fun span span' => span'.spanId < span.spanId
  created : ∀ span ∈ s.tracer.stack, span.spanId < s.tracer.created
  opened : ∀ run, s.opened run = s.tracer.stack.filter fun span => owner span.spanId = run

section Steps

variable {owner : Nat → Nat} {s s' : SpanRuns} {run : Nat} {span : TraceSpan}

/-- The span that is ended is the only one with its id. -/
theorem eraseP_eq_filter {stack : List TraceSpan}
    (h : stack.Pairwise fun span span' => span'.spanId < span.spanId) (id : Nat) :
    stack.eraseP (fun s => s.spanId = id) = stack.filter fun s => s.spanId ≠ id := by
  induction stack with
  | nil => rfl
  | cons top rest ih =>
    obtain ⟨htop, hrest⟩ := List.pairwise_cons.mp h
    by_cases hid : top.spanId = id
    · rw [List.eraseP_cons_of_pos (by simpa using hid), List.filter_cons_of_neg (by simpa using hid)]
      refine (List.filter_eq_self.mpr fun span hspan => ?_).symm
      have hlt := htop span hspan
      simp only [ne_eq, decide_eq_true_eq]
      omega
    · rw [List.eraseP_cons_of_neg (by simpa using hid), List.filter_cons_of_pos (by simpa using hid),
        ih hrest]

theorem Shared.mem_stack (h : Shared owner s) (hspan : span ∈ s.opened run) :
    span ∈ s.tracer.stack ∧ owner span.spanId = run := by
  rw [h.opened] at hspan
  exact ⟨List.mem_of_mem_filter hspan, of_decide_eq_true (List.mem_filter.mp hspan).2⟩

/-- A run starts a span. -/
theorem Shared.start (h : Shared owner s) (name kind : String) (attributes : List (String × Nat))
    (started : List StartedSpan) :
    Shared (Function.update owner s.tracer.created run)
      { tracer := (s.tracer.startSpan name kind attributes).2
        opened := Function.update s.opened run (s.next name kind attributes :: s.opened run)
        started } where
  sorted := List.pairwise_cons.mpr ⟨h.created, h.sorted⟩
  created := by
    refine List.forall_mem_cons.mpr ⟨Nat.lt_succ_self _, fun span hspan => ?_⟩
    exact Nat.lt_succ_of_lt (h.created span hspan)
  opened other := by
    have hold : (s.tracer.stack.filter fun span =>
        Function.update owner s.tracer.created run span.spanId = other) = s.opened other := by
      rw [h.opened]
      refine List.filter_congr fun span hspan => ?_
      rw [Function.update_of_ne (h.created span hspan).ne]
    show Function.update s.opened run _ other =
      (s.next name kind attributes :: s.tracer.stack).filter _
    have hid : (s.next name kind attributes).spanId = s.tracer.created := rfl
    by_cases hrun : other = run
    · subst hrun
      rw [Function.update_self, List.filter_cons_of_pos, hold]
      rw [hid, Function.update_self, decide_eq_true rfl]
    · rw [Function.update_of_ne hrun, List.filter_cons_of_neg, hold]
      rw [hid, Function.update_self, decide_eq_true_iff]
      exact fun heq => hrun heq.symm

/-- A run ends the innermost of its spans. -/
theorem Shared.finish (h : Shared owner s) {rest : List TraceSpan} (hopened : s.opened run = span :: rest)
    (status error : String) :
    Shared owner { s with
      tracer := s.tracer.endSpan span status error
      opened := Function.update s.opened run rest } := by
  obtain ⟨hmem, howner⟩ := h.mem_stack (hopened ▸ List.mem_cons_self)
  have hstack : (s.tracer.endSpan span status error).stack =
      s.tracer.stack.filter fun s => s.spanId ≠ span.spanId := by
    rw [Tracer.endSpan, if_neg (List.ne_nil_of_mem hmem), ← eraseP_eq_filter h.sorted]
    rfl
  have hcreated : (s.tracer.endSpan span status error).created = s.tracer.created := by
    rw [Tracer.endSpan, if_neg (List.ne_nil_of_mem hmem)]
    rfl
  refine ⟨?_, fun span' hspan' => ?_, fun other => ?_⟩
  · rw [hstack]
    exact h.sorted.sublist List.filter_sublist
  · rw [hstack] at hspan'
    rw [hcreated]
    exact h.created span' (List.mem_of_mem_filter hspan')
  · rw [hstack, List.filter_comm, ← h.opened]
    show Function.update s.opened run rest other = _
    -- the run has one open span less, and it was the newest of its own
    by_cases hrun : other = run
    · subst hrun
      have hsorted : (span :: rest).Pairwise fun span span' => span'.spanId < span.spanId := by
        rw [← hopened, h.opened]
        exact h.sorted.sublist List.filter_sublist
      rw [Function.update_self, hopened, List.filter_cons_of_neg (by simp)]
      refine (List.filter_eq_self.mpr fun span' hspan' => decide_eq_true ?_).symm
      exact ((List.pairwise_cons.mp hsorted).1 span' hspan').ne
    · rw [Function.update_of_ne hrun]
      refine (List.filter_eq_self.mpr fun span' hspan' => ?_).symm
      rw [decide_eq_true_iff]
      intro heq
      exact hrun (by rw [← (h.mem_stack hspan').2, heq, howner])

/-- A call of an LLM leaves the open spans as they are. -/
theorem Shared.llmCall (h : Shared owner s) (provider : String) (call : LlmCall)
    (started : List StartedSpan) :
    Shared owner { s with tracer := s.tracer.traceLlmCall provider call, started } where
  sorted := by
    rw [Tracer.stack_traceLlmCall]
    exact h.sorted
  created span hspan := by
    rw [Tracer.stack_traceLlmCall] at hspan
    have hlt := h.created span hspan
    have hcreated : (s.tracer.traceLlmCall provider call).created = s.tracer.created + 1 := rfl
    rw [hcreated]
    omega
  opened other := by
    rw [Tracer.stack_traceLlmCall]
    exact h.opened other

theorem shared_step {config : TraceConfig} {e : SpanEvent} (h : Shared owner s)
    (hstep : (spanSystem config).step s e = some s') : ∃ owner', Shared owner' s' := by
  cases e with
  | start run name kind attributes =>
    cases hstep
    exact ⟨_, h.start name kind attributes _⟩
  | finish run status error =>
    simp only [spanSystem] at hstep
    cases hopened : s.opened run with
    | nil =>
      rw [hopened] at hstep
      cases hstep
    | cons span rest =>
      rw [hopened] at hstep
      cases hstep
      exact ⟨owner, h.finish hopened status error⟩
  | llmCall run provider call =>
    cases hstep
    exact ⟨owner, h.llmCall provider call _⟩

/-- The parent of a new span is the newest open span of all. It belongs to the run if and only if
no other run has a newer one. -/
theorem Shared.ownParent_iff (h : Shared owner s) {e : SpanEvent} (hrun : e.starts = some run)
    (name kind : String) (attributes : List (String × Nat)) :
    (StartedSpan.mk run (s.next name kind attributes) (s.opened run)).OwnParent ↔
      StartsInnermost s e := by
  have hparent : (s.next name kind attributes).parentId =
      s.tracer.stack.head?.map TraceSpan.spanId := rfl
  rw [StartedSpan.OwnParent, hparent]
  cases hstack : s.tracer.stack with
  | nil =>
    refine iff_of_true (.inl rfl) fun run' _ other span hspan => ?_
    have hmem := (h.mem_stack hspan).1
    rw [hstack] at hmem
    cases hmem
  | cons top rest =>
    have hsorted := h.sorted
    rw [hstack] at hsorted
    -- the stack is sorted, so what is on top of it is the newest open span of all
    have hnewest : ∀ {other span}, span ∈ s.opened other → span.spanId ≤ top.spanId := by
      intro other span hspan
      have hmem := (h.mem_stack hspan).1
      rw [hstack] at hmem
      rcases List.mem_cons.mp hmem with rfl | hrest
      · exact le_rfl
      · exact ((List.pairwise_cons.mp hsorted).1 span hrest).le
    have htop : top ∈ s.opened (owner top.spanId) := by
      rw [h.opened, hstack]
      exact List.mem_filter.mpr ⟨List.mem_cons_self, decide_eq_true rfl⟩
    constructor
    · rintro (hnone | ⟨own, hown, heq⟩) run' hrun' other span hspan hne
      · cases hnone
      · cases hrun.symm.trans hrun'
        refine ⟨own, hown, ?_⟩
        have hid : top.spanId = own.spanId := Option.some.inj heq
        have hle := hnewest hspan
        have hother : span.spanId ≠ own.spanId := by
          intro hsame
          exact hne ((h.mem_stack hspan).2.symm.trans (hsame ▸ (h.mem_stack hown).2))
        omega
    · intro hinnermost
      refine .inr ?_
      -- if the top belongs to another run, it is newer than what this run has open
      by_cases howner : owner top.spanId = run
      · exact ⟨top, howner ▸ htop, rfl⟩
      · obtain ⟨own, hown, hlt⟩ := hinnermost run hrun _ top htop howner
        have hle := hnewest hown
        omega

/-- Every span of a run of the system has a parent of its own run, or none, if and only if no run
starts a span while another one has the newest open span. -/
theorem attributed_iff (config : TraceConfig) {steps : List (SpanRuns × SpanEvent)} {s : SpanRuns}
    (run : (spanSystem config).Run steps s) :
    System.Always Attributed steps s ↔ System.Meets StartsInnermost steps := by
  refine run.always_iff (I := fun s => ∃ owner, Shared owner s) ?_ ?_ ?_ ?_
  · exact ⟨fun _ => 0, List.Pairwise.nil, fun _ h => (by cases h), fun _ => rfl⟩
  · rintro s e s' ⟨owner, hshared⟩ hstep
    exact shared_step hshared hstep
  · exact fun _ h => by cases h
  -- only a step that starts a span can go wrong; an LLM call starts and ends one of its own
  · rintro s e s' ⟨owner, hshared⟩ hattributed hstep
    cases e with
    | start run name kind attributes =>
      cases hstep
      rw [Attributed]
      exact List.forall_mem_cons.trans
        ((and_iff_left hattributed).trans (hshared.ownParent_iff rfl name kind attributes))
    | finish run status error =>
      simp only [spanSystem] at hstep
      cases hopened : s.opened run with
      | nil =>
        rw [hopened] at hstep
        cases hstep
      | cons span rest =>
        rw [hopened] at hstep
        cases hstep
        exact iff_of_true hattributed fun _ h => by cases h
    | llmCall run provider call =>
      cases hstep
      exact List.forall_mem_cons.trans
        ((and_iff_left hattributed).trans (hshared.ownParent_iff rfl _ _ _))

/-- A run with a call of an LLM in its root span, and then another run. -/
theorem oneByOne_attributed : ∃ steps s, steps.map Prod.snd =
    ([.start 1 "think.b" "pipeline" [], .finish 0 "ok" "", .llmCall 0 "openai" .cached,
      .start 0 "think.a" "pipeline" []] : List SpanEvent) ∧
    s.started.map (fun started => started.span.parentId) = [none, some 0, none] ∧
    System.Always Attributed steps s := by
  have run := System.Run.next (e := SpanEvent.start 1 "think.b" "pipeline" [])
    (.next (e := SpanEvent.finish 0 "ok" "")
      (.next (e := SpanEvent.llmCall 0 "openai" .cached)
        (.next (e := SpanEvent.start 0 "think.a" "pipeline" []) (.start (S := spanSystem {})) rfl)
        rfl) rfl) rfl
  refine ⟨_, _, rfl, rfl, (attributed_iff {} run).mpr ?_⟩
  refine List.forall_mem_cons.mpr ⟨fun _ _ other span hspan _ => ?_, List.forall_mem_cons.mpr
    ⟨fun _ h => (by cases h), List.forall_mem_cons.mpr ⟨fun _ hrun other span hspan hne => ?_,
      List.forall_mem_cons.mpr ⟨fun _ _ _ _ h => (by cases h), fun _ h => (by cases h)⟩⟩⟩⟩
  · rw [Function.update_idem, Function.update_eq_self] at hspan
    cases hspan
  · cases hrun
    simp [spanSystem, Function.update_of_ne hne] at hspan

/-- Two runs at the same time. -/
def overlapping : List SpanEvent :=
  [.start 0 "think.a" "pipeline" [], .start 1 "think.b" "pipeline" [],
    .llmCall 0 "openai" .cached]

/-- The root span of the second run has the one of the first run as its parent. -/
theorem overlapping_misattributed :
    ∃ s, (spanSystem {}).Reachable s ∧ ¬ Attributed s := by
  refine ⟨_, System.reachable_of_exec overlapping rfl, fun hattributed => ?_⟩
  rcases hattributed _ (List.mem_cons_of_mem _ List.mem_cons_self) with hnone | ⟨span, hspan, -⟩
  · cases hnone
  · cases hspan

end Steps

end Noema.Tracing
