import Noema.Api.Server
import Noema.Lib.System

/-!
# Billing over time

`billingSystem` serves requests one after the other. A `Bill` has the tokens that the cost tracker
was given for a request and the tokens that its LLM calls consumed, and the question is when the two
agree.

`_record_task_cost` (server.py:391) does not get the usage of the run. It adds up the tokens of the
whole history of the tracer, that is, of every span the process has ended so far, for whichever
request. The history is bounded (10000 spans by default), so a bill is what the history still has of
the requests before, and what it has of this one.

- `ThinkRun.consumed_eq`: what a run consumes is on its spans or untraced. The calls of the
  neurosymbolic interface have no span, so their tokens are on no bill of their own.
- `ends_runThink`: what a run of `think` adds to the history. It is proved per operation
  (`ends_runOp`) and folded, with the stack of open spans unchanged (`stack_runOp`).
- `recorded_handle`: the bill of a request, exactly: the sum of the last `maxSpans` tokens of
  everything that has ended.
- **`billed_once_iff`**: the bills of a run are exact if and only if each request that reaches
  `think` meets `Settled`.

`ThinkRun.Settled` is about the tracer before a request and about what `think` does in it, and never
about the records of the cost tracker. For a run that returns it says that the history carries as
many tokens of earlier requests as the bill misses; for a run that raises, that nothing was
consumed. `second_billed_twice` is the ordinary case: two requests that trace all of their calls,
where the second one pays for both.
-/

namespace Noema.Api

open Noema.Lib Noema.Billing Noema.Tracing

/-! ## Tokens -/

/-- The tokens that an operation consumes. -/
def ThinkOp.consumed : ThinkOp → Nat
  | .complete _ call => call.tokens
  | .judge _ call _ => call.tokens
  | .neural tokens => tokens

/-- The tokens of the spans that an operation ends, one by one. -/
def ThinkOp.ended : ThinkOp → List Nat
  | .complete _ call => [call.tokens]
  | .judge _ call ended => call.tokens :: if ended then [0] else []
  | .neural _ => []

/-- The tokens that an operation consumes and that no span has. -/
def ThinkOp.untraced : ThinkOp → Nat
  | .complete .. => 0
  | .judge .. => 0
  | .neural tokens => tokens

/-- The operations of a run. -/
def ThinkRun.ops : ThinkRun → List ThinkOp
  | .refused => []
  | .raised ops => ops
  | .returned ops => ops

/-- The tokens that a run consumes. -/
def ThinkRun.consumed (run : ThinkRun) : Nat := (run.ops.map ThinkOp.consumed).sum

/-- The tokens of a run that no span has. -/
def ThinkRun.untraced (run : ThinkRun) : Nat := (run.ops.map ThinkOp.untraced).sum

/-- The tokens of the spans that a run ends; a run that returns ends its own span last. -/
def ThinkRun.ended (run : ThinkRun) : List Nat :=
  run.ops.flatMap ThinkOp.ended ++ if run.returns then [0] else []

theorem ThinkOp.consumed_eq (op : ThinkOp) : op.consumed = op.ended.sum + op.untraced := by
  cases op with
  | complete => rfl
  | judge _ call ended =>
    cases ended with
    | false => rfl
    | true => rfl
  | neural tokens => exact (Nat.zero_add tokens).symm

/-- What a run consumes is on its spans or untraced. -/
theorem ThinkRun.consumed_eq (run : ThinkRun) : run.consumed = run.ended.sum + run.untraced := by
  have hlast : (if run.returns then [0] else [] : List Nat).sum = 0 := by
    split
    · rfl
    · rfl
  rw [consumed, ended, untraced, List.sum_append, hlast, add_zero]
  induction run.ops with
  | nil => rfl
  | cons op ops ih =>
    rw [List.map_cons, List.sum_cons, ih, op.consumed_eq, List.flatMap_cons, List.sum_append,
      List.map_cons, List.sum_cons]
    omega

/-! ## The tracer of a run -/

section Tracer

variable {bound : Nat} {t : Tracer}

/-- The tracer and the span of a judge, and the tracer after its call. -/
theorem runOp_judge (provider : String) (call : LlmCall) (ended : Bool) :
    runOp t (.judge provider call ended) =
      let opened := t.startSpan "judge.evaluate" "judge" []
      if ended then (opened.2.traceLlmCall provider call).endSpan opened.1 "ok" ""
      else opened.2.traceLlmCall provider call := rfl

/-- An operation leaves the spans open that were open. -/
theorem stack_runOp (op : ThinkOp) (hopen : t.stack ≠ []) : (runOp t op).stack ≠ [] := by
  cases op with
  | complete provider call =>
    rw [runOp, Tracer.stack_traceLlmCall]
    exact hopen
  | judge provider call ended =>
    rw [runOp_judge]
    dsimp only
    split
    · rw [Tracer.stack_endSpan _ _ (Tracer.stack_traceLlmCall provider call) rfl]
      exact hopen
    · rw [Tracer.stack_traceLlmCall]
      exact List.cons_ne_nil _ _
  | neural tokens => exact hopen

/-- What an operation adds to the history. -/
theorem ends_runOp (hbound : t.config.maxSpans = bound) (hpos : 0 < bound)
    (hlength : t.tokens.length ≤ bound) (op : ThinkOp) :
    Tracer.Ends bound t (runOp t op) op.ended := by
  cases op with
  | complete provider call => exact Tracer.ends_traceLlmCall hbound hpos provider call
  | neural tokens => exact .refl hlength
  | judge provider call ended =>
    have hcall := Tracer.ends_traceLlmCall (t := (t.startSpan "judge.evaluate" "judge" []).2)
      hbound hpos provider call
    rw [runOp_judge]
    cases ended with
    | false => exact ⟨hcall.config, hcall.tokens⟩
    | true =>
      have hopen : ((t.startSpan "judge.evaluate" "judge" []).2.traceLlmCall provider call).stack ≠
          [] := by
        rw [Tracer.stack_traceLlmCall]
        exact List.cons_ne_nil _ _
      have hall := hcall.trans (Tracer.ends_endSpan (hcall.config ▸ hbound) hpos
        (t.startSpan "judge.evaluate" "judge" []).1 "ok" "" hopen)
      exact ⟨hall.config, hall.tokens⟩

/-- The operations of a run, one after the other. -/
theorem ends_foldl_runOp (hbound : t.config.maxSpans = bound) (hpos : 0 < bound)
    (hlength : t.tokens.length ≤ bound) (hopen : t.stack ≠ []) (ops : List ThinkOp) :
    Tracer.Ends bound t (ops.foldl runOp t) (ops.flatMap ThinkOp.ended) ∧
      (ops.foldl runOp t).stack ≠ [] := by
  induction ops generalizing t with
  | nil => exact ⟨.refl hlength, hopen⟩
  | cons op ops ih =>
    have hop := ends_runOp hbound hpos hlength op
    obtain ⟨hrest, hstack⟩ := ih (hop.config ▸ hbound) hop.bounded (stack_runOp op hopen)
    exact ⟨hop.trans hrest, hstack⟩

/-- What a run of `think` adds to the history. -/
theorem ends_runThink (hbound : t.config.maxSpans = bound) (hpos : 0 < bound)
    (hlength : t.tokens.length ≤ bound) (title : String) (run : ThinkRun) :
    Tracer.Ends bound t (runThink t title run) run.ended := by
  have hops (ops : List ThinkOp) := ends_foldl_runOp
    (t := (t.startSpan ("think." ++ String.ofList (title.toList.take 30)) "pipeline" []).2) hbound
    hpos hlength (List.cons_ne_nil _ _) ops
  cases run with
  | refused => exact .refl hlength
  | raised ops =>
    obtain ⟨hends, -⟩ := hops ops
    rw [ThinkRun.ended, ThinkRun.returns, if_neg Bool.false_ne_true, List.append_nil]
    exact ⟨hends.config, hends.tokens⟩
  | returned ops =>
    obtain ⟨hends, hopen⟩ := hops ops
    have hall := hends.trans (Tracer.ends_endSpan (hends.config ▸ hbound) hpos
      (t.startSpan ("think." ++ String.ofList (title.toList.take 30)) "pipeline" []).1 "ok" ""
      hopen)
    exact ⟨hall.config, hall.tokens⟩

end Tracer

/-! ## One request after the other -/

/-- The tokens that the cost tracker was given for a request, and those that were consumed. -/
structure Bill where
  recorded : Int
  consumed : Nat
  deriving DecidableEq, Repr

/-- The server with a bill for each request, the last one first. -/
structure BillingState (T : Type) where
  server : ServerState T
  bills : List Bill

section Runs

variable {T : Type}

/-- The input tokens of records. -/
def inputTokens (records : List (CostRecord T)) : Int :=
  (records.map CostRecord.inputTokens).sum

/-- The tokens of the records that a tracker got. -/
def recordedBy (c c' : CostTracker T) : Int := inputTokens (c'.records.drop c.records.length)

/-- The condition on a run of `think` and the tracer before it: a run that returns finds as many
tokens of earlier requests in the history as its own read misses, and one that raises has consumed
nothing. -/
def ThinkRun.Settled (t : Tracer) (run : ThinkRun) : Prop :=
  if run.returns then
    Tracer.carried 10000 t.tokens run.ended.length =
      Tracer.pushedOut 10000 run.ended + run.untraced
  else run.consumed = 0

instance ThinkRun.decidableSettled (t : Tracer) (run : ThinkRun) : Decidable (run.Settled t) :=
  inferInstanceAs (Decidable (if run.returns then
    Tracer.carried 10000 t.tokens run.ended.length =
      Tracer.pushedOut 10000 run.ended + run.untraced
  else run.consumed = 0))

variable [Ring T] [LinearOrder T] (cfg : ServerConfig)

/-- The request reaches its handler and its quota is not exceeded. -/
def Admitted (s : ServerState T) (r : ThinkRequest T) (tenantId : String) : Prop :=
  r.tenantId cfg = some tenantId ∧ checkRequest cfg s r tenantId = .ok ()

instance (s : ServerState T) (r : ThinkRequest T) (tenantId : String) :
    Decidable (Admitted cfg s r tenantId) := inferInstanceAs (Decidable (_ ∧ _))

/-- The tokens that a request consumes. -/
def consumedBy (s : ServerState T) (r : ThinkRequest T) : Nat :=
  match r.tenantId cfg with
  | some tenantId => if Admitted cfg s r tenantId then r.run.consumed else 0
  | none => 0

/-- A request is served and gets its bill. -/
def billingStep (s : BillingState T) (r : ThinkRequest T) : Option (BillingState T) :=
  let server := handle cfg s.server r
  some ⟨server, ⟨recordedBy s.server.costs server.costs, consumedBy cfg s.server r⟩ :: s.bills⟩

/-- A server that serves requests which do not overlap. -/
def billingSystem : System (BillingState T) (ThinkRequest T) where
  init := ⟨.new, []⟩
  step := billingStep cfg

/-- Every bill is exact. -/
def Exact (s : BillingState T) : Prop := ∀ b ∈ s.bills, b.recorded = b.consumed

/-- The condition on a state and the next request. -/
def Settled (s : BillingState T) (r : ThinkRequest T) : Prop :=
  ∀ tenantId, Admitted cfg s.server r tenantId → r.run.Settled s.server.tracer

/-- The condition is about the tenant of the request, if it has one. -/
theorem settled_iff_tenant (s : BillingState T) (r : ThinkRequest T) :
    (∀ tenantId ∈ r.tenantId cfg, Admitted cfg s.server r tenantId →
      r.run.Settled s.server.tracer) ↔ Settled cfg s r :=
  ⟨fun h tenantId hadmitted => h tenantId hadmitted.1 hadmitted, fun h tenantId _ => h tenantId⟩

instance decidableSettled (s : BillingState T) (r : ThinkRequest T) : Decidable (Settled cfg s r) :=
  decidable_of_iff _ (settled_iff_tenant cfg s r)

/-- What the server keeps: the tracer has its default bound, and the records have the tokens of
the bills. -/
structure BillingInv (s : BillingState T) : Prop where
  config : s.server.tracer.config.maxSpans = (10000 : Nat)
  bounded : s.server.tracer.tokens.length ≤ 10000
  recorded : inputTokens s.server.costs.records = (s.bills.map Bill.recorded).sum

variable {cfg} {s : ServerState T} {r : ThinkRequest T} {tenantId : String}

theorem handle_of_admitted (h : Admitted cfg s r tenantId) :
    handle cfg s r = (r.guarded tenantId).foldl (perform cfg) s := by
  obtain ⟨htenant, hcheck⟩ := h
  rw [handle, htenant]
  dsimp only
  rw [handleFor, hcheck]

theorem handle_of_not_admitted (h : ∀ tenantId, ¬ Admitted cfg s r tenantId) :
    handle cfg s r = s := by
  rw [handle]
  split
  next tenantId htenant =>
    rw [handleFor]
    split
    · rfl
    next hcheck => exact absurd ⟨htenant, hcheck⟩ (h tenantId)
  · rfl

theorem consumedBy_of_admitted (h : Admitted cfg s r tenantId) :
    consumedBy cfg s r = r.run.consumed := by
  rw [consumedBy, h.1]
  exact if_pos h

theorem consumedBy_of_not_admitted (h : ∀ tenantId, ¬ Admitted cfg s r tenantId) :
    consumedBy cfg s r = 0 := by
  rw [consumedBy]
  split
  next tenantId _ => exact if_neg (h tenantId)
  · rfl

omit [Ring T] [LinearOrder T] in
theorem tracer_recordTaskCost (s : ServerState T) (tenantId taskId : String) (now : T) (date : Date)
    (replies : RecordReplies) :
    (recordTaskCost cfg s tenantId taskId now date replies).tracer = s.tracer := by
  rw [recordTaskCost]
  dsimp only
  split
  · rfl
  · rfl

omit [Ring T] [LinearOrder T] in
/-- The records after `_record_task_cost` have all tokens of the history on top. -/
theorem records_recordTaskCost (s : ServerState T) (tenantId taskId : String) (now : T)
    (date : Date) (replies : RecordReplies) :
    ∃ records, (recordTaskCost cfg s tenantId taskId now date replies).costs.records =
      s.costs.records ++ records ∧ inputTokens records = (s.tracer.tokens.sum : Int) := by
  rw [recordTaskCost, getStats_totalTokens]
  dsimp only
  split
  next hzero =>
    refine ⟨[], (List.append_nil _).symm, ?_⟩
    rw [Nat.le_zero.mp hzero]
    rfl
  next =>
    refine ⟨[_], rfl, ?_⟩
    rw [inputTokens, List.map_singleton, List.sum_singleton]
    exact max_eq_left (Int.natCast_nonneg _)

/-- What a request that is admitted leaves behind. -/
theorem handle_spec (h : Admitted cfg s r tenantId) :
    (handle cfg s r).tracer = runThink s.tracer r.title r.run ∧
      ∃ records, (handle cfg s r).costs.records = s.costs.records ++ records ∧
        inputTokens records =
          if r.run.returns then ((runThink s.tracer r.title r.run).tokens.sum : Int) else 0 := by
  rw [handle_of_admitted h, ThinkRequest.guarded]
  by_cases hreturns : r.run.returns = true
  · rw [if_pos hreturns, if_pos hreturns]
    exact ⟨tracer_recordTaskCost _ _ _ _ _ _, records_recordTaskCost _ _ _ _ _ _⟩
  · rw [if_neg hreturns, if_neg hreturns]
    exact ⟨rfl, [], (List.append_nil _).symm, rfl⟩

omit [Ring T] [LinearOrder T] in
theorem inputTokens_append (records records' : List (CostRecord T)) :
    inputTokens (records ++ records') = inputTokens records + inputTokens records' := by
  rw [inputTokens, List.map_append, List.sum_append, inputTokens, inputTokens]

/-- The bill of a request: all tokens of the history, if it returns. -/
theorem recorded_handle (h : Admitted cfg s r tenantId) :
    recordedBy s.costs (handle cfg s r).costs =
      if r.run.returns then ((runThink s.tracer r.title r.run).tokens.sum : Int) else 0 := by
  obtain ⟨-, records, hrecords, htokens⟩ := handle_spec h
  rw [recordedBy, hrecords, List.drop_left, htokens]

/-- The records have what the bills have. -/
theorem inputTokens_handle (s : ServerState T) (r : ThinkRequest T) :
    inputTokens (handle cfg s r).costs.records =
      inputTokens s.costs.records + recordedBy s.costs (handle cfg s r).costs := by
  by_cases h : ∃ tenantId, Admitted cfg s r tenantId
  · obtain ⟨tenantId, h⟩ := h
    obtain ⟨-, records, hrecords, -⟩ := handle_spec h
    rw [recordedBy, hrecords, List.drop_left, inputTokens_append]
  · rw [handle_of_not_admitted (not_exists.mp h), recordedBy, List.drop_length]
    exact (add_zero _).symm

/-- A history that kept the last 10000 spans gives an exact bill under the condition only. -/
theorem ThinkRun.settled_iff {t t' : Tracer} {run : ThinkRun}
    (hends : Tracer.Ends 10000 t t' run.ended) :
    (if run.returns then (t'.tokens.sum : Int) else 0) = (run.consumed : Int) ↔ run.Settled t := by
  have hsum := hends.sum
  have hconsumed := run.consumed_eq
  rw [ThinkRun.Settled]
  split
  next => omega
  next => omega

theorem billingInv_step {s s' : BillingState T} {r : ThinkRequest T} (hinv : BillingInv s)
    (hstep : (billingSystem cfg).step s r = some s') : BillingInv s' := by
  cases hstep
  have hrecorded : inputTokens (handle cfg s.server r).costs.records =
      recordedBy s.server.costs (handle cfg s.server r).costs +
        (s.bills.map Bill.recorded).sum := by
    rw [inputTokens_handle, hinv.recorded, add_comm]
  -- A request that is answered before `think` leaves the tracer alone.
  by_cases h : ∃ tenantId, Admitted cfg s.server r tenantId
  · obtain ⟨tenantId, h⟩ := h
    obtain ⟨htracer, -⟩ := handle_spec h
    have hends := ends_runThink hinv.config (by decide) hinv.bounded r.title r.run
    rw [← htracer] at hends
    exact ⟨hends.config ▸ hinv.config, hends.bounded, hrecorded⟩
  · have hsame := handle_of_not_admitted (not_exists.mp h)
    constructor
    case config =>
      show (handle cfg s.server r).tracer.config.maxSpans = _
      rw [hsame]
      exact hinv.config
    case bounded =>
      show (handle cfg s.server r).tracer.tokens.length ≤ _
      rw [hsame]
      exact hinv.bounded
    case recorded => exact hrecorded

/-- The next bill is exact if and only if the request meets the condition. -/
theorem exact_step_iff {s s' : BillingState T} {r : ThinkRequest T} (hinv : BillingInv s)
    (hexact : Exact s) (hstep : (billingSystem cfg).step s r = some s') :
    Exact s' ↔ Settled cfg s r := by
  cases hstep
  have hbill : Exact (T := T) ⟨handle cfg s.server r,
      ⟨recordedBy s.server.costs (handle cfg s.server r).costs, consumedBy cfg s.server r⟩ ::
        s.bills⟩ ↔ recordedBy s.server.costs (handle cfg s.server r).costs =
          (consumedBy cfg s.server r : Int) :=
    List.forall_mem_cons.trans (and_iff_left hexact)
  refine hbill.trans ?_
  by_cases h : ∃ tenantId, Admitted cfg s.server r tenantId
  · obtain ⟨tenantId, h⟩ := h
    have hends := ends_runThink hinv.config (by decide) hinv.bounded r.title r.run
    rw [recorded_handle h, consumedBy_of_admitted h, ThinkRun.settled_iff hends]
    exact ⟨fun hsettled _ _ => hsettled, fun hall => hall tenantId h⟩
  · have hnone := not_exists.mp h
    rw [handle_of_not_admitted hnone, consumedBy_of_not_admitted hnone, recordedBy,
      List.drop_length]
    exact iff_of_true rfl fun tenantId hadmitted => absurd hadmitted (hnone tenantId)

omit [Ring T] [LinearOrder T] in
/-- Exact bills add up. -/
theorem Exact.sum {s : BillingState T} (hinv : BillingInv s) (hexact : Exact s) :
    inputTokens s.server.costs.records = ((s.bills.map Bill.consumed).sum : Nat) := by
  rw [hinv.recorded, List.map_congr_left hexact, Nat.cast_list_sum, List.map_map]
  rfl

/-- **Every token is billed once.** The bills of a run are exact if and only if, at each request
that reaches `think`, the run of `think` settles with the tracer as it is then. By induction on the
run: `exact_step_iff` is one request. -/
theorem billed_once_iff (cfg : ServerConfig) {steps : List (BillingState T × ThinkRequest T)}
    {s : BillingState T} (run : (billingSystem cfg).Run steps s) :
    (System.Always Exact steps s ↔ System.Meets (Settled cfg) steps) ∧
      (System.Meets (Settled cfg) steps →
        inputTokens s.server.costs.records = ((s.bills.map Bill.consumed).sum : Nat)) := by
  have hinit : BillingInv (billingSystem (T := T) cfg).init := ⟨rfl, Nat.zero_le _, rfl⟩
  have hiff := run.always_iff (P := Exact) hinit (fun _ _ _ => billingInv_step)
    (fun b hb => by cases hb) fun _ _ _ => exact_step_iff
  refine ⟨hiff, ?_⟩
  intro hmeets
  exact (hiff.mpr hmeets).1.sum (run.invariant hinit fun _ _ _ => billingInv_step)

/-- A request whose `think` raises before it has called the LLM. -/
def raisesAtOnce : ThinkRequest Int := { requestOfA "a" with run := .raised [] }

/-- A request whose only call goes through the neurosymbolic interface, which is not traced. -/
def asksNeural : ThinkRequest Int := { requestOfA "a" with run := .returned [.neural 100] }

/-- Three requests whose bills are exact: the third one is billed for the tokens of the first one,
and has consumed as many that no span has. -/
theorem billed_once_threeRequests : ∃ steps s,
    (billingSystem (T := Int) twoTenants).Run steps s ∧
      s.bills = [⟨100, 100⟩, ⟨0, 0⟩, ⟨100, 100⟩] ∧ System.Always Exact steps s ∧
      inputTokens s.server.costs.records = ((s.bills.map Bill.consumed).sum : Nat) := by
  let S := (billingSystem (T := Int) twoTenants).guard (Settled twoTenants)
  have hend : (S.exec S.init [requestOfA "a", raisesAtOnce, asksNeural]).map BillingState.bills =
      some [⟨100, 100⟩, ⟨0, 0⟩, ⟨100, 100⟩] := by
    decide +kernel
  obtain ⟨s, hs, hbills⟩ := Option.map_eq_some_iff.mp hend
  obtain ⟨steps, run⟩ := System.reachable_of_exec _ hs
  obtain ⟨run, hsettled⟩ := run.of_guard
  obtain ⟨hexact, hsum⟩ := billed_once_iff twoTenants run
  exact ⟨steps, s, run, hbills, hexact.mpr hsettled, hsum hsettled⟩

/-- The second request is billed for the tokens of the first one too. -/
theorem second_billed_twice :
    ((billingSystem twoTenants).exec ⟨.new, []⟩ [requestOfA "a", requestOfA "a"]).map
      (fun s => s.bills) = some [⟨200, 100⟩, ⟨100, 100⟩] := by
  decide +kernel

end Runs

end Noema.Api
