import Noema.Api.Auth
import Noema.Billing.CostTracker
import Noema.Tracing.Tracer

/-!
# The reasoning endpoints (`api/server.py`)

A handler of `/think` (server.py:496) or `/think/detail` (server.py:548) checks the quota of a
tenant, tracks its task, runs `NoemaEngine.think`, records the cost and untracks the task.
`ThinkRequest.actions` lists what it does to the state of the server, each with the tenant that it
is done for, and `perform` says what an action changes.

Which tenant is that? Four places choose one, each in its own order of preference:

- `guardTenant`: the header `x-tenant-id`, then the context (server.py:373);
- `engineTenant`: the settings of the engine, when it is made (engine.py:142);
- `thinkTenant`: the context, then the tenant of the engine (engine.py:337);
- the middleware, which puts the tenant of the key into the context (`Auth`).

**`actsOnlyFor_iff`** compares them: a request that passes with a bound key acts only for the tenant
of that key if and only if its header, when it is not empty, names this tenant, and the tenant has a
name at all: an empty one is replaced on the way. "Acts for" is meant in both directions, as the
label on every action and as the state that changes: `SameFor` says that the quota and the costs of
another tenant stay as they are (`sameFor_perform`).

What a run of `think` does with LLMs comes from outside, as a `ThinkRun`: the calls with their
tokens, and how the run ends. `BillingRuns` continues from here with the bills.
-/

namespace Noema.Api

open Noema.Lib Noema.Billing Noema.Tracing

/-! ## The state of the server -/

/-- What the endpoints change. -/
structure ServerState (T : Type) where
  quotas : QuotaManager T
  costs : CostTracker T
  tracer : Tracer

/-- What the endpoints read: the settings of the API, the quotas of the tenants, the services of
the cost tracker, and the LLM of the engine. -/
structure ServerConfig where
  api : APISettings
  quotas : String → Option TenantQuota
  backends : CostBackends
  llmName : String
  modelName : String

/-- `get_quota` (quotas.py:77), without a database. -/
def ServerConfig.getQuota (cfg : ServerConfig) (tenantId : String) : TenantQuota :=
  (cfg.quotas tenantId).getD {}

/-- A server that has just started. -/
def ServerState.new {T : Type} : ServerState T := ⟨.new, .new, .new {}⟩

/-! ## What `think` consumes -/

/-- What a run of `think` does with LLMs: a call of the provider, a call of the judge, whose span
may not be ended, or a call of the neurosymbolic interface, which nothing traces. -/
inductive ThinkOp where
  | complete (provider : String) (call : LlmCall)
  | judge (provider : String) (call : LlmCall) (ended : Bool)
  | neural (tokens : Nat)
  deriving DecidableEq, Repr

/-- How `think` ends: its input is refused before anything is traced, or it raises or returns
after its operations. -/
inductive ThinkRun where
  | refused
  | raised (ops : List ThinkOp)
  | returned (ops : List ThinkOp)
  deriving DecidableEq, Repr

/-- The tracer after an operation. -/
def runOp (t : Tracer) : ThinkOp → Tracer
  | .complete provider call => t.traceLlmCall provider call
  | .judge provider call ended =>
    let (span, t) := t.startSpan "judge.evaluate" "judge" []
    let t := t.traceLlmCall provider call
    if ended then t.endSpan span "ok" "" else t
  | .neural _ => t

/-- The tracer after a run of `think` (engine.py:399, 785). -/
def runThink (t : Tracer) (title : String) : ThinkRun → Tracer
  | .refused => t
  | .raised ops =>
    let (_, t) := t.startSpan ("think." ++ String.ofList (title.toList.take 30)) "pipeline" []
    ops.foldl runOp t
  | .returned ops =>
    let (span, t) := t.startSpan ("think." ++ String.ofList (title.toList.take 30)) "pipeline" []
    (ops.foldl runOp t).endSpan span "ok" ""

/-! ## Tenants -/

/-- The tenant of a request in its guard (server.py:373). -/
def guardTenant (context : String) (request : HttpRequest) : String :=
  let header := (request.header "x-tenant-id").getD ""
  if header ≠ "" then header else if context ≠ "" then context else "default"

/-- The tenant of an engine (engine.py:142). -/
def engineTenant (tenantId context : String) : String := if tenantId ≠ "" then tenantId else context

/-- The tenant of the engine of the API, which is made when the server starts. -/
def apiEngineTenant : String := engineTenant "" "default"

/-- The tenant that `think` runs under (engine.py:337). -/
def thinkTenant (engineTenant callerTenant : String) : String :=
  if callerTenant ≠ "default" then callerTenant else engineTenant

/-! ## Requests -/

/-- `_estimate_input_tokens` (server.py:357). -/
def estimateInputTokens (title description : String) : Nat :=
  (title ++ " " ++ description).length / 4

/-- A request to think: its headers, its task, the times and the date of its steps, and what comes
from outside. -/
structure ThinkRequest (T : Type) where
  http : HttpRequest
  taskId : String
  title : String
  description : String
  checkedAt : T
  trackedAt : T
  recordedAt : T
  date : Date
  run : ThinkRun
  replies : RecordReplies

/-- What a handler does for a tenant. -/
inductive Action (T : Type) where
  | checkQuota (tenantId : String) (estimatedInputTokens : Nat) (now : T)
  | track (tenantId taskId : String) (now : T)
  | think (tenantId title : String) (run : ThinkRun)
  | record (tenantId taskId : String) (now : T) (date : Date) (replies : RecordReplies)
  | untrack (tenantId taskId : String)

/-- The tenant of an action. -/
def Action.tenantId {T : Type} : Action T → String
  | .checkQuota tenantId .. => tenantId
  | .track tenantId .. => tenantId
  | .think tenantId .. => tenantId
  | .record tenantId .. => tenantId
  | .untrack tenantId .. => tenantId

/-- The cost is recorded when `think` has returned. -/
def ThinkRun.returns : ThinkRun → Bool
  | .refused => false
  | .raised _ => false
  | .returned _ => true

namespace ThinkRequest

variable {T : Type}

/-- What a request does for a tenant once its quota is checked. -/
def guarded (r : ThinkRequest T) (tenantId : String) : List (Action T) :=
  [.track tenantId r.taskId r.trackedAt, .think (thinkTenant apiEngineTenant tenantId) r.title r.run]
    ++ (if r.run.returns then [.record tenantId r.taskId r.recordedAt r.date r.replies] else []) ++
    [.untrack tenantId r.taskId]

/-- The tenant that a request acts for when it reaches its handler, which is the one of its guard:
the context has what the middleware put there, or its default. -/
def tenantId (cfg : ServerConfig) (r : ThinkRequest T) : Option String :=
  match dispatch cfg.api r.http with
  | .ok (.next context) => some (guardTenant (context.getD "default") r.http)
  -- answered by the middleware, or status 500
  | .ok (.response ..) => none
  | .error _ => none

/-- All that a request may do. -/
def actions (cfg : ServerConfig) (r : ThinkRequest T) : List (Action T) :=
  match r.tenantId cfg with
  | some tenantId =>
    .checkQuota tenantId (estimateInputTokens r.title r.description) r.checkedAt ::
      r.guarded tenantId
  | none => []

end ThinkRequest

section Handlers

variable {T : Type} [Ring T] [LinearOrder T] (cfg : ServerConfig)

/-- `_record_task_cost` (server.py:391). -/
def recordTaskCost (s : ServerState T) (tenantId taskId : String) (now : T) (date : Date)
    (replies : RecordReplies) : ServerState T :=
  let totalTokens := s.tracer.getStats.totalTokens
  if totalTokens ≤ 0 then s
  else
    let record := CostTracker.recordOf tenantId taskId cfg.llmName cfg.modelName totalTokens 0
      "think" now
    { s with costs := s.costs.record cfg.backends record date replies }

/-- The state after an action. -/
def perform (s : ServerState T) : Action T → ServerState T
  | .checkQuota .. => s
  | .track tenantId taskId now =>
    { s with quotas := s.quotas.trackActiveTask false tenantId taskId now .ok .ok }
  | .think _ title run => { s with tracer := runThink s.tracer title run }
  | .record tenantId taskId now date replies =>
    recordTaskCost cfg s tenantId taskId now date replies
  | .untrack tenantId taskId =>
    { s with quotas := s.quotas.untrackActiveTask false tenantId taskId .ok }

/-- `check_quota` for a request. -/
def checkRequest (s : ServerState T) (r : ThinkRequest T) (tenantId : String) : Except PyExc Unit :=
  s.quotas.checkQuota false (cfg.getQuota tenantId) tenantId r.checkedAt
    (estimateInputTokens r.title r.description) .ok

/-- The state after the guarded part of a handler. -/
def handleFor (s : ServerState T) (r : ThinkRequest T) (tenantId : String) : ServerState T :=
  match checkRequest cfg s r tenantId with
  -- status 429
  | .error _ => s
  | .ok () => (r.guarded tenantId).foldl (perform cfg) s

/-- The state after a request of `/think` (server.py:496) or `/think/detail` (server.py:548). -/
def handle (s : ServerState T) (r : ThinkRequest T) : ServerState T :=
  match r.tenantId cfg with
  | some tenantId => handleFor cfg s r tenantId
  | none => s

end Handlers

/-! ## For whom a request acts -/

section Tenants

variable {T : Type} [Ring T] [LinearOrder T] {cfg : ServerConfig}

/-- Two states agree on the quota and the costs of a tenant. -/
structure SameFor (tenantId : String) (s s' : ServerState T) : Prop where
  quotas : QuotaManager.SameFor tenantId s.quotas s'.quotas
  costs : CostTracker.SameFor tenantId s.costs s'.costs

omit [Ring T] [LinearOrder T] in
theorem sameFor_recordTaskCost {tenantId tenantId' : String} (s : ServerState T) (taskId : String)
    (now : T) (date : Date) (replies : RecordReplies) (hne : tenantId ≠ tenantId') :
    SameFor tenantId s (recordTaskCost cfg s tenantId' taskId now date replies) := by
  rw [recordTaskCost]
  dsimp only
  split
  · exact ⟨.refl _ _, .refl _ _⟩
  · exact ⟨.refl _ _, CostTracker.sameFor_record _ _ _ (Ne.symm hne)⟩

/-- An action changes nothing of another tenant. -/
theorem sameFor_perform (s : ServerState T) {tenantId : String} (a : Action T)
    (hne : tenantId ≠ a.tenantId) : SameFor tenantId s (perform cfg s a) := by
  cases a with
  | checkQuota => exact ⟨.refl _ _, .refl _ _⟩
  | track tenantId' taskId now =>
    exact ⟨QuotaManager.sameFor_trackActiveTask taskId now .ok .ok hne, .refl _ _⟩
  | think => exact ⟨.refl _ _, .refl _ _⟩
  | record tenantId' taskId now date replies =>
    exact sameFor_recordTaskCost s taskId now date replies hne
  | untrack tenantId' taskId =>
    exact ⟨QuotaManager.sameFor_untrackActiveTask taskId .ok hne, .refl _ _⟩

/-- Every action of the request is for the tenant, and changes nothing of another one. -/
def ActsOnlyFor (cfg : ServerConfig) (tenantId : String) (r : ThinkRequest T) : Prop :=
  ∀ a ∈ r.actions cfg, a.tenantId = tenantId ∧
    ∀ s tenantId', tenantId' ≠ tenantId → SameFor tenantId' s (perform cfg s a)

/-- The tenant of the engine of the API is only a default. -/
theorem thinkTenant_apiEngineTenant (tenantId : String) :
    thinkTenant apiEngineTenant tenantId = tenantId := by
  rw [thinkTenant]
  split
  next => rfl
  next hdefault => exact (not_not.mp hdefault).symm

omit [Ring T] [LinearOrder T] in
/-- All actions of a request are for the tenant of its guard. -/
theorem tenantId_of_mem_guarded {r : ThinkRequest T} {tenantId : String} {a : Action T}
    (h : a ∈ r.guarded tenantId) : a.tenantId = tenantId := by
  simp only [ThinkRequest.guarded, List.mem_cons, List.mem_append, List.not_mem_nil,
    or_false] at h
  rcases h with ((rfl | rfl) | hrecord) | rfl
  · rfl
  · exact thinkTenant_apiEngineTenant _
  · split at hrecord
    · rw [List.mem_singleton.mp hrecord]
      rfl
    · cases hrecord
  · rfl

theorem actsOnlyFor_of_tenantId {tenantId tenantId' : String} {r : ThinkRequest T}
    (h : r.tenantId cfg = some tenantId') : ActsOnlyFor cfg tenantId r ↔ tenantId' = tenantId := by
  rw [ActsOnlyFor, ThinkRequest.actions, h]
  constructor
  · intro hacts
    exact (hacts _ List.mem_cons_self).1
  · rintro rfl a ha
    have htenant : a.tenantId = tenantId' := by
      rcases List.mem_cons.mp ha with rfl | ha
      · rfl
      · exact tenantId_of_mem_guarded ha
    exact ⟨htenant, fun s tenantId hne => sameFor_perform s a (htenant ▸ hne)⟩

/-- The header decides, then the context. -/
theorem guardTenant_eq_iff (context : String) (request : HttpRequest) :
    guardTenant context request = context ↔
      (request.header "x-tenant-id").getD "" ∈ ["", context] ∧ context ≠ "" := by
  rw [guardTenant]
  by_cases hheader : (request.header "x-tenant-id").getD "" = ""
  · rw [if_neg (not_not.mpr hheader), hheader]
    by_cases hcontext : context = ""
    · rw [if_neg (not_not.mpr hcontext)]
      exact iff_of_false (by rw [hcontext]; decide) fun h => h.2 hcontext
    · rw [if_pos hcontext]
      exact iff_of_true rfl ⟨List.mem_cons_self, hcontext⟩
  · rw [if_pos hheader]
    constructor
    · intro heq
      exact ⟨by rw [heq]; exact List.mem_cons_of_mem _ (List.mem_singleton_self _), heq ▸ hheader⟩
    · rintro ⟨hmem, -⟩
      rcases List.mem_cons.mp hmem with hempty | hmem
      · exact absurd hempty hheader
      · exact List.mem_singleton.mp hmem

/-- **Requests act for the tenant of their key.** A request that passes with a key that is bound
to a tenant acts for that tenant only, if and only if the tenant has a name and the request has no
header `x-tenant-id`, or an empty one, or one with the name of the tenant. -/
theorem actsOnlyFor_iff (cfg : ServerConfig) {r : ThinkRequest T} {tenantId : String}
    (hauth : dispatch cfg.api r.http = .ok (.next (some tenantId))) :
    ActsOnlyFor cfg tenantId r ↔
      (r.http.header "x-tenant-id").getD "" ∈ ["", tenantId] ∧ tenantId ≠ "" := by
  have htenant : r.tenantId cfg = some (guardTenant tenantId r.http) := by
    rw [ThinkRequest.tenantId, hauth]
    rfl
  rw [actsOnlyFor_of_tenantId htenant]
  exact guardTenant_eq_iff tenantId r.http

/-- A server with a key for each of two tenants. -/
def twoTenants : ServerConfig where
  api := { apiKeys := [⟨"key-a", "a"⟩, ⟨"key-b", "b"⟩] }
  quotas := fun _ => none
  backends := ⟨false, false⟩
  llmName := "openai"
  modelName := "gpt-4o"

/-- A request with the key of the tenant `a` and a header `x-tenant-id`. -/
def requestOfA (header : String) : ThinkRequest Int where
  http := ⟨"/think", [("x-api-key", "key-a"), ("x-tenant-id", header)]⟩
  taskId := "t"
  title := "title"
  description := ""
  checkedAt := 0
  trackedAt := 0
  recordedAt := 0
  date := ⟨2026, 1, 1⟩
  run := .returned [.complete "openai" (.answered 100 60 40)]
  replies := ⟨.ok, .ok, .ok, .ok, true⟩

theorem actsOnlyFor_requestOfA : ActsOnlyFor twoTenants "a" (requestOfA "a") :=
  (actsOnlyFor_iff twoTenants (by decide +kernel)).mpr (by decide +kernel)

/-- The request of the tenant `a` is billed to the tenant `b`. -/
theorem header_chooses_tenant :
    dispatch twoTenants.api (requestOfA "b").http = .ok (.next (some "a")) ∧
      ¬ ActsOnlyFor twoTenants "a" (requestOfA "b") ∧
      (CostTracker.recordsOf (handle twoTenants .new (requestOfA "b")).costs.records "b").length =
        1 := by
  refine ⟨by decide +kernel, ?_, by decide +kernel⟩
  intro h
  have htenant : (requestOfA "b").tenantId twoTenants = some "b" := by decide +kernel
  exact absurd ((actsOnlyFor_of_tenantId htenant).mp h) (by decide)

end Tenants

end Noema.Api
