import Noema.Lib.System

/-!
# Feature flags (`config/feature_flags.py`)

A lookup asks Redis, `_cache`, `_overrides` and PostgreSQL, in this order, and writes what it finds
to `_cache`, and to Redis in a task that nobody waits for. `set_flag` writes the override, then
removes what is cached, in memory and in Redis.

Calls and commands interleave: each event starts a call, carries out the command that a call waits
for, lets a call go on, or carries out a detached write. So a lookup may have read an old value
before a `set_flag` and write it back after. All commands succeed.

- `Lookup.settledBy`, `FlagState.latest`: bookkeeping of the model. A lookup that starts after the
  latest `set_flag` of its pair has completed must return its value, unless another one starts
  meanwhile; `TakesEffect` says that every answer on record is as it had to be.
- `Holds`: the override of a `set_flag` is in force, and what is cached since it removed the key
  agrees.
- `Coherent`: the invariant, of the latest `set_flag` of each pair of a tenant and a flag, and of
  the lookups that it settled (`LookupPhase.Agrees`).
- `Settles`: the condition on a step, that no late write brings back a value that was removed.
- **`takesEffect_of_settles`**: overrides take effect in the runs whose steps all meet it, and no
  step of a `set_flag` changes what a lookup of another pair returns.

Keys join their parts with a colon, and two pairs can have one key when a name has a colon of its
own; the pairs of a run are taken to have different keys. `lateWrite_hides_override` is a run with a
late write.
-/

namespace Noema.Config

open Noema.Lib

/-- A tenant id that is not empty. -/
abbrev TenantId := { tenantId : String // tenantId ≠ "" }

/-- What is looked up: a flag, of a tenant or of none. -/
abbrev FlagName := Option TenantId × String

/-- `DEFAULT_FLAGS`. -/
def defaultFlags : List (String × Bool) :=
  [("reflexion", true), ("pairwise_judge", true), ("advanced_security", false),
    ("graph_rag", false), ("multi_modal", false), ("sandbox_execution", true),
    ("cost_tracking", true), ("audit_logging", true)]

/-- `bool(self._defaults.get(flag_name, False))`. -/
def defaultOf (flag : String) : Bool := (defaultFlags.lookup flag).getD false

/-- `f"ff:{tenant_id or 'global'}:{flag_name}"`. -/
def cacheKey (name : FlagName) : String :=
  "ff:" ++ (name.1.elim "global" Subtype.val) ++ ":" ++ name.2

/-- The text of a value in Redis. -/
def toRedis (value : Bool) : String := if value then "true" else "false"

/-- The value of a text from Redis. -/
def fromRedis (cached : String) : Bool := cached.toLower = "true"

/-- Where a lookup stands: its command is under way, or has a reply that it has not seen yet. -/
inductive LookupPhase where
  | get
  | got (cached : Option String)
  | fetchval (tenantId : TenantId)
  | fetched (override : Option Bool)
  deriving DecidableEq

/-- Where a `set_flag` stands. -/
inductive SetPhase where
  | execute
  | executed
  | delete
  | deleted
  | done
  deriving DecidableEq

/-- The value has been removed from `_cache`. -/
def SetPhase.popped : SetPhase → Bool
  | .execute | .executed => false
  | .delete | .deleted | .done => true

/-- The value has been removed from Redis. -/
def SetPhase.erased : SetPhase → Bool
  | .execute | .executed | .delete => false
  | .deleted | .done => true

/-- A call of `is_enabled`. `settledBy` is the latest `set_flag` of its pair, if that had completed
when the lookup started. -/
structure Lookup where
  name : FlagName
  phase : LookupPhase
  settledBy : Option Nat

/-- A call of `set_flag`. -/
structure SetCall where
  tenantId : TenantId
  flag : String
  enabled : Bool
  phase : SetPhase

/-- The pair that is set. -/
def SetCall.name (c : SetCall) : FlagName := (some c.tenantId, c.flag)

/-- What a lookup has returned, and what it had to return, if a `set_flag` had settled that. -/
structure Answer where
  value : Bool
  required : Option Bool
  deriving DecidableEq

/-- A `FeatureFlagService` with its Redis and its PostgreSQL, the detached writes, and the calls.
`latest` is the `set_flag` of a pair that started last. -/
structure FlagState where
  cache : String → Option Bool
  overrides : TenantId → String → Option Bool
  redis : String → Option String
  pg : TenantId → String → Option Bool
  detached : List (String × Bool)
  lookups : Nat → Option Lookup
  sets : Nat → Option SetCall
  latest : FlagName → Option Nat
  answers : List Answer

namespace FlagState

variable (s : FlagState)

/-- `_set_cache`. -/
def setCache (key : String) (value : Bool) : FlagState :=
  { s with
    cache := Function.update s.cache key (some value)
    detached := s.detached ++ [(key, value)] }

/-- How `is_enabled` goes on: with a value, which it may cache, or with a query. -/
inductive Outcome where
  | value (value : Bool) (caches : Bool)
  | query (tenantId : TenantId)
  deriving DecidableEq

/-- `is_enabled`, when Redis has answered. -/
def afterGet (name : FlagName) (cached : Option String) : Outcome :=
  match cached with
  | some cached => .value (fromRedis cached) false
  | none =>
    match s.cache (cacheKey name) with
    | some value => .value value false
    | none =>
      match name.1 with
      | none => .value (defaultOf name.2) true
      | some tenantId =>
        match s.overrides tenantId name.2 with
        | some value => .value value true
        | none => .query tenantId

/-- `is_enabled`, when PostgreSQL has answered. -/
def afterFetch (name : FlagName) (override : Option Bool) : Bool :=
  override.getD (defaultOf name.2)

/-- What a lookup returns that runs alone. -/
def answer (name : FlagName) : Bool :=
  match s.afterGet name (s.redis (cacheKey name)) with
  | .value value _ => value
  | .query tenantId => afterFetch name (s.pg tenantId name.2)

/-- The latest `set_flag` of the pair, if it has completed. -/
def settled (name : FlagName) : Option Nat :=
  (s.latest name).filter fun id => (s.sets id).any fun c => c.phase = .done

/-- What a lookup has to return: the value of the `set_flag` that had settled it when the lookup
started, unless another one has started since. -/
def required (l : Lookup) : Option Bool :=
  (l.settledBy.filter fun id => s.latest l.name = some id).bind fun id =>
    (s.sets id).map SetCall.enabled

/-- The lookup returns. -/
def reply (id : Nat) (l : Lookup) (value caches : Bool) : FlagState :=
  let s' := if caches then s.setCache (cacheKey l.name) value else s
  { s' with
    lookups := Function.update s'.lookups id none
    answers := ⟨value, s.required l⟩ :: s'.answers }

/-- The command that a lookup waits for is carried out. -/
def serveLookup (l : Lookup) : Option Lookup :=
  match l.phase with
  | .get => some { l with phase := .got (s.redis (cacheKey l.name)) }
  | .fetchval tenantId => some { l with phase := .fetched (s.pg tenantId l.name.2) }
  | .got _ | .fetched _ => none

/-- `is_enabled` goes on. -/
def resumeLookup (id : Nat) (l : Lookup) : Option FlagState :=
  match l.phase with
  | .got cached =>
    match s.afterGet l.name cached with
    | .value value caches => some (s.reply id l value caches)
    | .query tenantId =>
      let l' := { l with phase := .fetchval tenantId }
      some { s with lookups := Function.update s.lookups id (some l') }
  | .fetched override => some (s.reply id l (afterFetch l.name override) true)
  | .get | .fetchval _ => none

/-- `set_flag` starts. -/
def startSet (id : Nat) (tenantId : TenantId) (flag : String) (enabled : Bool) : FlagState :=
  { s with
    overrides := Function.update s.overrides tenantId
      (Function.update (s.overrides tenantId) flag (some enabled))
    sets := Function.update s.sets id (some ⟨tenantId, flag, enabled, .execute⟩)
    latest := Function.update s.latest (some tenantId, flag) (some id) }

/-- The command that a `set_flag` waits for is carried out. -/
def serveSet (id : Nat) (c : SetCall) : Option FlagState :=
  match c.phase with
  | .execute =>
    some { s with
      pg := Function.update s.pg c.tenantId
        (Function.update (s.pg c.tenantId) c.flag (some c.enabled))
      sets := Function.update s.sets id (some { c with phase := .executed }) }
  | .delete =>
    some { s with
      redis := Function.update s.redis (cacheKey c.name) none
      sets := Function.update s.sets id (some { c with phase := .deleted }) }
  | .executed | .deleted | .done => none

/-- `set_flag` goes on. -/
def resumeSet (id : Nat) (c : SetCall) : Option FlagState :=
  match c.phase with
  | .executed =>
    some { s with
      cache := Function.update s.cache (cacheKey c.name) none
      sets := Function.update s.sets id (some { c with phase := .delete }) }
  | .deleted => some { s with sets := Function.update s.sets id (some { c with phase := .done }) }
  | .execute | .delete | .done => none

end FlagState

/-- What happens next. Calls have numbers; a detached write has its place among those under way. -/
inductive FlagEvent where
  | isEnabled (id : Nat) (name : FlagName)
  | serveLookup (id : Nat)
  | resumeLookup (id : Nat)
  | setFlag (id : Nat) (tenantId : TenantId) (flag : String) (enabled : Bool)
  | serveSet (id : Nat)
  | resumeSet (id : Nat)
  | setex (i : Nat)
  | expire (key : String)

/-- The service, over any Redis and any PostgreSQL. -/
def flagSystem (redis : String → Option String) (pg : TenantId → String → Option Bool) :
    System FlagState FlagEvent where
  init :=
    { cache := fun _ => none
      overrides := fun _ _ => none
      redis, pg
      detached := []
      lookups := fun _ => none
      sets := fun _ => none
      latest := fun _ => none
      answers := [] }
  step s e :=
    match e with
    | .isEnabled id name =>
      if s.lookups id = none then
        some { s with lookups := Function.update s.lookups id (some ⟨name, .get, s.settled name⟩) }
      else none
    | .serveLookup id =>
      (s.lookups id).bind fun l => (s.serveLookup l).map fun l' =>
        { s with lookups := Function.update s.lookups id (some l') }
    | .resumeLookup id => (s.lookups id).bind fun l => s.resumeLookup id l
    | .setFlag id tenantId flag enabled =>
      if s.sets id = none then some (s.startSet id tenantId flag enabled) else none
    | .serveSet id => (s.sets id).bind fun c => s.serveSet id c
    | .resumeSet id => (s.sets id).bind fun c => s.resumeSet id c
    -- a write that was detached reaches Redis at any later time
    | .setex i =>
      s.detached[i]?.map fun write =>
        { s with
          redis := Function.update s.redis write.1 (some (toRedis write.2))
          detached := s.detached.eraseIdx i }
    -- the time to live of a key is over, which may be at any time
    | .expire key => some { s with redis := Function.update s.redis key none }

/-! ## The condition and the properties -/

/-- Whatever a lookup has returned, it returned what it had to. -/
def TakesEffect (s : FlagState) : Prop := ∀ a ∈ s.answers, ∀ value ∈ a.required, a.value = value

/-- The pair whose value a step of a `set_flag` sets. -/
def FlagEvent.overridden (s : FlagState) : FlagEvent → Option FlagName
  | .setFlag _ tenantId flag _ => some (some tenantId, flag)
  | .serveSet id | .resumeSet id => (s.sets id).map SetCall.name
  | .isEnabled .. | .serveLookup _ | .resumeLookup _ | .setex _ | .expire _ => none

/-- A step of a `set_flag` of one pair does not change what a lookup of another one returns. -/
def LeavesOthers (names : Set FlagName) (step : FlagState → FlagEvent → Option FlagState)
    (s : FlagState) (e : FlagEvent) : Prop :=
  ∀ name ∈ e.overridden s, ∀ s' ∈ step s e, ∀ other ∈ names, other ≠ name →
    s'.answer other = s.answer other

/-- A value that is written under a key now is the one that the latest `set_flag` of that key has
set, if this has got as far as `removed`. -/
def Current (s : FlagState) (removed : SetPhase → Bool) (key : String) (value : Bool) : Prop :=
  ∀ name id c, cacheKey name = key → s.latest name = some id → s.sets id = some c →
    removed c.phase = true → value = c.enabled

/-- The condition on a step. Calls are about the pairs in `names`. No detached write lands in Redis
after the key was removed there, and no lookup that was waiting for PostgreSQL writes to `_cache`
after the key was removed there, with a value other than the one that was set. -/
def Settles (names : Set FlagName) (s : FlagState) : FlagEvent → Prop
  | .isEnabled _ name => name ∈ names
  | .setFlag _ tenantId flag _ => (some tenantId, flag) ∈ names
  | .setex i => ∀ write ∈ s.detached[i]?, Current s SetPhase.erased write.1 write.2
  | .resumeLookup id => ∀ l ∈ s.lookups id, ∀ override, l.phase = .fetched override →
      Current s SetPhase.popped (cacheKey l.name) (FlagState.afterFetch l.name override)
  | .serveLookup _ | .serveSet _ | .resumeSet _ | .expire _ => True

/-! ## The invariant -/

/-- The override of a `set_flag` is in force, and what is cached since it removed the key agrees. -/
structure Holds (s : FlagState) (c : SetCall) : Prop where
  override : s.overrides c.tenantId c.flag = some c.enabled
  cache : c.phase.popped = true → ∀ value ∈ s.cache (cacheKey c.name), value = c.enabled
  redis : c.phase.erased = true → ∀ cached ∈ s.redis (cacheKey c.name), fromRedis cached = c.enabled

/-- A lookup will return the value: it has not read another one, and did not have to ask
PostgreSQL. -/
def LookupPhase.Agrees (enabled : Bool) : LookupPhase → Prop
  | .get => True
  | .got cached => ∀ text ∈ cached, fromRedis text = enabled
  | .fetchval _ | .fetched _ => False

/-- A lookup that a `set_flag` had settled when it started. -/
def Settled (s : FlagState) (l : Lookup) : Prop :=
  ∀ id, l.settledBy = some id → ∃ c, s.sets id = some c ∧ c.phase = .done ∧
    (s.latest l.name = some id → l.phase.Agrees c.enabled)

/-- The invariant. For the latest `set_flag` of each pair, its override holds; every lookup that it
had settled when the lookup started will return its value; and every answer so far is as it had to
be. -/
structure Coherent (names : Set FlagName) (s : FlagState) : Prop where
  sets : ∀ id c, s.sets id = some c → c.name ∈ names
  latest : ∀ name id, s.latest name = some id → ∃ c, s.sets id = some c ∧ c.name = name ∧ Holds s c
  lookups : ∀ n l, s.lookups n = some l → l.name ∈ names ∧ Settled s l
  answers : TakesEffect s

variable {names : Set FlagName} {s s' : FlagState} {id : Nat} {l : Lookup} {c : SetCall}

/-- The value of the latest `set_flag` is what a lookup that it settled has to return. -/
theorem Coherent.required (h : Coherent names s) (hl : Settled s l) {value : Bool}
    (hrequired : s.required l = some value) :
    ∃ c id, s.latest l.name = some id ∧ s.sets id = some c ∧ c.name = l.name ∧ Holds s c ∧
      c.phase = .done ∧ l.phase.Agrees value ∧ c.enabled = value := by
  obtain ⟨id, hid, hvalue⟩ := Option.bind_eq_some_iff.mp hrequired
  obtain ⟨hsettled, hlatest⟩ := Option.filter_eq_some_iff.mp hid
  have hlatest : s.latest l.name = some id := by simpa using hlatest
  obtain ⟨c, hc, hdone, hagrees⟩ := hl id hsettled
  obtain ⟨c', hc', hname, hholds⟩ := h.latest l.name id hlatest
  rw [hc] at hc' hvalue
  cases hc'
  cases hvalue
  exact ⟨c, id, hlatest, hc, hname, hholds, hdone, hagrees hlatest, rfl⟩

/-- How a lookup goes on, by the layer that answers. -/
theorem afterGet_cases (s : FlagState) (name : FlagName) (cached : Option String) :
    (∃ text, cached = some text ∧ s.afterGet name cached = .value (fromRedis text) false) ∨
    (∃ value, s.cache (cacheKey name) = some value ∧ s.afterGet name cached = .value value false) ∨
    (name.1 = none ∧ s.afterGet name cached = .value (defaultOf name.2) true) ∨
    ∃ tenantId, name.1 = some tenantId ∧
      ((∃ value, s.overrides tenantId name.2 = some value ∧
          s.afterGet name cached = .value value true) ∨
        s.overrides tenantId name.2 = none ∧ s.afterGet name cached = .query tenantId) := by
  unfold FlagState.afterGet
  cases cached with
  | some text => exact .inl ⟨text, rfl, rfl⟩
  | none =>
    cases hcache : s.cache (cacheKey name) with
    | some value => exact .inr (.inl ⟨value, rfl, rfl⟩)
    | none =>
      cases htenant : name.1 with
      | none => exact .inr (.inr (.inl ⟨rfl, rfl⟩))
      | some tenantId =>
        refine .inr (.inr (.inr ⟨tenantId, rfl, ?_⟩))
        cases hoverride : s.overrides tenantId name.2 with
        | some value => exact .inl ⟨value, rfl, by simp only [hoverride]⟩
        | none => exact .inr ⟨rfl, by simp only [hoverride]⟩

/-- When the latest `set_flag` has completed, Redis, `_cache` and `_overrides` all have its value.
-/
theorem Holds.afterGet (h : Holds s c) (hdone : c.phase = .done) {cached : Option String}
    (hcached : ∀ text ∈ cached, fromRedis text = c.enabled) :
    ∃ caches, s.afterGet c.name cached = .value c.enabled caches := by
  rcases afterGet_cases s c.name cached with ⟨text, rfl, hout⟩ | ⟨value, hcache, hout⟩ |
    ⟨htenant, -⟩ | ⟨tenantId, htenant, hout⟩
  · exact ⟨false, by rw [hout, hcached text rfl]⟩
  · exact ⟨false, by rw [hout, h.cache (by rw [hdone]; rfl) value hcache]⟩
  · cases htenant
  · cases htenant
    rcases hout with ⟨value, hoverride, hout⟩ | ⟨hoverride, -⟩
    · have hvalue := hoverride.symm.trans h.override
      cases hvalue
      exact ⟨true, hout⟩
    · cases hoverride.symm.trans h.override

/-- What is written to `_cache` under the key of a pair keeps to its override. -/
theorem Holds.setCache (h : Holds s c) {key : String} {value : Bool}
    (hvalue : cacheKey c.name = key → c.phase.popped = true → value = c.enabled) :
    Holds (s.setCache key value) c where
  override := h.override
  cache hpopped value' hcache := by
    rcases mem_update hcache with ⟨hkey, hnew⟩ | ⟨-, hold⟩
    · cases hnew
      exact hvalue hkey hpopped
    · exact h.cache hpopped value' hold
  redis := h.redis

/-- A lookup starts, goes on or ends: the calls of `set_flag` stay as they are. -/
theorem Coherent.updateLookup (h : Coherent names s) {n : Nat} {o : Option Lookup}
    (hentry : ∀ l ∈ o, l.name ∈ names ∧ Settled s l) :
    Coherent names { s with lookups := Function.update s.lookups n o } where
  sets := h.sets
  latest name k hlatest := by
    obtain ⟨c, hc, hname, hholds⟩ := h.latest name k hlatest
    exact ⟨c, hc, hname, hholds.override, hholds.cache, hholds.redis⟩
  lookups k l hl := by
    rcases mem_update hl with ⟨-, hnew⟩ | ⟨-, hold⟩
    · exact hentry l hnew
    · exact h.lookups k l hold
  answers := h.answers

/-- What `_set_cache` needs. -/
theorem Coherent.setCache (h : Coherent names s) {key : String} {value : Bool}
    (hvalue : Current s SetPhase.popped key value) : Coherent names (s.setCache key value) where
  sets := h.sets
  latest name n hlatest := by
    obtain ⟨c, hc, rfl, hholds⟩ := h.latest name n hlatest
    exact ⟨c, hc, rfl, hholds.setCache fun hkey hpopped => hvalue c.name n c hkey hlatest hc hpopped⟩
  lookups := h.lookups
  answers := h.answers

/-- What a lookup needs to return. -/
theorem Coherent.reply (h : Coherent names s) {value caches : Bool}
    (hrequired : ∀ v ∈ s.required l, value = v)
    (hvalue : caches = true → Current s SetPhase.popped (cacheKey l.name) value) :
    Coherent names (s.reply id l value caches) := by
  have hcached : Coherent names (if caches then s.setCache (cacheKey l.name) value else s) := by
    split_ifs with hcaches
    · exact h.setCache (hvalue hcaches)
    · exact h
  have hended := hcached.updateLookup (n := id) (o := none) fun l hl => by cases hl
  refine ⟨hended.sets, fun name n hlatest => ?_, hended.lookups, ?_⟩
  · obtain ⟨c, hc, hname, hholds⟩ := hended.latest name n hlatest
    exact ⟨c, hc, hname, hholds.override, hholds.cache, hholds.redis⟩
  · exact List.forall_mem_cons.mpr ⟨hrequired, hended.answers⟩

/-- A value that comes from `_overrides` or, without a tenant, from the defaults is current. -/
theorem current_of_afterGet (h : Coherent names s) (hinj : Set.InjOn cacheKey names)
    (hname : l.name ∈ names) {cached : Option String} {value : Bool}
    (hout : s.afterGet l.name cached = .value value true) :
    Current s SetPhase.popped (cacheKey l.name) value := by
  intro name n c hkey hlatest hc hpopped
  obtain ⟨c', hc', rfl, hholds⟩ := h.latest name n hlatest
  cases hc.symm.trans hc'
  have hsame : c.name = l.name := hinj (h.sets n c hc) hname hkey
  rcases afterGet_cases s l.name cached with ⟨text, -, hout'⟩ | ⟨value', -, hout'⟩ |
    ⟨htenant, -⟩ | ⟨tenantId, htenant, ⟨value', hoverride, hout'⟩ | ⟨-, hout'⟩⟩
  · cases hout.symm.trans hout'
  · cases hout.symm.trans hout'
  · rw [← hsame] at htenant
    cases htenant
  · cases hout.symm.trans hout'
    rw [← hsame] at htenant hoverride
    cases htenant
    exact Option.some.inj (hoverride.symm.trans hholds.override)
  · cases hout.symm.trans hout'

theorem coherent_resumeLookup (h : Coherent names s) (hinj : Set.InjOn cacheKey names)
    (hl : s.lookups id = some l)
    (hsettles : ∀ override, l.phase = .fetched override →
      Current s SetPhase.popped (cacheKey l.name) (FlagState.afterFetch l.name override))
    (hstep : s.resumeLookup id l = some s') : Coherent names s' := by
  obtain ⟨hname, hsettled⟩ := h.lookups id l hl
  cases hphase : l.phase with
  | get =>
    rw [FlagState.resumeLookup, hphase] at hstep
    cases hstep
  | fetchval tenantId =>
    rw [FlagState.resumeLookup, hphase] at hstep
    cases hstep
  | fetched override =>
    rw [FlagState.resumeLookup, hphase] at hstep
    cases hstep
    refine h.reply (fun v hv => ?_) fun _ => hsettles override hphase
    -- A lookup that was settled does not ask PostgreSQL.
    obtain ⟨-, -, -, -, -, -, -, hagrees, -⟩ := h.required hsettled hv
    rw [hphase] at hagrees
    exact hagrees.elim
  | got cached =>
    simp only [FlagState.resumeLookup, hphase] at hstep
    cases hout : s.afterGet l.name cached with
    | value value caches =>
      rw [hout] at hstep
      cases hstep
      refine h.reply (fun v hv => ?_) fun hcaches => ?_
      · obtain ⟨c, n, -, -, hc, hholds, hdone, hagrees, rfl⟩ := h.required hsettled hv
        rw [hphase] at hagrees
        rw [← hc] at hout
        obtain ⟨_, hvalue⟩ := hholds.afterGet hdone hagrees
        cases hout.symm.trans hvalue
        rfl
      · subst hcaches
        exact current_of_afterGet h hinj hname hout
    | query tenantId =>
      rw [hout] at hstep
      cases hstep
      refine h.updateLookup fun l' hl' => ?_
      cases hl'
      refine ⟨hname, fun n hn => ?_⟩
      obtain ⟨c, hc, hdone, hagrees⟩ := hsettled n hn
      refine ⟨c, hc, hdone, fun hlatest => ?_⟩
      obtain ⟨c', hc', hname', hholds⟩ := h.latest l.name n hlatest
      cases hc.symm.trans hc'
      have hagrees := hagrees hlatest
      rw [hphase] at hagrees
      obtain ⟨_, hvalue⟩ := hholds.afterGet hdone hagrees
      rw [hname'] at hvalue
      cases hout.symm.trans hvalue

theorem coherent_serveLookup (h : Coherent names s) (hl : s.lookups id = some l) {l' : Lookup}
    (hstep : s.serveLookup l = some l') : l'.name ∈ names ∧ Settled s l' := by
  obtain ⟨hname, hsettled⟩ := h.lookups id l hl
  cases hphase : l.phase with
  | get =>
    rw [FlagState.serveLookup, hphase] at hstep
    cases hstep
    -- The reply is the text in Redis, which agrees since the `set_flag` has removed the key.
    refine ⟨hname, fun n hn => ?_⟩
    obtain ⟨c, hc, hdone, -⟩ := hsettled n hn
    refine ⟨c, hc, hdone, fun hlatest => ?_⟩
    obtain ⟨c', hc', hname', hholds⟩ := h.latest l.name n hlatest
    cases hc.symm.trans hc'
    show ∀ text ∈ s.redis (cacheKey l.name), fromRedis text = c.enabled
    rw [← hname']
    exact hholds.redis (by rw [hdone]; rfl)
  | fetchval tenantId =>
    rw [FlagState.serveLookup, hphase] at hstep
    cases hstep
    refine ⟨hname, fun n hn => ?_⟩
    obtain ⟨c, hc, hdone, hagrees⟩ := hsettled n hn
    exact ⟨c, hc, hdone, by rwa [hphase] at hagrees⟩
  | got cached =>
    rw [FlagState.serveLookup, hphase] at hstep
    cases hstep
  | fetched override =>
    rw [FlagState.serveLookup, hphase] at hstep
    cases hstep

theorem coherent_isEnabled (h : Coherent names s) {name : FlagName} (hname : name ∈ names) :
    Coherent names { s with
      lookups := Function.update s.lookups id (some ⟨name, .get, s.settled name⟩) } := by
  refine h.updateLookup fun l hl => ?_
  cases hl
  refine ⟨hname, fun n hn => ?_⟩
  obtain ⟨-, hdone⟩ := Option.filter_eq_some_iff.mp hn
  obtain ⟨c, hc, hdone⟩ := (Option.any_eq_true ..).mp hdone
  exact ⟨c, hc, by simpa using hdone, fun _ => trivial⟩

/-- A new override. Nothing is cached that it has to agree with yet. -/
theorem coherent_startSet (h : Coherent names s) (hid : s.sets id = none) {tenantId : TenantId}
    {flag : String} {enabled : Bool} (hname : (some tenantId, flag) ∈ names) :
    Coherent names (s.startSet id tenantId flag enabled) where
  sets n c hc := by
    rcases mem_update hc with ⟨-, hnew⟩ | ⟨-, hold⟩
    · cases hnew
      exact hname
    · exact h.sets n c hold
  latest name n hlatest := by
    rcases mem_update hlatest with ⟨rfl, hnew⟩ | ⟨hother, hold⟩
    · cases hnew
      refine ⟨_, Function.update_self .., rfl, ?_, fun h => (by cases h), fun h => (by cases h)⟩
      simp [FlagState.startSet]
    · obtain ⟨c, hc, rfl, hholds⟩ := h.latest name n hold
      have hne : n ≠ id := fun heq => by cases (heq ▸ hc).symm.trans hid
      refine ⟨c, (Function.update_of_ne hne ..).trans hc, rfl, ?_, hholds.cache, hholds.redis⟩
      rw [← hholds.override]
      -- The override of another pair stays: another tenant, or another flag of this one.
      by_cases htenant : c.tenantId = tenantId
      · have hflag : c.flag ≠ flag := fun hflag => hother (by rw [SetCall.name, htenant, hflag])
        simp [FlagState.startSet, htenant, hflag]
      · simp [FlagState.startSet, htenant]
  lookups n l hl := by
    obtain ⟨hnames, hsettled⟩ := h.lookups n l hl
    refine ⟨hnames, fun k hk => ?_⟩
    obtain ⟨c, hc, hdone, hagrees⟩ := hsettled k hk
    have hne : k ≠ id := fun heq => by cases (heq ▸ hc).symm.trans hid
    refine ⟨c, (Function.update_of_ne hne ..).trans hc, hdone, fun hlatest => ?_⟩
    rcases mem_update hlatest with ⟨-, hnew⟩ | ⟨-, hold⟩
    · exact absurd (Option.some.inj hnew).symm hne
    · exact hagrees hold
  answers := h.answers

/-- A call of `set_flag` goes on. It only removes what is cached, and it has removed the value of
its own pair where its phase says so. -/
theorem Coherent.advance (h : Coherent names s) (hc : s.sets id = some c) (hdone : c.phase ≠ .done)
    {phase : SetPhase} {cache : String → Option Bool} {redis : String → Option String}
    {pg : TenantId → String → Option Bool} (hcache : ∀ key, ∀ v ∈ cache key, v ∈ s.cache key)
    (hredis : ∀ key, ∀ v ∈ redis key, v ∈ s.redis key)
    (hpopped : phase.popped = true → c.phase.popped = true ∨ cache (cacheKey c.name) = none)
    (herased : phase.erased = true → c.phase.erased = true ∨ redis (cacheKey c.name) = none) :
    Coherent names { s with
      cache, redis, pg, sets := Function.update s.sets id (some { c with phase }) } where
  sets n c' hc' := by
    rcases mem_update hc' with ⟨-, hnew⟩ | ⟨-, hold⟩
    · cases hnew
      exact h.sets id c hc
    · exact h.sets n c' hold
  latest name n hlatest := by
    obtain ⟨c', hc', rfl, hholds⟩ := h.latest name n hlatest
    -- Nothing comes into the caches, so that the others keep what they have; the call itself may
    -- have removed its own key now.
    by_cases hn : n = id
    · subst hn
      cases hc.symm.trans hc'
      refine ⟨_, Function.update_self .., rfl, hholds.override, fun hphase v hv => ?_,
        fun hphase v hv => ?_⟩
      · rcases hpopped hphase with hbefore | hnone
        · exact hholds.cache hbefore v (hcache _ v hv)
        · cases hnone.symm.trans hv
      · rcases herased hphase with hbefore | hnone
        · exact hholds.redis hbefore v (hredis _ v hv)
        · cases hnone.symm.trans hv
    · exact ⟨c', (Function.update_of_ne hn ..).trans hc', rfl, hholds.override,
        fun hphase v hv => hholds.cache hphase v (hcache _ v hv),
        fun hphase v hv => hholds.redis hphase v (hredis _ v hv)⟩
  lookups n l hl := by
    obtain ⟨hname, hsettled⟩ := h.lookups n l hl
    refine ⟨hname, fun k hk => ?_⟩
    obtain ⟨c', hc', hdone', hagrees⟩ := hsettled k hk
    have hne : k ≠ id := by
      rintro rfl
      cases hc.symm.trans hc'
      exact hdone hdone'
    exact ⟨c', (Function.update_of_ne hne ..).trans hc', hdone', hagrees⟩
  answers := h.answers

/-- What is not removed was there before. -/
theorem mem_of_mem_erase {V : Type} {f : String → Option V} {key key' : String} {value : V}
    (h : value ∈ Function.update f key none key') : value ∈ f key' := by
  rcases mem_update h with ⟨-, hnew⟩ | ⟨-, hold⟩
  · cases hnew
  · exact hold

theorem coherent_serveSet (h : Coherent names s) (hc : s.sets id = some c)
    (hstep : s.serveSet id c = some s') : Coherent names s' := by
  cases hphase : c.phase with
  | execute =>
    rw [FlagState.serveSet, hphase] at hstep
    cases hstep
    exact h.advance hc (by rw [hphase]; decide) (fun _ _ hv => hv) (fun _ _ hv => hv)
      (fun h => by cases h) fun h => by cases h
  | delete =>
    rw [FlagState.serveSet, hphase] at hstep
    cases hstep
    exact h.advance hc (by rw [hphase]; decide) (fun _ _ hv => hv) (fun _ _ hv => mem_of_mem_erase hv)
      (fun _ => .inl (by rw [hphase]; rfl)) fun _ => .inr (Function.update_self ..)
  | executed | deleted | done =>
    rw [FlagState.serveSet, hphase] at hstep
    cases hstep

theorem coherent_resumeSet (h : Coherent names s) (hc : s.sets id = some c)
    (hstep : s.resumeSet id c = some s') : Coherent names s' := by
  cases hphase : c.phase with
  | executed =>
    rw [FlagState.resumeSet, hphase] at hstep
    cases hstep
    exact h.advance hc (by rw [hphase]; decide) (fun _ _ hv => mem_of_mem_erase hv) (fun _ _ hv => hv)
      (fun _ => .inr (Function.update_self ..)) fun h => by cases h
  | deleted =>
    rw [FlagState.resumeSet, hphase] at hstep
    cases hstep
    exact h.advance hc (by rw [hphase]; decide) (fun _ _ hv => hv) (fun _ _ hv => hv)
      (fun _ => .inl (by rw [hphase]; rfl)) fun _ => .inl (by rw [hphase]; rfl)
  | execute | delete | done =>
    rw [FlagState.resumeSet, hphase] at hstep
    cases hstep

/-- Redis changes on its own: whatever it has now it had before, or it is current. -/
theorem Coherent.updateRedis (h : Coherent names s) {redis : String → Option String}
    {detached : List (String × Bool)} (hredis : ∀ key, ∀ cached ∈ redis key,
      cached ∈ s.redis key ∨ Current s SetPhase.erased key (fromRedis cached)) :
    Coherent names { s with redis, detached } where
  sets := h.sets
  latest name n hlatest := by
    obtain ⟨c, hc, rfl, hholds⟩ := h.latest name n hlatest
    refine ⟨c, hc, rfl, hholds.override, hholds.cache, fun herased cached hcached => ?_⟩
    rcases hredis _ cached hcached with hold | hnew
    · exact hholds.redis herased cached hold
    · exact hnew c.name n c rfl hlatest hc herased
  lookups := h.lookups
  answers := h.answers

theorem fromRedis_toRedis (value : Bool) : fromRedis (toRedis value) = value := by
  cases value <;> decide +kernel

theorem coherent_step {redis : String → Option String} {pg : TenantId → String → Option Bool}
    {e : FlagEvent} (hinj : Set.InjOn cacheKey names) (h : Coherent names s)
    (hsettles : Settles names s e) (hstep : (flagSystem redis pg).step s e = some s') :
    Coherent names s' := by
  cases e with
  | isEnabled id name =>
    obtain ⟨-, hstep⟩ := Option.ite_none_right_eq_some.mp hstep
    cases hstep
    exact coherent_isEnabled h hsettles
  | serveLookup id =>
    obtain ⟨l, hl, hstep⟩ := Option.bind_eq_some_iff.mp hstep
    obtain ⟨l', hl', hstep⟩ := Option.map_eq_some_iff.mp hstep
    cases hstep
    refine h.updateLookup fun l'' heq => ?_
    cases heq
    exact coherent_serveLookup h hl hl'
  | resumeLookup id =>
    obtain ⟨l, hl, hstep⟩ := Option.bind_eq_some_iff.mp hstep
    exact coherent_resumeLookup h hinj hl (hsettles l hl) hstep
  | setFlag id tenantId flag enabled =>
    obtain ⟨hid, hstep⟩ := Option.ite_none_right_eq_some.mp hstep
    cases hstep
    exact coherent_startSet h hid hsettles
  | serveSet id =>
    obtain ⟨c, hc, hstep⟩ := Option.bind_eq_some_iff.mp hstep
    exact coherent_serveSet h hc hstep
  | resumeSet id =>
    obtain ⟨c, hc, hstep⟩ := Option.bind_eq_some_iff.mp hstep
    exact coherent_resumeSet h hc hstep
  -- A detached write lands, with a value that is current by the condition.
  | setex i =>
    obtain ⟨write, hwrite, hstep⟩ := Option.map_eq_some_iff.mp hstep
    cases hstep
    refine h.updateRedis fun key cached hcached => ?_
    rcases mem_update hcached with ⟨rfl, hnew⟩ | ⟨-, hold⟩
    · cases hnew
      rw [fromRedis_toRedis]
      exact .inr (hsettles write hwrite)
    · exact .inl hold
  | expire key =>
    cases hstep
    exact h.updateRedis fun key' cached hcached => .inl (mem_of_mem_erase hcached)

/-! ## Other pairs -/

/-- What a lookup that runs alone returns depends on the entries of its pair only. -/
theorem answer_congr {name : FlagName} (hredis : s'.redis (cacheKey name) = s.redis (cacheKey name))
    (hcache : s'.cache (cacheKey name) = s.cache (cacheKey name))
    (hoverride : ∀ tenantId ∈ name.1, s'.overrides tenantId name.2 = s.overrides tenantId name.2)
    (hpg : ∀ tenantId ∈ name.1, s'.pg tenantId name.2 = s.pg tenantId name.2) :
    s'.answer name = s.answer name := by
  obtain ⟨tenant, flag⟩ := name
  unfold FlagState.answer FlagState.afterGet
  rw [hredis, hcache]
  cases s.redis (cacheKey (tenant, flag)) with
  | some cached => rfl
  | none =>
    cases s.cache (cacheKey (tenant, flag)) with
    | some value => rfl
    | none =>
      cases tenant with
      | none => rfl
      | some tenantId =>
        simp only [hoverride tenantId rfl]
        cases s.overrides tenantId flag with
        | some value => rfl
        | none => simp only [hpg tenantId rfl]

/-- An update for one tenant and flag leaves the entries of the others alone. -/
theorem update_update_of_ne {f : TenantId → String → Option Bool} {tenantId tenantId' : TenantId}
    {flag flag' : String} {entry : Option Bool}
    (hne : ((some tenantId', flag') : FlagName) ≠ (some tenantId, flag)) :
    Function.update f tenantId (Function.update (f tenantId) flag entry) tenantId' flag' =
      f tenantId' flag' := by
  by_cases htenant : tenantId' = tenantId
  · subst htenant
    have hflag : flag' ≠ flag := fun hflag => hne (by rw [hflag])
    rw [Function.update_self, Function.update_of_ne hflag]
  · rw [Function.update_of_ne htenant]

theorem answer_startSet {tenantId : TenantId} {flag : String} {enabled : Bool} {other : FlagName}
    (hother : other ≠ (some tenantId, flag)) :
    (s.startSet id tenantId flag enabled).answer other = s.answer other := by
  obtain ⟨tenant, flag'⟩ := other
  refine answer_congr rfl rfl (fun tenantId' htenant => ?_) fun _ _ => rfl
  cases htenant
  exact update_update_of_ne hother

theorem answer_serveSet {other : FlagName} (hother : other ≠ c.name)
    (hkey : cacheKey other ≠ cacheKey c.name) (hstep : s.serveSet id c = some s') :
    s'.answer other = s.answer other := by
  cases hphase : c.phase with
  | execute =>
    rw [FlagState.serveSet, hphase] at hstep
    cases hstep
    obtain ⟨tenant, flag'⟩ := other
    refine answer_congr rfl rfl (fun _ _ => rfl) fun tenantId' htenant => ?_
    cases htenant
    exact update_update_of_ne hother
  | delete =>
    rw [FlagState.serveSet, hphase] at hstep
    cases hstep
    exact answer_congr (Function.update_of_ne hkey ..) rfl (fun _ _ => rfl) fun _ _ => rfl
  | executed | deleted | done =>
    rw [FlagState.serveSet, hphase] at hstep
    cases hstep

theorem answer_resumeSet {other : FlagName} (hkey : cacheKey other ≠ cacheKey c.name)
    (hstep : s.resumeSet id c = some s') : s'.answer other = s.answer other := by
  cases hphase : c.phase with
  | executed =>
    rw [FlagState.resumeSet, hphase] at hstep
    cases hstep
    exact answer_congr rfl (Function.update_of_ne hkey ..) (fun _ _ => rfl) fun _ _ => rfl
  | deleted =>
    rw [FlagState.resumeSet, hphase] at hstep
    cases hstep
    exact answer_congr rfl rfl (fun _ _ => rfl) fun _ _ => rfl
  | execute | delete | done =>
    rw [FlagState.resumeSet, hphase] at hstep
    cases hstep

theorem Coherent.leavesOthers {redis : String → Option String}
    {pg : TenantId → String → Option Bool} {e : FlagEvent} (hinj : Set.InjOn cacheKey names)
    (h : Coherent names s) : LeavesOthers names (flagSystem redis pg).step s e := by
  rintro name hname s' hstep other hmem hother
  have hkey : ∀ c : SetCall, c.name ∈ names → other ≠ c.name → cacheKey other ≠ cacheKey c.name :=
    fun c hc hne heq => hne (hinj hmem hc heq)
  cases e with
  | setFlag id tenantId flag enabled =>
    cases hname
    obtain ⟨-, hstep⟩ := Option.ite_none_right_eq_some.mp hstep
    cases hstep
    exact answer_startSet hother
  | serveSet id =>
    obtain ⟨c, hc, hstep⟩ := Option.bind_eq_some_iff.mp hstep
    obtain ⟨c', hc', rfl⟩ := Option.map_eq_some_iff.mp hname
    cases hc.symm.trans hc'
    exact answer_serveSet hother (hkey c (h.sets id c hc) hother) hstep
  | resumeSet id =>
    obtain ⟨c, hc, hstep⟩ := Option.bind_eq_some_iff.mp hstep
    obtain ⟨c', hc', rfl⟩ := Option.map_eq_some_iff.mp hname
    cases hc.symm.trans hc'
    exact answer_resumeSet (hkey c (h.sets id c hc) hother) hstep
  | isEnabled | serveLookup | resumeLookup | setex | expire => cases hname

/-- Let the calls be about pairs with different keys, and let no late write bring back a value that
was removed. Then a lookup returns what the latest `set_flag` of its pair has set, once that has
completed, and a `set_flag` does not change what is returned for another pair. -/
theorem takesEffect_of_settles (names : Set FlagName) (hinj : Set.InjOn cacheKey names)
    (redis : String → Option String) (pg : TenantId → String → Option Bool)
    {steps : List (FlagState × FlagEvent)} {s : FlagState}
    (run : (flagSystem redis pg).Run steps s) (hsettles : System.Meets (Settles names) steps) :
    System.Always TakesEffect steps s ∧
      ∀ p ∈ steps, LeavesOthers names (flagSystem redis pg).step p.1 p.2 := by
  have hcoherent : System.Always (Coherent names) steps s := by
    refine run.always_of_meets ?_ (fun s e s' h hmeet hstep => coherent_step hinj h hmeet hstep)
      hsettles
    exact ⟨fun _ _ h => (by cases h), fun _ _ h => (by cases h), fun _ _ h => (by cases h),
      fun _ h => (by cases h)⟩
  exact ⟨hcoherent.imp fun s h => h.answers, fun p hp => (hcoherent.2 p hp).leavesOthers hinj⟩

/-- Two pairs with one key. -/
example : cacheKey (some ⟨"a:b", by decide⟩, "c") = cacheKey (some ⟨"a", by decide⟩, "b:c") := by
  decide

/-- A tenant. -/
def acme : TenantId := ⟨"acme", by decide⟩

/-- A lookup that finds nothing in Redis and in PostgreSQL, and writes the default to Redis. -/
def defaultEvents : List FlagEvent :=
  [.isEnabled 0 (some acme, "graph_rag"), .serveLookup 0, .resumeLookup 0, .serveLookup 0,
    .resumeLookup 0]

/-- A `set_flag` that turns the flag on. -/
def turnOnEvents : List FlagEvent :=
  [.setFlag 0 acme "graph_rag" true, .serveSet 0, .resumeSet 0, .serveSet 0, .resumeSet 0]

/-- A lookup that finds its answer in Redis. -/
def cachedEvents : List FlagEvent :=
  [.isEnabled 0 (some acme, "graph_rag"), .serveLookup 0, .resumeLookup 0]

/-- The service with nothing stored. -/
def freshFlags : System FlagState FlagEvent := flagSystem (fun _ => none) fun _ _ => none

/-- A flag is turned on and looked up. -/
theorem turnOn_takesEffect : ∃ steps s, steps.map Prod.snd =
    ([.resumeLookup 0, .serveLookup 0, .isEnabled 0 (some acme, "graph_rag"), .resumeSet 0,
      .serveSet 0, .resumeSet 0, .serveSet 0, .setFlag 0 acme "graph_rag" true] : List FlagEvent) ∧
    s.answers = [⟨true, some true⟩] ∧ System.Always TakesEffect steps s := by
  have run := System.Run.next (e := FlagEvent.resumeLookup 0)
    (.next (e := FlagEvent.serveLookup 0)
      (.next (e := FlagEvent.isEnabled 0 (some acme, "graph_rag"))
        (.next (e := FlagEvent.resumeSet 0)
          (.next (e := FlagEvent.serveSet 0)
            (.next (e := FlagEvent.resumeSet 0)
              (.next (e := FlagEvent.serveSet 0)
                (.next (e := FlagEvent.setFlag 0 acme "graph_rag" true)
                  (.start (S := freshFlags)) rfl) rfl) rfl) rfl) rfl) rfl) rfl) rfl
  refine ⟨_, _, rfl, ?_, (takesEffect_of_settles {(some acme, "graph_rag")}
    (Set.injOn_singleton ..) _ _ run ?_).1⟩
  · decide +kernel
  · refine List.forall_mem_cons.mpr ⟨fun l hl override hphase => ?_, ?_⟩
    · cases hl
      cases hphase
    · simp [Settles]

/-- The default that was looked up before lands in Redis after `set_flag` has removed the key. -/
theorem lateWrite_hides_override : ∃ s, freshFlags.Reachable s ∧ ¬ TakesEffect s := by
  have hanswers : (freshFlags.exec freshFlags.init
      (defaultEvents ++ turnOnEvents ++ [.setex 0] ++ cachedEvents)).map FlagState.answers =
        some [⟨false, some true⟩, ⟨false, none⟩] := by
    decide +kernel
  obtain ⟨s, hexec, hanswers⟩ := Option.map_eq_some_iff.mp hanswers
  refine ⟨s, System.reachable_of_exec _ hexec, fun heffect => ?_⟩
  have hanswer := heffect ⟨false, some true⟩ (hanswers ▸ List.mem_cons_self) true rfl
  cases hanswer

end Noema.Config
