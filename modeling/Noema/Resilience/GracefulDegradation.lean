import Noema.Lib.System

/-!
# The degraded cache (`resilience/graceful_degradation.py`)

Values live in Redis and in memory. While Redis is healthy it answers, after a command that fails
memory does, until `check_health` finds that Redis answers again. Nothing is copied then. A command
that fails may or may not have been carried out (`CommandOutcome`), so what Redis has after it is
not known.

- `cacheGet`, `cacheSet`, `cacheDelete`, `checkHealth`: the calls. Every write goes to memory too,
  so that memory always has the latest values (`memoryCache_step`).
- `ReadsLatest`: whichever key is read next, and however the command ends, the latest value is
  returned.
- `Agrees`: Redis, where it is in use, has what memory has. `readsLatest_iff_agrees` says that this
  is the same.
- `Reconciled`: the condition on a call: when Redis answers a health check, it has for every key
  what memory has; and a value that is stored comes back as it is.
- **`readsLatest_iff`**: the runs in which every value that is read is the latest one are those
  whose calls all meet the condition.
- `outage_reads_old`: a value that was overwritten while Redis was away.
-/

namespace Noema.Resilience

open Noema.Lib

universe u v

/-- How a command ends: with its reply, or with an exception, after Redis has carried it out or not.
-/
inductive CommandOutcome where
  | ok
  | failed (applied : Bool)
  deriving DecidableEq, Repr

/-- What Redis has, if there is a client, `_memory_cache` and `_redis_healthy`. -/
structure GracefulDegradation (K : Type u) (V : Type v) where
  redis : Option (K → Option V)
  memoryCache : K → Option V
  redisHealthy : Bool

section Cache

variable {K : Type u} {V : Type v}

namespace GracefulDegradation

/-- `GracefulDegradation(redis_client)`. Redis is empty. -/
def new (redisClient : Bool) : GracefulDegradation K V where
  redis := if redisClient then some fun _ => none else none
  memoryCache _ := none
  redisHealthy := redisClient

variable (s : GracefulDegradation K V)

/-- `check_health`, of Redis. -/
def checkHealth (answers : Bool) : GracefulDegradation K V :=
  match s.redis with
  | some _ => { s with redisHealthy := answers }
  | none => s

/-- Redis, where the commands go to it. -/
def inUse : Option (K → Option V) := if s.redisHealthy then s.redis else none

/-- `cache_get`. -/
def cacheGet (key : K) (o : CommandOutcome) : Option V × GracefulDegradation K V :=
  match s.inUse with
  | none => (s.memoryCache key, s)
  | some store =>
    match o with
    | .ok => (store key, s)
    | .failed _ => (s.memoryCache key, { s with redisHealthy := false })

/-- A command that changes what Redis has. -/
def write (change : (K → Option V) → K → Option V) (o : CommandOutcome) : GracefulDegradation K V :=
  match s.inUse with
  | none => s
  | some store =>
    match o with
    | .ok => { s with redis := some (change store) }
    | .failed applied =>
      { s with redis := some (if applied then change store else store), redisHealthy := false }

variable [DecidableEq K]

/-- `cache_set` without `ttl`. The client makes of a value what `get` will return, or refuses it. -/
def cacheSet (wire : V → Option V) (key : K) (value : V) (o : CommandOutcome) :
    GracefulDegradation K V :=
  let s := { s with memoryCache := Function.update s.memoryCache key (some value) }
  match wire value with
  | some value => s.write (fun store => Function.update store key (some value)) o
  | none => s.write id (.failed false)

/-- `cache_delete`. -/
def cacheDelete (key : K) (o : CommandOutcome) : GracefulDegradation K V :=
  { s with memoryCache := Function.update s.memoryCache key none }.write
    (fun store => Function.update store key none) o

end GracefulDegradation

/-- A call, and how the command of it ends. -/
inductive CacheCall (K : Type u) (V : Type v) where
  | get (key : K) (o : CommandOutcome)
  | set (key : K) (value : V) (o : CommandOutcome)
  | delete (key : K) (o : CommandOutcome)
  | checkHealth (answers : Bool)

/-- The cache, and the latest values: those that were set and not deleted since. -/
structure CacheHistory (K : Type u) (V : Type v) where
  cache : GracefulDegradation K V
  latest : K → Option V

variable [DecidableEq K] (wire : V → Option V)

/-- One call after another. -/
def cacheSystem (redisClient : Bool) : System (CacheHistory K V) (CacheCall K V) where
  init := ⟨.new redisClient, fun _ => none⟩
  step s e :=
    some <| match e with
      | .get key o => { s with cache := (s.cache.cacheGet key o).2 }
      | .set key value o =>
        ⟨s.cache.cacheSet wire key value o, Function.update s.latest key (some value)⟩
      | .delete key o => ⟨s.cache.cacheDelete key o, Function.update s.latest key none⟩
      | .checkHealth answers => { s with cache := s.cache.checkHealth answers }

/-- Whichever key is read next, and however the command ends, the latest value is returned. -/
def ReadsLatest (s : CacheHistory K V) : Prop :=
  ∀ key o, (s.cache.cacheGet key o).1 = s.latest key

/-- The condition on a call. When Redis answers a health check, it has for every key what memory
has; and a value that Redis takes comes back as it is. -/
def Reconciled (s : CacheHistory K V) : CacheCall K V → Prop
  | .get _ _ => True
  | .set _ value o => s.cache.inUse.isSome → o = .ok → ∀ value' ∈ wire value, value' = value
  | .delete _ _ => True
  | .checkHealth answers => answers = true → ∀ store ∈ s.cache.redis, store = s.cache.memoryCache

end Cache

section Steps

variable {K : Type u} {V : Type v} {s s' : CacheHistory K V} {cache : GracefulDegradation K V}
  {o : CommandOutcome} {change : (K → Option V) → K → Option V} {store : K → Option V}

/-- Redis, where it is in use, has what memory has. -/
def Agrees (cache : GracefulDegradation K V) : Prop :=
  ∀ store ∈ cache.inUse, store = cache.memoryCache

/-- Memory always has the latest values, so that Redis has to agree with it. -/
theorem readsLatest_iff_agrees (hmemory : s.cache.memoryCache = s.latest) :
    ReadsLatest s ↔ Agrees s.cache := by
  constructor
  · intro hreads store hstore
    funext key
    have hget := hreads key .ok
    rw [GracefulDegradation.cacheGet, Option.mem_def.mp hstore] at hget
    rw [hmemory]
    exact hget
  · intro hagrees key o
    rw [GracefulDegradation.cacheGet, ← hmemory]
    cases hstore : s.cache.inUse with
    | none => rfl
    | some store =>
      cases o with
      | ok => rw [← hagrees store hstore]
      | failed applied => rfl

theorem inUse_eq_some_iff :
    cache.inUse = some store ↔ cache.redisHealthy = true ∧ cache.redis = some store := by
  rw [GracefulDegradation.inUse]
  split_ifs with hhealthy <;> simp [hhealthy]

/-- A write leaves memory alone. -/
theorem memoryCache_write : (cache.write change o).memoryCache = cache.memoryCache := by
  rw [GracefulDegradation.write]
  cases cache.inUse with
  | none => rfl
  | some store => cases o <;> rfl

/-- After a write Redis is in use where it was, and the command has succeeded. -/
theorem inUse_write :
    (cache.write change o).inUse = if o = .ok then cache.inUse.map change else none := by
  rw [GracefulDegradation.write]
  cases hstore : cache.inUse with
  | none =>
    rw [Option.map_none, ite_self]
    exact hstore
  | some store =>
    obtain ⟨hhealthy, -⟩ := inUse_eq_some_iff.mp hstore
    cases o with
    | ok => exact inUse_eq_some_iff.mpr ⟨hhealthy, rfl⟩
    | failed applied => rfl

/-- A write to memory and to Redis keeps them together if it does the same to both. -/
theorem agrees_write {memory : K → Option V} :
    Agrees ({ cache with memoryCache := memory }.write change o) ↔
      (o = .ok → ∀ store ∈ cache.inUse, change store = memory) := by
  rw [Agrees, inUse_write, memoryCache_write]
  have hsame : { cache with memoryCache := memory }.inUse = cache.inUse := rfl
  rw [hsame]
  split_ifs with hok
  · simp [hok]
  · exact iff_of_true (fun store hstore => by cases hstore) fun h => absurd h hok

/-- A read leaves memory alone, and gives Redis up if it fails. -/
theorem agrees_cacheGet {key : K} (hagrees : Agrees cache) : Agrees (cache.cacheGet key o).2 := by
  rw [GracefulDegradation.cacheGet]
  cases hstore : cache.inUse with
  | none => exact hagrees
  | some store =>
    cases o with
    | ok => exact hagrees
    | failed applied => exact fun store hstore => by cases hstore

theorem memoryCache_cacheGet {key : K} : (cache.cacheGet key o).2.memoryCache = cache.memoryCache := by
  rw [GracefulDegradation.cacheGet]
  cases cache.inUse with
  | none => rfl
  | some store => cases o <;> rfl

theorem agrees_checkHealth {answers : Bool} (hagrees : Agrees cache) :
    Agrees (cache.checkHealth answers) ↔
      (answers = true → ∀ store ∈ cache.redis, store = cache.memoryCache) := by
  rw [GracefulDegradation.checkHealth]
  cases hredis : cache.redis with
  | none => exact iff_of_true hagrees fun _ store hstore => by cases hstore
  | some store =>
    cases answers with
    | false => exact iff_of_true (fun store hstore => by cases hstore) fun h => by cases h
    | true => exact ⟨fun h _ => h, fun h => h rfl⟩

variable [DecidableEq K] {wire : V → Option V}

/-- The condition is what a call needs to keep Redis and memory together. -/
theorem agrees_step {redisClient : Bool} {e : CacheCall K V} (hagrees : Agrees s.cache)
    (hstep : (cacheSystem wire redisClient).step s e = some s') :
    Agrees s'.cache ↔ Reconciled wire s e := by
  cases hstep
  cases e with
  | get key o => exact iff_of_true (agrees_cacheGet hagrees) trivial
  | set key value o =>
    show Agrees (s.cache.cacheSet wire key value o) ↔ Reconciled wire s (.set key value o)
    rw [GracefulDegradation.cacheSet, Reconciled]
    cases wire value with
    | none => exact iff_of_true (agrees_write.mpr fun h => by cases h) fun _ _ value' h => by cases h
    | some value' =>
      rw [agrees_write]
      constructor
      · intro h hused hok value'' hvalue
        cases hvalue
        obtain ⟨store, hstore⟩ := Option.isSome_iff_exists.mp hused
        -- Redis has the value as the client has made it, and memory the value itself
        have hkey := congrFun (h hok store hstore) key
        rw [Function.update_self, Function.update_self] at hkey
        exact Option.some.inj hkey
      · intro h hok store hstore
        have hvalue := h (Option.isSome_iff_exists.mpr ⟨store, hstore⟩) hok value' rfl
        rw [hvalue, hagrees store hstore]
  | delete key o =>
    refine iff_of_true (agrees_write.mpr fun _ store hstore => ?_) trivial
    rw [hagrees store hstore]
  | checkHealth answers => exact agrees_checkHealth hagrees

/-- Memory has the latest values. -/
theorem memoryCache_step {redisClient : Bool} {e : CacheCall K V}
    (hmemory : s.cache.memoryCache = s.latest)
    (hstep : (cacheSystem wire redisClient).step s e = some s') :
    s'.cache.memoryCache = s'.latest := by
  cases hstep
  cases e with
  | get key o => exact memoryCache_cacheGet.trans hmemory
  | set key value o =>
    show (s.cache.cacheSet wire key value o).memoryCache = Function.update s.latest key (some value)
    rw [GracefulDegradation.cacheSet, ← hmemory]
    cases wire value with
    | none => exact memoryCache_write
    | some value' => exact memoryCache_write
  | delete key o =>
    show (s.cache.cacheDelete key o).memoryCache = Function.update s.latest key none
    rw [GracefulDegradation.cacheDelete, ← hmemory]
    exact memoryCache_write
  | checkHealth answers =>
    rw [← hmemory]
    show (s.cache.checkHealth answers).memoryCache = s.cache.memoryCache
    rw [GracefulDegradation.checkHealth]
    cases s.cache.redis <;> rfl

/-- In a run of calls every value that is read is the latest one, if and only if Redis and memory
agree whenever Redis answers a health check, and the values that are set come back as they are. -/
theorem readsLatest_iff (wire : V → Option V) (redisClient : Bool)
    {steps : List (CacheHistory K V × CacheCall K V)} {s : CacheHistory K V}
    (run : (cacheSystem wire redisClient).Run steps s) :
    System.Always ReadsLatest steps s ↔ System.Meets (Reconciled wire) steps := by
  refine run.always_iff (I := fun s => s.cache.memoryCache = s.latest) rfl
    (fun s e s' hmemory hstep => memoryCache_step hmemory hstep) ?_ fun s e s' hmemory hreads hstep => ?_
  · refine (readsLatest_iff_agrees rfl).mpr fun store hstore => ?_
    cases redisClient with
    | true => exact (Option.some.inj hstore).symm
    | false => cases hstore
  · rw [readsLatest_iff_agrees (memoryCache_step hmemory hstep)]
    exact agrees_step ((readsLatest_iff_agrees hmemory).mp hreads) hstep

/-- An outage in which nothing is set, the last call first. -/
def harmlessOutage : List (CacheCall String String) :=
  [.checkHealth true, .get "k" (.failed false), .set "k" "v" .ok]

theorem harmlessOutage_reads :
    ∃ steps s, steps.map Prod.snd = harmlessOutage ∧
      System.Always (ReadsLatest (K := String) (V := String)) steps s := by
  have run := System.Run.next (e := CacheCall.checkHealth true)
    (.next (e := CacheCall.get "k" (.failed false))
      (.next (e := CacheCall.set "k" "v" .ok) (.start (S := cacheSystem some true)) rfl) rfl) rfl
  refine ⟨_, _, rfl, (readsLatest_iff some true run).mpr ?_⟩
  refine List.forall_mem_cons.mpr ⟨fun _ store hstore => ?_, List.forall_mem_cons.mpr ⟨trivial,
    List.forall_mem_cons.mpr ⟨fun _ _ value hvalue => ?_, fun p hp => by cases hp⟩⟩⟩
  · exact (Option.some.inj hstore).symm
  · exact (Option.some.inj hvalue).symm

/-- Redis takes a value, loses its connection while the value is set again, and is back. -/
def outage : List (CacheCall String String) :=
  [.set "k" "old" .ok, .set "k" "new" (.failed false), .checkHealth true]

/-- The old value is back as well. -/
theorem outage_reads_old :
    ∃ s, (cacheSystem some true).Reachable s ∧ ¬ ReadsLatest s ∧
      (s.cache.cacheGet "k" .ok).1 = some "old" ∧ s.latest "k" = some "new" := by
  refine ⟨_, System.reachable_of_exec outage rfl, fun hreads => ?_, rfl, rfl⟩
  have hget := hreads "k" .ok
  revert hget
  decide +kernel

end Steps

end Noema.Resilience
