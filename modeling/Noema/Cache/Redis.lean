import Noema.Cache.Semantic
import Noema.Lib.System

/-!
# The cache in Redis (`persistence/redis_cache.py`)

A `RedisBackedCache` is a `SemanticCache` whose entries are also written to Redis. The keys there
have the model. An entry that is read from Redis is kept in memory too, under the key of the memory,
which does not have the model.

`cacheSystem` is the cache under calls, with what was set and what was answered on record. Redis may
lose a key at any time, and may or may not answer or store (`answered`, `written`).

- `CacheInv`: every entry, in memory and in Redis, is one that was set, under a key of the tenant
  that it was set for.
- `record_of_get`: so an answer is right if the entry that is found is one of the model, under a key
  of the tenant.
- `MatchesMemory`, `MatchesRedis`: the condition on a lookup, about the entries that it finds before
  it answers: the entry with the key is one of the model, and the candidates of a scan are entries
  of the tenant.
- **`answers_were_set`**: in every run whose lookups meet the condition, each answer was set before
  for its tenant and its model.
- `answers_for_other_model_and_tenant`: two ways around the keys. The exact key in memory has no
  model, and Redis is read under the tenant of the cache when a call names none.
-/

namespace Noema.Cache

open Noema.Lib PyJson

/-- The settings of a `RedisBackedCache`. -/
structure RedisConfig where
  redis : Bool
  redisPrefix : String := "noema:cache:"
  tenantId : String := "default"

/-- What was set, or what was answered, for a tenant and a model. -/
structure CacheRecord where
  tenantId : String
  model : String
  response : String
  deriving DecidableEq, Repr

/-- The cache, its entries in Redis, and the records of its calls, the last one first. -/
structure CacheState (F T : Type) where
  memory : SemanticCache F T
  redis : String → Option (CacheEntry F T)
  sets : List CacheRecord
  answers : List CacheRecord

/-- A call, with what Redis makes of its command, or the end of a key in Redis. -/
inductive CacheEvent (F T : Type) where
  | get (q : Query F)
  | set (q : Query F) (response : String) (tokensUsed : Int) (now : T)
  | aget (q : Query F) (answered : Bool)
  | aset (q : Query F) (response : String) (tokensUsed : Int) (now : T) (written : Bool)
  | expired (key : String)

section Calls

variable {F T : Type} (sha256 : Bytes → Bytes) (ops : VectorOps F) (cfg : RedisConfig)

/-- The key of an entry in Redis. -/
def redisKey (messages : Messages) (tenantId model : String) : String :=
  cfg.redisPrefix ++ (memoryKey sha256 messages tenantId ++ ":m=" ++ model)

/-- The record of a call. -/
def Query.record (q : Query F) (response : String) : CacheRecord :=
  ⟨q.effectiveTenant, q.model, response⟩

/-- The answer of a call is put on record. -/
def CacheState.answer (s : CacheState F T) (q : Query F) (response : Option String) :
    CacheState F T :=
  { s with answers := (response.map q.record).toList ++ s.answers }

/-- The key that `aget` reads in Redis: without a tenant in the call it is the one of the cache. -/
def readKey (q : Query F) : String :=
  redisKey sha256 cfg q.messages (if q.tenantId ≠ "" then q.tenantId else cfg.tenantId) q.model

/-- The entry that `aget` finds in Redis. -/
def readRedis (s : CacheState F T) (q : Query F) (answered : Bool) : Option (CacheEntry F T) :=
  if cfg.redis ∧ answered then s.redis (readKey sha256 cfg q) else none

/-- An entry from Redis is kept in memory (redis_cache.py:81). -/
def CacheState.keep (s : CacheState F T) (q : Query F) (entry : CacheEntry F T) : CacheState F T :=
  { s with
    memory := { s.memory with
      entries :=
        dictInsert (memoryKey sha256 q.messages q.effectiveTenant) entry s.memory.entries } }

/-- `aget` (redis_cache.py:69). -/
def aget (s : CacheState F T) (q : Query F) (answered : Bool) : CacheState F T :=
  match s.memory.get sha256 ops q with
  | .error _ => s
  | .ok (some response) => s.answer q (some response)
  | .ok none =>
    match readRedis sha256 cfg s q answered with
    | some entry => (s.keep sha256 q entry).answer q (some entry.response)
    | none => s

variable [LinearOrder T]

/-- `set` returns. -/
def setReturns (s : CacheState F T) (q : Query F) (response : String) (tokensUsed : Int) (now : T) :
    Prop :=
  (s.memory.set sha256 q response tokensUsed now).1 = .ok ()

instance (s : CacheState F T) (q : Query F) (response : String) (tokensUsed : Int) (now : T) :
    Decidable (setReturns sha256 s q response tokensUsed now) :=
  inferInstanceAs (Decidable (_ = _))

/-- `set`, with its record. -/
def CacheState.set (s : CacheState F T) (q : Query F) (response : String) (tokensUsed : Int)
    (now : T) : CacheState F T :=
  { s with
    memory := (s.memory.set sha256 q response tokensUsed now).2
    sets :=
      if setReturns sha256 s q response tokensUsed now then q.record response :: s.sets
      else s.sets }

/-- The rest of `aset` (redis_cache.py:98). -/
def CacheState.write (s : CacheState F T) (q : Query F) : CacheState F T :=
  match s.memory.entries.lookup (memoryKey sha256 q.messages q.effectiveTenant) with
  | some entry =>
    { s with
      redis := Function.update s.redis
        (redisKey sha256 cfg q.messages q.effectiveTenant q.model) (some entry) }
  | none => s

/-- A step of the cache. -/
def cacheStep (s : CacheState F T) : CacheEvent F T → Option (CacheState F T)
  | .get q =>
    match s.memory.get sha256 ops q with
    | .error _ => some s
    | .ok response => some (s.answer q response)
  | .set q response tokensUsed now => some (s.set sha256 q response tokensUsed now)
  | .aget q answered => some (aget sha256 ops cfg s q answered)
  | .aset q response tokensUsed now written =>
    let next := s.set sha256 q response tokensUsed now
    if setReturns sha256 s q response tokensUsed now ∧ cfg.redis ∧ written then
      some (next.write sha256 cfg q)
    else some next
  | .expired key => some { s with redis := Function.update s.redis key none }

/-- A new cache on an empty Redis. -/
def cacheSystem (maxSize : Int) (similarityThreshold : F) :
    System (CacheState F T) (CacheEvent F T) where
  init := ⟨⟨maxSize, similarityThreshold, []⟩, fun _ => none, [], []⟩
  step := cacheStep sha256 ops cfg

/-- Every answer was set before for its tenant and its model. -/
def Kept (s : CacheState F T) : Prop := ∀ a ∈ s.answers, a ∈ s.sets

/-- The condition on the entries in memory and a query: the entry with the key is one of the model,
and if there is none, the candidates of a scan are entries of the tenant. -/
def MatchesMemory (s : CacheState F T) (q : Query F) : Prop :=
  match s.memory.entries.lookup (memoryKey sha256 q.messages q.effectiveTenant) with
  | some entry => entry.model = q.model
  | none => 10 < s.memory.entries.length →
      ∀ kv ∈ s.memory.entries, SemanticCache.isCandidate q kv = true →
        IsKeyOf q.effectiveTenant kv.1

/-- The condition on an entry in Redis and a query: the entry is one of the tenant and the
model. -/
def MatchesRedis (s : CacheState F T) (q : Query F) (answered : Bool) : Prop :=
  ∀ entry, readRedis sha256 cfg s q answered = some entry →
    entry.promptHash = memoryKey sha256 q.messages q.effectiveTenant ∧ entry.model = q.model

/-- The condition on a state and a call. -/
def Unambiguous (s : CacheState F T) : CacheEvent F T → Prop
  | .get q => MatchesMemory sha256 s q
  | .set .. => True
  | .aget q answered => MatchesMemory sha256 s q ∧ MatchesRedis sha256 cfg s q answered
  | .aset .. => True
  | .expired _ => True

end Calls

/-! ## Entries and records -/

section Runs

variable {F T : Type} {sha256 : Bytes → Bytes} {ops : VectorOps F} {cfg : RedisConfig}
  {s s' : CacheState F T} {q : Query F} {response : String}

/-- The entry was set, for the tenant of its key. -/
def WasSet (sets : List CacheRecord) (entry : CacheEntry F T) : Prop :=
  ∃ tenantId, IsKeyOf tenantId entry.promptHash ∧ ⟨tenantId, entry.model, entry.response⟩ ∈ sets

/-- Every entry was set; the ones in memory are under their own keys. -/
structure CacheInv (s : CacheState F T) : Prop where
  memory : ∀ kv ∈ s.memory.entries, kv.2.promptHash = kv.1 ∧ WasSet s.sets kv.2
  redis : ∀ key entry, s.redis key = some entry → WasSet s.sets entry

theorem WasSet.mono {sets sets' : List CacheRecord} {entry : CacheEntry F T}
    (h : WasSet sets entry) (hsubset : sets ⊆ sets') : WasSet sets' entry := by
  obtain ⟨tenantId, hkey, hmem⟩ := h
  exact ⟨tenantId, hkey, hsubset hmem⟩

/-- An entry of the model, under a key of the tenant, was set for both. -/
theorem WasSet.record {entry : CacheEntry F T} (h : WasSet s.sets entry)
    (hkey : IsKeyOf q.effectiveTenant entry.promptHash) (hmodel : entry.model = q.model) :
    q.record entry.response ∈ s.sets := by
  obtain ⟨tenantId, hkey', hmem⟩ := h
  rw [Query.record, ← hmodel, hkey.unique hkey']
  exact hmem

/-- What memory answers was set before. -/
theorem record_of_get (hlength : ∀ m, (sha256 m).length = 32) (hinv : CacheInv s)
    (hmatches : MatchesMemory sha256 s q)
    (h : s.memory.get sha256 ops q = .ok (some response)) : q.record response ∈ s.sets := by
  rw [MatchesMemory] at hmatches
  rcases get_cases h with ⟨entry, hentry, rfl⟩ | ⟨hnone, hsize, kv, hkv, hcandidate, rfl⟩
  -- the entry with the key
  · rw [hentry] at hmatches
    obtain ⟨hkey, hset⟩ := hinv.memory _ (mem_of_lookup hentry)
    refine hset.record ?_ hmatches
    rw [hkey]
    exact isKeyOf_memoryKey hlength _ _
  -- a similar prompt
  · rw [hnone] at hmatches
    obtain ⟨hkey, hset⟩ := hinv.memory kv hkv
    refine hset.record ?_ ?_
    · rw [hkey]
      exact hmatches hsize kv hkv hcandidate
    · rw [SemanticCache.isCandidate, Bool.and_eq_true, Bool.and_eq_true] at hcandidate
      exact eq_of_beq hcandidate.2.2

theorem Kept.answer (hkept : Kept s) (hrecord : q.record response ∈ s.sets) :
    Kept (s.answer q (some response)) := by
  intro a ha
  rcases List.mem_cons.mp ha with rfl | ha
  · exact hrecord
  · exact hkept a ha

theorem aget_step (hlength : ∀ m, (sha256 m).length = 32) (hinv : CacheInv s) (hkept : Kept s)
    {answered : Bool} (hmemory : MatchesMemory sha256 s q)
    (hredis : MatchesRedis sha256 cfg s q answered) :
    CacheInv (aget sha256 ops cfg s q answered) ∧ Kept (aget sha256 ops cfg s q answered) := by
  rw [aget]
  split
  · exact ⟨hinv, hkept⟩
  next response hget =>
    exact ⟨⟨hinv.memory, hinv.redis⟩, hkept.answer (record_of_get hlength hinv hmemory hget)⟩
  -- The entry that Redis gave is kept in memory, under the key of the memory.
  · split
    next entry hread =>
      obtain ⟨hkey, hmodel⟩ := hredis entry hread
      have hset : WasSet s.sets entry := by
        rw [readRedis] at hread
        split at hread
        · exact hinv.redis _ _ hread
        · cases hread
      have hrecord : q.record entry.response ∈ s.sets :=
        hset.record (hkey ▸ isKeyOf_memoryKey hlength _ _) hmodel
      refine ⟨⟨?_, hinv.redis⟩, Kept.answer (s := s.keep sha256 q entry) hkept hrecord⟩
      intro kv hkv
      rcases mem_dictInsert hkv with rfl | hkv
      · exact ⟨hkey, hset⟩
      · exact hinv.memory kv hkv
    next => exact ⟨hinv, hkept⟩

/-- The entry that `aset` writes to Redis is one of the memory. -/
theorem write_step (hinv : CacheInv s) : CacheInv (s.write sha256 cfg q) := by
  rw [CacheState.write]
  split
  next entry hentry =>
    refine ⟨hinv.memory, ?_⟩
    intro key entry' hentry'
    change Function.update s.redis _ _ key = some entry' at hentry'
    rw [Function.update_apply] at hentry'
    split at hentry'
    · cases hentry'
      exact (hinv.memory _ (mem_of_lookup hentry)).2
    · exact hinv.redis key entry' hentry'
  next => exact hinv

theorem kept_write (hkept : Kept s) : Kept (s.write sha256 cfg q) := by
  rw [CacheState.write]
  split
  · exact hkept
  · exact hkept

variable [LinearOrder T]

theorem set_step (hlength : ∀ m, (sha256 m).length = 32) (hinv : CacheInv s) (hkept : Kept s)
    (response : String) (tokensUsed : Int) (now : T) :
    CacheInv (s.set sha256 q response tokensUsed now) ∧
      Kept (s.set sha256 q response tokensUsed now) := by
  have hsubset : s.sets ⊆ (s.set sha256 q response tokensUsed now).sets := by
    intro record hrecord
    show record ∈ ite _ _ _
    split
    · exact List.mem_cons_of_mem _ hrecord
    · exact hrecord
  refine ⟨⟨?_, fun key entry hentry => (hinv.redis key entry hentry).mono hsubset⟩,
    fun a ha => hsubset (hkept a ha)⟩
  intro kv hkv
  -- An old entry, or the one of the call, under the key of its tenant.
  rcases mem_set hkv with hkv | ⟨hreturns, hkey, hhash, hmodel, hresponse⟩
  · obtain ⟨hkey, hset⟩ := hinv.memory kv hkv
    exact ⟨hkey, hset.mono hsubset⟩
  · refine ⟨hhash, q.effectiveTenant, ?_, ?_⟩
    · rw [hhash, hkey]
      exact isKeyOf_memoryKey hlength _ _
    · show _ ∈ ite (setReturns sha256 s q response tokensUsed now) _ _
      have hreturns : setReturns sha256 s q response tokensUsed now := hreturns
      rw [if_pos hreturns, hmodel, hresponse]
      exact List.mem_cons_self

/-- The steps that meet the condition keep the entries and the answers. -/
theorem cache_step (hlength : ∀ m, (sha256 m).length = 32) {maxSize : Int} {threshold : F}
    {e : CacheEvent F T} (h : CacheInv s ∧ Kept s) (hmeets : Unambiguous sha256 cfg s e)
    (hstep : (cacheSystem sha256 ops cfg maxSize threshold).step s e = some s') :
    CacheInv s' ∧ Kept s' := by
  obtain ⟨hinv, hkept⟩ := h
  -- The condition is about lookups only: what is set and what expires keeps both parts.
  cases e with
  | get q =>
    change cacheStep sha256 ops cfg s (.get q) = some s' at hstep
    rw [cacheStep] at hstep
    split at hstep
    · cases hstep
      exact ⟨hinv, hkept⟩
    next result hget =>
      cases hstep
      refine ⟨⟨hinv.memory, hinv.redis⟩, ?_⟩
      rcases result with _ | response
      · exact hkept
      · exact hkept.answer (record_of_get hlength hinv hmeets hget)
  | set q response tokensUsed now =>
    cases hstep
    exact set_step hlength hinv hkept _ tokensUsed now
  | aget q answered =>
    cases hstep
    exact aget_step hlength hinv hkept hmeets.1 hmeets.2
  | aset q response tokensUsed now written =>
    obtain ⟨hinv', hkept'⟩ := set_step (q := q) hlength hinv hkept response tokensUsed
      now
    change cacheStep sha256 ops cfg s (.aset q response tokensUsed now written) = some s' at hstep
    rw [cacheStep] at hstep
    split at hstep
    · cases hstep
      exact ⟨write_step hinv', kept_write hkept'⟩
    · cases hstep
      exact ⟨hinv', hkept'⟩
  | expired key =>
    cases hstep
    refine ⟨⟨hinv.memory, ?_⟩, hkept⟩
    intro key' entry hentry
    change Function.update s.redis key none key' = some entry at hentry
    rw [Function.update_apply] at hentry
    split at hentry
    · cases hentry
    · exact hinv.redis key' entry hentry

/-- **Cached responses stay with their tenant and their model.** All along the runs whose lookups
find entries of the tenant and the model of the query, every answer was set before for both. -/
theorem answers_were_set (hlength : ∀ m, (sha256 m).length = 32) (ops : VectorOps F)
    (cfg : RedisConfig) {maxSize : Int} {threshold : F}
    {steps : List (CacheState F T × CacheEvent F T)} {s : CacheState F T}
    (run : (cacheSystem sha256 ops cfg maxSize threshold).Run steps s)
    (hmeets : System.Meets (Unambiguous sha256 cfg) steps) : System.Always Kept steps s := by
  have hinit : CacheInv (cacheSystem (T := T) sha256 ops cfg maxSize threshold).init ∧
      Kept (cacheSystem (T := T) sha256 ops cfg maxSize threshold).init := by
    refine ⟨⟨?_, ?_⟩, ?_⟩
    · intro kv hkv
      cases hkv
    · intro key entry hentry
      cases hentry
    · intro a ha
      cases ha
  exact (run.always_of_meets hinit (fun _ _ _ => cache_step hlength) hmeets).imp fun _ h => h.2

/-- Products and maxima of vectors of integers. -/
def intOps : VectorOps Int where
  product vectors qvec := .ok (vectors.map fun v => (List.zipWith (· * ·) v qvec).sum)
  argmax sims := sims.findIdx fun sim => sims.all fun sim' => sim' ≤ sim
  ge a b := decide (b ≤ a)

/-- A query with one message. -/
def hello (model tenantId context : String) : Query Int :=
  ⟨[[("role", "user"), ("content", "hello")]], model, tenantId, context, .ok [1]⟩

/-- The cache after the answer of a model was set for a tenant. -/
def helloSet : CacheState Int Int :=
  CacheState.set Sha256.digest ⟨⟨10, 1, []⟩, fun _ => none, [], []⟩ (hello "m" "a" "default") "hi" 3 0

/-- It is found for the same model and tenant. -/
theorem answers_were_set_hello :
    Kept (helloSet.answer (hello "m" "a" "default") (some "hi")) := by
  have hget : helloSet.memory.get Sha256.digest intOps (hello "m" "a" "default") =
      .ok (some "hi") := by
    decide +kernel
  have hmodel : (helloSet.memory.entries.lookup (memoryKey Sha256.digest
      (hello "m" "a" "default").messages (hello "m" "a" "default").effectiveTenant)).map
        CacheEntry.model = some "m" := by
    decide +kernel
  obtain ⟨s₁, hs₁⟩ : ∃ s₁, s₁ = helloSet := ⟨_, rfl⟩
  rw [← hs₁] at hget hmodel ⊢
  let sys : System (CacheState Int Int) (CacheEvent Int Int) :=
    cacheSystem Sha256.digest intOps ⟨true, "p:", "default"⟩ 10 1
  have hset : sys.step
      ⟨⟨10, 1, []⟩, fun _ => none, [], []⟩ (.set (hello "m" "a" "default") "hi" 3 0) = some s₁ := by
    rw [hs₁]
    rfl
  have hstep : sys.step s₁ (.get (hello "m" "a" "default")) =
      some (s₁.answer (hello "m" "a" "default") (some "hi")) := by
    show cacheStep Sha256.digest intOps ⟨true, "p:", "default"⟩ s₁ (.get _) = _
    rw [cacheStep, hget]
  have hmatches : MatchesMemory Sha256.digest s₁ (hello "m" "a" "default") := by
    obtain ⟨entry, hentry, hmodel⟩ := Option.map_eq_some_iff.mp hmodel
    rw [MatchesMemory, hentry]
    exact hmodel
  have hstart : sys.Run [(⟨⟨10, 1, []⟩, fun _ => none, [], []⟩,
      .set (hello "m" "a" "default") "hi" 3 0)] s₁ := .next .start hset
  have hrun := hstart.next hstep
  refine (answers_were_set (T := Int) Sha256.length_digest intOps _ hrun ?_).1
  intro p hp
  rcases List.mem_cons.mp hp with rfl | hp
  · exact hmatches
  · rw [List.mem_singleton.mp hp]
    trivial

/-- The answer of one model is given for another one, and in Redis the answer of the tenant
`default` for the tenant `b`. -/
theorem answers_for_other_model_and_tenant :
    ((cacheSystem Sha256.digest intOps ⟨false, "p:", "default"⟩ 10 1).exec
      (cacheSystem Sha256.digest intOps ⟨false, "p:", "default"⟩ 10 1).init
      [.set (hello "m" "a" "default") "hi" 3 (0 : Int), .get (hello "n" "a" "default")]).map
        (fun s => (s.sets, s.answers)) = some ([⟨"a", "m", "hi"⟩], [⟨"a", "n", "hi"⟩]) ∧
    ((cacheSystem Sha256.digest intOps ⟨true, "p:", "default"⟩ 10 1).exec
      (cacheSystem Sha256.digest intOps ⟨true, "p:", "default"⟩ 10 1).init
      [.aset (hello "m" "" "default") "hi" 3 (0 : Int) true, .aget (hello "m" "" "b") true]).map
        (fun s => (s.sets, s.answers)) = some ([⟨"default", "m", "hi"⟩], [⟨"b", "m", "hi"⟩]) :=
  ⟨by decide +kernel, by decide +kernel⟩

end Runs

end Noema.Cache
