import Noema.Lib.PyInterp
import Noema.Lib.Sha256
import Noema.Lib.Utf8

/-!
# The semantic cache (`cache.py`)

A `SemanticCache` is a dict from keys to answers of LLMs. A key has the hash of a prompt and the
tenant; it does not have the model. `get` looks its key up, and otherwise scans the entries whose
keys end with the tenant for the prompt with the most similar embedding, if there are more than ten.

Embeddings come from outside, and so do products and maxima of vectors (`VectorOps`), which raise
for vectors of different lengths. Similarities are compared with the threshold and with each other
only.

- `IsKeyOf`: a key with the hash of some prompt and the tenant. `IsKeyOf.unique` says that a key has
  one tenant only: hashes are cut to 32 digits, so the tenant is what follows them.
- `scan_mem`, `get_cases`: where an answer comes from. It is the one of the key, or of a candidate
  if there is no entry with the key.
- `mem_set`: the entries after `set`, which drops the oldest one when the cache is full.

A candidate is an entry whose key *ends with* the text for the tenant (cache.py:71), which is less
than being a key of the tenant: a tenant id may end like another one with its separator.
-/

namespace Noema.Cache

open Noema.Lib PyJson

/-- Chat messages. -/
abbrev Messages := List (List (String × String))

/-- What the code uses of numpy: the products of some vectors with a vector, which raises for
vectors of other lengths, the index of the greatest number, and a comparison. -/
structure VectorOps (F : Type) where
  product : List (List F) → List F → Except PyExc (List F)
  argmax : List F → Nat
  ge : F → F → Bool

/-- `CacheEntry`. -/
structure CacheEntry (F T : Type) where
  promptHash : String
  response : String
  model : String
  tokensUsed : Int
  timestamp : T
  embedding : List F

/-- A `SemanticCache`, with its entries in the order of the dict. -/
structure SemanticCache (F T : Type) where
  maxSize : Int
  similarityThreshold : F
  entries : List (String × CacheEntry F T)

/-- A call: the messages, the model and the tenant that it is made with, the tenant in its context,
and what the embedder has to say about the messages. -/
structure Query (F : Type) where
  messages : Messages
  model : String
  tenantId : String
  context : String
  vector : Except PyExc (List F)

/-- `tenant_id or get_tenant_id()`. -/
def Query.effectiveTenant {F : Type} (q : Query F) : String :=
  if q.tenantId ≠ "" then q.tenantId else q.context

section Keys

variable (sha256 : Bytes → Bytes)

/-- Messages as a value. -/
def messagesVal (messages : Messages) : PyVal FloatText :=
  .list (messages.map fun m => .dict (m.map fun kv => (kv.1, .str kv.2)))

/-- `_hash_prompt` (cache.py:40). -/
def hashPrompt (messages : Messages) : String :=
  let content := dumps false (messagesVal messages).sortKeys
  String.ofList ((hex (sha256 (encodeUtf8 content))).toList.take 32)

/-- What a key has after the hash. -/
def tenantSuffix (tenantId : String) : String := ":t=" ++ tenantId

/-- The key of a prompt and a tenant. -/
def memoryKey (messages : Messages) (tenantId : String) : String :=
  hashPrompt sha256 messages ++ tenantSuffix tenantId

end Keys

/-! ## The calls -/

namespace SemanticCache

variable {F T : Type}

/-- The entry may answer a query (cache.py:73). -/
def isCandidate (q : Query F) (kv : String × CacheEntry F T) : Bool :=
  (tenantSuffix q.effectiveTenant).toList.isSuffixOf kv.1.toList &&
    (!kv.2.embedding.isEmpty && kv.2.model == q.model)

/-- The scan for a similar prompt (cache.py:64). -/
def scan (ops : VectorOps F) (c : SemanticCache F T) (q : Query F) :
    Except PyExc (Option String) := do
  let qvec ← q.vector
  let candidates := c.entries.filter (isCandidate q)
  if candidates = [] then return none
  else
    let sims ← ops.product (candidates.map fun kv => kv.2.embedding) qvec
    let best := ops.argmax sims
    let bestSim ← pyIndex sims best
    if ops.ge bestSim c.similarityThreshold then
      let kv ← pyIndex candidates best
      return some kv.2.response
    else return none

/-- `get` (cache.py:51). -/
def get (sha256 : Bytes → Bytes) (ops : VectorOps F) (c : SemanticCache F T) (q : Query F) :
    Except PyExc (Option String) :=
  match c.entries.lookup (memoryKey sha256 q.messages q.effectiveTenant) with
  | some entry => .ok (some entry.response)
  | none => if 10 < c.entries.length then c.scan ops q else .ok none

variable [LinearOrder T]

/-- The oldest entry goes when the cache is full. -/
def evict (c : SemanticCache F T) : Except PyExc (SemanticCache F T) :=
  if c.maxSize ≤ c.entries.length then
    match c.entries.argmin fun kv => kv.2.timestamp with
    | some oldest => .ok { c with entries := c.entries.filter fun kv => kv.1 ≠ oldest.1 }
    | none => .error (.valueError "min() iterable argument is empty")
  else .ok c

/-- `set` (cache.py:96). -/
def set (sha256 : Bytes → Bytes) (c : SemanticCache F T) (q : Query F) (response : String)
    (tokensUsed : Int) (now : T) : Except PyExc Unit × SemanticCache F T :=
  match c.evict with
  | .error e => (.error e, c)
  | .ok c =>
    match q.vector with
    | .error e => (.error e, c)
    | .ok embedding =>
      let promptHash := memoryKey sha256 q.messages q.effectiveTenant
      let entry : CacheEntry F T :=
        { promptHash, response, model := q.model, tokensUsed, timestamp := now, embedding }
      (.ok (), { c with entries := dictInsert promptHash entry c.entries })

end SemanticCache

/-! ## Keys and tenants -/

section Lemmas

variable {sha256 : Bytes → Bytes}

theorem length_hex (data : Bytes) : (hex data).toList.length = 2 * data.length := by
  rw [hex, String.toList_ofList, List.length_flatMap]
  simp [Nat.mul_comm]

/-- Hashes are cut to 32 digits. -/
theorem length_hashPrompt (hlength : ∀ m, (sha256 m).length = 32) (messages : Messages) :
    (hashPrompt sha256 messages).toList.length = 32 := by
  rw [hashPrompt, String.toList_ofList, List.length_take, length_hex, hlength]
  rfl

/-- A key with the hash of some prompt and the tenant. -/
def IsKeyOf (tenantId key : String) : Prop :=
  ∃ hash : List Char, hash.length = 32 ∧ key.toList = hash ++ (tenantSuffix tenantId).toList

theorem isKeyOf_memoryKey (hlength : ∀ m, (sha256 m).length = 32) (messages : Messages)
    (tenantId : String) : IsKeyOf tenantId (memoryKey sha256 messages tenantId) :=
  ⟨_, length_hashPrompt hlength messages, by rw [memoryKey, String.toList_append]⟩

/-- A key is of one tenant only. -/
theorem IsKeyOf.drop {tenantId key : String} (h : IsKeyOf tenantId key) :
    key.toList.drop 32 = (tenantSuffix tenantId).toList := by
  obtain ⟨hash, hlength, hkey⟩ := h
  rw [hkey, ← hlength, List.drop_left]

theorem tenantSuffix_inj {tenantId tenantId' : String}
    (h : (tenantSuffix tenantId).toList = (tenantSuffix tenantId').toList) :
    tenantId = tenantId' := by
  rw [tenantSuffix, tenantSuffix, String.toList_append, String.toList_append] at h
  exact String.toList_injective (List.append_cancel_left h)

theorem IsKeyOf.unique {tenantId tenantId' key : String} (h : IsKeyOf tenantId key)
    (h' : IsKeyOf tenantId' key) : tenantId = tenantId' :=
  tenantSuffix_inj (h.drop.symm.trans h'.drop)

end Lemmas

section Calls

variable {F T : Type} {sha256 : Bytes → Bytes} {ops : VectorOps F} {c c' : SemanticCache F T}
  {q : Query F} {response : String}

theorem pyIndex_mem {α : Type} {xs : List α} {i : Nat} {x : α} (h : pyIndex xs i = .ok x) :
    x ∈ xs := by
  rw [pyIndex] at h
  split at h
  next hx =>
    cases h
    exact List.mem_of_getElem? hx
  next => cases h

/-- An answer of the scan is the one of a candidate. -/
theorem scan_mem (h : c.scan ops q = .ok (some response)) :
    ∃ kv ∈ c.entries, SemanticCache.isCandidate q kv = true ∧ kv.2.response = response := by
  obtain ⟨qvec, -, h⟩ := bind_eq_ok h
  dsimp only at h
  split at h
  · cases h
  · obtain ⟨sims, -, h⟩ := bind_eq_ok h
    obtain ⟨bestSim, -, h⟩ := bind_eq_ok h
    split at h
    · obtain ⟨kv, hkv, h⟩ := bind_eq_ok h
      cases h
      obtain ⟨hmem, hcandidate⟩ := List.mem_filter.mp (pyIndex_mem hkv)
      exact ⟨kv, hmem, hcandidate, rfl⟩
    · cases h

/-- An answer is the one of the key, or of a candidate if there is no entry with the key. -/
theorem get_cases (h : c.get sha256 ops q = .ok (some response)) :
    (∃ entry, c.entries.lookup (memoryKey sha256 q.messages q.effectiveTenant) = some entry ∧
        entry.response = response) ∨
      (c.entries.lookup (memoryKey sha256 q.messages q.effectiveTenant) = none ∧
        10 < c.entries.length ∧
        ∃ kv ∈ c.entries, SemanticCache.isCandidate q kv = true ∧ kv.2.response = response) := by
  rw [SemanticCache.get] at h
  split at h
  next entry hentry =>
    cases h
    exact .inl ⟨entry, hentry, rfl⟩
  next hnone =>
    split at h
    next hsize => exact .inr ⟨hnone, hsize, scan_mem h⟩
    next => cases h

variable [LinearOrder T]

theorem mem_of_evict (h : c.evict = .ok c') {kv : String × CacheEntry F T}
    (hkv : kv ∈ c'.entries) : kv ∈ c.entries := by
  rw [SemanticCache.evict] at h
  split at h
  · split at h
    · cases h
      exact List.mem_of_mem_filter hkv
    · cases h
  · cases h
    exact hkv

/-- The entries after `set` are old ones and the new one. -/
theorem mem_set {tokensUsed : Int} {now : T} {kv : String × CacheEntry F T}
    (hkv : kv ∈ (c.set sha256 q response tokensUsed now).2.entries) :
    kv ∈ c.entries ∨ ((c.set sha256 q response tokensUsed now).1 = .ok () ∧
      kv.1 = memoryKey sha256 q.messages q.effectiveTenant ∧ kv.2.promptHash = kv.1 ∧
      kv.2.model = q.model ∧ kv.2.response = response) := by
  rcases hevict : c.evict with e | evicted
  · rw [SemanticCache.set, hevict] at hkv
    exact .inl hkv
  · have hold {kv : String × CacheEntry F T} (h : kv ∈ evicted.entries) : kv ∈ c.entries :=
      mem_of_evict hevict h
    rcases hvector : q.vector with e | embedding
    · simp only [SemanticCache.set, hevict, hvector] at hkv
      exact .inl (hold hkv)
    · simp only [SemanticCache.set, hevict, hvector] at hkv ⊢
      rcases mem_dictInsert hkv with rfl | hkv
      · exact .inr ⟨trivial, rfl, rfl, rfl, rfl⟩
      · exact .inl (hold hkv)

end Calls

end Noema.Cache
