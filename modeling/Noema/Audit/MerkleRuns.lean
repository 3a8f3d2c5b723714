import Noema.Audit.Merkle

/-!
# Runs of the hash chain

`Valid c` is the invariant of `MerkleChainAudit` objects: the hash chain, the block numbers and the
memoised levels agree. Calls come in any order, and the callers share one object, so the levels may
be missing, or computed by an earlier call; `append` drops them.

- `Levelled`: the part of the invariant that is about the levels. It is what the observers need: the
  root, the siblings of a position and the verdict of a walk are those of the promoting tree over
  the hashes (`proveInclusion_eq`, `verifyProof_eq`), whether or not they were memoised.
- `Levelled.step_cases`: what any call can do to a chain: nothing, fill the levels, or append one
  block that is linked, verified and numbered. Each invariant of chains is derived from this one
  lemma.
- `valid_new`, `Valid.step`, `Valid.run`: a new chain is valid, and every call keeps it so.
- `Valid.importBlocks_exportBlocks`: exporting a valid chain and importing the dicts gives the chain
  back.
- **`chain_consistent`**: what a valid chain guarantees, in one statement about every sequence of
  calls.
-/

namespace Noema.Audit

open Noema.Lib Noema.Utils PyJson

variable {F : Type} {hash : Bytes → Bytes} {micros : F → Except PyExc Int}

/-! ## Levels and proofs -/

/-- The level `_build_merkle_tree` stops at is the last one `_build_levels` makes. -/
theorem getLast?_levels (hash : Bytes → Bytes) (l : List Bytes) :
    (PromotingTree.levels (nodeHash hash) l).getLast? = some (lastLevel hash l) := by
  induction l using PromotingTree.levels.induct (nodeHash hash) with
  | case1 l hle =>
    rw [PromotingTree.levels_of_le _ hle, lastLevel, if_neg (by omega)]
    rfl
  | case2 l hlt ih =>
    have hlast : lastLevel hash l = lastLevel hash (PromotingTree.parents (nodeHash hash) l) := by
      rw [lastLevel, if_pos (by omega)]
    rw [PromotingTree.levels_of_lt _ (by omega), List.getLast?_cons, ih, hlast]
    rfl

/-- The loop of `prove_inclusion` collects the path. -/
theorem proofSiblings_eq (hash : Bytes → Bytes) (l : List Bytes) {i : Nat} (hi : i < l.length) :
    proofSiblings (PromotingTree.levels (nodeHash hash) l).dropLast i
      = .ok (PromotingTree.path (PromotingTree.levels (nodeHash hash) l).dropLast i) := by
  induction l using PromotingTree.levels.induct (nodeHash hash) generalizing i with
  | case1 l hle =>
    rw [PromotingTree.levels_of_le _ hle]
    rfl
  | case2 l hlt ih =>
    have hparent : i / 2 < (PromotingTree.parents (nodeHash hash) l).length := by
      rw [PromotingTree.length_parents]
      omega
    rw [PromotingTree.levels_of_lt _ (by omega),
      List.dropLast_cons_of_ne_nil (PromotingTree.levels_ne_nil _ _), proofSiblings,
      PromotingTree.path, ih hparent]
    by_cases heven : i % 2 = 0
    · rw [if_pos heven, if_pos heven]
      by_cases hright : i + 1 < l.length
      · rw [if_pos hright, pyIndex_eq_ok (List.getElem?_eq_getElem hright),
          List.getElem?_eq_getElem hright]
        rfl
      · rw [if_neg hright, List.getElem?_eq_none (by omega)]
        rfl
    · have hleft : i - 1 < l.length := by omega
      rw [if_neg heven, if_neg heven, pyIndex_eq_ok (List.getElem?_eq_getElem hleft),
        List.getElem?_eq_getElem hleft]
      rfl

/-- The walk of `MerkleProof.verify`. -/
theorem foldl_siblings_eq_climb (hash : Bytes → Bytes) (siblings : List (Bytes × Bool)) (leaf : Bytes) :
    siblings.foldl (fun current s =>
      if s.2 then hash (s.1 ++ current) else hash (current ++ s.1)) leaf
      = PerfectTree.climb (nodeHash hash) leaf siblings := by
  induction siblings generalizing leaf with
  | nil => rfl
  | cons s siblings ih =>
    rw [List.foldl_cons, ih]
    rfl

namespace MerkleChainAudit

variable [PyBuiltins F]

/-! ## The invariant -/

/-- A block follows its predecessor. -/
def Linked (p b : AuditBlock F) : Prop := b.prevHash = p.blockHash

/-- The genesis block of a chain id. -/
def genesisOf (hash : Bytes → Bytes) (micros : F → Except PyExc Int) (chainId : String)
    (genesis : AuditBlock F) : Prop :=
  ∀ uuid, new hash micros (some chainId) uuid = .ok ⟨chainId, genesis, [genesis], none⟩

/-- What every chain built by its methods satisfies. -/
structure Valid (hash : Bytes → Bytes) (micros : F → Except PyExc Int) (c : MerkleChainAudit F) :
    Prop where
  genesis : genesisOf hash micros c.chainId c.genesis
  head : c.blocks.head? = some c.genesis
  numbered : ∀ (i : Nat) (h : i < c.blocks.length), c.blocks[i].index = i
  verified : ∀ b ∈ c.blocks, b.verify hash micros = .ok true
  linked : c.blocks.IsChain Linked
  ascii : ∀ b ∈ c.blocks, ∀ x ∈ b.metadata, x.toNat < 0x80
  memo : ∀ levels, c.treeLevels = some levels →
    levels = PromotingTree.levels (nodeHash hash) c.hashes

theorem intToBytes_ok (width : Nat) {n : Int} (h0 : 0 ≤ n) (hlt : n < 2 ^ (8 * width)) :
    ∃ b, intToBytes n width = .ok b := by
  rw [intToBytes, if_neg (Int.not_lt.mpr h0), if_neg (Int.not_le.mpr hlt)]
  exact ⟨_, rfl⟩

omit [PyBuiltins F] in
/-- The hash of a block exists when its index and its time fit in eight bytes. -/
theorem computeBlockHash_ok (hash : Bytes → Bytes) (micros : F → Except PyExc Int) {index time : Int} {timestamp : PyVal F}
    (hindex : 0 ≤ index ∧ index < 2 ^ 64) (htime : timestampMicros micros timestamp = .ok time)
    (hrange : 0 ≤ time ∧ time < 2 ^ 64) (prevHash commitment metadata : Bytes) :
    ∃ b, computeBlockHash hash micros index prevHash commitment timestamp metadata = .ok b := by
  obtain ⟨b, hb⟩ := intToBytes_ok 8 hindex.1 hindex.2
  obtain ⟨t, ht⟩ := intToBytes_ok 8 hrange.1 hrange.2
  rw [computeBlockHash, hb, ok_bind, htime, ok_bind, ht, ok_bind]
  exact ⟨_, rfl⟩

omit [PyBuiltins F] in
/-- A block verifies against the hash computed from its own fields. -/
theorem verify_of_computed {index : Int} {prevHash commitment metadata blockHash : Bytes}
    {timestamp : PyVal F}
    (h : computeBlockHash hash micros index prevHash commitment timestamp metadata = .ok blockHash) :
    AuditBlock.verify hash micros ⟨index, prevHash, timestamp, commitment, metadata, blockHash⟩
      = .ok true := by
  rw [AuditBlock.verify, h, ok_bind, beq_self_eq_true]
  rfl

theorem shortId_ne_empty (uuid : Uuid) : uuid.shortId ≠ "" := by
  intro h
  have hlen : (uuid.bytes.take 4).length = 4 := by rw [List.length_take, uuid.length_eq]; rfl
  have hdata := fromhex_hex (uuid.bytes.take 4)
  rw [← Uuid.shortId, h] at hdata
  rw [← Option.some.inj hdata] at hlen
  cases hlen

theorem chainIdOr_ne_empty (chainId : Option String) (uuid : Uuid) : chainIdOr chainId uuid ≠ "" := by
  unfold chainIdOr
  split
  · exact shortId_ne_empty uuid
  · split
    · exact shortId_ne_empty uuid
    · assumption

theorem chainIdOr_of_ne {chainId : String} (h : chainId ≠ "") (uuid : Uuid) :
    chainIdOr (some chainId) uuid = chainId :=
  if_neg h

/-- A new chain satisfies the invariant. -/
theorem valid_new (hash : Bytes → Bytes) (micros : F → Except PyExc Int) (chainId : Option String)
    (uuid : Uuid) : ∃ c, new hash micros chainId uuid = .ok c ∧
      c.chainId = chainIdOr chainId uuid ∧ Valid hash micros c := by
  obtain ⟨commitment, hcommit⟩ : ∃ x, computeCommitment hash
      (genesisPayload (chainIdOr chainId uuid) : List (String × PyVal F)) none = x := ⟨_, rfl⟩
  have htime : timestampMicros micros (.int 0) = .ok 0 := rfl
  have hzero : (0 : Int) ≤ 0 ∧ (0 : Int) < 2 ^ 64 := by decide
  obtain ⟨b, hb⟩ := computeBlockHash_ok hash micros hzero htime hzero zeroHash commitment genesisMetadata
  have hnew : ∀ id uuid', chainIdOr id uuid' = chainIdOr chainId uuid → new hash micros id uuid'
      = .ok ⟨chainIdOr chainId uuid, ⟨0, zeroHash, .int 0, commitment, genesisMetadata, b⟩,
          [⟨0, zeroHash, .int 0, commitment, genesisMetadata, b⟩], none⟩ := by
    intro id uuid' hid
    rw [new, hid, hcommit, hb, ok_bind]
    rfl
  refine ⟨_, hnew _ _ rfl, rfl, ?_⟩
  refine { genesis := ?_, head := rfl, numbered := ?_, verified := ?_, linked := ?_, ascii := ?_, memo := ?_ }
  · exact fun uuid' => hnew _ _ (chainIdOr_of_ne (chainIdOr_ne_empty chainId uuid) uuid')
  · intro i hi
    obtain rfl : i = 0 := by simpa using hi
    rfl
  · intro block hblock
    rw [List.mem_singleton.mp hblock]
    exact verify_of_computed hb
  · exact List.isChain_singleton _
  · intro block hblock
    rw [List.mem_singleton.mp hblock]
    simp [genesisMetadata]
  · intro levels h
    cases h

/-! ## One call -/

/-- There is a block, and memoised levels are those of the blocks. -/
structure Levelled (hash : Bytes → Bytes) (c : MerkleChainAudit F) : Prop where
  nonempty : c.blocks ≠ []
  memo : ∀ levels, c.treeLevels = some levels →
    levels = PromotingTree.levels (nodeHash hash) c.hashes

theorem Valid.levelled {c : MerkleChainAudit F} (h : Valid hash micros c) : Levelled hash c where
  nonempty := by
    intro hnil
    have hhead := h.head
    rw [hnil] at hhead
    cases hhead
  memo := h.memo

omit [PyBuiltins F] in
theorem Levelled.hashes_ne_nil {c : MerkleChainAudit F} (h : Levelled hash c) : c.hashes ≠ [] :=
  fun hnil => h.nonempty (List.map_eq_nil_iff.mp hnil)

/-- The state after the levels are computed. -/
def memoized (hash : Bytes → Bytes) (c : MerkleChainAudit F) : MerkleChainAudit F :=
  { c with treeLevels := some (PromotingTree.levels (nodeHash hash) c.hashes) }

theorem Valid.memoized {c : MerkleChainAudit F} (h : Valid hash micros c) :
    Valid hash micros (c.memoized hash) :=
  { h with memo := fun _ hlevels => (Option.some.inj hlevels).symm }

omit [PyBuiltins F] in
/-- `_build_levels` returns the levels of the current blocks, memoised or not. -/
theorem Levelled.buildLevels_eq {c : MerkleChainAudit F} (h : Levelled hash c) :
    buildLevels hash c = (.ok (PromotingTree.levels (nodeHash hash) c.hashes), c.memoized hash) := by
  rw [buildLevels, PyM.bind_ok (PyM.get_apply c)]
  cases hmemo : c.treeLevels with
  | none => rfl
  | some levels =>
    have hlevels := h.memo levels hmemo
    subst hlevels
    have hsame : c.memoized hash = c := by
      rw [MerkleChainAudit.memoized, ← hmemo]
    rw [hsame]
    rfl

omit [PyBuiltins F] in
/-- `root` is the root of the current blocks. -/
theorem Levelled.root_eq {c : MerkleChainAudit F} (h : Levelled hash c) :
    ∃ r, root hash c = (.ok r, c.memoized hash) ∧ lastLevel hash c.hashes = [r] ∧
      ∀ (i : Nat) (hi : i < c.hashes.length), PerfectTree.climb (nodeHash hash) c.hashes[i]
        (PromotingTree.path (PromotingTree.levels (nodeHash hash) c.hashes).dropLast i) = r := by
  obtain ⟨r, hlast, hclimb⟩ := PromotingTree.climb_path (nodeHash hash) c.hashes h.hashes_ne_nil
  refine ⟨r, ?_, ?_, hclimb⟩
  · rw [root, PyM.bind_ok h.buildLevels_eq, hlast]
    rfl
  · rw [getLast?_levels] at hlast
    exact Option.some.inj hlast

omit [PyBuiltins F] in
/-- `prove_inclusion` of a block of the chain. -/
theorem Levelled.proveInclusion_eq {c : MerkleChainAudit F} (h : Levelled hash c) {i : Nat}
    (hi : i < c.blocks.length) :
    proveInclusion hash i c = (.ok (some ⟨i, c.blocks[i].blockHash,
      PromotingTree.path (PromotingTree.levels (nodeHash hash) c.hashes).dropLast i⟩),
      c.memoized hash) := by
  have hrange : ¬ ((i : Int) < 0 ∨ (c.blocks.length : Int) ≤ i) := by omega
  have hleaves : pyIndex (PromotingTree.levels (nodeHash hash) c.hashes) 0 = .ok c.hashes := by
    refine pyIndex_eq_ok ?_
    rw [PromotingTree.levels]
    split <;> rfl
  rw [proveInclusion, PyM.bind_ok (PyM.get_apply c), if_neg hrange, Int.toNat_natCast,
    pyIndex_eq_ok (List.getElem?_eq_getElem hi), PyM.bind_ok (PyM.lift_apply _ _),
    PyM.bind_ok h.buildLevels_eq, hleaves, PyM.bind_ok (PyM.lift_apply _ _)]
  by_cases hone : c.hashes.length = 1
  · rw [if_pos hone, PromotingTree.levels_of_le _ (by omega)]
    rfl
  · rw [if_neg hone, proofSiblings_eq hash c.hashes (by rwa [hashes, List.length_map]),
      PyM.bind_ok (PyM.lift_apply _ _)]
    rfl

omit [PyBuiltins F] in
/-- `verify_proof` accepts what `prove_inclusion` returns. -/
theorem Levelled.verifyProof_eq {c : MerkleChainAudit F} (h : Levelled hash c) {i : Nat}
    (hi : i < c.blocks.length) :
    verifyProof hash ⟨i, c.blocks[i].blockHash,
      PromotingTree.path (PromotingTree.levels (nodeHash hash) c.hashes).dropLast i⟩ c
        = (.ok true, c.memoized hash) := by
  obtain ⟨r, hroot, -, hclimb⟩ := h.root_eq
  have hleaf := hclimb i (by rwa [hashes, List.length_map])
  have hrange : ¬ (c.blocks.length : Int) ≤ i := by omega
  rw [verifyProof, PyM.bind_ok (PyM.get_apply c), if_neg hrange, pyIndexInt_natCast,
    pyIndex_eq_ok (List.getElem?_eq_getElem hi), PyM.bind_ok (PyM.lift_apply _ _), if_pos rfl, PyM.bind_ok hroot, MerkleProof.verify,
    foldl_siblings_eq_climb, ← hleaf]
  simp [hashes]

omit [PyBuiltins F] in
/-- Any call to `verify_proof` at most computes the levels. -/
theorem Levelled.verifyProof_state {c : MerkleChainAudit F} (h : Levelled hash c) (p : MerkleProof) :
    (verifyProof hash p c).2 = c ∨ (verifyProof hash p c).2 = c.memoized hash := by
  obtain ⟨r, hroot, -⟩ := h.root_eq
  rw [verifyProof, PyM.bind_ok (PyM.get_apply c)]
  split
  · exact .inl rfl
  cases pyIndexInt c.blocks p.blockIndex with
  | error e => exact .inl rfl
  | ok block =>
    rw [PyM.bind_ok (PyM.lift_apply _ _)]
    split
    · rw [PyM.bind_ok hroot]
      exact .inr rfl
    · exact .inl rfl

omit [PyBuiltins F] in
theorem Levelled.proveInclusion_state {c : MerkleChainAudit F} (h : Levelled hash c) (i : Int) :
    (proveInclusion hash i c).2 = c ∨ (proveInclusion hash i c).2 = c.memoized hash := by
  by_cases hrange : i < 0 ∨ (c.blocks.length : Int) ≤ i
  · rw [proveInclusion, PyM.bind_ok (PyM.get_apply c), if_pos hrange]
    exact .inl rfl
  · obtain ⟨n, rfl⟩ := Int.eq_ofNat_of_zero_le (by omega : 0 ≤ i)
    rw [h.proveInclusion_eq (by omega)]
    exact .inr rfl

/-- **One `append`** raises and changes nothing, or adds a block that follows the tip. -/
theorem append_cases (hash : Bytes → Bytes) (micros : F → Except PyExc Int)
    (payload : List (String × PyVal F)) (metadata : Option (List (String × PyVal F))) (now : F)
    (c : MerkleChainAudit F) :
    (∃ e, append hash micros payload metadata now c = (.error e, c)) ∨
    ∃ prev block, c.blocks.getLast? = some prev ∧
      append hash micros payload metadata now c
        = (.ok block, { c with blocks := c.blocks ++ [block], treeLevels := none }) ∧
      block.index = prev.index + 1 ∧ Linked prev block ∧ block.verify hash micros = .ok true ∧
      block.metadata = serializeToBytes (.dict (metadata.getD []) : PyVal F) := by
  cases hlast : c.blocks.getLast? with
  | none =>
    have htip : tip c = (.error (.indexError "list index out of range"), c) := by
      rw [tip, PyM.bind_ok (PyM.get_apply c), hlast]
      rfl
    -- `tip` of no blocks is an `IndexError`
    exact .inl ⟨_, PyM.bind_error htip _⟩
  | some prev =>
    have htip : tip c = (.ok prev, c) := by
      rw [tip, PyM.bind_ok (PyM.get_apply c), hlast]
      rfl
    rw [append, PyM.bind_ok htip]
    cases hhash : computeBlockHash hash micros (prev.index + 1) prev.blockHash
        (computeCommitment hash payload none) (.float now)
        (serializeToBytes (.dict (metadata.getD []) : PyVal F)) with
    -- the timestamp has no microseconds: nothing was appended
    | error e => exact .inl ⟨e, PyM.bind_error (PyM.lift_apply _ _) _⟩
    | ok blockHash =>
      have hverify := verify_of_computed hhash
      refine .inr ⟨prev, ⟨prev.index + 1, prev.blockHash, .float now, _, _, blockHash⟩, rfl, ?_, rfl,
        rfl, hverify, rfl⟩
      rw [PyM.bind_ok (PyM.lift_apply _ _), hverify, PyM.bind_ok (PyM.lift_apply _ _)]
      rfl

omit [PyBuiltins F] in
/-- The next block gets the next number. -/
theorem numbered_concat {blocks : List (AuditBlock F)} {prev block : AuditBlock F}
    (h : ∀ (i : Nat) (hi : i < blocks.length), blocks[i].index = i)
    (hlast : blocks.getLast? = some prev) (hindex : block.index = prev.index + 1) :
    ∀ (i : Nat) (hi : i < (blocks ++ [block]).length), (blocks ++ [block])[i].index = i := by
  intro i hi
  by_cases hlt : i < blocks.length
  · rw [List.getElem_append_left hlt]
    exact h i hlt
  · -- the new block comes right after the last one, whose index is known
    obtain ⟨init, hinit⟩ := List.getLast?_eq_some_iff.mp hlast
    have hlen : blocks.length = init.length + 1 := by simp [hinit]
    rw [List.length_append, List.length_singleton] at hi
    obtain rfl : i = blocks.length := by omega
    have hprev := h init.length (by omega)
    simp only [hinit, List.getElem_concat_length] at hprev
    rw [List.getElem_concat_length rfl, hindex, hprev]
    omega

/-- A verified block that follows the tip keeps the invariant. -/
theorem Valid.concat {c : MerkleChainAudit F} (h : Valid hash micros c) {prev block : AuditBlock F}
    (hlast : c.blocks.getLast? = some prev) (hindex : block.index = prev.index + 1)
    (hlink : Linked prev block) (hverify : block.verify hash micros = .ok true)
    (hascii : ∀ x ∈ block.metadata, x.toNat < 0x80) :
    Valid hash micros { c with blocks := c.blocks ++ [block], treeLevels := none } where
  genesis := h.genesis
  head := by
    rw [List.head?_append, h.head]
    rfl
  numbered := numbered_concat h.numbered hlast hindex
  verified := by
    intro b hb
    rcases List.mem_append.mp hb with hb | hb
    · exact h.verified b hb
    · rw [List.mem_singleton.mp hb]
      exact hverify
  linked := by
    refine h.linked.append (List.isChain_singleton block) ?_
    rintro p hp b hb
    rw [hlast] at hp
    cases hp
    cases hb
    exact hlink
  ascii := by
    intro b hb
    rcases List.mem_append.mp hb with hb | hb
    · exact h.ascii b hb
    · rw [List.mem_singleton.mp hb]
      exact hascii
  memo := by
    intro levels hmemo
    cases hmemo

/-! ## Runs -/

/-- A call on a chain, with the time an `append` reads. -/
inductive Op (F : Type) where
  | append (payload : List (String × PyVal F)) (metadata : Option (List (String × PyVal F))) (now : F)
  | root
  | proveInclusion (blockIndex : Int)
  | verifyProof (proof : MerkleProof)

/-- The state a call leaves, whether it returns or raises. -/
def step (hash : Bytes → Bytes) (micros : F → Except PyExc Int) (c : MerkleChainAudit F) :
    Op F → MerkleChainAudit F
  | .append payload metadata now => (append hash micros payload metadata now c).2
  | .root => (root hash c).2
  | .proveInclusion i => (proveInclusion hash i c).2
  | .verifyProof p => (verifyProof hash p c).2

/-- The state after a sequence of calls. -/
def run (hash : Bytes → Bytes) (micros : F → Except PyExc Int) (ops : List (Op F))
    (c : MerkleChainAudit F) : MerkleChainAudit F :=
  ops.foldl (step hash micros) c

/-- **What one call can do**: nothing, memoise the levels, or add a verified block after
the tip and drop the levels. -/
theorem Levelled.step_cases {c : MerkleChainAudit F} (h : Levelled hash c)
    (micros : F → Except PyExc Int) (op : Op F) :
    step hash micros c op = c ∨ step hash micros c op = c.memoized hash ∨
    ∃ prev block, c.blocks.getLast? = some prev ∧ block.index = prev.index + 1 ∧
      Linked prev block ∧ block.verify hash micros = .ok true ∧
      (∀ x ∈ block.metadata, x.toNat < 0x80) ∧
      step hash micros c op = { c with blocks := c.blocks ++ [block], treeLevels := none } := by
  cases op with
  | append payload metadata now =>
    obtain ⟨e, herr⟩ | ⟨prev, block, hlast, hok, hindex, hlink, hverify, hmeta⟩ :=
      append_cases hash micros payload metadata now c
    · exact .inl (congrArg Prod.snd herr)
    · refine .inr (.inr ⟨prev, block, hlast, hindex, hlink, hverify, fun x hx => ?_,
        congrArg Prod.snd hok⟩)
      rw [hmeta] at hx
      have := (serializeToBytes_printable _ x hx).2
      omega
  | root =>
    obtain ⟨r, hroot, -⟩ := h.root_eq
    exact .inr (.inl (congrArg Prod.snd hroot))
  | proveInclusion i => exact (h.proveInclusion_state i).imp_right .inl
  | verifyProof p => exact (h.verifyProof_state p).imp_right .inl

/-- One call keeps the invariant and the chain id. -/
theorem Valid.step {c : MerkleChainAudit F} (h : Valid hash micros c) (op : Op F) :
    Valid hash micros (MerkleChainAudit.step hash micros c op) ∧
      (MerkleChainAudit.step hash micros c op).chainId = c.chainId := by
  obtain hsame | hmemo | ⟨prev, block, hlast, hindex, hlink, hverify, hascii, hnew⟩ :=
    h.levelled.step_cases micros op
  · rw [hsame]
    exact ⟨h, rfl⟩
  · rw [hmemo]
    exact ⟨h.memoized, rfl⟩
  · rw [hnew]
    exact ⟨h.concat hlast hindex hlink hverify hascii, rfl⟩

/-- So does every sequence of calls. -/
theorem Valid.run {c : MerkleChainAudit F} (h : Valid hash micros c) (ops : List (Op F)) :
    Valid hash micros (MerkleChainAudit.run hash micros ops c) ∧
      (MerkleChainAudit.run hash micros ops c).chainId = c.chainId := by
  induction ops generalizing c with
  | nil => exact ⟨h, rfl⟩
  | cons op ops ih =>
    obtain ⟨hstep, hid⟩ := h.step op
    obtain ⟨hrun, hid'⟩ := ih hstep
    exact ⟨hrun, hid'.trans hid⟩

/-! ## What a valid chain guarantees -/

omit [PyBuiltins F] in
theorem verifyFrom_eq_true {prev : Option (AuditBlock F)} {blocks : List (AuditBlock F)}
    (hverified : ∀ b ∈ blocks, b.verify hash micros = .ok true)
    (hlinked : (prev.toList ++ blocks).IsChain Linked) :
    verifyFrom hash micros prev blocks = .ok true := by
  induction blocks generalizing prev with
  | nil => rfl
  | cons b blocks ih =>
    have hrest : (b :: blocks).IsChain Linked := hlinked.right_of_append
    have htail : verifyFrom hash micros (some b) blocks = .ok true :=
      ih (fun b' hb' => hverified b' (List.mem_cons_of_mem _ hb')) hrest
    have hb := hverified b List.mem_cons_self
    cases prev with
    | none => rw [verifyFrom, hb, ok_bind, if_pos rfl, htail]
    | some p =>
      have hlink : b.prevHash = p.blockHash := (List.isChain_cons_cons.mp hlinked).1
      rw [verifyFrom, hb, ok_bind, if_pos rfl, if_pos hlink, htail]

/-- `verify_chain` holds. -/
theorem Valid.verifyChain_eq {c : MerkleChainAudit F} (h : Valid hash micros c) :
    c.verifyChain hash micros = .ok true :=
  verifyFrom_eq_true h.verified h.linked

omit [PyBuiltins F] in
/-- `export_blocks` and `import_blocks` are inverse on a block with ASCII metadata. -/
theorem importBlock_exportBlock {b : AuditBlock F} (hascii : ∀ x ∈ b.metadata, x.toNat < 0x80) :
    importBlock (exportBlock b) = .ok b := by
  simp [importBlock, exportBlock, metadataBytes, getKey, List.lookup, BlockValue.index,
    BlockValue.fromhex, BlockValue.timestamp, fromhex_hex, encodeUtf8_decodeUtf8Replace hascii]

theorem importAll_exportBlock {blocks : List (AuditBlock F)} (hindex : ∀ b ∈ blocks, b.index ≠ 0)
    (hascii : ∀ b ∈ blocks, ∀ x ∈ b.metadata, x.toNat < 0x80) :
    importAll (blocks.map exportBlock) = .ok blocks := by
  induction blocks with
  | nil => rfl
  | cons b blocks ih =>
    have hnot : ¬ isGenesisDict (exportBlock b) = true := by
      simp [isGenesisDict, exportBlock, hindex b List.mem_cons_self]
    rw [List.map_cons, importAll, if_neg hnot, importBlock_exportBlock (hascii b List.mem_cons_self),
      ok_bind, ih (fun b' hb' => hindex b' (List.mem_cons_of_mem _ hb'))
        (fun b' hb' => hascii b' (List.mem_cons_of_mem _ hb'))]
    rfl

/-- The export of a chain is imported as the same chain, with nothing memoised. -/
theorem Valid.importBlocks_exportBlocks {c : MerkleChainAudit F} (h : Valid hash micros c) (uuid : Uuid) :
    importBlocks hash micros c.chainId uuid c.exportBlocks = .ok { c with treeLevels := none } := by
  obtain ⟨blocks, hblocks⟩ := List.head?_eq_some_iff.mp h.head
  have hgenesis : isGenesisDict (exportBlock c.genesis) = true := by
    have hzero := h.numbered 0 (by simp [hblocks])
    simp only [hblocks, List.getElem_cons_zero] at hzero
    simp [isGenesisDict, exportBlock, hzero]
  have hindex : ∀ b ∈ blocks, b.index ≠ 0 := by
    intro b hb
    obtain ⟨i, hi, rfl⟩ := List.getElem_of_mem hb
    have hnum := h.numbered (i + 1) (by simp [hblocks, hi])
    simp only [hblocks, List.getElem_cons_succ] at hnum
    omega
  have himport : importAll c.exportBlocks = .ok blocks := by
    rw [exportBlocks, hblocks, List.map_cons, importAll, if_pos hgenesis]
    refine importAll_exportBlock hindex fun b hb => h.ascii b ?_
    rw [hblocks]
    exact List.mem_cons_of_mem _ hb
  have hverify : ({ c with blocks := c.genesis :: blocks, treeLevels := none } :
      MerkleChainAudit F).verifyChain hash micros = .ok true := by
    rw [← hblocks]
    exact h.verifyChain_eq
  rw [importBlocks, h.genesis uuid, ok_bind, himport, ok_bind]
  dsimp only
  rw [hverify, ok_bind, if_pos rfl, hblocks]
  rfl

/-- **The three structures of a chain stay consistent.** For every chain id and every
sequence of calls, whatever they raise: the chain verifies, the blocks are numbered from
zero, `root` is the root of the tree over the current block hashes, every inclusion proof
of a block is accepted, and the exported blocks are imported as a chain with the same
height, block hashes and root. -/
theorem chain_consistent (hash : Bytes → Bytes) (micros : F → Except PyExc Int)
    (chainId : Option String) (uuid uuid' : Uuid) (ops : List (Op F)) :
    ∃ c₀ c, new hash micros chainId uuid = .ok c₀ ∧ c = run hash micros ops c₀ ∧
      c.chainId = chainIdOr chainId uuid ∧
      c.verifyChain hash micros = .ok true ∧
      (∀ (i : Nat) (h : i < c.blocks.length), c.blocks[i].index = i) ∧
      (∃ r, (root hash c).1 = .ok r ∧ buildMerkleTree hash c.hashes = [r]) ∧
      (∀ i : Int, 0 ≤ i → i < c.height → ∃ p c', proveInclusion hash i c = (.ok (some p), c') ∧
        (verifyProof hash p c').1 = .ok true) ∧
      ∃ c', importBlocks hash micros c.chainId uuid' c.exportBlocks = .ok c' ∧
        c'.height = c.height ∧ c'.hashes = c.hashes ∧ (root hash c').1 = (root hash c).1 := by
  obtain ⟨c₀, hnew, hid₀, h₀⟩ := valid_new hash micros chainId uuid
  obtain ⟨h, hid⟩ := h₀.run ops
  obtain ⟨r, hroot, hlast, -⟩ := h.levelled.root_eq
  refine ⟨c₀, _, hnew, rfl, hid.trans hid₀, h.verifyChain_eq, h.numbered, ?_, ?_, ?_⟩
  · refine ⟨r, by rw [hroot], ?_⟩
    rw [buildMerkleTree, if_neg h.levelled.hashes_ne_nil, hlast]
  · intro i hi hlt
    obtain ⟨n, rfl⟩ := Int.eq_ofNat_of_zero_le hi
    have hn : n < (run hash micros ops c₀).blocks.length := Int.ofNat_lt.mp hlt
    refine ⟨_, _, h.levelled.proveInclusion_eq hn, ?_⟩
    exact congrArg Prod.fst (h.memoized.levelled.verifyProof_eq hn)
  · have hfresh : Valid hash micros { run hash micros ops c₀ with treeLevels := none } :=
      { h with memo := fun _ hmemo => by cases hmemo }
    obtain ⟨r', hroot', hlast', -⟩ := hfresh.levelled.root_eq
    refine ⟨_, h.importBlocks_exportBlocks uuid', rfl, rfl, ?_⟩
    have hsame : [r'] = [r] := hlast'.symm.trans hlast
    rw [hroot', hroot, List.singleton_inj.mp hsame]

end MerkleChainAudit

end Noema.Audit
