import Noema.Audit.MerkleRuns

/-!
# Imported chains

What `import_blocks` accepts (merkle.py). `verify_chain` checks the hash of every block and the
links between them; the index of a block is only checked as a part of its hash, so a chain with gaps
in its numbers passes, and so does one that repeats a number.

- `importBlocks_cases`: what an import returns is the genesis block and the blocks of the dicts, all
  verified and linked, with nothing memoised. `verifyFrom_true` reads this off the loop.
- `Ordered`: levels and numbers as `append` and `prove_inclusion` need them, kept by every call.
- `Ordered.createAuditProof_verifies`: on such a chain the proof of a new block is right.
  `create_audit_proof` passes the index of the block to `prove_inclusion`, which takes it for a
  position.
- **`importBlocks_wellFormed_iff`**: the imported chain is well formed if and only if the dicts that
  are not skipped declare the indices 1, 2, 3, … in this order.

`importBlocks_gapDict` is an accepted chain with a gap, on which the next block gets no proof.
-/

namespace Noema.Audit.MerkleChainAudit

open Noema.Lib Noema.Utils PyJson

variable {F : Type} [PyBuiltins F] {hash : Bytes → Bytes} {micros : F → Except PyExc Int}

/-! ## What an import accepts -/

omit [PyBuiltins F] in
theorem verifyFrom_true {prev : Option (AuditBlock F)} {blocks : List (AuditBlock F)}
    (h : verifyFrom hash micros prev blocks = .ok true) :
    (∀ b ∈ blocks, b.verify hash micros = .ok true) ∧ (prev.toList ++ blocks).IsChain Linked := by
  -- The loop compares each block with the one before it, which the genesis block does not have.
  induction blocks generalizing prev with
  | nil =>
    refine ⟨fun b hb => (by cases hb), ?_⟩
    cases prev with
    | none => exact .nil
    | some p => exact List.isChain_singleton p
  | cons b blocks ih =>
    cases prev with
    | none =>
      rw [verifyFrom] at h
      obtain ⟨ok, hverify, h⟩ := bind_eq_ok h
      cases ok with
      | false => cases h
      | true =>
        obtain ⟨hall, hchain⟩ := @ih (some b) h
        exact ⟨List.forall_mem_cons.mpr ⟨hverify, hall⟩, hchain⟩
    | some p =>
      rw [verifyFrom] at h
      obtain ⟨ok, hverify, h⟩ := bind_eq_ok h
      cases ok with
      | false => cases h
      | true =>
        simp only [if_true] at h
        split at h
        · next hlink =>
          obtain ⟨hall, hchain⟩ := @ih (some b) h
          exact ⟨List.forall_mem_cons.mpr ⟨hverify, hall⟩,
            List.isChain_cons_cons.mpr ⟨hlink, hchain⟩⟩
        · cases h

/-- The dicts that are not skipped as the genesis block. -/
def blockDicts (data : List (BlockDict F)) : List (BlockDict F) :=
  data.filter fun bd => !isGenesisDict bd

theorem importAll_eq_ok {data : List (BlockDict F)} {blocks : List (AuditBlock F)}
    (h : importAll data = .ok blocks) :
    List.Forall₂ (fun bd b => importBlock bd = .ok b) (blockDicts data) blocks := by
  induction data generalizing blocks with
  | nil =>
    cases h
    exact .nil
  | cons bd data ih =>
    rw [importAll] at h
    split at h
    · next hgenesis =>
      rw [blockDicts, List.filter_cons_of_neg (by simp [hgenesis])]
      exact ih h
    · next hgenesis =>
      obtain ⟨b, hb, h⟩ := bind_eq_ok h
      obtain ⟨rest, hrest, h⟩ := bind_eq_ok h
      cases h
      rw [blockDicts, List.filter_cons_of_pos (by simp [hgenesis])]
      exact .cons hb (ih hrest)

/-- The integer index that a dict declares. -/
def declaredIndex (bd : BlockDict F) : Option Int :=
  match (bd.lookup "index").map BlockValue.index with
  | some (.ok i) => some i
  | _ => none

omit [PyBuiltins F] in
/-- A block has the index of its dict. -/
theorem declaredIndex_of_importBlock {bd : BlockDict F} {b : AuditBlock F}
    (h : importBlock bd = .ok b) : declaredIndex bd = some b.index := by
  rw [importBlock] at h
  obtain ⟨metadata, -, h⟩ := bind_eq_ok h
  obtain ⟨v, hv, h⟩ := bind_eq_ok h
  obtain ⟨index, hindex, h⟩ := bind_eq_ok h
  obtain ⟨_, -, h⟩ := bind_eq_ok h
  obtain ⟨_, -, h⟩ := bind_eq_ok h
  obtain ⟨_, -, h⟩ := bind_eq_ok h
  obtain ⟨_, -, h⟩ := bind_eq_ok h
  obtain ⟨_, -, h⟩ := bind_eq_ok h
  obtain ⟨_, -, h⟩ := bind_eq_ok h
  obtain ⟨_, -, h⟩ := bind_eq_ok h
  obtain ⟨_, -, h⟩ := bind_eq_ok h
  cases h
  have hlookup : bd.lookup "index" = some v := by
    rw [getKey] at hv
    split at hv
    · next hsome =>
      cases hv
      exact hsome
    · cases hv
  rw [declaredIndex, hlookup, Option.map_some, hindex]

/-- **What an accepted import is**: the genesis block of the chain id and the blocks of the dicts,
with verified hashes and links, and nothing memoised. -/
theorem importBlocks_cases {chainId : String} {uuid : Uuid} {data : List (BlockDict F)}
    {c : MerkleChainAudit F} (h : importBlocks hash micros chainId uuid data = .ok c) :
    ∃ c₀ blocks, new hash micros (some chainId) uuid = .ok c₀ ∧ Valid hash micros c₀ ∧
      importAll data = .ok blocks ∧ c = { c₀ with blocks := c₀.genesis :: blocks, treeLevels := none } ∧
      (∀ b ∈ c.blocks, b.verify hash micros = .ok true) ∧ c.blocks.IsChain Linked := by
  rw [importBlocks] at h
  obtain ⟨c₀, hnew, h⟩ := bind_eq_ok h
  obtain ⟨blocks, himport, h⟩ := bind_eq_ok h
  obtain ⟨verified, hverify, h⟩ := bind_eq_ok h
  obtain ⟨c₁, hnew', -, hvalid⟩ := valid_new hash micros (some chainId) uuid
  rw [hnew] at hnew'
  cases hnew'
  cases verified with
  | false => cases h
  | true =>
    cases h
    obtain ⟨hall, hchain⟩ := verifyFrom_true hverify
    exact ⟨c₀, blocks, hnew, hvalid, himport, rfl, hall, hchain⟩

/-! ## Numbered chains -/

/-- The block at position `i` has the index `i`. -/
def Numbered (c : MerkleChainAudit F) : Prop :=
  ∀ (i : Nat) (h : i < c.blocks.length), c.blocks[i].index = i

/-- What `append` and `prove_inclusion` rely on together. -/
structure Ordered (hash : Bytes → Bytes) (c : MerkleChainAudit F) : Prop
    extends Levelled hash c where
  numbered : Numbered c

omit [PyBuiltins F] in
theorem levelled_append (c : MerkleChainAudit F) (block : AuditBlock F) :
    Levelled hash { c with blocks := c.blocks ++ [block], treeLevels := none } where
  nonempty := List.append_ne_nil_of_right_ne_nil _ (List.cons_ne_nil _ _)
  memo levels hmemo := by cases hmemo

omit [PyBuiltins F] in
theorem levelled_memoized {c : MerkleChainAudit F} (h : c.blocks ≠ []) :
    Levelled hash (c.memoized hash) where
  nonempty := h
  memo _ hmemo := (Option.some.inj hmemo).symm

theorem Ordered.step {c : MerkleChainAudit F} (h : Ordered hash c) (op : Op F) :
    Ordered hash (MerkleChainAudit.step hash micros c op) := by
  obtain hsame | hmemo | ⟨prev, block, hlast, hindex, -, -, -, hnew⟩ :=
    h.toLevelled.step_cases micros op
  · rw [hsame]
    exact h
  · rw [hmemo]
    exact ⟨levelled_memoized h.nonempty, h.numbered⟩
  · rw [hnew]
    exact ⟨levelled_append c block, numbered_concat h.numbered hlast hindex⟩

/-- Every sequence of calls keeps the numbers. -/
theorem Ordered.run {c : MerkleChainAudit F} (h : Ordered hash c) (ops : List (Op F)) :
    Ordered hash (MerkleChainAudit.run hash micros ops c) := by
  induction ops generalizing c with
  | nil => exact h
  | cons op ops ih => exact ih (h.step op)

/-! ## Audit proofs -/

/-- The siblings of a dict, with their directions. -/
def readSiblings : List String → List String → Option (List (Bytes × Bool))
  | s :: siblings, d :: directions =>
    match fromhex s, readSiblings siblings directions with
    | some s, some rest => some ((s, d == "left") :: rest)
    | _, _ => none
  | _, _ => some []

/-- The proof and the root that a dict stands for. -/
def AuditProofDict.read (d : AuditProofDict) : Option (MerkleProof × Bytes) :=
  match d.proof, fromhex d.blockHash, fromhex d.root with
  | some (siblings, directions), some blockHash, some root =>
    (readSiblings siblings directions).map fun s => (⟨d.blockIndex, blockHash, s⟩, root)
  | _, _, _ => none

/-- The proof of the dict leads from its block hash to its root. -/
def AuditProofDict.Verifies (hash : Bytes → Bytes) (d : AuditProofDict) : Prop :=
  ∃ p root, d.read = some (p, root) ∧ p.verify hash root p.blockHash = true

theorem readSiblings_hex (siblings : List (Bytes × Bool)) :
    readSiblings (siblings.map fun s => hex s.1)
      (siblings.map fun s => if s.2 then "left" else "right") = some siblings := by
  induction siblings with
  | nil => rfl
  | cons s siblings ih =>
    obtain ⟨sibling, isLeft⟩ := s
    rw [List.map_cons, List.map_cons, readSiblings, fromhex_hex, ih]
    cases isLeft <;> rfl

/-- **`create_audit_proof` on a numbered chain** returns a proof of the new block that verifies
against the returned root. -/
theorem Ordered.createAuditProof_verifies {c c' : MerkleChainAudit F} (h : Ordered hash c)
    {taskId tenantId : String} {now : F} {d : AuditProofDict}
    (hcreate : createAuditProof hash micros taskId tenantId now c = (.ok d, c')) :
    d.Verifies hash := by
  rw [createAuditProof] at hcreate
  obtain ⟨e, herr⟩ | ⟨prev, block, hlast, happ, hindex, -⟩ := append_cases hash micros
    [("task_id", .str taskId), ("tenant_id", .str tenantId), ("event", .str "task_completed")]
    (some [("audit_type", .str "solution_generation")]) now c
  · rw [PyM.bind_error herr] at hcreate
    cases hcreate
  · obtain ⟨c₁, hc₁⟩ : ∃ c₁ : MerkleChainAudit F,
        c₁ = { c with blocks := c.blocks ++ [block], treeLevels := none } := ⟨_, rfl⟩
    rw [← hc₁] at happ
    have hblocks : c₁.blocks = c.blocks ++ [block] := by rw [hc₁]
    have hlevels : Levelled hash c₁ := hc₁ ▸ levelled_append c block
    have hlt : c.blocks.length < c₁.blocks.length := by simp [hblocks]
    have hget : c₁.blocks[c.blocks.length] = block := by simp [hblocks]
    -- The number of the new block is its position, so that the right siblings are collected.
    have hnumber : block.index = (c.blocks.length : Nat) := by
      have hlen : c.blocks.length < (c.blocks ++ [block]).length := by simp
      have := numbered_concat h.numbered hlast hindex c.blocks.length hlen
      rwa [List.getElem_concat_length rfl] at this
    have hmemoized : Levelled hash (c₁.memoized hash) := levelled_memoized hlevels.nonempty
    obtain ⟨r, hroot, -, hclimb⟩ := hmemoized.root_eq
    have hprove := hlevels.proveInclusion_eq hlt
    obtain ⟨siblings, hsiblings⟩ : ∃ siblings, siblings = PromotingTree.path
      (PromotingTree.levels (nodeHash hash) c₁.hashes).dropLast c.blocks.length := ⟨_, rfl⟩
    rw [← hnumber, hget, ← hsiblings] at hprove
    rw [PyM.bind_ok happ, PyM.bind_ok hprove, PyM.bind_ok hroot, PyM.bind_ok (PyM.get_apply _)]
      at hcreate
    obtain ⟨verified, c₂, -, hreturn⟩ := PyM.bind_inv hcreate
    cases hreturn
    refine ⟨⟨block.index, block.blockHash, siblings⟩, r, ?_, ?_⟩
    · rw [AuditProofDict.read, Option.map_some]
      dsimp only
      rw [fromhex_hex, fromhex_hex]
      dsimp only
      rw [readSiblings_hex]
      rfl
    · have hbound : c.blocks.length < (c₁.memoized hash).hashes.length := by
        rwa [hashes, List.length_map]
      have hleaf : (c₁.memoized hash).hashes[c.blocks.length] = block.blockHash := by
        rw [← hget]
        exact List.getElem_map _
      rw [MerkleProof.verify, foldl_siblings_eq_climb, hsiblings, ← hleaf]
      exact beq_iff_eq.mpr (hclimb _ _)

/-! ## When an import is numbered -/

/-- The dicts declare the indices 1, 2, 3, … in this order. -/
def Consecutive (data : List (BlockDict F)) : Prop :=
  (blockDicts data).map declaredIndex =
    (List.range (blockDicts data).length).map fun i : Nat => some ((i : Int) + 1)

instance (data : List (BlockDict F)) : Decidable (Consecutive data) :=
  inferInstanceAs (Decidable (_ = _))

theorem map_declaredIndex {data : List (BlockDict F)} {blocks : List (AuditBlock F)}
    (h : importAll data = .ok blocks) :
    (blockDicts data).map declaredIndex = blocks.map fun b => some b.index := by
  have hall := importAll_eq_ok h
  clear h
  generalize blockDicts data = dicts at hall
  induction hall with
  | nil => rfl
  | cons hhead _ ih => rw [List.map_cons, List.map_cons, declaredIndex_of_importBlock hhead, ih]

omit [PyBuiltins F] in
/-- A chain is numbered when the blocks after the first one have the indices from one on. -/
theorem numbered_cons_iff {c : MerkleChainAudit F} {genesis : AuditBlock F}
    {blocks : List (AuditBlock F)} (hblocks : c.blocks = genesis :: blocks)
    (hgenesis : genesis.index = 0) :
    Numbered c ↔ (blocks.map fun b => some b.index) =
      (List.range blocks.length).map fun i : Nat => some ((i : Int) + 1) := by
  have hlen : c.blocks.length = blocks.length + 1 := by rw [hblocks, List.length_cons]
  constructor
  · intro h
    refine List.ext_getElem (by simp) fun i hi _ => ?_
    rw [List.length_map] at hi
    have hnum := h (i + 1) (by omega)
    simp only [hblocks, List.getElem_cons_succ] at hnum
    rw [List.getElem_map, List.getElem_map, List.getElem_range, hnum]
    norm_num
  · intro h i hi
    rcases i with _ | i
    · simp only [hblocks, List.getElem_cons_zero, hgenesis]
      rfl
    · have hi' : i < blocks.length := by omega
      have hget := List.getElem_of_eq h (i := i) (by simpa using hi')
      rw [List.getElem_map, List.getElem_map, List.getElem_range] at hget
      simp only [hblocks, List.getElem_cons_succ]
      rw [Option.some.inj hget]
      norm_num

theorem numbered_iff_consecutive {chainId : String} {uuid : Uuid} {data : List (BlockDict F)}
    {c : MerkleChainAudit F} (h : importBlocks hash micros chainId uuid data = .ok c) :
    Numbered c ↔ Consecutive data := by
  obtain ⟨c₀, blocks, -, hvalid, himport, rfl, -, -⟩ := importBlocks_cases h
  obtain ⟨rest, hrest⟩ := List.head?_eq_some_iff.mp hvalid.head
  have hgenesis : c₀.genesis.index = 0 := by
    have hzero := hvalid.numbered 0 (by simp [hrest])
    simpa [hrest] using hzero
  have hlen : (blockDicts data).length = blocks.length := (importAll_eq_ok himport).length_eq
  rw [numbered_cons_iff rfl hgenesis, Consecutive, map_declaredIndex himport, hlen]

/-- The chain is numbered, and whatever is called on it before, an audit proof verifies against
the root returned with it. -/
def WellFormed (hash : Bytes → Bytes) (micros : F → Except PyExc Int) (c : MerkleChainAudit F) :
    Prop :=
  Numbered c ∧ ∀ (ops : List (Op F)) (taskId tenantId : String) (now : F) (d : AuditProofDict)
    (c' : MerkleChainAudit F),
    createAuditProof hash micros taskId tenantId now (run hash micros ops c) = (.ok d, c') →
      d.Verifies hash

/-- **An imported chain is well formed** if and only if the dicts that are not skipped declare the
indices 1, 2, 3, … in this order. -/
theorem importBlocks_wellFormed_iff {chainId : String} {uuid : Uuid} {data : List (BlockDict F)}
    {c : MerkleChainAudit F} (h : importBlocks hash micros chainId uuid data = .ok c) :
    WellFormed hash micros c ↔ Consecutive data := by
  rw [← numbered_iff_consecutive h]
  refine ⟨fun hwf => hwf.1, fun hnum => ⟨hnum, fun ops taskId tenantId now d c' hcreate => ?_⟩⟩
  obtain ⟨c₀, blocks, -, -, -, rfl, -, -⟩ := importBlocks_cases h
  have hordered : Ordered hash { c₀ with blocks := c₀.genesis :: blocks, treeLevels := none } :=
    { nonempty := List.cons_ne_nil _ _, memo := fun _ hmemo => (by cases hmemo), numbered := hnum }
  exact (hordered.run ops).createAuditProof_verifies hcreate

/-! ## Samples -/

/-- `uuid4().bytes`, not read where there is a chain id. -/
def sampleUuid : Uuid := ⟨List.replicate 16 0, rfl⟩

/-- `time.time()` at the calls of the samples. -/
def sampleNow : FloatText := PyFloat.ofText "1754000000.5".toList

/-- `int(timestamp * 1_000_000)` of `sampleNow`. -/
def sampleMicros : FloatText → Except PyExc Int := fun _ => .ok 1754000000500000

/-- The dict of a block after the genesis block of the chain `c`. -/
def sampleDict (index : Int) (blockHash : String) : BlockDict FloatText :=
  [("index", .val (.int index)),
    ("prev_hash", .val (.str "c2ba7ea773cd92ad5f9d0aa7d30fb4e93c83ee9207ed1295541c5146b3099c5a")),
    ("timestamp", .val (.int 0)),
    ("commitment", .val (.str "3ec5988fedd10cad88e07da65a5fa8456417c9367b155dd39a490e3939c3a1f9")),
    ("block_hash", .val (.str blockHash)), ("metadata", .val (.str ""))]

/-- A block with the index 1. -/
def nextDict : BlockDict FloatText :=
  sampleDict 1 "6af9b444744a41f2496e6fbc599740f0bb010aabcb98ad74f5fa4a31b12bfd21"

/-- A block with the index 5. -/
def gapDict : BlockDict FloatText :=
  sampleDict 5 "c5cb27adb24275b055df75edf9ee76baf492613c7f448befd66084fd1161631c"

/-- The hash of the genesis block of the chain `c`. -/
def genesisHash : Bytes :=
  [0xc2, 0xba, 0x7e, 0xa7, 0x73, 0xcd, 0x92, 0xad, 0x5f, 0x9d, 0x0a, 0xa7, 0xd3, 0x0f, 0xb4, 0xe9,
    0x3c, 0x83, 0xee, 0x92, 0x07, 0xed, 0x12, 0x95, 0x54, 0x1c, 0x51, 0x46, 0xb3, 0x09, 0x9c, 0x5a]

/-- The commitment of `sampleDict`. -/
def sampleCommitment : Bytes :=
  [0x3e, 0xc5, 0x98, 0x8f, 0xed, 0xd1, 0x0c, 0xad, 0x88, 0xe0, 0x7d, 0xa6, 0x5a, 0x5f, 0xa8, 0x45,
    0x64, 0x17, 0xc9, 0x36, 0x7b, 0x15, 0x5d, 0xd3, 0x9a, 0x49, 0x0e, 0x39, 0x39, 0xc3, 0xa1, 0xf9]

/-- The block of `sampleDict`. -/
def sampleBlock (index : Int) (blockHash : Bytes) : AuditBlock FloatText where
  index := index
  prevHash := genesisHash
  timestamp := .int 0
  commitment := sampleCommitment
  metadata := []
  blockHash := blockHash

theorem sampleDict_eq {index : Int} {blockHash : Bytes} {text : String} (htext : text = hex blockHash) :
    sampleDict index text = exportBlock (sampleBlock index blockHash) := by
  have hprev : "c2ba7ea773cd92ad5f9d0aa7d30fb4e93c83ee9207ed1295541c5146b3099c5a" = hex genesisHash :=
    congrArg String.ofList (by decide +kernel)
  have hcommitment : "3ec5988fedd10cad88e07da65a5fa8456417c9367b155dd39a490e3939c3a1f9" =
      hex sampleCommitment := congrArg String.ofList (by decide +kernel)
  have hmetadata : "" = String.ofList (decodeUtf8Replace []) :=
    congrArg String.ofList (by simp [decodeUtf8Replace])
  rw [sampleDict, exportBlock, hprev, hcommitment, htext, hmetadata]
  rfl

/-- The dicts are read by a lemma, so that the kernel computes no more than the hashes. -/
theorem importAll_sampleDict {index : Int} (hindex : index ≠ 0) {blockHash : Bytes} {text : String}
    (htext : text = hex blockHash) :
    importAll [sampleDict index text] = .ok [sampleBlock index blockHash] := by
  rw [sampleDict_eq htext, ← List.map_singleton]
  exact importAll_exportBlock (List.forall_mem_singleton.mpr hindex)
    (List.forall_mem_singleton.mpr fun _ hx => absurd hx List.not_mem_nil)

/-- The result of a call that does not raise, with what is observed of it. -/
def observed {α : Type} (x : Except PyExc α) (p : α → Prop) [DecidablePred p]
    (h : x.toOption.any (fun a => p a) = true) : {a // x = .ok a ∧ p a} :=
  match x, h with
  | .ok a, h => ⟨a, rfl, of_decide_eq_true h⟩

theorem importAll_nextDict : importAll [nextDict] = .ok [sampleBlock 1
    [0x6a, 0xf9, 0xb4, 0x44, 0x74, 0x4a, 0x41, 0xf2, 0x49, 0x6e, 0x6f, 0xbc, 0x59, 0x97, 0x40, 0xf0,
      0xbb, 0x01, 0x0a, 0xab, 0xcb, 0x98, 0xad, 0x74, 0xf5, 0xfa, 0x4a, 0x31, 0xb1, 0x2b, 0xfd, 0x21]] := by
  rw [nextDict]
  exact importAll_sampleDict (by decide) (congrArg String.ofList (by decide +kernel))

theorem importAll_gapDict : importAll [gapDict] = .ok [sampleBlock 5
    [0xc5, 0xcb, 0x27, 0xad, 0xb2, 0x42, 0x75, 0xb0, 0x55, 0xdf, 0x75, 0xed, 0xf9, 0xee, 0x76, 0xba,
      0xf4, 0x92, 0x61, 0x3c, 0x7f, 0x44, 0x8b, 0xef, 0xd6, 0x60, 0x84, 0xfd, 0x11, 0x61, 0x63, 0x1c]] := by
  rw [gapDict]
  exact importAll_sampleDict (by decide) (congrArg String.ofList (by decide +kernel))

theorem importBlocks_nextDict_height :
    (importBlocks chainHash sampleMicros "c" sampleUuid [nextDict]).toOption.any
      (fun c => c.height = 2) = true := by
  rw [chainHash_eq_fastDigest, importBlocks, importAll_nextDict]
  decide +kernel

/-- The chain with the block 1. -/
def nextChain : {c : MerkleChainAudit FloatText //
    importBlocks chainHash sampleMicros "c" sampleUuid [nextDict] = .ok c ∧ c.height = 2} :=
  observed _ _ importBlocks_nextDict_height

theorem importBlocks_gapDict_observed :
    (importBlocks chainHash sampleMicros "c" sampleUuid [gapDict]).toOption.any
      (fun c => c.blocks.map AuditBlock.index = [0, 5] ∧
        (createAuditProof chainHash sampleMicros "t" "a" sampleNow c).1.toOption.map
          (fun d => (d.blockIndex, d.proof)) = some (6, none)) = true := by
  rw [chainHash_eq_fastDigest, importBlocks, importAll_gapDict]
  decide +kernel

/-- The chain whose second block has the index 5, and what a call appends to it. -/
def gapChain : {c : MerkleChainAudit FloatText //
    importBlocks chainHash sampleMicros "c" sampleUuid [gapDict] = .ok c ∧
      c.blocks.map AuditBlock.index = [0, 5] ∧
      (createAuditProof chainHash sampleMicros "t" "a" sampleNow c).1.toOption.map
        (fun d => (d.blockIndex, d.proof)) = some (6, none)} :=
  observed _ _ importBlocks_gapDict_observed

/-- The theorem at work on a chain with the block 1. -/
theorem importBlocks_nextDict :
    ∃ c, importBlocks chainHash sampleMicros "c" sampleUuid [nextDict] = .ok c ∧
      WellFormed chainHash sampleMicros c :=
  ⟨nextChain.1, nextChain.2.1, (importBlocks_wellFormed_iff nextChain.2.1).mpr (by decide +kernel)⟩

/-- A chain whose second block has the index 5 is accepted. The block that `create_audit_proof`
appends has the index 6 at position 2, and gets no proof. -/
theorem importBlocks_gapDict :
    ∃ c, importBlocks chainHash sampleMicros "c" sampleUuid [gapDict] = .ok c ∧
      c.blocks.map AuditBlock.index = [0, 5] ∧
      (createAuditProof chainHash sampleMicros "t" "a" sampleNow c).1.toOption.map
        (fun d => (d.blockIndex, d.proof)) = some (6, none) ∧
      ¬ WellFormed chainHash sampleMicros c := by
  obtain ⟨c, himport, hindices, hproof⟩ := gapChain
  refine ⟨c, himport, hindices, hproof, fun hwf => ?_⟩
  have hlt : 1 < c.blocks.length := by
    have hlen := congrArg List.length hindices
    rw [List.length_map] at hlen
    rw [hlen]
    decide
  have hone : c.blocks[1].index = 5 := by
    have hget := List.getElem_of_eq hindices (i := 1) (by rwa [List.length_map])
    rwa [List.getElem_map] at hget
  rw [hwf.1 1 hlt] at hone
  cases hone

end Noema.Audit.MerkleChainAudit
