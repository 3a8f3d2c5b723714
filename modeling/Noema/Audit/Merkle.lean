import Noema.Lib.Blake2b
import Noema.Lib.PromotingTree
import Noema.Utils.JsonUtils

/-!
# The hash chain of audit blocks (`audit/merkle.py`)

`MerkleChainAudit` under the source's names: the blocks, the memoised levels of the tree over their
hashes, and the methods that append, prove, verify, export and import.

The methods that fill the memoised levels run in `PyM (MerkleChainAudit F)`; what a call changed
before it raised stays changed. A call of `prove_inclusion` or `verify_proof` therefore returns a
chain as well as an answer. Indexing is Python's: `pyIndexInt` reads from the end for a negative
index and raises beyond both ends, and `verify_proof` passes on what it is given.

The hash (`_hash` is `chainHash`) and `int(x * 1_000_000)` on floats (`micros`) are parameters; the
wall clock and `uuid4` are arguments of the calls that read them. `chainHash` itself is BLAKE2b with
a salt, and `chainHash_eq_fastDigest` lets the kernel run it on concrete chains.

The tree is not that of `merkle_proof.py`: operands are not ordered, and an odd node at the end of a
row is promoted as it is (`Lib.PromotingTree`).

The attributes `_dirty` and `nonce` are written and never read, and are left out.
-/

namespace Noema.Audit

open Noema.Lib Noema.Utils PyJson

/-- `_hash` (merkle.py:20): BLAKE2b with 32 bytes and the salt `b"noema-audit-v1"`. -/
def chainHash (data : Bytes) : Bytes :=
  Blake2b.digest 32 [0x6e, 0x6f, 0x65, 0x6d, 0x61, 0x2d, 0x61, 0x75, 0x64, 0x69, 0x74, 0x2d, 0x76, 0x31]
    data

theorem length_chainHash (data : Bytes) : (chainHash data).length = 32 :=
  Blake2b.length_digest (by decide) _ _

/-- The hash as the samples evaluate it. -/
theorem chainHash_eq_fastDigest : chainHash = Blake2b.fastDigest 32
    [0x6e, 0x6f, 0x65, 0x6d, 0x61, 0x2d, 0x61, 0x75, 0x64, 0x69, 0x74, 0x2d, 0x76, 0x31] := by
  rw [← Blake2b.digest_eq_fastDigest]
  rfl

/-! ## Blocks -/

/-- `n.to_bytes(width, "big")`. -/
def intToBytes (n : Int) (width : Nat) : Except PyExc Bytes :=
  if n < 0 then .error (.overflowError "can't convert negative int to unsigned")
  else if 2 ^ (8 * width) ≤ n then .error (.overflowError "int too big to convert")
  else .ok ((List.range width).reverse.map fun i => UInt8.ofNat (n.toNat / 256 ^ i))

/-- The 16 bytes of a `uuid4`. -/
structure Uuid where
  bytes : Bytes
  length_eq : bytes.length = 16

/-- `str(uuid)[:8]`. -/
def Uuid.shortId (uuid : Uuid) : String := hex (uuid.bytes.take 4)

variable {F : Type}

/-- `AuditBlock` (merkle.py:49). The timestamp of the genesis block is an `int`. -/
structure AuditBlock (F : Type) where
  index : Int
  prevHash : Bytes
  timestamp : PyVal F
  commitment : Bytes
  metadata : Bytes
  blockHash : Bytes

/-- `MerkleProof` (merkle.py:66). -/
structure MerkleProof where
  blockIndex : Int
  blockHash : Bytes
  siblings : List (Bytes × Bool)
  deriving DecidableEq, Repr

/-- `MerkleChainAudit` (merkle.py:79). -/
structure MerkleChainAudit (F : Type) where
  chainId : String
  genesis : AuditBlock F
  blocks : List (AuditBlock F)
  treeLevels : Option (List (List Bytes))

/-- The hashes of the blocks of a chain. -/
def MerkleChainAudit.hashes (c : MerkleChainAudit F) : List Bytes := c.blocks.map AuditBlock.blockHash

/-- `height` (merkle.py:116). -/
def MerkleChainAudit.height (c : MerkleChainAudit F) : Nat := c.blocks.length

/-- The 32 zero bytes before the genesis block. -/
def zeroHash : Bytes := List.replicate 32 0

/-- `b"genesis"`. -/
def genesisMetadata : Bytes := [0x67, 0x65, 0x6e, 0x65, 0x73, 0x69, 0x73]

section Blocks

variable [PyFloat F] (hash : Bytes → Bytes) (micros : F → Except PyExc Int)

/-- `_compute_commitment` (merkle.py:24). -/
def computeCommitment (payload : List (String × PyVal F)) (nonce : Option Bytes) : Bytes :=
  let encoded := serializeToBytes (.dict payload)
  match nonce with
  | none => hash encoded
  | some nonce => hash (nonce ++ encoded)

/-- `int(timestamp * 1_000_000)`; a value that is not a number raises, a string
because a million copies of it are no literal. -/
def timestampMicros : PyVal F → Except PyExc Int
  | .int i => .ok (i * 1000000)
  | .bool b => .ok (if b then 1000000 else 0)
  | .float f => micros f
  | .str _ => .error (.valueError "invalid literal for int() with base 10")
  | .list _ => .error (.typeError
      "int() argument must be a string, a bytes-like object or a real number, not 'list'")
  | v => .error (.typeError s!"unsupported operand type(s) for *: '{v.typeName}' and 'int'")

/-- `_compute_block_hash` (merkle.py:31). -/
def computeBlockHash (index : Int) (prevHash commitment : Bytes) (timestamp : PyVal F)
    (metadata : Bytes) : Except PyExc Bytes := do
  let indexBytes ← intToBytes index 8
  let time ← timestampMicros micros timestamp
  let timeBytes ← intToBytes time 8
  return hash (indexBytes ++ prevHash ++ commitment ++ timeBytes ++ metadata)

/-- `AuditBlock.verify` (merkle.py:58). -/
def AuditBlock.verify (b : AuditBlock F) : Except PyExc Bool := do
  let expected ← computeBlockHash hash micros b.index b.prevHash b.commitment b.timestamp b.metadata
  return expected == b.blockHash

/-- `MerkleProof.verify` (merkle.py:71). -/
def MerkleProof.verify (p : MerkleProof) (root leaf : Bytes) : Bool :=
  p.siblings.foldl (fun current s =>
    if s.2 then hash (s.1 ++ current) else hash (current ++ s.1)) leaf == root

end Blocks

/-! ## Levels -/

section Levels

variable (hash : Bytes → Bytes)

/-- The hash of two nodes. -/
def nodeHash (left right : Bytes) : Bytes := hash (left ++ right)

/-- The loop of `_build_merkle_tree`; one round is `PromotingTree.parents`. -/
def lastLevel (level : List Bytes) : List Bytes :=
  if 1 < level.length then lastLevel (PromotingTree.parents (nodeHash hash) level) else level
termination_by level.length
decreasing_by
  rw [PromotingTree.length_parents]
  omega

/-- `_build_merkle_tree` (merkle.py:247). -/
def buildMerkleTree (leaves : List Bytes) : List Bytes :=
  if leaves = [] then [] else lastLevel hash leaves

/-- The loop of `prove_inclusion` over the levels below the root. -/
def proofSiblings : List (List Bytes) → Nat → Except PyExc (List (Bytes × Bool))
  | [], _ => .ok []
  | level :: rest, idx => do
    if idx % 2 = 0 then
      if idx + 1 < level.length then
        let sibling ← pyIndex level (idx + 1)
        let siblings ← proofSiblings rest (idx / 2)
        return (sibling, false) :: siblings
      else proofSiblings rest (idx / 2)
    else
      let sibling ← pyIndex level (idx - 1)
      let siblings ← proofSiblings rest (idx / 2)
      return (sibling, true) :: siblings

end Levels

/-! ## The chain -/

namespace MerkleChainAudit

section Chain

variable [PyBuiltins F] (hash : Bytes → Bytes) (micros : F → Except PyExc Int)

/-- The payload of the genesis block. -/
def genesisPayload (chainId : String) : List (String × PyVal F) :=
  [("event", .str "chain_created"), ("chain_id", .str chainId), ("version", .str "1.0")]

/-- `chain_id or str(uuid.uuid4())[:8]`. -/
def chainIdOr (chainId : Option String) (uuid : Uuid) : String :=
  match chainId with
  | none => uuid.shortId
  | some id => if id = "" then uuid.shortId else id

/-- `MerkleChainAudit(chain_id)` (merkle.py:80). -/
def new (chainId : Option String) (uuid : Uuid) : Except PyExc (MerkleChainAudit F) := do
  let chainId := chainIdOr chainId uuid
  let genesisCommitment := computeCommitment hash (F := F) (genesisPayload chainId) none
  let genesisHash ← computeBlockHash hash micros 0 zeroHash genesisCommitment (.int 0) genesisMetadata
  let genesis := ⟨0, zeroHash, .int 0, genesisCommitment, genesisMetadata, genesisHash⟩
  return ⟨chainId, genesis, [genesis], none⟩

/-- `tip` (merkle.py:104). -/
def tip : PyM (MerkleChainAudit F) (AuditBlock F) := do
  let c ← PyM.get
  match c.blocks.getLast? with
  | some block => return block
  | none => PyM.raise (.indexError "list index out of range")

/-- `append` (merkle.py:119) at the time `now`. -/
def append (payload : List (String × PyVal F)) (metadata : Option (List (String × PyVal F)))
    (now : F) : PyM (MerkleChainAudit F) (AuditBlock F) := do
  let prev ← tip
  let index := prev.index + 1
  let commitment := computeCommitment hash payload none
  let metaBytes := serializeToBytes (.dict (metadata.getD []) : PyVal F)
  let blockHash ← PyM.lift
    (computeBlockHash hash micros index prev.blockHash commitment (.float now) metaBytes)
  let block : AuditBlock F := ⟨index, prev.blockHash, .float now, commitment, metaBytes, blockHash⟩
  if ← PyM.lift (block.verify hash micros) then pure ()
  else PyM.raise (.runtimeError s!"Block {index} failed self-verification")
  PyM.modify fun c => { c with blocks := c.blocks ++ [block], treeLevels := none }
  return block

/-- The loop of `verify_chain`, after the block `prev`. -/
def verifyFrom (prev : Option (AuditBlock F)) : List (AuditBlock F) → Except PyExc Bool
  | [] => .ok true
  | block :: blocks => do
    if ← block.verify hash micros then
      match prev with
      | some p => if block.prevHash = p.blockHash then verifyFrom (some block) blocks else return false
      | none => verifyFrom (some block) blocks
    else return false

/-- `verify_chain` (merkle.py:150). -/
def verifyChain (c : MerkleChainAudit F) : Except PyExc Bool :=
  verifyFrom hash micros none c.blocks

/-- `_build_levels` (merkle.py:262). -/
def buildLevels : PyM (MerkleChainAudit F) (List (List Bytes)) := do
  let c ← PyM.get
  match c.treeLevels with
  | some levels => return levels
  | none => do
    let levels := PromotingTree.levels (nodeHash hash) c.hashes
    PyM.modify fun c => { c with treeLevels := some levels }
    return levels

/-- `root` (merkle.py:112): `self._build_levels()[-1][0]`. -/
def root : PyM (MerkleChainAudit F) Bytes := do
  let levels ← buildLevels hash
  match levels.getLast? with
  | some (r :: _) => return r
  | _ => PyM.raise (.indexError "list index out of range")

/-- `prove_inclusion` (merkle.py:163). -/
def proveInclusion (blockIndex : Int) : PyM (MerkleChainAudit F) (Option MerkleProof) := do
  let c ← PyM.get
  if blockIndex < 0 ∨ (c.blocks.length : Int) ≤ blockIndex then return none
  else do
    let block ← PyM.lift (pyIndex c.blocks blockIndex.toNat)
    let levels ← buildLevels hash
    let leaves ← PyM.lift (pyIndex levels 0)
    if leaves.length = 1 then return some ⟨blockIndex, block.blockHash, []⟩
    else do
      let siblings ← PyM.lift (proofSiblings levels.dropLast blockIndex.toNat)
      return some ⟨blockIndex, block.blockHash, siblings⟩

/-- `verify_proof` (merkle.py:186). A negative index is not refused. -/
def verifyProof (proof : MerkleProof) : PyM (MerkleChainAudit F) Bool := do
  let c ← PyM.get
  if (c.blocks.length : Int) ≤ proof.blockIndex then return false
  else do
    let block ← PyM.lift (pyIndexInt c.blocks proof.blockIndex)
    if block.blockHash = proof.blockHash then do
      let r ← root hash
      return proof.verify hash r block.blockHash
    else return false

/-! ## Export and import -/

/-- A value in the dict of a block: bytes may stand for the metadata. -/
inductive BlockValue (F : Type) where
  | val (v : PyVal F)
  | bytes (b : Bytes)

/-- The dict of a block. -/
abbrev BlockDict (F : Type) := List (String × BlockValue F)

/-- One dict of `export_blocks`. -/
def exportBlock (b : AuditBlock F) : BlockDict F :=
  [("index", .val (.int b.index)), ("prev_hash", .val (.str (hex b.prevHash))),
    ("timestamp", .val b.timestamp), ("commitment", .val (.str (hex b.commitment))),
    ("block_hash", .val (.str (hex b.blockHash))),
    ("metadata", .val (.str (String.ofList (decodeUtf8Replace b.metadata))))]

/-- `export_blocks` (merkle.py:210). -/
def exportBlocks (c : MerkleChainAudit F) : List (BlockDict F) :=
  c.blocks.map exportBlock

/-- `bd.get("index") == 0`. -/
def isGenesisDict (bd : BlockDict F) : Bool :=
  match bd.lookup "index" with
  | some (.val (.int i)) => i == 0
  | some (.val (.bool b)) => !b
  | some (.val (.float f)) => !PyBuiltins.floatTruthy f
  | _ => false

/-- `bd[key]`. -/
def getKey (bd : BlockDict F) (key : String) : Except PyExc (BlockValue F) :=
  match bd.lookup key with
  | some v => .ok v
  | none => .error (.keyError s!"'{key}'")

/-- The type of a value, for messages. -/
def BlockValue.typeName : BlockValue F → String
  | .val v => v.typeName
  | .bytes _ => "bytes"

/-- `bytes.fromhex(v)`. -/
def BlockValue.fromhex : BlockValue F → Except PyExc Bytes
  | .val (.str s) =>
    match Noema.Lib.fromhex s with
    | some b => .ok b
    | none => .error (.valueError "non-hexadecimal number found in fromhex() arg")
  | v => .error (.typeError s!"fromhex() argument must be str, not {v.typeName}")

/-- The index of a block as an integer. The source stores any value and fails on it in
`verify_chain`, where only integers have `to_bytes`. -/
def BlockValue.index : BlockValue F → Except PyExc Int
  | .val (.int i) => .ok i
  | .val (.bool b) => .ok (if b then 1 else 0)
  | v => .error (.attributeError s!"'{v.typeName}' object has no attribute 'to_bytes'")

/-- The timestamp of a block; bytes, like every value that is not a number, fail in
`verify_chain`. -/
def BlockValue.timestamp : BlockValue F → Except PyExc (PyVal F)
  | .val v => .ok v
  | .bytes _ => .error (.valueError "invalid literal for int() with base 10")

/-- The metadata of a block dict. Values other than strings and bytes fail in
`verify_chain`, where they are joined to bytes. -/
def metadataBytes (bd : BlockDict F) : Except PyExc Bytes :=
  match (bd.lookup "metadata").getD (.val (.str "")) with
  | .val (.str s) => .ok (encodeUtf8 s.toList)
  | .bytes b => .ok b
  | .val v => .error (.typeError s!"can't concat {v.typeName} to bytes")

/-- The block of a dict. -/
def importBlock (bd : BlockDict F) : Except PyExc (AuditBlock F) := do
  let metadata ← metadataBytes bd
  let index ← (← getKey bd "index").index
  let prevHash ← (← getKey bd "prev_hash").fromhex
  let timestamp ← (← getKey bd "timestamp").timestamp
  let commitment ← (← getKey bd "commitment").fromhex
  let blockHash ← (← getKey bd "block_hash").fromhex
  return ⟨index, prevHash, timestamp, commitment, metadata, blockHash⟩

/-- The loop of `import_blocks`: dicts of a genesis block are skipped. -/
def importAll : List (BlockDict F) → Except PyExc (List (AuditBlock F))
  | [] => .ok []
  | bd :: data => do
    if isGenesisDict bd then importAll data
    else
      let block ← importBlock bd
      let blocks ← importAll data
      return block :: blocks

/-- `import_blocks` (merkle.py:223). -/
def importBlocks (chainId : String) (uuid : Uuid) (data : List (BlockDict F)) :
    Except PyExc (MerkleChainAudit F) := do
  let c ← new hash micros (some chainId) uuid
  let blocks ← importAll data
  let c := { c with blocks := c.genesis :: blocks, treeLevels := none }
  if ← c.verifyChain hash micros then return c
  else .error (.valueError "imported blocks failed chain verification")

/-! ## Audit proofs -/

/-- The dict of `create_audit_proof`; `proof` has the siblings and their directions. -/
structure AuditProofDict where
  chainId : String
  blockIndex : Int
  blockHash : String
  root : String
  proof : Option (List String × List String)
  verified : Bool
  deriving DecidableEq, Repr

/-- `create_audit_proof` (merkle.py:288) at the time `now`. -/
def createAuditProof (taskId tenantId : String) (now : F) :
    PyM (MerkleChainAudit F) AuditProofDict := do
  let block ← append hash micros
    [("task_id", .str taskId), ("tenant_id", .str tenantId), ("event", .str "task_completed")]
    (some [("audit_type", .str "solution_generation")]) now
  let proof ← proveInclusion hash block.index
  let root ← root hash
  let c ← PyM.get
  let verified ← PyM.lift (c.verifyChain hash micros)
  return {
    chainId := c.chainId
    blockIndex := block.index
    blockHash := hex block.blockHash
    root := hex root
    proof := proof.map fun p => (p.siblings.map fun s => hex s.1,
      p.siblings.map fun s => if s.2 then "left" else "right")
    verified }

end Chain

end MerkleChainAudit

end Noema.Audit
