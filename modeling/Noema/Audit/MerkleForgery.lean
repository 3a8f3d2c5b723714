import Noema.Audit.MerkleImport

/-!
# What `verify_proof` accepts

The index, the hash and the siblings of a proof come from outside. With 32-byte digests and no
collision among the hashed strings, a walk that ends at the root either follows the tree, or leaves
it where a string that was hashed for a block is also the concatenation of two nodes: leaves and
inner nodes are hashed alike. Nothing else is possible, and that is what is proved here.

- `Chained`: the invariant of chains, also of imported ones, whose indices may be any numbers;
  `Reached.chained` carries it through every sequence of calls.
- `hashes_injective`: no two blocks have the same hash. Two equal hashes give two equal hashed
  strings, so the blocks before them have equal hashes too, back to the genesis block, which is the
  only one with index 0.
- `Forged`: the paths that leave the tree, either above it (`truncated`) or below it (`spliced`).
- `climb_eq_root_iff`: the paths from a block to the root are the path of the tree and the forged
  ones.
- `Misleading`: a proof whose walk ends at the root, but which `prove_inclusion` does not return:
  its index counts from the end, or its path is forged.
- **`verifyProof_exact_iff`**: `verify_proof` accepts what `prove_inclusion` returns and nothing
  else, if and only if the proof is not misleading.

The condition is decidable for a concrete chain and proof, and `not_misleading_pathOf` gives it for
the paths that the code itself produces.
-/

namespace Noema.Audit.MerkleChainAudit

open Noema.Lib Noema.Utils PyJson
open PerfectTree (climb stepUp)

variable {F : Type} [PyBuiltins F] {hash : Bytes → Bytes} {micros : F → Except PyExc Int}

/-! ## The invariant of all chains -/

/-- What every chain satisfies, imported or not. -/
structure Chained (hash : Bytes → Bytes) (micros : F → Except PyExc Int) (c : MerkleChainAudit F) :
    Prop extends Levelled hash c where
  verified : ∀ b ∈ c.blocks, b.verify hash micros = .ok true
  linked : c.blocks.IsChain Linked
  first : ∀ b ∈ c.blocks.head?, b.index = 0
  later : ∀ b ∈ c.blocks.tail, 0 < b.index

omit [PyBuiltins F] in
theorem intToBytes_nonneg {n : Int} {width : Nat} {b : Bytes} (h : intToBytes n width = .ok b) :
    0 ≤ n ∧ n < 2 ^ (8 * width) ∧
      b = (List.range width).reverse.map fun i => UInt8.ofNat (n.toNat / 256 ^ i) := by
  rw [intToBytes] at h
  split at h
  · cases h
  · next hneg =>
    split at h
    · cases h
    · next hbig =>
      cases h
      exact ⟨by omega, by omega, rfl⟩

omit [PyBuiltins F] in
theorem length_intToBytes {n : Int} {width : Nat} {b : Bytes} (h : intToBytes n width = .ok b) :
    b.length = width := by
  rw [(intToBytes_nonneg h).2.2, List.length_map, List.length_reverse, List.length_range]

theorem mod_pow_eq_of_digits {m n : Nat} (w : Nat)
    (h : ∀ i < w, m / 256 ^ i % 256 = n / 256 ^ i % 256) : m % 256 ^ w = n % 256 ^ w := by
  induction w with
  | zero => rw [pow_zero, Nat.mod_one, Nat.mod_one]
  | succ w ih =>
    rw [Nat.mod_pow_succ, Nat.mod_pow_succ, ih fun i hi => h i (by omega), h w (by omega)]

omit [PyBuiltins F] in
/-- Different integers have different bytes. -/
theorem intToBytes_injective {m n : Int} {width : Nat} {b : Bytes}
    (hm : intToBytes m width = .ok b) (hn : intToBytes n width = .ok b) : m = n := by
  obtain ⟨hm0, hmlt, hmb⟩ := intToBytes_nonneg hm
  obtain ⟨hn0, hnlt, hnb⟩ := intToBytes_nonneg hn
  have hpow : (2 : Nat) ^ (8 * width) = 256 ^ width := by
    rw [pow_mul]
    norm_num
  have hdigits : ∀ i < width, m.toNat / 256 ^ i % 256 = n.toNat / 256 ^ i % 256 := by
    intro i hi
    have hmem : i ∈ (List.range width).reverse := by simpa using hi
    have heq := List.map_inj_left.mp (hmb.symm.trans hnb) i hmem
    exact congrArg UInt8.toNat heq
  have hmod := mod_pow_eq_of_digits width hdigits
  have hm' : m.toNat < 256 ^ width := by
    rw [← hpow, Int.toNat_lt hm0]
    exact_mod_cast hmlt
  have hn' : n.toNat < 256 ^ width := by
    rw [← hpow, Int.toNat_lt hn0]
    exact_mod_cast hnlt
  rw [Nat.mod_eq_of_lt hm', Nat.mod_eq_of_lt hn'] at hmod
  omega

/-- The bytes that are hashed for a block. -/
def blockData (micros : F → Except PyExc Int) (b : AuditBlock F) : Except PyExc Bytes := do
  let indexBytes ← intToBytes b.index 8
  let time ← timestampMicros micros b.timestamp
  let timeBytes ← intToBytes time 8
  return indexBytes ++ b.prevHash ++ b.commitment ++ timeBytes ++ b.metadata

omit [PyBuiltins F] in
/-- A verified block has the hash of its data. -/
theorem blockData_of_verify {b : AuditBlock F} (h : b.verify hash micros = .ok true) :
    ∃ data, blockData micros b = .ok data ∧ hash data = b.blockHash := by
  rw [AuditBlock.verify] at h
  obtain ⟨expected, hexpected, h⟩ := bind_eq_ok h
  have hsame : expected = b.blockHash := by simpa using Except.ok.inj h
  rw [computeBlockHash] at hexpected
  obtain ⟨indexBytes, hindex, hexpected⟩ := bind_eq_ok hexpected
  obtain ⟨time, htime, hexpected⟩ := bind_eq_ok hexpected
  obtain ⟨timeBytes, hbytes, hexpected⟩ := bind_eq_ok hexpected
  refine ⟨indexBytes ++ b.prevHash ++ b.commitment ++ timeBytes ++ b.metadata, ?_, ?_⟩
  · rw [blockData, hindex, ok_bind, htime, ok_bind, hbytes]
    rfl
  · rw [← hsame]
    exact Except.ok.inj hexpected

omit [PyBuiltins F] in
/-- The data starts with the index and the previous hash. -/
theorem blockData_parts {b : AuditBlock F} {data : Bytes} (h : blockData micros b = .ok data) :
    ∃ indexBytes rest, intToBytes b.index 8 = .ok indexBytes ∧
      data = indexBytes ++ (b.prevHash ++ rest) := by
  rw [blockData] at h
  obtain ⟨indexBytes, hindex, h⟩ := bind_eq_ok h
  obtain ⟨time, -, h⟩ := bind_eq_ok h
  obtain ⟨timeBytes, -, h⟩ := bind_eq_ok h
  refine ⟨indexBytes, b.commitment ++ timeBytes ++ b.metadata, hindex, ?_⟩
  rw [← Except.ok.inj h]
  simp only [List.append_assoc]

omit [PyBuiltins F] in
theorem index_nonneg_of_verify {b : AuditBlock F} (h : b.verify hash micros = .ok true) :
    0 ≤ b.index := by
  obtain ⟨data, hdata, -⟩ := blockData_of_verify h
  obtain ⟨indexBytes, -, hindex, -⟩ := blockData_parts hdata
  exact (intToBytes_nonneg hindex).1

/-! ## Reachable chains -/

/-- A chain that is made by its class or imported, after any calls. -/
def Reached (hash : Bytes → Bytes) (micros : F → Except PyExc Int) (c : MerkleChainAudit F) : Prop :=
  ∃ c₀ ops, ((∃ chainId uuid, new hash micros chainId uuid = .ok c₀) ∨
      ∃ chainId uuid data, importBlocks hash micros chainId uuid data = .ok c₀) ∧
    c = run hash micros ops c₀

theorem Valid.chained {c : MerkleChainAudit F} (h : Valid hash micros c) : Chained hash micros c where
  toLevelled := h.levelled
  verified := h.verified
  linked := h.linked
  first := by
    intro b hb
    obtain ⟨rest, hrest⟩ := List.head?_eq_some_iff.mp hb
    have hzero := h.numbered 0 (by simp [hrest])
    simpa [hrest] using hzero
  later := by
    intro b hb
    obtain ⟨i, hi, rfl⟩ := List.getElem_of_mem hb
    rw [List.length_tail] at hi
    rw [List.getElem_tail, h.numbered (i + 1) (by omega)]
    omega

theorem isGenesisDict_of_declaredIndex {bd : BlockDict F} (h : declaredIndex bd = some 0) :
    isGenesisDict bd = true := by
  rw [declaredIndex] at h
  rw [isGenesisDict]
  cases hv : bd.lookup "index" with
  | none =>
    rw [hv] at h
    cases h
  | some v =>
    rw [hv, Option.map_some] at h
    rcases v with (_ | b | i | f | _ | _ | _ | _) | _
    case val.bool => cases b <;> simp_all [BlockValue.index]
    case val.int => simp_all [BlockValue.index]
    all_goals cases h

/-- An imported block is not one of the skipped ones. -/
theorem index_ne_zero_of_import {data : List (BlockDict F)} {blocks : List (AuditBlock F)}
    (h : importAll data = .ok blocks) : ∀ b ∈ blocks, b.index ≠ 0 := by
  intro b hb hzero
  obtain ⟨bd, hmem, himport⟩ := exists_mem_of_forall₂ (importAll_eq_ok h).flip hb
  have hindex := declaredIndex_of_importBlock himport
  rw [hzero] at hindex
  have hnot : isGenesisDict bd = false := by simpa using (List.mem_filter.mp hmem).2
  rw [isGenesisDict_of_declaredIndex hindex] at hnot
  cases hnot

theorem chained_of_import {chainId : String} {uuid : Uuid} {data : List (BlockDict F)}
    {c : MerkleChainAudit F} (h : importBlocks hash micros chainId uuid data = .ok c) :
    Chained hash micros c := by
  obtain ⟨c₀, blocks, -, hvalid, himport, rfl, hverified, hlinked⟩ := importBlocks_cases h
  refine { nonempty := List.cons_ne_nil _ _, memo := fun _ hmemo => (by cases hmemo)
           verified := hverified, linked := hlinked, first := ?_, later := ?_ }
  · intro b hb
    cases hb
    exact hvalid.chained.first _ hvalid.head
  · intro b hb
    have hnonneg := index_nonneg_of_verify (hverified b (List.mem_cons_of_mem _ hb))
    have hne := index_ne_zero_of_import himport b hb
    omega

theorem Chained.step {c : MerkleChainAudit F} (h : Chained hash micros c) (op : Op F) :
    Chained hash micros (MerkleChainAudit.step hash micros c op) := by
  obtain hsame | hmemo | ⟨prev, block, hlast, hindex, hlink, hverify, -, hnew⟩ :=
    h.toLevelled.step_cases micros op
  · rw [hsame]
    exact h
  · rw [hmemo]
    exact { h with memo := (levelled_memoized h.nonempty).memo }
  · rw [hnew]
    -- A block was appended; the numbers of imported blocks are arbitrary, but never negative.
    obtain ⟨init, hinit⟩ := List.getLast?_eq_some_iff.mp hlast
    have hprev := index_nonneg_of_verify (h.verified prev (List.mem_of_getLast? hlast))
    refine { toLevelled := levelled_append c block, verified := ?_, linked := ?_, first := ?_, later := ?_ }
    · intro b hb
      rcases List.mem_append.mp hb with hb | hb
      · exact h.verified b hb
      · rw [List.mem_singleton.mp hb]
        exact hverify
    · refine h.linked.append (List.isChain_singleton block) ?_
      rintro p hp b hb
      rw [hlast] at hp
      cases hp
      cases hb
      exact hlink
    · intro b hb
      rw [List.head?_append_of_ne_nil _ h.nonempty] at hb
      exact h.first b hb
    · intro b hb
      rw [List.tail_append_of_ne_nil h.nonempty] at hb
      rcases List.mem_append.mp hb with hb | hb
      · exact h.later b hb
      · rw [List.mem_singleton.mp hb, hindex]
        omega

/-- Every reachable chain satisfies the invariant. -/
theorem Reached.chained {c : MerkleChainAudit F} (h : Reached hash micros c) :
    Chained hash micros c := by
  obtain ⟨c₀, ops, hstart, rfl⟩ := h
  have h₀ : Chained hash micros c₀ := by
    rcases hstart with ⟨chainId, uuid, hnew⟩ | ⟨chainId, uuid, data, himport⟩
    · obtain ⟨c₁, hnew', -, hvalid⟩ := valid_new hash micros chainId uuid
      rw [hnew] at hnew'
      cases hnew'
      exact hvalid.chained
    · exact chained_of_import himport
  clear hstart
  induction ops generalizing c₀ with
  | nil => exact h₀
  | cons op ops ih => exact ih _ (h₀.step op)

/-! ## The strings that are hashed -/

/-- No two of the given strings collide. -/
def NoCollision (hash : Bytes → Bytes) (inputs : List Bytes) : Prop :=
  ∀ x ∈ inputs, ∀ y ∈ inputs, hash x = hash y → x = y

instance (inputs : List Bytes) : Decidable (NoCollision hash inputs) :=
  inferInstanceAs (Decidable (∀ x ∈ inputs, ∀ y ∈ inputs, _))

/-- The strings hashed for the blocks. -/
def blockInputs (micros : F → Except PyExc Int) (c : MerkleChainAudit F) : List Bytes :=
  c.blocks.filterMap fun b => (blockData micros b).toOption

/-- The strings hashed for the level above `level`. -/
def pairInputs : List Bytes → List Bytes
  | a :: b :: rest => (a ++ b) :: pairInputs rest
  | _ => []

/-- The strings hashed for the tree over `hs`. -/
def treeInputs (hash : Bytes → Bytes) (hs : List Bytes) : List Bytes :=
  (PromotingTree.levels (nodeHash hash) hs).flatMap pairInputs

/-- What one step of a check hashes. -/
def joined (current sibling : Bytes) (left : Bool) : Bytes :=
  if left then sibling ++ current else current ++ sibling

/-- The strings hashed by `MerkleProof.verify`. -/
def checkInputs (hash : Bytes → Bytes) : Bytes → List (Bytes × Bool) → List Bytes
  | _, [] => []
  | current, (s, left) :: siblings =>
    joined current s left :: checkInputs hash (hash (joined current s left)) siblings

theorem stepUp_nodeHash (hash : Bytes → Bytes) (current s : Bytes) (left : Bool) :
    stepUp (nodeHash hash) current s left = hash (joined current s left) := by
  cases left <;> rfl

theorem mem_checkInputs {current s : Bytes} {left : Bool} {pre siblings : List (Bytes × Bool)}
    (h : pre ++ [(s, left)] <+: siblings) :
    joined (climb (nodeHash hash) current pre) s left ∈ checkInputs hash current siblings := by
  obtain ⟨rest, rfl⟩ := h
  induction pre generalizing current with
  | nil => exact List.mem_cons_self
  | cons e pre ih =>
    refine List.mem_cons_of_mem _ ?_
    rw [climb, stepUp_nodeHash]
    exact ih

theorem mem_pairInputs {a b : Bytes} : ∀ {l : List Bytes} {i : Nat}, l[2 * i]? = some a →
    l[2 * i + 1]? = some b → a ++ b ∈ pairInputs l
  | x :: y :: rest, 0, ha, hb => by
    cases ha
    cases hb
    exact List.mem_cons_self
  | x :: y :: rest, i + 1, ha, hb => List.mem_cons_of_mem _ (mem_pairInputs (i := i) ha hb)
  | [_], 0, _, hb => by cases hb
  | [_], i + 1, ha, _ => by cases ha
  | [], _, ha, _ => by cases ha

theorem mem_treeInputs {hs : List Bytes} {a b : Bytes} {p : List (Bytes × Bool)}
    (h : PromotingTree.Inner (nodeHash hash) hs a b p) : a ++ b ∈ treeInputs hash hs := by
  induction h with
  | here hlen ha hb =>
    rw [treeInputs, PromotingTree.levels_of_lt _ hlen, List.flatMap_cons]
    exact List.mem_append_left _ (mem_pairInputs ha hb)
  | up hlen _ ih =>
    rw [treeInputs, PromotingTree.levels_of_lt _ hlen, List.flatMap_cons]
    exact List.mem_append_right _ ih

/-! ## Digests have 32 bytes -/

theorem length_climb (hlen : ∀ x, (hash x).length = 32) {current : Bytes}
    (h : current.length = 32) (siblings : List (Bytes × Bool)) :
    (climb (nodeHash hash) current siblings).length = 32 := by
  induction siblings generalizing current with
  | nil => exact h
  | cons e siblings ih =>
    rw [climb, stepUp_nodeHash]
    exact ih (hlen _)

theorem length_parents (hlen : ∀ x, (hash x).length = 32) {l : List Bytes}
    (h : ∀ x ∈ l, x.length = 32) : ∀ x ∈ PromotingTree.parents (nodeHash hash) l, x.length = 32 := by
  induction l using PromotingTree.parents.induct with
  | case1 => exact h
  | case2 a => exact h
  | case3 a b rest ih =>
    refine List.forall_mem_cons.mpr ⟨hlen _, ih fun x hx => h x ?_⟩
    exact List.mem_cons_of_mem _ (List.mem_cons_of_mem _ hx)

theorem length_inner (hlen : ∀ x, (hash x).length = 32) {l : List Bytes} {a b : Bytes}
    {p : List (Bytes × Bool)} (hinner : PromotingTree.Inner (nodeHash hash) l a b p)
    (h : ∀ x ∈ l, x.length = 32) : a.length = 32 ∧ b.length = 32 := by
  induction hinner with
  | here _ ha hb => exact ⟨h _ (List.mem_of_getElem? ha), h _ (List.mem_of_getElem? hb)⟩
  | up _ _ ih => exact ih (length_parents hlen h)

omit [PyBuiltins F] in
theorem Chained.length_blockHash {c : MerkleChainAudit F} (h : Chained hash micros c)
    (hlen : ∀ x, (hash x).length = 32) {b : AuditBlock F} (hb : b ∈ c.blocks) :
    b.blockHash.length = 32 := by
  obtain ⟨data, -, hdata⟩ := blockData_of_verify (h.verified b hb)
  rw [← hdata]
  exact hlen data

/-! ## Blocks have different hashes -/

omit [PyBuiltins F] in
theorem mem_blockInputs {c : MerkleChainAudit F} {b : AuditBlock F} {data : Bytes}
    (hb : b ∈ c.blocks) (hdata : blockData micros b = .ok data) : data ∈ blockInputs micros c :=
  List.mem_filterMap.mpr ⟨b, hb, by rw [hdata]; rfl⟩

omit [PyBuiltins F] in
/-- Blocks with the same hash have the same index and the same predecessor. -/
theorem same_of_blockHash_eq {c : MerkleChainAudit F} (h : Chained hash micros c)
    (hcol : NoCollision hash (blockInputs micros c)) {b b' : AuditBlock F} (hb : b ∈ c.blocks)
    (hb' : b' ∈ c.blocks) (heq : b.blockHash = b'.blockHash) :
    b.index = b'.index ∧ (b.prevHash.length = b'.prevHash.length → b.prevHash = b'.prevHash) := by
  obtain ⟨data, hdata, hhash⟩ := blockData_of_verify (h.verified b hb)
  obtain ⟨data', hdata', hhash'⟩ := blockData_of_verify (h.verified b' hb')
  have hsame : data = data' := hcol _ (mem_blockInputs hb hdata) _ (mem_blockInputs hb' hdata')
    (by rw [hhash, hhash', heq])
  obtain ⟨indexBytes, rest, hindex, hparts⟩ := blockData_parts hdata
  obtain ⟨indexBytes', rest', hindex', hparts'⟩ := blockData_parts hdata'
  rw [hparts, hparts'] at hsame
  obtain ⟨hfront, hback⟩ := List.append_inj hsame
    (by rw [length_intToBytes hindex, length_intToBytes hindex'])
  subst hfront
  exact ⟨intToBytes_injective hindex hindex', fun hprev => (List.append_inj hback hprev).1⟩

omit [PyBuiltins F] in
/-- **No two blocks have the same hash**, whatever their indices: the hashes before them would be
the same too, down to the genesis block. -/
theorem hashes_injective {c : MerkleChainAudit F} (h : Chained hash micros c)
    (hlen : ∀ x, (hash x).length = 32) (hcol : NoCollision hash (blockInputs micros c)) :
    ∀ (i j : Nat) (hi : i < c.blocks.length) (hj : j < c.blocks.length),
      c.blocks[i].blockHash = c.blocks[j].blockHash → i = j := by
  have hfirst : ∀ hi : 0 < c.blocks.length, c.blocks[0].index = 0 := by
    intro hi
    exact h.first _ (by rw [List.head?_eq_getElem?]; exact List.getElem?_eq_getElem hi)
  have hlater : ∀ j (hj : j + 1 < c.blocks.length), 0 < c.blocks[j + 1].index := by
    intro j hj
    refine h.later _ ?_
    rw [← List.getElem_tail (h := by rw [List.length_tail]; omega)]
    exact List.getElem_mem _
  have hprev : ∀ j (hj : j + 1 < c.blocks.length),
      c.blocks[j + 1].prevHash = c.blocks[j].blockHash :=
    fun j hj => List.isChain_iff_getElem.mp h.linked j hj
  -- By induction on the first position. Blocks with equal hashes have equal hashed strings, hence
  -- equal previous hashes; only the genesis block has no block before it, and only its number is
  -- zero.
  intro i
  induction i with
  | zero =>
    intro j hi hj heq
    rcases j with _ | j
    · rfl
    · have hindex := (same_of_blockHash_eq h hcol (List.getElem_mem hi) (List.getElem_mem hj) heq).1
      have := hlater j hj
      rw [← hindex, hfirst hi] at this
      omega
  | succ i ih =>
    intro j hi hj heq
    have hsame := same_of_blockHash_eq h hcol (List.getElem_mem hi) (List.getElem_mem hj) heq
    rcases j with _ | j
    · have := hlater i hi
      rw [hsame.1, hfirst hj] at this
      omega
    · have hi' : i < c.blocks.length := by omega
      have hj' : j < c.blocks.length := by omega
      have hlengths : c.blocks[i + 1].prevHash.length = c.blocks[j + 1].prevHash.length := by
        rw [hprev i hi, hprev j hj, h.length_blockHash hlen (List.getElem_mem hi'),
          h.length_blockHash hlen (List.getElem_mem hj')]
      have hback := hsame.2 hlengths
      rw [hprev i hi, hprev j hj] at hback
      rw [ih j hi' hj' hback]

/-! ## The paths to the root -/

/-- The siblings that `prove_inclusion` returns for position `j`. -/
def pathOf (hash : Bytes → Bytes) (c : MerkleChainAudit F) (j : Nat) : List (Bytes × Bool) :=
  PromotingTree.path (PromotingTree.levels (nodeHash hash) c.hashes).dropLast j

/-- The siblings leave the tree: a step joins the data of another block, whose path follows, or
the data of block `j` is the concatenation of two nodes, whose path the siblings are. -/
inductive Forged (hash : Bytes → Bytes) (micros : F → Except PyExc Int) (c : MerkleChainAudit F)
    (j : Nat) : List (Bytes × Bool) → Prop
  | spliced {block target : AuditBlock F} {pre : List (Bytes × Bool)} {s : Bytes} {left : Bool}
      {i : Nat} (hblock : c.blocks[j]? = some block) (htarget : c.blocks[i]? = some target)
      (hdata : blockData micros target
        = .ok (joined (climb (nodeHash hash) block.blockHash pre) s left)) :
      Forged hash micros c j (pre ++ (s, left) :: pathOf hash c i)
  | truncated {block : AuditBlock F} {a b : Bytes} {siblings : List (Bytes × Bool)}
      (hblock : c.blocks[j]? = some block)
      (hinner : PromotingTree.Inner (nodeHash hash) c.hashes a b siblings)
      (hdata : blockData micros block = .ok (a ++ b)) : Forged hash micros c j siblings

omit [PyBuiltins F] in
theorem getElem_hashes {c : MerkleChainAudit F} {j : Nat} {block : AuditBlock F}
    (h : c.blocks[j]? = some block) : c.hashes[j]? = some block.blockHash := by
  rw [hashes, List.getElem?_map, h, Option.map_some]

omit [PyBuiltins F] in
/-- The walk along the path of a block, or along a forged one, ends at the root. -/
theorem Chained.climb_to_root {c : MerkleChainAudit F} (h : Chained hash micros c) {r : Bytes}
    (hroot : (PromotingTree.levels (nodeHash hash) c.hashes).getLast? = some [r]) {j : Nat}
    {block : AuditBlock F} (hblock : c.blocks[j]? = some block) {siblings : List (Bytes × Bool)}
    (hpath : siblings = pathOf hash c j ∨ Forged hash micros c j siblings) :
    climb (nodeHash hash) block.blockHash siblings = r := by
  obtain ⟨r', hlast, hclimb⟩ := PromotingTree.climb_path (nodeHash hash) c.hashes h.hashes_ne_nil
  rw [hroot] at hlast
  cases hlast
  have hpathOf : ∀ {i : Nat} {target : AuditBlock F}, c.blocks[i]? = some target →
      climb (nodeHash hash) target.blockHash (pathOf hash c i) = r := by
    intro i target htarget
    obtain ⟨hi, hget⟩ := List.getElem?_eq_some_iff.mp (getElem_hashes htarget)
    rw [← hget]
    exact hclimb i hi
  rcases hpath with rfl | hforged
  · exact hpathOf hblock
  · cases hforged with
    -- The siblings below the block are nothing but the other half of a string that was hashed for
    -- another block; the walk goes on from there.
    | @spliced block' target pre s left i hblock' htarget hdata =>
      rw [hblock] at hblock'
      cases hblock'
      obtain ⟨data, hdata', hhash⟩ := blockData_of_verify (h.verified _ (List.mem_of_getElem? htarget))
      rw [hdata] at hdata'
      cases hdata'
      rw [PerfectTree.climb_append, climb, stepUp_nodeHash, hhash]
      exact hpathOf htarget
    -- The string of the block is also that of an inner node, and the walk goes on from this node.
    | @truncated block' a b _ hblock' hinner hdata =>
      rw [hblock] at hblock'
      cases hblock'
      obtain ⟨data, hdata', hhash⟩ := blockData_of_verify (h.verified _ (List.mem_of_getElem? hblock))
      rw [hdata] at hdata'
      cases hdata'
      rw [← hhash]
      exact hinner.climb_eq (nodeHash hash) hroot

omit [PyBuiltins F] in
/-- **The paths to the root** are that of the block and the forged ones, when the strings hashed
for the blocks, the tree and the check do not collide. -/
theorem Chained.climb_eq_root_iff {c : MerkleChainAudit F} (h : Chained hash micros c)
    (hlen : ∀ x, (hash x).length = 32) {r : Bytes}
    (hroot : (PromotingTree.levels (nodeHash hash) c.hashes).getLast? = some [r]) {j : Nat}
    {block : AuditBlock F} (hblock : c.blocks[j]? = some block) {siblings : List (Bytes × Bool)}
    (hcol : NoCollision hash (blockInputs micros c ++ treeInputs hash c.hashes ++
      checkInputs hash block.blockHash siblings)) :
    climb (nodeHash hash) block.blockHash siblings = r ↔
      siblings = pathOf hash c j ∨ Forged hash micros c j siblings := by
  refine ⟨fun hclimb => ?_, h.climb_to_root hroot hblock⟩
  have hmem := List.mem_of_getElem? hblock
  have hlen₀ := h.length_blockHash hlen hmem
  have hblocks : ∀ {b : AuditBlock F} {data : Bytes}, b ∈ c.blocks → blockData micros b = .ok data →
      data ∈ blockInputs micros c ++ treeInputs hash c.hashes ++
        checkInputs hash block.blockHash siblings :=
    fun hb hdata => List.mem_append_left _ (List.mem_append_left _ (mem_blockInputs hb hdata))
  have htree : ∀ {a b : Bytes} {q : List (Bytes × Bool)},
      PromotingTree.Inner (nodeHash hash) c.hashes a b q →
      a ++ b ∈ blockInputs micros c ++ treeInputs hash c.hashes ++
        checkInputs hash block.blockHash siblings :=
    fun hinner => List.mem_append_left _ (List.mem_append_right _ (mem_treeInputs hinner))
  have hcheck : ∀ {pre : List (Bytes × Bool)} {s : Bytes} {left : Bool},
      pre ++ [(s, left)] <+: siblings → joined (climb (nodeHash hash) block.blockHash pre) s left ∈
        blockInputs micros c ++ treeInputs hash c.hashes ++
          checkInputs hash block.blockHash siblings :=
    fun hpre => List.mem_append_right _ (mem_checkInputs hpre)
  have hhashes : ∀ x ∈ c.hashes, x.length = 32 := by
    intro x hx
    obtain ⟨b, hb, rfl⟩ := List.mem_map.mp hx
    exact h.length_blockHash hlen hb
  -- a step that ends at an inner node joined its two children
  have hpeel : ∀ pre s left, pre ++ [(s, left)] <+: siblings → ∀ a b q,
      PromotingTree.Inner (nodeHash hash) c.hashes a b q →
      stepUp (nodeHash hash) (climb (nodeHash hash) block.blockHash pre) s left
        = nodeHash hash a b →
      if left then s = a ∧ climb (nodeHash hash) block.blockHash pre = b
      else climb (nodeHash hash) block.blockHash pre = a ∧ s = b := by
    intro pre s left hpre a b q hinner hstep
    rw [stepUp_nodeHash] at hstep
    have hjoined := hcol _ (hcheck hpre) _ (htree hinner) hstep
    obtain ⟨ha, hb⟩ := length_inner hlen hinner hhashes
    have hcurrent := length_climb hlen hlen₀ pre
    cases left with
    | true =>
      obtain ⟨hs, hx⟩ := List.append_inj' hjoined (hcurrent.trans hb.symm)
      exact ⟨hs, hx⟩
    | false =>
      obtain ⟨hx, hs⟩ := List.append_inj hjoined (hcurrent.trans ha.symm)
      exact ⟨hx, hs⟩
  rcases PromotingTree.climb_descends (nodeHash hash) h.hashes_ne_nil hpeel hroot hclimb with
    ⟨i, hi, pre, hsiblings, hpre⟩ | ⟨a, b, hinner, hstart⟩
  · -- the path of position `i`, entered by the rest of the siblings
    have hi' : i < c.blocks.length := by rwa [hashes, List.length_map] at hi
    have htarget : c.blocks[i]? = some c.blocks[i] := List.getElem?_eq_getElem hi'
    have hget : c.hashes[i] = c.blocks[i].blockHash := List.getElem_map _
    rw [hget] at hpre
    rcases List.eq_nil_or_concat pre with rfl | ⟨pre', ⟨s, left⟩, rfl⟩
    · obtain ⟨hj, hblockj⟩ := List.getElem?_eq_some_iff.mp hblock
      have hcol' : NoCollision hash (blockInputs micros c) := fun x hx y hy =>
        hcol x (List.mem_append_left _ (List.mem_append_left _ hx)) y
          (List.mem_append_left _ (List.mem_append_left _ hy))
      have hij : j = i := hashes_injective h hlen hcol' j i hj hi' (by rw [hblockj]; exact hpre)
      exact .inl (by rw [hsiblings, hij]; rfl)
    · rw [List.concat_eq_append] at hsiblings hpre
      rw [PerfectTree.climb_concat, stepUp_nodeHash] at hpre
      obtain ⟨data, hdata, hhash⟩ := blockData_of_verify (h.verified _ (List.getElem_mem hi'))
      have hsame := hcol _ (hcheck ⟨_, hsiblings.symm⟩) _ (hblocks (List.getElem_mem hi') hdata)
        (by rw [hpre, hhash])
      rw [← hsame] at hdata
      refine .inr ?_
      rw [hsiblings, List.append_assoc]
      exact .spliced hblock htarget hdata
  · obtain ⟨data, hdata, hhash⟩ := blockData_of_verify (h.verified _ hmem)
    have hsame := hcol _ (hblocks hmem hdata) _ (htree hinner) (by rw [hhash, hstart]; rfl)
    rw [hsame] at hdata
    exact .inr (.truncated hblock hinner hdata)

/-! ## `verify_proof` -/

/-- The position that a Python index stands for. -/
def position (c : MerkleChainAudit F) (i : Int) : Option Nat :=
  let k := if i < 0 then i + c.height else i
  if 0 ≤ k ∧ k < c.height then some k.toNat else none

omit [PyBuiltins F] in
theorem pyIndexInt_blocks (c : MerkleChainAudit F) {i : Int} (hi : i < c.height)
    (block : AuditBlock F) : pyIndexInt c.blocks i = .ok block ↔
      ∃ j, position c i = some j ∧ c.blocks[j]? = some block := by
  have hheight : (c.height : Int) = c.blocks.length := rfl
  rw [pyIndexInt, position, hheight]
  generalize hk : (if i < 0 then i + (c.blocks.length : Int) else i) = k
  have hlt : k < c.blocks.length := by
    rw [← hk]
    split <;> omega
  by_cases hneg : k < 0
  · simp [hneg]
  · have hnat : k.toNat < c.blocks.length := by omega
    have hrange : 0 ≤ k ∧ k < c.blocks.length := by omega
    simp [hneg, hrange, pyIndex_eq_ok (List.getElem?_eq_getElem hnat)]

omit [PyBuiltins F] in
theorem position_lt {c : MerkleChainAudit F} {i : Int} {j : Nat} (h : position c i = some j) :
    i < c.height ∧ (0 ≤ i → i = j) := by
  have hcases : 0 ≤ (if i < 0 then i + (c.height : Int) else i) ∧
      (if i < 0 then i + (c.height : Int) else i) < c.height ∧
      (if i < 0 then i + (c.height : Int) else i).toNat = j := by
    simpa [position, and_assoc] using h
  split at hcases <;> omega

omit [PyBuiltins F] in
/-- What `verify_proof` accepts: the hash at the index, with a walk to the root. -/
theorem Levelled.verifyProof_iff {c : MerkleChainAudit F} (h : Levelled hash c) {r : Bytes}
    (hroot : (PromotingTree.levels (nodeHash hash) c.hashes).getLast? = some [r]) (p : MerkleProof) :
    (verifyProof hash p c).1 = .ok true ↔
      ∃ j block, position c p.blockIndex = some j ∧ c.blocks[j]? = some block ∧
        block.blockHash = p.blockHash ∧ climb (nodeHash hash) block.blockHash p.siblings = r := by
  obtain ⟨r', hstored, hlast, -⟩ := h.root_eq
  rw [getLast?_levels, hlast] at hroot
  cases hroot
  rw [verifyProof, PyM.bind_ok (PyM.get_apply c)]
  split
  · next hbig =>
    refine ⟨fun h => (by cases h), fun hfound => ?_⟩
    obtain ⟨j, -, hj, -⟩ := hfound
    have hlt := (position_lt hj).1
    rw [height] at hlt
    omega
  · next hsmall =>
    -- The index is read as Python reads it, also from the end.
    have hiff := pyIndexInt_blocks c (i := p.blockIndex) (by rw [height]; omega)
    cases hindex : pyIndexInt c.blocks p.blockIndex with
    | error e =>
      refine ⟨fun h => (by cases h), fun hfound => ?_⟩
      obtain ⟨j, block, hj, hblock, -⟩ := hfound
      have hfound := (hiff block).mpr ⟨j, hj, hblock⟩
      rw [hindex] at hfound
      cases hfound
    | ok block =>
      obtain ⟨j, hj, hblock⟩ := (hiff block).mp hindex
      rw [PyM.bind_ok (PyM.lift_apply _ _)]
      constructor
      · intro haccept
        refine ⟨j, block, hj, hblock, ?_⟩
        split at haccept
        · next hsame =>
          rw [PyM.bind_ok hstored] at haccept
          have hwalk := Except.ok.inj haccept
          rw [MerkleProof.verify, foldl_siblings_eq_climb] at hwalk
          exact ⟨hsame, by simpa using hwalk⟩
        · cases haccept
      · rintro ⟨j', block', hj', hblock', hsame, hwalk⟩
        rw [hj] at hj'
        cases hj'
        rw [hblock] at hblock'
        cases hblock'
        rw [if_pos hsame, PyM.bind_ok hstored, MerkleProof.verify, foldl_siblings_eq_climb, hwalk]
        simp

/-- `verify_proof` accepts `p` exactly if it is what `prove_inclusion` returns for its index. -/
def Exact (hash : Bytes → Bytes) (c : MerkleChainAudit F) (p : MerkleProof) : Prop :=
  (verifyProof hash p c).1 = .ok true ↔
    0 ≤ p.blockIndex ∧ p.blockIndex < c.height ∧
      ∃ q, (proveInclusion hash p.blockIndex c).1 = .ok (some q) ∧
        p.blockHash = q.blockHash ∧ p.siblings = q.siblings

/-- `p` names a block by its hash, with an index from the end, or with a path that leaves the
tree. -/
def Misleading (hash : Bytes → Bytes) (micros : F → Except PyExc Int) (c : MerkleChainAudit F)
    (p : MerkleProof) : Prop :=
  ∃ j block, position c p.blockIndex = some j ∧ c.blocks[j]? = some block ∧
    p.blockHash = block.blockHash ∧
      (p.siblings = pathOf hash c j ∧ p.blockIndex < 0 ∨
        Forged hash micros c j p.siblings ∧ p.siblings ≠ pathOf hash c j)

omit [PyBuiltins F] in
theorem position_natCast {c : MerkleChainAudit F} {j : Nat} (h : j < c.height) :
    position c j = some j := by
  have hnonneg : ¬ (j : Int) < 0 := by omega
  have hlt : (j : Int) < c.height := by omega
  simp [position, hnonneg, hlt]

omit [PyBuiltins F] in
/-- What `prove_inclusion` returns, in terms of the path. -/
theorem Levelled.proved_iff {c : MerkleChainAudit F} (h : Levelled hash c) (p : MerkleProof) :
    (0 ≤ p.blockIndex ∧ p.blockIndex < c.height ∧
      ∃ q, (proveInclusion hash p.blockIndex c).1 = .ok (some q) ∧
        p.blockHash = q.blockHash ∧ p.siblings = q.siblings) ↔
      0 ≤ p.blockIndex ∧ ∃ j block, position c p.blockIndex = some j ∧ c.blocks[j]? = some block ∧
        block.blockHash = p.blockHash ∧ p.siblings = pathOf hash c j := by
  constructor
  · rintro ⟨hnonneg, hlt, q, hq, hhash, hsiblings⟩
    obtain ⟨j, hj⟩ := Int.eq_ofNat_of_zero_le hnonneg
    rw [hj] at hlt hq ⊢
    have hjlt : j < c.blocks.length := by
      rw [height] at hlt
      omega
    rw [h.proveInclusion_eq hjlt] at hq
    cases hq
    exact ⟨by omega, j, c.blocks[j], position_natCast hjlt, List.getElem?_eq_getElem hjlt,
      hhash.symm, hsiblings⟩
  · rintro ⟨hnonneg, j, block, hposition, hblock, hhash, hsiblings⟩
    obtain ⟨hlt, hindex⟩ := position_lt hposition
    obtain ⟨hjlt, hget⟩ := List.getElem?_eq_some_iff.mp hblock
    refine ⟨hnonneg, hlt, ⟨p.blockIndex, block.blockHash, pathOf hash c j⟩, ?_, hhash.symm, hsiblings⟩
    rw [hindex hnonneg, h.proveInclusion_eq hjlt, hget]
    rfl

/-- **When `verify_proof` accepts only what `prove_inclusion` returns**, for every reachable chain
and every proof: when the proof is not misleading. -/
theorem verifyProof_exact_iff {c : MerkleChainAudit F} (h : Reached hash micros c)
    (hlen : ∀ x, (hash x).length = 32) (p : MerkleProof)
    (hcol : NoCollision hash (blockInputs micros c ++ treeInputs hash c.hashes ++
      checkInputs hash p.blockHash p.siblings)) :
    Exact hash c p ↔ ¬ Misleading hash micros c p := by
  have hchained := h.chained
  obtain ⟨r, hroot, -⟩ := PromotingTree.climb_path (nodeHash hash) c.hashes hchained.hashes_ne_nil
  have hwalk : ∀ {j : Nat} {block : AuditBlock F}, c.blocks[j]? = some block →
      block.blockHash = p.blockHash → (climb (nodeHash hash) block.blockHash p.siblings = r ↔
        p.siblings = pathOf hash c j ∨ Forged hash micros c j p.siblings) := by
    intro j block hblock hsame
    exact hchained.climb_eq_root_iff hlen hroot hblock (by rwa [hsame])
  rw [Exact, hchained.verifyProof_iff hroot, hchained.proved_iff]
  constructor
  -- A misleading proof is accepted, and it is not one that is proved.
  · rintro hexact ⟨j, block, hj, hblock, hsame, hpath⟩
    have haccept := hexact.mp ⟨j, block, hj, hblock, hsame.symm, (hwalk hblock hsame.symm).mpr
      (hpath.imp And.left And.left)⟩
    obtain ⟨hnonneg, j', block', hj', -, -, hproved⟩ := haccept
    rw [hj] at hj'
    cases hj'
    rcases hpath with ⟨-, hneg⟩ | ⟨-, hother⟩
    · omega
    · exact hother hproved
  -- An accepted proof that follows the tree has the index of its block; the two other cases are
  -- misleading.
  · intro hhonest
    constructor
    · rintro ⟨j, block, hj, hblock, hsame, hclimb⟩
      have hpath : p.siblings = pathOf hash c j := by
        by_contra hother
        rcases (hwalk hblock hsame).mp hclimb with hpath | hforged
        · exact hother hpath
        · exact hhonest ⟨j, block, hj, hblock, hsame.symm, .inr ⟨hforged, hother⟩⟩
      have hnonneg : 0 ≤ p.blockIndex := by
        by_contra hneg
        exact hhonest ⟨j, block, hj, hblock, hsame.symm, .inl ⟨hpath, by omega⟩⟩
      exact ⟨hnonneg, j, block, hj, hblock, hsame, hpath⟩
    · rintro ⟨-, j, block, hj, hblock, hsame, hpath⟩
      exact ⟨j, block, hj, hblock, hsame, (hwalk hblock hsame).mpr (.inl hpath)⟩

/-! ## Samples -/

theorem new_observed :
    (new (F := FloatText) chainHash sampleMicros (some "c") sampleUuid).toOption.any
      (fun c => c.height = 1 ∧ pathOf chainHash c 0 = [] ∧
        (verifyProof chainHash ⟨-1, genesisHash, []⟩ c).1.toOption = some true ∧
        (proveInclusion chainHash (-1) c).1.toOption = some none ∧
        NoCollision chainHash (blockInputs sampleMicros c ++ treeInputs chainHash c.hashes ++
          checkInputs chainHash genesisHash [])) = true := by
  rw [chainHash_eq_fastDigest]
  decide +kernel

/-- A new chain, what is observed of its block at the index −1, and that no inputs collide. -/
def genesisChain : {c : MerkleChainAudit FloatText //
    new chainHash sampleMicros (some "c") sampleUuid = .ok c ∧
      c.height = 1 ∧ pathOf chainHash c 0 = [] ∧
      (verifyProof chainHash ⟨-1, genesisHash, []⟩ c).1.toOption = some true ∧
      (proveInclusion chainHash (-1) c).1.toOption = some none ∧
      NoCollision chainHash (blockInputs sampleMicros c ++ treeInputs chainHash c.hashes ++
        checkInputs chainHash genesisHash [])} :=
  observed _ _ new_observed

omit [PyBuiltins F] in
/-- A proof with the path of its block is not misleading. -/
theorem not_misleading_pathOf {c : MerkleChainAudit F} {j : Nat} (hj : j < c.height)
    (blockHash : Bytes) : ¬ Misleading hash micros c ⟨j, blockHash, pathOf hash c j⟩ := by
  rintro ⟨i, block, hi, -, -, hpath⟩
  have hposition : position c j = some j := position_natCast hj
  rw [hposition] at hi
  cases hi
  rcases hpath with ⟨-, hneg⟩ | ⟨-, hother⟩
  · exact absurd hneg (by simp)
  · exact hother rfl

/-- Two blocks are appended. -/
def sampleOps : List (Op FloatText) :=
  [.append [("task_id", .str "a")] none sampleNow, .append [("task_id", .str "b")] none sampleNow]

/-- The proof of the block at a position. -/
def proofAt (c : MerkleChainAudit FloatText) (j : Nat) : MerkleProof :=
  ⟨j, c.hashes.getD j [], pathOf chainHash c j⟩

theorem run_observed :
    (new (F := FloatText) chainHash sampleMicros (some "c") sampleUuid).toOption.any
      (fun c => (run chainHash sampleMicros sampleOps c).height = 3 ∧
        (proofAt (run chainHash sampleMicros sampleOps c) 1).siblings.length = 2 ∧
        NoCollision chainHash (blockInputs sampleMicros (run chainHash sampleMicros sampleOps c) ++
          treeInputs chainHash (run chainHash sampleMicros sampleOps c).hashes ++
          checkInputs chainHash (proofAt (run chainHash sampleMicros sampleOps c) 1).blockHash
            (proofAt (run chainHash sampleMicros sampleOps c) 1).siblings)) = true := by
  unfold proofAt
  rw [chainHash_eq_fastDigest]
  decide +kernel

/-- A chain of three blocks, and the proof of the second one, whose path has two siblings. -/
theorem verifyProof_threeBlocks :
    ∃ c, Reached chainHash sampleMicros c ∧ c.height = 3 ∧ (proofAt c 1).siblings.length = 2 ∧
      Exact chainHash c (proofAt c 1) := by
  obtain ⟨c, hnew, hheight, hlength, hcol⟩ := observed _ _ run_observed
  have hreached : Reached chainHash sampleMicros (run chainHash sampleMicros sampleOps c) :=
    ⟨c, sampleOps, .inl ⟨_, _, hnew⟩, rfl⟩
  refine ⟨_, hreached, hheight, hlength,
    (verifyProof_exact_iff hreached length_chainHash _ hcol).mpr ?_⟩
  exact not_misleading_pathOf (by omega) _

/-- The block at the index −1 is accepted: its proof has no siblings, and `get_block` and
`prove_inclusion` refuse the index. -/
theorem verifyProof_fromEnd :
    ∃ c, new (F := FloatText) chainHash sampleMicros (some "c") sampleUuid = .ok c ∧
      Reached chainHash sampleMicros c ∧
      (verifyProof chainHash ⟨-1, genesisHash, []⟩ c).1 = .ok true ∧
      (proveInclusion chainHash (-1) c).1 = .ok none ∧
      NoCollision chainHash (blockInputs sampleMicros c ++ treeInputs chainHash c.hashes ++
        checkInputs chainHash genesisHash []) ∧
      ¬ Exact chainHash c ⟨-1, genesisHash, []⟩ := by
  obtain ⟨c, hnew, -, -, haccept, hrefuse, hcol⟩ := genesisChain
  have haccepted := eq_ok_of_toOption haccept
  refine ⟨c, hnew, ⟨c, [], .inl ⟨_, _, hnew⟩, rfl⟩, haccepted, eq_ok_of_toOption hrefuse, hcol,
    fun hexact => ?_⟩
  exact absurd (hexact.mp haccepted).1 (by decide)

end Noema.Audit.MerkleChainAudit
