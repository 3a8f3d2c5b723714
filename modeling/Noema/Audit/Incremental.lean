import Noema.Audit.MerkleProof

/-!
# The incremental Merkle tree (`IncrementalMerkleTree`, merkle_proof.py:122)

The append-only tree keeps one row per height. A slot that lies entirely in the padding is stored as
`None` (or not stored at all) and read through `_pad_hashes`, so an append rewrites one slot per
row. The model follows the class method by method; list indexing that could fail returns `Except`,
and that it never does is part of the results.

`Represents t hs` is the representation invariant: *the stored slots are exactly those that cover at
least one real leaf, and each holds the node of the tree over `hs`*. No stored slot can be stale: a
slot that mixes real leaves and padding always lies on the path of the newest leaf, which
`_refresh_path` rewrites.

- `RowDone`, `RowPending`: a row that is up to date, and one that is so except on the path of the
  last leaf. Seen as rows of the longer list, the old rows are pending (`rowPending_of_rowDone`),
  and the loop of `_refresh_path` finishes them from below (`refreshFrom_spec`).
- `append_represents`: one append keeps the invariant, also when the tree grows by a row
  (`length_grow`); `appendAll_holds` is the run lemma.
- `init_represents`: bulk construction establishes it. `_nullify_pads` keeps `⌈n / 2 ^ k⌉` slots of
  row `k`, which are those that cover a real leaf.
- **`incremental_refines_static`**: after any initial list and any appends, the count, the root and
  every proof path are those of the static builders.
-/

namespace Noema.Audit

open Noema.Lib

/-- `IncrementalMerkleTree`: `_levels`, `_real`, `_pad_hashes`. -/
structure IncrementalMerkleTree where
  levels : List (List (Option Bytes))
  real : List Bytes
  padHashes : List Bytes
  deriving DecidableEq, Repr

/-- The two-line loop `while len(level) <= idx: level.append(None)` followed by
`level[idx] = value`. -/
def extendSet {α : Type} (level : List (Option α)) (idx : Nat) (value : α) : List (Option α) :=
  (level ++ List.replicate (idx + 1 - level.length) none).set idx (some value)

namespace IncrementalMerkleTree

variable (sha256 : Bytes → Bytes)

/-- The loop of `_compute_pad_hashes`. -/
def padHashesFrom (h : Bytes) : Nat → List Bytes
  | 0 => [h]
  | n + 1 => h :: padHashesFrom (hashPair sha256 h h) n

/-- `_compute_pad_hashes` (merkle_proof.py:145). -/
def computePadHashes (real : List Bytes) (levels : List (List (Option Bytes))) : List Bytes :=
  padHashesFrom sha256 (real.getLastD zeroDigest) (levels.length - 1)

/-- `_nullify_pads` (merkle_proof.py:154). -/
def nullifyPads (levels : List (List (Option Bytes))) (n : Nat) : List (List (Option Bytes)) :=
  levels.mapIdx fun k level =>
    level.mapIdx fun j value => if (n + 2 ^ k - 1) / 2 ^ k ≤ j then none else value

/-- `__init__` (merkle_proof.py:134). -/
def init (leaves : List Bytes) : Except PyExc IncrementalMerkleTree := do
  let levels ←
    if leaves = [] then pure [[]]
    else do
      let built ← buildLevels sha256 leaves
      pure (nullifyPads (built.map fun level => level.map some) leaves.length)
  return ⟨levels, leaves, computePadHashes sha256 leaves levels⟩

/-- `_node` (merkle_proof.py:162). -/
def nodeAt (t : IncrementalMerkleTree) (k j : Nat) : Except PyExc Bytes := do
  let level ← pyIndex t.levels k
  match level[j]? with
  | some (some value) => return value
  | _ => pyIndex t.padHashes k

/-- `count` (merkle_proof.py:171). -/
def count (t : IncrementalMerkleTree) : Nat := t.real.length

/-- `root` (merkle_proof.py:175). -/
def root (t : IncrementalMerkleTree) : Except PyExc Bytes :=
  if t.real = [] then .ok zeroDigest else t.nodeAt (t.levels.length - 1) 0

/-- The body of `_refresh_path` for one row. -/
def refreshRow (t : IncrementalMerkleTree) (k idx : Nat) : Except PyExc IncrementalMerkleTree := do
  let level ← pyIndex t.levels k
  let left ← t.nodeAt (k - 1) (2 * idx)
  let right ← t.nodeAt (k - 1) (2 * idx + 1)
  return { t with levels := t.levels.set k (extendSet level idx (hashPair sha256 left right)) }

/-- The loop of `_refresh_path`: `n` rows to go, `k` the next one. -/
def refreshFrom : Nat → Nat → Nat → IncrementalMerkleTree → Except PyExc IncrementalMerkleTree
  | 0, _, _, t => .ok t
  | n + 1, k, idx, t => do
    let t ← refreshRow sha256 t k (idx / 2)
    refreshFrom n (k + 1) (idx / 2) t

/-- `_refresh_path` (merkle_proof.py:202). -/
def refreshPath (t : IncrementalMerkleTree) (idx : Nat) : Except PyExc IncrementalMerkleTree :=
  refreshFrom sha256 (t.levels.length - 1) 1 idx t

/-- `append` (merkle_proof.py:185). -/
def append (t : IncrementalMerkleTree) (leaf : Bytes) : Except PyExc IncrementalMerkleTree :=
  if t.levels = [[]] then
    let levels := [[some leaf]]
    let real := t.real ++ [leaf]
    .ok ⟨levels, real, computePadHashes sha256 real levels⟩
  else do
    let real := t.real ++ [leaf]
    let padded := nextPow2 real.length
    let levels := if t.levels.length < bitLength padded then t.levels ++ [[]] else t.levels
    let level0 ← pyIndex levels 0
    let levels := levels.set 0 (extendSet level0 (real.length - 1) leaf)
    refreshPath sha256 ⟨levels, real, computePadHashes sha256 real levels⟩ (real.length - 1)

/-- The loop of `proof`: `n` rows to go, `k` the next one. -/
def proofFrom (t : IncrementalMerkleTree) : Nat → Nat → Nat → Except PyExc (List (Bytes × Bool))
  | 0, _, _ => .ok []
  | n + 1, k, idx => do
    let sibling ← t.nodeAt k (if idx % 2 = 0 then idx + 1 else idx - 1)
    let path ← t.proofFrom n (k + 1) (idx / 2)
    return (sibling, idx % 2 != 0) :: path

/-- `proof` (merkle_proof.py:213). -/
def proof (t : IncrementalMerkleTree) (leafIndex : Int) : Except PyExc (List (Bytes × Bool)) :=
  let n := t.real.length
  if ¬ (0 ≤ leafIndex ∧ leafIndex < n) then
    .error (.indexError s!"leaf_index {leafIndex} out of range [0, {n})")
  else t.proofFrom (t.levels.length - 1) 0 leafIndex.toNat

/-- `inclusion_proof` (merkle_proof.py:224). -/
def inclusionProof {D : Type} (serialize : D → Bytes) (t : IncrementalMerkleTree) (leafData : D)
    (leafIndex : Int) : Except PyExc InclusionProof :=
  let n := t.real.length
  if ¬ (0 ≤ leafIndex ∧ leafIndex < n) then
    .error (.indexError s!"leaf_index {leafIndex} out of range [0, {n})")
  else do
    let path ← t.proof leafIndex
    let rootHash ← t.root
    return ⟨safeHash sha256 (serialize leafData), path, rootHash, leafIndex⟩

/-- `append` for each element of `xs` in order. -/
def appendAll : IncrementalMerkleTree → List Bytes → Except PyExc IncrementalMerkleTree
  | t, [] => .ok t
  | t, x :: xs => do
    let t ← append sha256 t x
    appendAll t xs

/-! ## Slots -/

/-- The value stored at row `k`, position `j`; `none` also when the row is too
short to have that position. -/
def slot (levels : List (List (Option Bytes))) (k j : Nat) : Option Bytes :=
  (levels[k]?.bind fun level => level[j]?).join

theorem slot_append_empty (levels : List (List (Option Bytes))) (k j : Nat) :
    slot (levels ++ [[]]) k j = slot levels k j := by
  unfold slot
  by_cases hk : k < levels.length
  · rw [List.getElem?_append_left hk]
  · rw [List.getElem?_append_right (by omega), List.getElem?_eq_none (Nat.le_of_not_lt hk)]
    rcases Nat.eq_zero_or_pos (k - levels.length) with h | h
    · rw [h]
      rfl
    · rw [List.getElem?_eq_none (by rw [List.length_singleton]; exact h)]

/-- `extendSet` changes one position of a row and nothing else. -/
theorem getElem?_extendSet {α : Type} (level : List (Option α)) (idx : Nat) (value : α) (j : Nat) :
    ((extendSet level idx value)[j]?).join
      = if j = idx then some value else (level[j]?).join := by
  unfold extendSet
  rw [List.getElem?_set]
  by_cases hj : j = idx
  · subst hj
    rw [if_pos rfl, if_pos (by simp; omega), if_pos rfl]
    rfl
  · rw [if_neg (Ne.symm hj), if_neg hj, List.getElem?_append, List.getElem?_replicate]
    by_cases hl : j < level.length
    · rw [if_pos hl]
    · rw [if_neg hl, List.getElem?_eq_none (Nat.le_of_not_lt hl)]
      split <;> rfl

theorem slot_set {levels : List (List (Option Bytes))} {k : Nat} {level : List (Option Bytes)}
    (hk : levels[k]? = some level) (idx : Nat) (value : Bytes) (k' j : Nat) :
    slot (levels.set k (extendSet level idx value)) k' j
      = if k' = k ∧ j = idx then some value else slot levels k' j := by
  unfold slot
  rw [List.getElem?_set]
  by_cases hkk : k' = k
  · subst hkk
    have hlt : k' < levels.length := (List.getElem?_eq_some_iff.mp hk).1
    rw [if_pos rfl, if_pos hlt, hk]
    simpa using getElem?_extendSet level idx value j
  · rw [if_neg (Ne.symm hkk), if_neg (fun h => hkk h.1)]

/-! ## The representation invariant -/

theorem padHashesFrom_eq (h : Bytes) (n : Nat) :
    padHashesFrom sha256 h n
      = (List.range (n + 1)).map (PerfectTree.constNode (hashPair sha256) h) := by
  induction n generalizing h with
  | zero => rfl
  | succ n ih =>
    rw [padHashesFrom, ih, List.range_succ_eq_map (n := n + 1), List.map_cons, List.map_map]
    refine congrArg₂ List.cons rfl (List.map_congr_left fun k _ => ?_)
    exact PerfectTree.constNode_comb_self (hashPair sha256) h k

/-- What every state of the tree has in common, also in the middle of
`_refresh_path`: the leaves, one row per height, the pad hashes of the last
leaf. -/
structure Frame (t : IncrementalMerkleTree) (hs : List Bytes) : Prop where
  real : t.real = hs
  nonempty : hs ≠ []
  height : t.levels.length = depth hs.length + 1
  pads : t.padHashes = (List.range (depth hs.length + 1)).map
    (PerfectTree.constNode (hashPair sha256) (hs.getLastD []))

/-- Row `k` is up to date: it stores exactly the nodes that cover a real leaf. -/
def RowDone (t : IncrementalMerkleTree) (hs : List Bytes) (k : Nat) : Prop :=
  ∀ j, slot t.levels k j = if j * 2 ^ k < hs.length then some (treeNode sha256 hs k j) else none

/-- Row `k` is up to date except on the path of the last leaf. -/
def RowPending (t : IncrementalMerkleTree) (hs : List Bytes) (k : Nat) : Prop :=
  (∀ j, j < (hs.length - 1) / 2 ^ k → slot t.levels k j = some (treeNode sha256 hs k j)) ∧
  (∀ j, (hs.length - 1) / 2 ^ k < j → slot t.levels k j = none)

/-- **The representation invariant** of a non-empty tree. -/
structure Represents (t : IncrementalMerkleTree) (hs : List Bytes) : Prop
    extends Frame sha256 t hs where
  rows : ∀ k ≤ depth hs.length, RowDone sha256 t hs k

/-- The state in the middle of `_refresh_path`: the rows below `k` are done. -/
structure RefreshedBelow (t : IncrementalMerkleTree) (hs : List Bytes) (k : Nat) : Prop
    extends Frame sha256 t hs where
  done : ∀ k' < k, RowDone sha256 t hs k'
  pending : ∀ k', k ≤ k' → k' ≤ depth hs.length → RowPending sha256 t hs k'

variable {sha256} {t : IncrementalMerkleTree} {hs : List Bytes}

/-- A position covers a real leaf iff it is not to the right of the last path. -/
theorem covers_iff (hne : hs ≠ []) (k j : Nat) :
    j * 2 ^ k < hs.length ↔ j ≤ (hs.length - 1) / 2 ^ k := by
  have hpos : 0 < hs.length := List.length_pos_iff.mpr hne
  rw [Nat.le_div_iff_mul_le (Nat.two_pow_pos k)]
  omega

/-- A node that covers no real leaf is the pad hash of its height. -/
theorem treeNode_padding {k j : Nat} (h : hs.length ≤ j * 2 ^ k) :
    treeNode sha256 hs k j = PerfectTree.constNode (hashPair sha256) (hs.getLastD []) k :=
  PerfectTree.node_const _ _ fun _ hi _ => paddedLeaf_of_ge (h.trans hi)

/-- `_node` on a finished row reads the tree over `hs`, padding included. -/
theorem nodeAt_of_rowDone (hf : Frame sha256 t hs) {k : Nat} (hk : k ≤ depth hs.length)
    (hrow : RowDone sha256 t hs k) (j : Nat) :
    t.nodeAt k j = .ok (treeNode sha256 hs k j) := by
  have hlt : k < t.levels.length := by
    rw [hf.height]
    omega
  have hj := hrow j
  unfold slot at hj
  rw [List.getElem?_eq_getElem hlt] at hj
  rw [nodeAt, pyIndex_eq_ok (List.getElem?_eq_getElem hlt), ok_bind]
  by_cases hc : j * 2 ^ k < hs.length
  · rw [if_pos hc] at hj
    have hget : (t.levels[k])[j]? = some (some (treeNode sha256 hs k j)) := by
      simpa [Option.join_eq_some_iff] using hj
    rw [hget]
    rfl
  · rw [if_neg hc] at hj
    have hpad : pyIndex t.padHashes k = .ok (treeNode sha256 hs k j) := by
      refine pyIndex_eq_ok ?_
      rw [hf.pads, List.getElem?_map, List.getElem?_range (by omega),
        treeNode_padding (Nat.le_of_not_lt hc)]
      rfl
    -- a missing slot and a stored `None` both read the pad hash
    rcases hget : (t.levels[k])[j]? with _ | _ | v
    · exact hpad
    · exact hpad
    · simp [hget] at hj

/-! ## One append -/

theorem refreshRow_spec {k : Nat} (h : RefreshedBelow sha256 t hs (k + 1))
    (hk : k + 1 ≤ depth hs.length) :
    ∃ t', refreshRow sha256 t (k + 1) ((hs.length - 1) / 2 ^ (k + 1)) = .ok t' ∧
      RefreshedBelow sha256 t' hs (k + 2) := by
  have hlt : k + 1 < t.levels.length := by
    rw [h.height]
    omega
  have hget := List.getElem?_eq_getElem hlt
  generalize hidx : (hs.length - 1) / 2 ^ (k + 1) = idx
  have hnode : ∀ j, t.nodeAt k j = .ok (treeNode sha256 hs k j) :=
    nodeAt_of_rowDone h.toFrame (by omega) (h.done k (Nat.lt_succ_self k))
  have hset := slot_set hget idx (treeNode sha256 hs (k + 1) idx)
  refine ⟨⟨t.levels.set (k + 1) (extendSet t.levels[k + 1] idx (treeNode sha256 hs (k + 1) idx)),
    t.real, t.padHashes⟩, ?_, ?_⟩
  · rw [refreshRow, pyIndex_eq_ok hget, ok_bind, Nat.add_sub_cancel, hnode, hnode]
    rfl
  · have hpend := h.pending (k + 1) (Nat.le_refl _) hk
    rw [RowPending, hidx] at hpend
    refine { real := h.real, nonempty := h.nonempty, pads := h.pads, height := ?_,
             done := fun k' hk' j => ?_, pending := fun k' hk' hd => ⟨fun j hj => ?_, fun j hj => ?_⟩ }
    · simpa using h.height
    · rw [hset]
      rcases Nat.lt_or_ge k' (k + 1) with hlt' | hge
      · rw [if_neg (by omega)]
        exact h.done k' hlt' j
      · obtain rfl : k' = k + 1 := by omega
        have hcov := covers_iff h.nonempty (k + 1) j
        rw [hidx] at hcov
        -- left of the new slot the row was done, at it the node was just computed
        rcases Nat.lt_trichotomy j idx with hj | rfl | hj
        · rw [if_neg (by omega), if_pos (hcov.mpr (by omega)), hpend.1 j hj]
        · rw [if_pos ⟨rfl, rfl⟩, if_pos (hcov.mpr (Nat.le_refl _))]
        · rw [if_neg (by omega), if_neg (fun hc => by have := hcov.mp hc; omega), hpend.2 j hj]
    · rw [hset, if_neg (by omega)]
      exact (h.pending k' (by omega) hd).1 j hj
    · rw [hset, if_neg (by omega)]
      exact (h.pending k' (by omega) hd).2 j hj

/-- The loop of `_refresh_path` finishes every remaining row. -/
theorem refreshFrom_spec (m k : Nat) (hm : k + 1 + m = depth hs.length + 1)
    (h : RefreshedBelow sha256 t hs (k + 1)) :
    ∃ t', refreshFrom sha256 m (k + 1) ((hs.length - 1) / 2 ^ k) t = .ok t' ∧
      Represents sha256 t' hs := by
  induction m generalizing k t with
  | zero => exact ⟨t, rfl, { toFrame := h.toFrame, rows := fun k' hk' => h.done k' (by omega) }⟩
  | succ m ih =>
    obtain ⟨t₁, hrow, h₁⟩ := refreshRow_spec h (by omega)
    obtain ⟨t₂, hrest, h₂⟩ := ih (k + 1) (by omega) h₁
    refine ⟨t₂, ?_, h₂⟩
    rw [refreshFrom, Nat.div_div_eq_div_mul, ← pow_succ, hrow]
    exact hrest

theorem depth_le_depth_succ (n : Nat) : depth n ≤ depth (n + 1) :=
  bitLength_le.mpr (Nat.lt_of_le_of_lt (by omega) (bitLength_le.mp (Nat.le_refl (depth (n + 1)))))

theorem depth_succ_le (n : Nat) : depth (n + 1) ≤ depth n + 1 := by
  refine bitLength_le.mpr ?_
  have h := le_two_pow_depth n
  rw [pow_succ]
  have := Nat.two_pow_pos (depth n)
  omega

/-- After the row-adding branch of `append` there is one row per height again. -/
theorem length_grow {levels : List (List (Option Bytes))} {n : Nat}
    (h : levels.length = depth n + 1) :
    (if levels.length < depth (n + 1) + 1 then levels ++ [[]] else levels).length
      = depth (n + 1) + 1 := by
  have h₁ := depth_le_depth_succ n
  have h₂ := depth_succ_le n
  split
  · rw [List.length_append, List.length_singleton]
    omega
  · omega

theorem slot_grow (levels : List (List (Option Bytes))) (b k j : Nat) :
    slot (if levels.length < b then levels ++ [[]] else levels) k j = slot levels k j := by
  split
  · exact slot_append_empty levels k j
  · rfl

/-- A node whose leaves are all old keeps its value. -/
theorem treeNode_append (x : Bytes) {k j : Nat} (h : (j + 1) * 2 ^ k ≤ hs.length) :
    treeNode sha256 (hs ++ [x]) k j = treeNode sha256 hs k j := by
  refine PerfectTree.node_congr _ _ ?_
  intro i _ hi
  have hlt : i < hs.length := by omega
  rw [paddedLeaf_of_lt hlt, paddedLeaf_of_lt (by simp; omega), List.getElem_append_left hlt]

/-- Reading the old rows as rows of the longer list: only the path of the new
leaf is out of date. -/
theorem rowPending_of_rowDone (hne : hs ≠ []) (x : Bytes) {k : Nat} {t' : IncrementalMerkleTree}
    (hrow : RowDone sha256 t hs k) (hslot : ∀ j, slot t'.levels k j = slot t.levels k j) :
    RowPending sha256 t' (hs ++ [x]) k := by
  have hlen : (hs ++ [x]).length - 1 = hs.length := by simp
  rw [RowPending, hlen]
  constructor
  · intro j hj
    have hcov : (j + 1) * 2 ^ k ≤ hs.length := (Nat.le_div_iff_mul_le (Nat.two_pow_pos k)).mp hj
    have hlt : j * 2 ^ k < hs.length := by
      have := Nat.two_pow_pos k
      rw [Nat.add_mul] at hcov
      omega
    rw [hslot, hrow j, if_pos hlt, treeNode_append x hcov]
  · intro j hj
    have hle := Nat.div_mul_le_self hs.length (2 ^ k)
    have hnot : ¬ j ≤ (hs.length - 1) / 2 ^ k := by
      have := Nat.div_le_div_right (c := 2 ^ k) (Nat.sub_le hs.length 1)
      omega
    rw [hslot, hrow j, if_neg fun hc => hnot ((covers_iff hne k j).mp hc)]

/-- A row above the top of the old tree stores nothing. -/
theorem slot_eq_none_of_length_le {levels : List (List (Option Bytes))} {k : Nat}
    (h : levels.length ≤ k) (j : Nat) : slot levels k j = none := by
  rw [slot, List.getElem?_eq_none h]
  rfl

/-- **One append keeps the invariant** (and never raises). -/
theorem append_represents (h : Represents sha256 t hs) (x : Bytes) :
    ∃ t', append sha256 t x = .ok t' ∧ Represents sha256 t' (hs ++ [x]) := by
  have hpos : 0 < hs.length := List.length_pos_iff.mpr h.nonempty
  have hlen : (hs ++ [x]).length = hs.length + 1 := by simp
  have hnotEmpty : t.levels ≠ [[]] := by
    intro hempty
    have h0 := h.rows 0 (Nat.zero_le _) 0
    rw [hempty, if_pos (by simpa using hpos)] at h0
    cases h0
  have hbits : bitLength (nextPow2 (hs.length + 1)) = depth (hs.length + 1) + 1 := by
    rw [nextPow2_eq (Nat.succ_pos _), bitLength_two_pow]
  generalize hgrow : (if t.levels.length < depth (hs.length + 1) + 1 then t.levels ++ [[]]
    else t.levels) = grown
  have hgrownLen : grown.length = depth (hs.length + 1) + 1 := by
    rw [← hgrow]
    exact length_grow h.height
  have hgrownSlot : ∀ k j, slot grown k j = slot t.levels k j := by
    intro k j
    rw [← hgrow]
    exact slot_grow _ _ k j
  have hget : grown[0]? = some grown[0] := List.getElem?_eq_getElem (by omega)
  have hset := slot_set hget hs.length x
  generalize hlev : grown.set 0 (extendSet grown[0] hs.length x) = levels at hset
  have hlevLen : levels.length = depth (hs.length + 1) + 1 := by
    rw [← hlev, List.length_set, hgrownLen]
  -- row 0 is final once the leaf is stored; the rows above wait for `_refresh_path`
  have hstart : RefreshedBelow sha256
      ⟨levels, hs ++ [x], computePadHashes sha256 (hs ++ [x]) levels⟩ (hs ++ [x]) 1 := by
    refine { real := rfl, nonempty := by simp, height := by rw [hlen]; exact hlevLen,
             pads := ?_, done := ?_, pending := ?_ }
    · show padHashesFrom sha256 _ _ = _
      rw [padHashesFrom_eq, hlevLen, Nat.add_sub_cancel, hlen, List.getLastD_concat,
        List.getLastD_concat]
    · intro k hk j
      obtain rfl : k = 0 := by omega
      show slot levels 0 j = _
      have h0 := h.rows 0 (Nat.zero_le _) j
      rw [hset, hgrownSlot, h0, hlen, pow_zero, Nat.mul_one]
      rcases Nat.lt_trichotomy j hs.length with hj | rfl | hj
      · rw [if_neg (by omega), if_pos hj, if_pos (by omega), treeNode_append x (by simpa using hj)]
      · rw [if_pos ⟨rfl, rfl⟩, if_pos (by omega)]
        show _ = some (paddedLeaf (hs ++ [x]) hs.length)
        rw [paddedLeaf_of_lt (by simp)]
        simp
      · rw [if_neg (by omega), if_neg (by omega), if_neg (by omega)]
    · intro k hk hd
      rw [hlen] at hd
      have hslot : ∀ j, slot levels k j = slot t.levels k j := by
        intro j
        rw [hset, if_neg (by omega), hgrownSlot]
      rcases Nat.lt_or_ge (depth hs.length) k with hnew | hold
      · -- the row just added: the old tree was full, so only position 0 is on the path
        have hle := le_two_pow_depth hs.length
        have hfull : hs.length < 2 ^ k :=
          Nat.lt_of_le_of_lt hle (Nat.pow_lt_pow_right (by omega) hnew)
        have hnone : ∀ j, slot levels k j = none := fun j => by
          rw [hslot]
          exact slot_eq_none_of_length_le (by rw [h.height]; omega) j
        have hidx : ((hs ++ [x]).length - 1) / 2 ^ k = 0 := by
          rw [hlen]
          exact Nat.div_eq_of_lt (by omega)
        refine ⟨fun j hj => ?_, fun j _ => hnone j⟩
        rw [hidx] at hj
        omega
      · exact rowPending_of_rowDone h.nonempty x (h.rows k hold) hslot
  obtain ⟨t', hrun, ht'⟩ := refreshFrom_spec (depth (hs.length + 1)) 0 (by rw [hlen]; omega) hstart
  refine ⟨t', ?_, ht'⟩
  rw [append, if_neg hnotEmpty]
  dsimp only
  rw [h.real, hlen, hbits, hgrow, pyIndex_eq_ok hget, ok_bind, Nat.add_sub_cancel, hlev, refreshPath]
  dsimp only
  rw [hlevLen, Nat.add_sub_cancel]
  rw [hlen, Nat.add_sub_cancel, pow_zero, Nat.div_one] at hrun
  exact hrun

/-! ## Bulk construction and whole runs -/

/-- Ceiling division: `_nullify_pads` keeps exactly the positions that cover a
real leaf. -/
theorem nullify_start_iff (n k j : Nat) : (n + 2 ^ k - 1) / 2 ^ k ≤ j ↔ ¬ j * 2 ^ k < n := by
  have hpos := Nat.two_pow_pos k
  rw [← Nat.lt_succ_iff, Nat.div_lt_iff_lt_mul hpos, Nat.succ_mul]
  omega

/-- Bulk construction establishes the invariant. -/
theorem init_represents (hne : hs ≠ []) :
    ∃ t, init sha256 hs = .ok t ∧ Represents sha256 t hs := by
  generalize hd : depth hs.length = d
  have hbuilt := buildLevels_eq sha256 hne
  rw [hd] at hbuilt
  generalize hlev : nullifyPads (((List.range (d + 1)).map fun k =>
    row sha256 (paddedLeaf hs) k (2 ^ (d - k))).map fun level => level.map some) hs.length = levels
  have hlen : levels.length = d + 1 := by simp [← hlev, nullifyPads]
  refine ⟨⟨levels, hs, computePadHashes sha256 hs levels⟩, ?_, ?_⟩
  · rw [init, if_neg hne, hbuilt, ok_bind, hlev]
    rfl
  · refine { real := rfl, nonempty := hne, height := by rw [hd]; exact hlen, pads := ?_,
             rows := fun k hk j => ?_ }
    · show padHashesFrom sha256 _ _ = _
      have hlast : hs.getLastD zeroDigest = hs.getLastD [] := by
        simp [List.getLastD_eq_getLast?, List.getLast?_eq_some_getLast hne]
      rw [padHashesFrom_eq, hlen, Nat.add_sub_cancel, hd, hlast]
    · show slot levels k j = _
      rw [hd] at hk
      have hcov := nullify_start_iff hs.length k j
      have hrowk : levels[k]? = some (((row sha256 (paddedLeaf hs) k (2 ^ (d - k))).map some).mapIdx
          fun j value => if (hs.length + 2 ^ k - 1) / 2 ^ k ≤ j then none else value) := by
        have hlt : k < d + 1 := by omega
        rw [← hlev, nullifyPads]
        simp [hlt]
      rw [slot, hrowk, Option.bind_some, List.getElem?_mapIdx, List.getElem?_map]
      -- a slot is kept exactly when its subtree has a real leaf
      by_cases hc : j * 2 ^ k < hs.length
      · have hj : j < 2 ^ (d - k) := by
          have hle := le_two_pow_depth hs.length
          rw [hd, ← Nat.sub_add_cancel hk, pow_add] at hle
          exact Nat.lt_of_mul_lt_mul_right (Nat.lt_of_lt_of_le hc hle)
        rw [getElem?_row sha256 _ hj, if_pos hc, Option.map_some, Option.map_some,
          if_neg (fun h => hcov.mp h hc)]
        rfl
      · rw [if_neg hc]
        rcases hget : (row sha256 (paddedLeaf hs) k (2 ^ (d - k)))[j]? with _ | v
        · rfl
        · rw [Option.map_some, Option.map_some, if_pos (hcov.mpr hc)]
          rfl

/-- The tree holds the list `hs`, empty or not. -/
def Holds (sha256 : Bytes → Bytes) (t : IncrementalMerkleTree) (hs : List Bytes) : Prop :=
  (hs = [] ∧ t.levels = [[]] ∧ t.real = []) ∨ Represents sha256 t hs

theorem init_holds (sha256 : Bytes → Bytes) (hs : List Bytes) :
    ∃ t, init sha256 hs = .ok t ∧ Holds sha256 t hs := by
  by_cases hne : hs = []
  · subst hne
    exact ⟨_, rfl, .inl ⟨rfl, rfl, rfl⟩⟩
  · obtain ⟨t, hinit, ht⟩ : ∃ t, init sha256 hs = .ok t ∧ Represents sha256 t hs :=
      init_represents hne
    exact ⟨t, hinit, .inr ht⟩

/-- The first leaf of an empty tree. -/
theorem append_first (hlev : t.levels = [[]]) (hreal : t.real = []) (x : Bytes) :
    ∃ t', append sha256 t x = .ok t' ∧ Represents sha256 t' [x] := by
  refine ⟨⟨[[some x]], [x], [x]⟩, ?_, ?_⟩
  · rw [append, if_pos hlev, hreal]
    rfl
  · refine { real := rfl, nonempty := by simp, height := rfl, pads := rfl, rows := fun k hk j => ?_ }
    obtain rfl : k = 0 := Nat.le_zero.mp hk
    cases j with
    | zero => rfl
    | succ j => simp [slot]

/-- The step lemma: one `append` on any tree. -/
theorem append_holds (h : Holds sha256 t hs) (x : Bytes) :
    ∃ t', append sha256 t x = .ok t' ∧ Holds sha256 t' (hs ++ [x]) := by
  rcases h with ⟨rfl, hlev, hreal⟩ | h
  · obtain ⟨t', happ, ht'⟩ : ∃ t', append sha256 t x = .ok t' ∧ Represents sha256 t' [x] :=
      append_first hlev hreal x
    exact ⟨t', happ, .inr ht'⟩
  · obtain ⟨t', happ, ht'⟩ := append_represents h x
    exact ⟨t', happ, .inr ht'⟩

/-- The run lemma: any sequence of appends. -/
theorem appendAll_holds (h : Holds sha256 t hs) (xs : List Bytes) :
    ∃ t', appendAll sha256 t xs = .ok t' ∧ Holds sha256 t' (hs ++ xs) := by
  induction xs generalizing t hs with
  | nil => exact ⟨t, rfl, by simpa using h⟩
  | cons x xs ih =>
    obtain ⟨t₁, happ, h₁⟩ := append_holds h x
    obtain ⟨t₂, hrest, h₂⟩ := ih h₁
    refine ⟨t₂, ?_, ?_⟩
    · rw [appendAll, happ]
      exact hrest
    · rw [List.append_assoc] at h₂
      exact h₂

/-! ## What the observers return -/

theorem Holds.real_eq (h : Holds sha256 t hs) : t.real = hs := by
  rcases h with ⟨rfl, -, hreal⟩ | h
  · exact hreal
  · exact h.real

theorem Holds.root_eq (h : Holds sha256 t hs) : t.root = .ok (rootOf sha256 hs) := by
  rcases h with ⟨rfl, -, hreal⟩ | h
  · rw [root, if_pos hreal]
    rfl
  · have hne := h.nonempty
    rw [root, h.real, if_neg hne, h.height, Nat.add_sub_cancel, rootOf_of_ne_nil sha256 hne]
    exact nodeAt_of_rowDone h.toFrame (Nat.le_refl _) (h.rows _ (Nat.le_refl _)) 0

/-- The loop of `proof` collects the authentication path. -/
theorem proofFrom_eq (h : Represents sha256 t hs) (n k i : Nat) (hn : k + n = depth hs.length) :
    t.proofFrom n k i
      = .ok (PerfectTree.authPath (hashPair sha256) (paddedLeaf hs) k n i) := by
  induction n generalizing k i with
  | zero => rfl
  | succ n ih =>
    have hnode : ∀ j, t.nodeAt k j = .ok (treeNode sha256 hs k j) :=
      nodeAt_of_rowDone h.toFrame (by omega) (h.rows k (by omega))
    rw [proofFrom, hnode, ok_bind, ih (k + 1) (i / 2) (by omega)]
    rfl

theorem Holds.proof_eq (h : Holds sha256 t hs) {i : Nat} (hi : i < hs.length) :
    t.proof i = .ok (leafPath sha256 hs i) := by
  have hreal := h.real_eq
  rcases h with ⟨rfl, -, -⟩ | h
  · exact absurd hi (Nat.not_lt_zero i)
  · have hrange : ¬ ¬ (0 ≤ (i : Int) ∧ (i : Int) < hs.length) := by omega
    rw [proof, hreal, if_neg hrange, h.height, Nat.add_sub_cancel, Int.toNat_natCast]
    exact proofFrom_eq h _ _ _ (Nat.zero_add _)

theorem Holds.inclusionProof_eq {D : Type} (serialize : D → Bytes) (h : Holds sha256 t hs) (d : D)
    {i : Nat} (hi : i < hs.length) :
    inclusionProof sha256 serialize t d i
      = .ok ⟨safeHash sha256 (serialize d), leafPath sha256 hs i, rootOf sha256 hs, i⟩ := by
  have hrange : ¬ ¬ (0 ≤ (i : Int) ∧ (i : Int) < hs.length) := by omega
  rw [inclusionProof, h.real_eq, if_neg hrange, h.proof_eq hi, h.root_eq]
  rfl

/-- **The incremental tree refines the static builders**: for every initial
list and every sequence of appends, no call raises, and `count`, `root` and
every `proof(i)` are those of `compute_root` and `generate_inclusion_proof` on
the whole list. The hash is arbitrary. -/
theorem incremental_refines_static (sha256 : Bytes → Bytes) (ls xs : List Bytes) :
    ∃ t, (init sha256 ls >>= fun t₀ => appendAll sha256 t₀ xs) = .ok t ∧
      t.count = ls.length + xs.length ∧
      t.root = computeRoot sha256 (ls ++ xs) ∧
      (ls ++ xs = [] → t.root = .ok (List.replicate 32 0)) ∧
      ∀ i : Nat, i < ls.length + xs.length → ∀ (D : Type) (serialize : D → Bytes) (d : D),
        ∃ p, generateInclusionProof sha256 serialize d i (ls ++ xs) = .ok p ∧
          t.proof i = .ok p.path := by
  obtain ⟨t₀, hinit, h₀⟩ := init_holds sha256 ls
  obtain ⟨t, hrun, h⟩ := appendAll_holds h₀ xs
  refine ⟨t, by rw [hinit]; exact hrun, ?_, ?_, ?_, ?_⟩
  · rw [count, h.real_eq, List.length_append]
  · rw [h.root_eq, computeRoot_eq]
  · intro hnil
    rw [h.root_eq, rootOf, if_pos hnil]
    rfl
  · intro i hi D serialize d
    rw [← List.length_append] at hi
    exact ⟨_, generateInclusionProof_eq sha256 serialize d hi, h.proof_eq hi⟩

end IncrementalMerkleTree

end Noema.Audit
