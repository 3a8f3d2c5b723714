import Noema.Lib.PyRuntime
import Noema.Lib.PerfectTree

/-!
# Static Merkle builders and inclusion proofs (`audit/merkle_proof.py`)

The functions of `merkle_proof.py` that work on a finished list of leaf digests, under the source's
names:

- `safeHash`, `hashPair`, `nextPow2`, `padSequence`: the primitives. The digest function `sha256` of
  `hashlib` and the serializer are parameters, so every result below is about an arbitrary hash and
  an arbitrary leaf encoding unless it says otherwise. `hashPair` sorts its two operands before it
  joins them;
- `buildLevels`, `computeRoot`: the padded tree and its root. The list is padded to a power of two
  with copies of its last element;
- `InclusionProof`, `generateInclusionProof`, `verifyInclusionProof`.

The second half relates them to the abstract perfect tree of `Lib.PerfectTree`, where a node is
given by its height and its position: `buildLevels_eq` says that level `k` is the row of height-`k`
nodes over the padded leaves, and `generateInclusionProof_eq` that a generated path is the
authentication path. Every later module reasons about `treeNode` and `authPath`, and not about the
loops.
-/

namespace Noema.Audit

open Noema.Lib

/-- `DOMAIN_SEPARATOR`. -/
def domainSeparator : Bytes :=
  "NOEMA_FRAMEWORK_AUDIT_V1".toList.map fun c => UInt8.ofNat c.toNat

/-- `b"\x00" * 32`. -/
def zeroDigest : Bytes := List.replicate 32 0

/-- `_next_pow2` (merkle_proof.py:25). -/
def nextPow2 (n : Nat) : Nat := if n > 0 then 2 ^ bitLength (n - 1) else 1

/-- `_pad_sequence` (merkle_proof.py:29): repeat the last element up to the next
power of two. -/
def padSequence (seq : List Bytes) : Except PyExc (List Bytes) :=
  match seq.getLast? with
  | none => .error (.valueError "Cannot pad empty sequence")
  | some last => .ok (seq ++ List.replicate (nextPow2 seq.length - seq.length) last)

section Builders

variable (sha256 : Bytes → Bytes)

/-- `_safe_hash` (merkle_proof.py:15). -/
def safeHash (data : Bytes) : Bytes := sha256 (domainSeparator ++ data)

/-- `_hash_pair` (merkle_proof.py:19): the smaller operand goes first. -/
def hashPair (left right : Bytes) : Bytes :=
  if left < right then safeHash sha256 (left ++ right) else safeHash sha256 (right ++ left)

/-- The parent row of `_build_levels`: `level[i + 1]` raises on an odd row. -/
def parentLevel : List Bytes → Except PyExc (List Bytes)
  | [] => .ok []
  | [_] => .error (.indexError "list index out of range")
  | a :: b :: rest => do
    let parents ← parentLevel rest
    return hashPair sha256 a b :: parents

theorem length_parentLevel :
    ∀ {level parent : List Bytes}, parentLevel sha256 level = .ok parent →
      2 * parent.length = level.length
  | [], _, h => by
    cases h
    rfl
  | [_], _, h => by cases h
  | a :: b :: rest, _, h => by
    rw [parentLevel] at h
    cases hrest : parentLevel sha256 rest with
    | error e =>
      rw [hrest] at h
      cases h
    | ok parents =>
      rw [hrest] at h
      cases h
      have ih := length_parentLevel hrest
      simp only [List.length_cons]
      omega

/-- The `while len(levels[-1]) > 1` loop of `_build_levels`. -/
def buildLevelsFrom (level : List Bytes) : Except PyExc (List (List Bytes)) :=
  if _hlen : level.length > 1 then
    match _hparent : parentLevel sha256 level with
    | .error e => .error e
    | .ok parent => do
      let levels ← buildLevelsFrom parent
      return level :: levels
  else .ok [level]
termination_by level.length
decreasing_by
  have := length_parentLevel sha256 _hparent
  omega

/-- `_build_levels` (merkle_proof.py:68): leaves at index 0, root at index -1. -/
def buildLevels (leaves : List Bytes) : Except PyExc (List (List Bytes)) := do
  let padded ← padSequence leaves
  buildLevelsFrom sha256 padded

/-- `compute_root` (merkle_proof.py:79). -/
def computeRoot (leafHashes : List Bytes) : Except PyExc Bytes :=
  if leafHashes = [] then .ok zeroDigest
  else do
    let levels ← buildLevels sha256 leafHashes
    pyIndex (levels.getLastD []) 0

end Builders

/-- `InclusionProof` (merkle_proof.py:44). -/
structure InclusionProof where
  leafHash : Bytes
  path : List (Bytes × Bool)
  rootHash : Bytes
  blockIndex : Int
  deriving DecidableEq, Repr

/-- The loop over `levels[:-1]` of `generate_inclusion_proof`. -/
def pathLoop : List (List Bytes) → Nat → Except PyExc (List (Bytes × Bool))
  | [], _ => .ok []
  | level :: levels, idx => do
    let entry ←
      if idx % 2 = 0 then do
        let s ← pyIndex level (idx + 1)
        pure (s, false)
      else do
        let s ← pyIndex level (idx - 1)
        pure (s, true)
    let path ← pathLoop levels (idx / 2)
    return entry :: path

section Proofs

variable {D : Type} (sha256 : Bytes → Bytes) (serialize : D → Bytes)

/-- `generate_inclusion_proof` (merkle_proof.py:86). -/
def generateInclusionProof (leafData : D) (leafIndex : Int) (allLeafHashes : List Bytes) :
    Except PyExc InclusionProof :=
  if allLeafHashes = [] then
    .error (.valueError "Cannot generate proof from empty leaf list")
  else
    let n := allLeafHashes.length
    if leafIndex < 0 ∨ leafIndex ≥ n then
      .error (.indexError s!"leaf_index {leafIndex} out of range [0, {n})")
    else do
      let leafHash := safeHash sha256 (serialize leafData)
      let levels ← buildLevels sha256 allLeafHashes
      let path ← pathLoop levels.dropLast leafIndex.toNat
      let rootHash ← pyIndex (levels.getLastD []) 0
      return ⟨leafHash, path, rootHash, leafIndex⟩

/-- The loop over `proof.path` of `verify_inclusion_proof`. -/
def walkPath : Bytes → List (Bytes × Bool) → Bytes
  | current, [] => current
  | current, (s, isRight) :: path =>
    walkPath (if isRight then hashPair sha256 s current else hashPair sha256 current s) path

/-- `verify_inclusion_proof` (merkle_proof.py:113). -/
def verifyInclusionProof (proof : InclusionProof) (leafData : D) : Bool :=
  let current := safeHash sha256 (serialize leafData)
  if current ≠ proof.leafHash then false
  else decide (walkPath sha256 current proof.path = proof.rootHash)

end Proofs

/-! ## The builders compute perfect-tree nodes -/

/-- Number of levels above the padded leaves. -/
def depth (n : Nat) : Nat := bitLength (n - 1)

theorem nextPow2_eq {n : Nat} (hn : 0 < n) : nextPow2 n = 2 ^ depth n := by
  rw [nextPow2, if_pos hn, depth]

theorem le_two_pow_depth (n : Nat) : n ≤ 2 ^ depth n := by
  have h : n - 1 < 2 ^ depth n := bitLength_le.mp (Nat.le_refl _)
  omega

/-- The padded leaf sequence, continued forever with the last leaf. -/
def paddedLeaf (hs : List Bytes) (i : Nat) : Bytes :=
  (hs[i]?).getD (hs.getLastD [])

/-- The row of the first `n` nodes of height `k`. -/
def row (sha256 : Bytes → Bytes) (leaf : Nat → Bytes) (k n : Nat) : List Bytes :=
  (List.range n).map (PerfectTree.node (hashPair sha256) leaf k)

@[simp] theorem length_row (sha256 : Bytes → Bytes) (leaf : Nat → Bytes) (k n : Nat) :
    (row sha256 leaf k n).length = n := by
  simp [row]

theorem getElem?_row (sha256 : Bytes → Bytes) (leaf : Nat → Bytes) {k n i : Nat} (h : i < n) :
    (row sha256 leaf k n)[i]? = some (PerfectTree.node (hashPair sha256) leaf k i) := by
  simp [row, h]

theorem paddedLeaf_of_lt {hs : List Bytes} {i : Nat} (h : i < hs.length) :
    paddedLeaf hs i = hs[i] := by
  simp [paddedLeaf, h]

theorem paddedLeaf_of_ge {hs : List Bytes} {i : Nat} (h : hs.length ≤ i) :
    paddedLeaf hs i = hs.getLastD [] := by
  simp [paddedLeaf, h]

theorem padSequence_eq (sha256 : Bytes → Bytes) {hs : List Bytes} (hne : hs ≠ []) :
    padSequence hs = .ok (row sha256 (paddedLeaf hs) 0 (2 ^ depth hs.length)) := by
  have hpos : 0 < hs.length := List.length_pos_iff.mpr hne
  have hlast : hs.getLast? = some (hs.getLastD []) := by
    rw [List.getLastD_eq_getLast?, List.getLast?_eq_some_getLast hne]
    rfl
  rw [padSequence, hlast, nextPow2_eq hpos]
  refine congrArg Except.ok (List.ext_getElem? fun i => ?_)
  have hle := le_two_pow_depth hs.length
  rw [List.getElem?_append, List.getElem?_replicate]
  by_cases hi : i < hs.length
  · rw [if_pos hi, getElem?_row sha256 _ (by omega), PerfectTree.node_zero, paddedLeaf_of_lt hi,
      List.getElem?_eq_getElem hi]
  · rw [if_neg hi]
    by_cases hp : i < 2 ^ depth hs.length
    · rw [if_pos (by omega), getElem?_row sha256 _ hp, PerfectTree.node_zero,
        paddedLeaf_of_ge (by omega)]
    · rw [if_neg (by omega), List.getElem?_eq_none (by simpa using Nat.not_lt.mp hp)]

/-- Pairing up a row of height-`k` nodes gives the row above it. -/
theorem parentLevel_row (sha256 : Bytes → Bytes) (leaf : Nat → Bytes) (k n : Nat) :
    parentLevel sha256 (row sha256 leaf k (2 * n)) = .ok (row sha256 leaf (k + 1) n) := by
  -- the rows are generalized to start at any position, so that the induction can drop two nodes
  have key : ∀ m s, parentLevel sha256
      ((List.range' (2 * s) (2 * m)).map (PerfectTree.node (hashPair sha256) leaf k))
        = .ok ((List.range' s m).map (PerfectTree.node (hashPair sha256) leaf (k + 1))) := by
    intro m
    induction m with
    | zero => intro s; rfl
    | succ m ih =>
      intro s
      have h2 : 2 * (m + 1) = 2 * m + 1 + 1 := by omega
      have hs : 2 * s + 1 + 1 = 2 * (s + 1) := by omega
      rw [h2, List.range'_succ, List.range'_succ, hs, List.range'_succ, List.map_cons,
        List.map_cons, List.map_cons, parentLevel, ih (s + 1)]
      rfl
  have h := key n 0
  rw [Nat.mul_zero, ← List.range_eq_range', ← List.range_eq_range'] at h
  exact h

/-- The loop of `_build_levels` from a row of `2 ^ m` nodes of height `k`. -/
theorem buildLevelsFrom_row (sha256 : Bytes → Bytes) (leaf : Nat → Bytes) (m k : Nat) :
    buildLevelsFrom sha256 (row sha256 leaf k (2 ^ m))
      = .ok ((List.range (m + 1)).map fun i => row sha256 leaf (k + i) (2 ^ (m - i))) := by
  induction m generalizing k with
  | zero =>
    rw [buildLevelsFrom]
    simp
  | succ m ih =>
    have hrow : parentLevel sha256 (row sha256 leaf k (2 ^ (m + 1)))
        = .ok (row sha256 leaf (k + 1) (2 ^ m)) := by
      rw [pow_succ, mul_comm]
      exact parentLevel_row sha256 leaf k (2 ^ m)
    rw [buildLevelsFrom, dif_pos (by simp)]
    split
    · rename_i e he
      rw [hrow] at he
      cases he
    · rename_i parent he
      rw [hrow] at he
      cases he
      rw [ih (k + 1), List.range_succ_eq_map (n := m + 1), List.map_cons, List.map_map]
      refine congrArg Except.ok (congrArg₂ List.cons rfl (List.map_congr_left fun i _ => ?_))
      show row sha256 leaf (k + 1 + i) (2 ^ (m - i)) = row sha256 leaf (k + (i + 1)) _
      rw [show k + 1 + i = k + (i + 1) by omega, show m + 1 - (i + 1) = m - i by omega]

/-- **Level `k` of `_build_levels` is the row of height-`k` nodes** over the
padded leaves. -/
theorem buildLevels_eq (sha256 : Bytes → Bytes) {hs : List Bytes} (hne : hs ≠ []) :
    buildLevels sha256 hs = .ok ((List.range (depth hs.length + 1)).map fun k =>
      row sha256 (paddedLeaf hs) k (2 ^ (depth hs.length - k))) := by
  rw [buildLevels, padSequence_eq sha256 hne]
  show buildLevelsFrom sha256 _ = _
  rw [buildLevelsFrom_row]
  simp only [Nat.zero_add]

/-- The node of height `k` at position `j` of the tree over `hs`. -/
def treeNode (sha256 : Bytes → Bytes) (hs : List Bytes) : Nat → Nat → Bytes :=
  PerfectTree.node (hashPair sha256) (paddedLeaf hs)

/-- The root of the tree over `hs`. -/
def rootOf (sha256 : Bytes → Bytes) (hs : List Bytes) : Bytes :=
  if hs = [] then zeroDigest else treeNode sha256 hs (depth hs.length) 0

theorem rootOf_of_ne_nil (sha256 : Bytes → Bytes) {hs : List Bytes} (hne : hs ≠ []) :
    rootOf sha256 hs = treeNode sha256 hs (depth hs.length) 0 := if_neg hne

theorem topLevel_root (sha256 : Bytes → Bytes) (hs : List Bytes) :
    pyIndex ((((List.range (depth hs.length + 1)).map fun k =>
      row sha256 (paddedLeaf hs) k (2 ^ (depth hs.length - k)))).getLastD []) 0
      = .ok (treeNode sha256 hs (depth hs.length) 0) := by
  rw [List.range_succ, List.map_append, List.map_singleton, List.getLastD_concat]
  refine pyIndex_eq_ok ?_
  rw [getElem?_row sha256 _ (by simp)]
  rfl

/-- `compute_root` never raises. -/
theorem computeRoot_eq (sha256 : Bytes → Bytes) (hs : List Bytes) :
    computeRoot sha256 hs = .ok (rootOf sha256 hs) := by
  by_cases hne : hs = []
  · simp [computeRoot, rootOf, hne]
  · rw [computeRoot, if_neg hne, buildLevels_eq sha256 hne, rootOf_of_ne_nil sha256 hne]
    exact topLevel_root sha256 hs

/-- The authentication path of leaf `i` in the tree over `hs`. -/
def leafPath (sha256 : Bytes → Bytes) (hs : List Bytes) (i : Nat) : List (Bytes × Bool) :=
  PerfectTree.authPath (hashPair sha256) (paddedLeaf hs) 0 (depth hs.length) i

/-- The path loop over the rows `k, k + 1, …, k + n - 1` of a perfect tree. -/
theorem pathLoop_rows (sha256 : Bytes → Bytes) (leaf : Nat → Bytes) (n k i : Nat)
    (hi : i < 2 ^ n) :
    pathLoop ((List.range n).map fun j => row sha256 leaf (k + j) (2 ^ (n - j))) i
      = .ok (PerfectTree.authPath (hashPair sha256) leaf k n i) := by
  induction n generalizing k i with
  | zero => rfl
  | succ n ih =>
    have hpow : 2 ^ (n + 1) = 2 * 2 ^ n := by rw [pow_succ, mul_comm]
    -- the sibling of an even index is on its right, that of an odd one on its left
    have hsib : PerfectTree.sibling i < 2 ^ (n + 1) := by
      unfold PerfectTree.sibling
      split <;> omega
    have hrest : (List.range n).map
          ((fun j => row sha256 leaf (k + j) (2 ^ (n + 1 - j))) ∘ Nat.succ)
        = (List.range n).map fun j => row sha256 leaf (k + 1 + j) (2 ^ (n - j)) := by
      refine List.map_congr_left ?_
      intro j _
      show row sha256 leaf (k + (j + 1)) _ = _
      rw [show k + (j + 1) = k + 1 + j by omega, show n + 1 - (j + 1) = n - j by omega]
    have hentry := pyIndex_eq_ok (getElem?_row sha256 leaf (k := k) hsib)
    rw [List.range_succ_eq_map, List.map_cons, List.map_map, hrest, pathLoop,
      ih (k + 1) (i / 2) (by omega), PerfectTree.authPath, Nat.add_zero, Nat.sub_zero]
    by_cases hpar : i % 2 = 0
    · rw [PerfectTree.sibling, if_pos hpar] at hentry
      simp [hpar, hentry, PerfectTree.sibling]
    · rw [PerfectTree.sibling, if_neg hpar] at hentry
      have hodd : i % 2 = 1 := by omega
      simp [hodd, hentry, PerfectTree.sibling]

/-- **`generate_inclusion_proof` returns the authentication path** of the leaf,
under the root of the whole list. -/
theorem generateInclusionProof_eq {D : Type} (sha256 : Bytes → Bytes) (serialize : D → Bytes)
    (leafData : D) {hs : List Bytes} {i : Nat} (hi : i < hs.length) :
    generateInclusionProof sha256 serialize leafData i hs
      = .ok ⟨safeHash sha256 (serialize leafData), leafPath sha256 hs i, rootOf sha256 hs, i⟩ := by
  have hne : hs ≠ [] := List.ne_nil_of_length_pos (by omega)
  have hpath := pathLoop_rows sha256 (paddedLeaf hs) (depth hs.length) 0 i
    (Nat.lt_of_lt_of_le hi (le_two_pow_depth _))
  simp only [Nat.zero_add] at hpath
  have hrange : ¬ ((i : Int) < 0 ∨ (i : Int) ≥ hs.length) := by omega
  have hdrop : ((List.range (depth hs.length + 1)).map fun k =>
      row sha256 (paddedLeaf hs) k (2 ^ (depth hs.length - k))).dropLast
        = (List.range (depth hs.length)).map fun k =>
          row sha256 (paddedLeaf hs) k (2 ^ (depth hs.length - k)) := by
    rw [List.range_succ, List.map_append, List.map_singleton, List.dropLast_concat]
  rw [generateInclusionProof, if_neg hne]
  dsimp only
  rw [if_neg hrange, buildLevels_eq sha256 hne, rootOf_of_ne_nil sha256 hne]
  show (do
    let path ← pathLoop (List.dropLast _) (Int.toNat i)
    let rootHash ← pyIndex (List.getLastD _ []) 0
    return (⟨_, path, rootHash, _⟩ : InclusionProof)) = _
  rw [hdrop, Int.toNat_natCast, hpath, topLevel_root]
  rfl

end Noema.Audit
