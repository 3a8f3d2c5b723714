import Noema.Audit.MerkleProof
import Noema.Lib.Sha256
import Noema.Utils.JsonUtils

/-!
# What an audit root commits to

Two questions about the roots of `audit/merkle_proof.py`, both under the assumption that the hash
has no collision *among the byte strings that were actually hashed* (`CollisionFree`). A global
assumption would be false of every hash with digests of a fixed length, and nothing could be
concluded from it.

- **Inclusion**: every generated proof is accepted, and an accepted proof, whatever its path, is
  about a logged datum (`inclusionProofs_complete_and_sound`).
- **Binding**: which pairs of logs share a root (`computeRoot_eq_iff_siblingSwap`).

`_hash_pair` orders its operands, and leaves share the hash domain of inner nodes, so neither holds
outright.

For inclusion, a serialized datum must not look like the concatenation of a digest and a sibling
(`SeparatesLeaves`). The argument follows the walk of the verifier from the root back: a step that
ends at an inner node came from one of its children (`step_from_child`), no step ends at a leaf
(`step_ne_leaf`), so the walk goes down the tree and starts at a leaf. Siblings of 32 bytes are
harmless for data as JSON texts; a longer sibling is not (`inclusionProofs_unsound_long_sibling`).

For binding, the root determines the padded list of commitments only up to exchanging the two halves
of aligned blocks (`SiblingSwap`), by induction on the height (`treeNode_eq_iff`).
-/

namespace Noema.Audit

open Noema.Lib

variable {D : Type} (sha256 : Bytes → Bytes)

/-! ## The hashed byte strings -/

/-- The string `_hash_pair` passes to `_safe_hash`. -/
def pairBytes (left right : Bytes) : Bytes :=
  if left < right then left ++ right else right ++ left

theorem hashPair_eq (left right : Bytes) :
    hashPair sha256 left right = safeHash sha256 (pairBytes left right) := by
  unfold hashPair pairBytes
  split <;> rfl

/-- The strings hashed to build the row above `level`. -/
def rowInputs : List Bytes → List Bytes
  | a :: b :: rest => pairBytes a b :: rowInputs rest
  | _ => []

/-- The strings hashed while building the tree over the digests `hs`. -/
def buildInputs (hs : List Bytes) : List Bytes :=
  match buildLevels sha256 hs with
  | .ok levels => levels.dropLast.flatMap rowInputs
  | .error _ => []

/-- The strings hashed by the loop of `verify_inclusion_proof`. -/
def walkInputs : Bytes → List (Bytes × Bool) → List Bytes
  | _, [] => []
  | current, (s, isRight) :: path =>
    (if isRight then pairBytes s current else pairBytes current s) ::
      walkInputs (if isRight then hashPair sha256 s current else hashPair sha256 current s) path

/-- No two of the given strings collide. -/
def CollisionFree (inputs : List Bytes) : Prop :=
  ∀ x ∈ inputs, ∀ y ∈ inputs, safeHash sha256 x = safeHash sha256 y → x = y

instance (inputs : List Bytes) : Decidable (CollisionFree sha256 inputs) :=
  inferInstanceAs (Decidable (∀ x ∈ inputs, ∀ y ∈ inputs, _))

theorem CollisionFree.mono {sha256 : Bytes → Bytes} {xs ys : List Bytes}
    (h : CollisionFree sha256 ys) (hsub : ∀ x ∈ xs, x ∈ ys) : CollisionFree sha256 xs :=
  fun x hx y hy => h x (hsub x hx) y (hsub y hy)

/-- Inputs whose digests differ in what `key` reads of them do not collide. -/
theorem collisionFree_of_nodup {sha256 : Bytes → Bytes} {α : Type} {inputs : List Bytes}
    (key : Bytes → α) (h : (inputs.map fun x => key (safeHash sha256 x)).Nodup) :
    CollisionFree sha256 inputs :=
  fun _ hx _ hy heq => List.inj_on_of_nodup_map h hx hy (congrArg key heq)

/-- A byte string in the range of the hash. -/
def IsDigest (b : Bytes) : Prop := ∃ x, b = safeHash sha256 x

variable {sha256}

theorem isDigest_hashPair (a b : Bytes) : IsDigest sha256 (hashPair sha256 a b) :=
  ⟨_, hashPair_eq sha256 a b⟩

theorem IsDigest.length_eq (hlen : ∀ x, (sha256 x).length = 32) {b : Bytes}
    (h : IsDigest sha256 b) : b.length = 32 := by
  obtain ⟨x, rfl⟩ := h
  exact hlen _

theorem rowInputs_row (leaf : Nat → Bytes) {k n j : Nat} (hj : j < n) :
    pairBytes (PerfectTree.node (hashPair sha256) leaf k (2 * j))
      (PerfectTree.node (hashPair sha256) leaf k (2 * j + 1))
        ∈ rowInputs (row sha256 leaf k (2 * n)) := by
  have key : ∀ m s, s ≤ j → j < s + m →
      pairBytes (PerfectTree.node (hashPair sha256) leaf k (2 * j))
        (PerfectTree.node (hashPair sha256) leaf k (2 * j + 1))
          ∈ rowInputs ((List.range' (2 * s) (2 * m)).map
            (PerfectTree.node (hashPair sha256) leaf k)) := by
    intro m
    induction m with
    | zero => omega
    | succ m ih =>
      intro s hs hsm
      have h2 : 2 * (m + 1) = 2 * m + 1 + 1 := by omega
      have hnext : 2 * s + 1 + 1 = 2 * (s + 1) := by omega
      rw [h2, List.range'_succ, List.range'_succ, hnext, List.map_cons, List.map_cons, rowInputs]
      rcases Nat.eq_or_lt_of_le hs with rfl | hlt
      · exact List.mem_cons_self
      · exact List.mem_cons_of_mem _ (ih (s + 1) hlt (by omega))
  have h := key n 0 (Nat.zero_le _) (by omega)
  rw [Nat.mul_zero, ← List.range_eq_range'] at h
  exact h

/-- The children of every inner node were hashed together while building. -/
theorem mem_buildInputs {hs : List Bytes} (hne : hs ≠ []) {k j : Nat} (hk : k < depth hs.length)
    (hj : j < 2 ^ (depth hs.length - (k + 1))) :
    pairBytes (treeNode sha256 hs k (2 * j)) (treeNode sha256 hs k (2 * j + 1))
      ∈ buildInputs sha256 hs := by
  rw [buildInputs, buildLevels_eq sha256 hne]
  dsimp only
  rw [List.range_succ, List.map_append, List.map_singleton, List.dropLast_concat,
    List.mem_flatMap]
  refine ⟨_, List.mem_map.mpr ⟨k, List.mem_range.mpr hk, rfl⟩, ?_⟩
  have hpow : 2 ^ (depth hs.length - k) = 2 * 2 ^ (depth hs.length - (k + 1)) := by
    rw [← pow_succ', show depth hs.length - (k + 1) + 1 = depth hs.length - k by omega]
  rw [hpow]
  exact rowInputs_row _ hj

/-! ## Ordered pairs of digests -/

theorem pairBytes_comm (a b : Bytes) : pairBytes a b = pairBytes b a := by
  unfold pairBytes
  by_cases hab : a < b
  · rw [if_pos hab, if_neg (List.lt_asymm hab)]
  · by_cases hba : b < a
    · rw [if_neg hab, if_pos hba]
    · rw [List.le_antisymm (List.not_lt.mp hba) (List.not_lt.mp hab)]

theorem pairBytes_cases (a b : Bytes) : pairBytes a b = a ++ b ∨ pairBytes a b = b ++ a := by
  unfold pairBytes
  split
  · exact .inl rfl
  · exact .inr rfl

theorem length_pairBytes (a b : Bytes) : (pairBytes a b).length = a.length + b.length := by
  rcases pairBytes_cases a b with h | h <;> rw [h, List.length_append]
  omega

/-- An ordered pair determines its two operands up to order, once the operands
have equal lengths. -/
theorem pairBytes_eq_iff {a b c d : Bytes} (hab : a.length = b.length)
    (hac : a.length = c.length) (hcd : c.length = d.length) :
    pairBytes a b = pairBytes c d ↔ (a = c ∧ b = d) ∨ (a = d ∧ b = c) := by
  constructor
  · intro h
    rcases pairBytes_cases a b with h₁ | h₁ <;> rcases pairBytes_cases c d with h₂ | h₂ <;>
      rw [h₁, h₂] at h
    · exact .inl (List.append_inj h hac)
    · exact .inr (List.append_inj h (by omega))
    · exact .inr (List.append_inj h (by omega)).symm
    · exact .inl (List.append_inj h (by omega)).symm
  · rintro (⟨rfl, rfl⟩ | ⟨rfl, rfl⟩)
    · rfl
    · exact pairBytes_comm a b

/-! ## Inclusion proofs -/

/-- The digests of the leaf data `ds`. -/
def leafHashes (sha256 : Bytes → Bytes) (serialize : D → Bytes) (ds : List D) : List Bytes :=
  ds.map fun d => safeHash sha256 (serialize d)

/-- Everything hashed while building the tree over `ds` and checking `p` for `d`. -/
def inclusionInputs (sha256 : Bytes → Bytes) (serialize : D → Bytes) (ds : List D)
    (p : InclusionProof) (d : D) : List Bytes :=
  ds.map serialize ++ buildInputs sha256 (leafHashes sha256 serialize ds) ++
    serialize d :: walkInputs sha256 (safeHash sha256 (serialize d)) p.path

/-- `s` is a 32-byte string or one of the siblings of `p`. -/
def Pairable (p : InclusionProof) (s : Bytes) : Prop :=
  s.length = 32 ∨ s ∈ p.path.map Prod.fst

/-- No serialized datum is a digest joined, on either side, to a 32-byte string
or to a sibling of `p`. -/
def SeparatesLeaves (sha256 : Bytes → Bytes) (serialize : D → Bytes) (p : InclusionProof) : Prop :=
  ∀ d s c, IsDigest sha256 c → Pairable p s → serialize d ≠ s ++ c ∧ serialize d ≠ c ++ s

theorem walkPath_eq_climb (current : Bytes) (path : List (Bytes × Bool)) :
    walkPath sha256 current path = PerfectTree.climb (hashPair sha256) current path := by
  induction path generalizing current with
  | nil => rfl
  | cons e path ih => exact ih _

/-- A step hashes the ordered pair of its operands, whatever its direction. -/
theorem stepUp_eq (current s : Bytes) (isRight : Bool) :
    PerfectTree.stepUp (hashPair sha256) current s isRight
      = safeHash sha256 (pairBytes s current) := by
  unfold PerfectTree.stepUp
  cases isRight with
  | true => exact hashPair_eq sha256 s current
  | false =>
    rw [pairBytes_comm s current]
    exact hashPair_eq sha256 current s

/-- Every step of the walk hashes one of `walkInputs`. -/
theorem mem_walkInputs {current s : Bytes} {isRight : Bool} {pre path : List (Bytes × Bool)}
    (hpre : pre ++ [(s, isRight)] <+: path) :
    pairBytes s (PerfectTree.climb (hashPair sha256) current pre)
      ∈ walkInputs sha256 current path := by
  obtain ⟨rest, rfl⟩ := hpre
  induction pre generalizing current with
  | nil =>
    refine List.mem_cons.mpr (.inl ?_)
    cases isRight with
    | true => rfl
    | false => exact pairBytes_comm s current
  | cons e pre ih =>
    obtain ⟨s', r'⟩ := e
    exact List.mem_cons_of_mem _ ih

theorem isDigest_climb {current : Bytes} (hc : IsDigest sha256 current)
    (path : List (Bytes × Bool)) :
    IsDigest sha256 (PerfectTree.climb (hashPair sha256) current path) := by
  induction path generalizing current with
  | nil => exact hc
  | cons e path ih =>
    obtain ⟨s, isRight⟩ := e
    exact ih ⟨_, stepUp_eq current s isRight⟩

/-- Leaves of the padded sequence are elements of the list. -/
theorem paddedLeaf_mem {hs : List Bytes} (hne : hs ≠ []) (i : Nat) : paddedLeaf hs i ∈ hs := by
  by_cases hi : i < hs.length
  · rw [paddedLeaf_of_lt hi]
    exact List.getElem_mem hi
  · rw [paddedLeaf_of_ge (Nat.le_of_not_lt hi), List.getLastD_eq_getLast?,
      List.getLast?_eq_some_getLast hne]
    exact List.getLast_mem hne

theorem treeNode_isDigest {hs : List Bytes} (hne : hs ≠ []) (hdig : ∀ h ∈ hs, IsDigest sha256 h)
    (k j : Nat) : IsDigest sha256 (treeNode sha256 hs k j) := by
  cases k with
  | zero => exact hdig _ (paddedLeaf_mem hne j)
  | succ k => exact isDigest_hashPair _ _

/-- The authentication path of leaf `i` is accepted for any datum with that
digest. -/
theorem verify_leafPath (serialize : D → Bytes) {hs : List Bytes} {i : Nat} (hi : i < hs.length)
    {d : D} (hd : hs[i] = safeHash sha256 (serialize d)) (blockIndex : Int) :
    verifyInclusionProof sha256 serialize
      ⟨safeHash sha256 (serialize d), leafPath sha256 hs i, rootOf sha256 hs, blockIndex⟩ d = true := by
  have hne : hs ≠ [] := List.ne_nil_of_length_pos (by omega)
  have hleaf : safeHash sha256 (serialize d) = treeNode sha256 hs 0 i := by
    show _ = paddedLeaf hs i
    rw [paddedLeaf_of_lt hi, hd]
  have hroot : i / 2 ^ depth hs.length = 0 :=
    Nat.div_eq_of_lt (Nat.lt_of_lt_of_le hi (le_two_pow_depth _))
  have hclimb := PerfectTree.climb_authPath (hashPair sha256) (paddedLeaf hs) 0 (depth hs.length) i
  rw [hroot, Nat.zero_add] at hclimb
  rw [verifyInclusionProof, if_neg (fun h => h rfl), decide_eq_true_iff, walkPath_eq_climb,
    rootOf_of_ne_nil sha256 hne, hleaf]
  exact hclimb

/-- **Completeness**: the proof generated for a leaf is accepted for its datum. -/
theorem verify_generated (serialize : D → Bytes) {ds : List D} {i : Nat} (hi : i < ds.length) :
    ∃ p, generateInclusionProof sha256 serialize ds[i] i (leafHashes sha256 serialize ds) = .ok p ∧
      verifyInclusionProof sha256 serialize p ds[i] = true := by
  have hlen : i < (leafHashes sha256 serialize ds).length := by simpa [leafHashes] using hi
  exact ⟨_, generateInclusionProof_eq sha256 serialize ds[i] hlen,
    verify_leafPath serialize hlen (by simp [leafHashes]) i⟩

section Soundness

variable {serialize : D → Bytes} {ds : List D} {p : InclusionProof} {d : D}
  (hlen : ∀ x, (sha256 x).length = 32)
  (hcol : CollisionFree sha256 (inclusionInputs sha256 serialize ds p d))
  (hsep : SeparatesLeaves sha256 serialize p)

theorem leafHashes_isDigest (sha256 : Bytes → Bytes) (serialize : D → Bytes) (ds : List D) :
    ∀ h ∈ leafHashes sha256 serialize ds, IsDigest sha256 h := by
  intro h hmem
  obtain ⟨d', -, rfl⟩ := List.mem_map.mp hmem
  exact ⟨_, rfl⟩

theorem serialize_ne_pairBytes (hsep : SeparatesLeaves sha256 serialize p) (d : D) {s c : Bytes}
    (hc : IsDigest sha256 c) (hs : Pairable p s) : serialize d ≠ pairBytes s c := by
  intro h
  rcases pairBytes_cases s c with hp | hp
  · exact (hsep d s c hc hs).1 (h.trans hp)
  · exact (hsep d s c hc hs).2 (h.trans hp)

theorem pairBytes_mem_inclusionInputs (hne : ds ≠ []) {k j : Nat}
    (hk : k < depth (leafHashes sha256 serialize ds).length)
    (hj : j < 2 ^ (depth (leafHashes sha256 serialize ds).length - (k + 1))) :
    pairBytes (treeNode sha256 (leafHashes sha256 serialize ds) k (2 * j))
      (treeNode sha256 (leafHashes sha256 serialize ds) k (2 * j + 1))
        ∈ inclusionInputs sha256 serialize ds p d :=
  List.mem_append_left _ (List.mem_append_right _
    (mem_buildInputs (by simpa [leafHashes] using hne) hk hj))

include hlen hcol hsep in
/-- The datum of an accepted proof is not an inner node: its serialization would
be two digests. -/
theorem leaf_ne_innerNode (hne : ds ≠ []) (k j : Nat)
    (hk : k < depth (leafHashes sha256 serialize ds).length)
    (hj : j < 2 ^ (depth (leafHashes sha256 serialize ds).length - (k + 1))) :
    safeHash sha256 (serialize d)
      ≠ treeNode sha256 (leafHashes sha256 serialize ds) (k + 1) j := by
  intro h
  have hnode := treeNode_isDigest (by simpa [leafHashes] using hne)
    (leafHashes_isDigest sha256 serialize ds)
  have hser := hcol _ (List.mem_append_right _ List.mem_cons_self) _
    (pairBytes_mem_inclusionInputs hne hk hj) (h.trans (hashPair_eq sha256 _ _))
  exact serialize_ne_pairBytes hsep d (hnode k (2 * j + 1))
    (.inl ((hnode k (2 * j)).length_eq hlen)) hser

include hcol hsep in
/-- No step of the walk ends at a leaf: some serialized datum would be a digest
joined to a sibling. -/
theorem step_ne_leaf {pre : List (Bytes × Bool)} {s : Bytes} {isRight : Bool}
    (hpre : pre ++ [(s, isRight)] <+: p.path) {h : Bytes}
    (hmem : h ∈ leafHashes sha256 serialize ds) :
    PerfectTree.stepUp (hashPair sha256)
      (PerfectTree.climb (hashPair sha256) (safeHash sha256 (serialize d)) pre) s isRight ≠ h := by
  rintro rfl
  obtain ⟨d', hd', heq⟩ := List.mem_map.mp hmem
  rw [stepUp_eq] at heq
  have hs : s ∈ p.path.map Prod.fst :=
    List.mem_map.mpr ⟨(s, isRight), hpre.subset (by simp), rfl⟩
  have hser := hcol _ (List.mem_append_left _ (List.mem_append_left _ (List.mem_map_of_mem hd'))) _
    (List.mem_append_right _ (List.mem_cons_of_mem _ (mem_walkInputs hpre))) heq
  exact serialize_ne_pairBytes hsep d' (isDigest_climb ⟨_, rfl⟩ pre) (.inr hs) hser

include hlen hcol in
/-- A step of the walk that ends at an inner node came from one of its children. -/
theorem step_from_child (hne : ds ≠ []) {pre : List (Bytes × Bool)} {s : Bytes} {isRight : Bool}
    (hpre : pre ++ [(s, isRight)] <+: p.path) {k j : Nat}
    (hk : k < depth (leafHashes sha256 serialize ds).length)
    (hj : j < 2 ^ (depth (leafHashes sha256 serialize ds).length - (k + 1)))
    (hstep : PerfectTree.stepUp (hashPair sha256)
      (PerfectTree.climb (hashPair sha256) (safeHash sha256 (serialize d)) pre) s isRight
        = treeNode sha256 (leafHashes sha256 serialize ds) (k + 1) j) :
    PerfectTree.climb (hashPair sha256) (safeHash sha256 (serialize d)) pre
        = treeNode sha256 (leafHashes sha256 serialize ds) k (2 * j) ∨
      PerfectTree.climb (hashPair sha256) (safeHash sha256 (serialize d)) pre
        = treeNode sha256 (leafHashes sha256 serialize ds) k (2 * j + 1) := by
  generalize hcur : PerfectTree.climb (hashPair sha256) (safeHash sha256 (serialize d)) pre
    = current at *
  have hnode := treeNode_isDigest (by simpa [leafHashes] using hne)
    (leafHashes_isDigest sha256 serialize ds)
  have hl := (hnode k (2 * j)).length_eq hlen
  have hr := (hnode k (2 * j + 1)).length_eq hlen
  have hc : current.length = 32 := by
    rw [← hcur]
    exact (isDigest_climb ⟨_, rfl⟩ pre).length_eq hlen
  -- the walk and the tree hash pairs, and neither has a collision, so the pairs agree
  have hin : pairBytes s current ∈ inclusionInputs sha256 serialize ds p d := by
    rw [← hcur]
    exact List.mem_append_right _ (List.mem_cons_of_mem _ (mem_walkInputs hpre))
  rw [stepUp_eq] at hstep
  have hpair := hcol _ hin _ (pairBytes_mem_inclusionInputs hne hk hj)
    (hstep.trans (hashPair_eq sha256 _ _))
  have hs : s.length = 32 := by
    have htotal := congrArg List.length hpair
    rw [length_pairBytes, length_pairBytes] at htotal
    omega
  -- `hash_pair` sorts the two, so the child may be either
  rcases (pairBytes_eq_iff (by omega) (by omega) (by omega)).mp hpair with ⟨-, h⟩ | ⟨-, h⟩
  · exact .inr h
  · exact .inl h

end Soundness

/-- **Inclusion proofs are complete and sound.** For every non-empty list of leaf
data: (a) the proof generated at an index is accepted for the datum there;
(b) any accepted proof against the root, with any path, is about a datum whose
digest is in the list, provided that the hash has no collision among the strings
hashed and that no serialized datum is a digest joined to a 32-byte string or to
a sibling of the proof. -/
theorem inclusionProofs_complete_and_sound (sha256 : Bytes → Bytes) (serialize : D → Bytes)
    (hlen : ∀ x, (sha256 x).length = 32) (ds : List D) (hne : ds ≠ []) :
    (∀ (i : Nat) (hi : i < ds.length), ∃ p,
      generateInclusionProof sha256 serialize ds[i] i (leafHashes sha256 serialize ds) = .ok p ∧
        verifyInclusionProof sha256 serialize p ds[i] = true) ∧
    (∀ (p : InclusionProof) (d : D),
      computeRoot sha256 (leafHashes sha256 serialize ds) = .ok p.rootHash →
      CollisionFree sha256 (inclusionInputs sha256 serialize ds p d) →
      SeparatesLeaves sha256 serialize p →
      verifyInclusionProof sha256 serialize p d = true →
        safeHash sha256 (serialize d) ∈ leafHashes sha256 serialize ds) := by
  refine ⟨fun i hi => verify_generated serialize hi, fun p d hroot hcol hsep hver => ?_⟩
  have hhs : leafHashes sha256 serialize ds ≠ [] := by simpa [leafHashes] using hne
  rw [computeRoot_eq, rootOf_of_ne_nil sha256 hhs, Except.ok.injEq] at hroot
  have hwalk : walkPath sha256 (safeHash sha256 (serialize d)) p.path = p.rootHash := by
    unfold verifyInclusionProof at hver
    by_cases hleaf : safeHash sha256 (serialize d) = p.leafHash
    · simpa [hleaf] using hver
    · simp [hleaf] at hver
  rw [walkPath_eq_climb, ← hroot] at hwalk
  -- a walk that ends at the root comes down to a leaf, unless a pair was hashed to a leaf
  obtain ⟨i, hi⟩ := PerfectTree.climb_descends (hashPair sha256) _
    (leaf_ne_innerNode hlen hcol hsep hne)
    (fun pre s isRight hpre j => step_ne_leaf hcol hsep hpre (paddedLeaf_mem hhs j))
    (fun pre s isRight hpre k j => step_from_child hlen hcol hne hpre)
    (Nat.le_refl _) (Nat.two_pow_pos _) hwalk
  rw [hi]
  exact paddedLeaf_mem hhs i

section Instances

open Noema.Utils PyJson

/-- JSON booleans as leaf data. -/
def boolBytes (b : Bool) : Bytes := serializeToBytes (.bool b : PyVal FloatText)

/-- The proof for the first of the two leaves `true`, `false`. -/
def boolProof : InclusionProof :=
  ⟨safeHash Sha256.digest (boolBytes true), [(safeHash Sha256.digest (boolBytes false), false)],
    hashPair Sha256.digest (safeHash Sha256.digest (boolBytes true)) (safeHash Sha256.digest (boolBytes false)), 0⟩

theorem boolBytes_separates : SeparatesLeaves Sha256.digest boolBytes boolProof := by
  intro b s c hc _
  have hb : (boolBytes b).length < 32 := by
    revert b
    decide +kernel
  have hlen := hc.length_eq Sha256.length_digest
  constructor <;> intro h <;> have := congrArg List.length h <;>
    rw [List.length_append] at this <;> omega

/-- The theorem at work on the tree over two JSON booleans. -/
theorem inclusionProofs_sound_bools :
    computeRoot Sha256.digest (leafHashes Sha256.digest boolBytes [true, false]) = .ok boolProof.rootHash ∧
      CollisionFree Sha256.digest (inclusionInputs Sha256.digest boolBytes [true, false] boolProof true) ∧
      verifyInclusionProof Sha256.digest boolBytes boolProof true = true ∧
      safeHash Sha256.digest (boolBytes true) ∈ leafHashes Sha256.digest boolBytes [true, false] := by
  have hroot : computeRoot Sha256.digest (leafHashes Sha256.digest boolBytes [true, false])
      = .ok boolProof.rootHash := by
    rw [Sha256.digest_eq_fastDigest]
    decide +kernel
  have hcol : CollisionFree Sha256.digest (inclusionInputs Sha256.digest boolBytes [true, false] boolProof true) := by
    rw [Sha256.digest_eq_fastDigest]
    decide +kernel
  have hver : verifyInclusionProof Sha256.digest boolBytes boolProof true = true := by
    rw [Sha256.digest_eq_fastDigest]
    decide +kernel
  exact ⟨hroot, hcol, hver, (inclusionProofs_complete_and_sound Sha256.digest boolBytes Sha256.length_digest
    [true, false] (by simp)).2 boolProof true hroot hcol boolBytes_separates hver⟩

/-! Excluding only 64-byte data does not make accepted proofs sound: the verifier
never checks that a sibling has 32 bytes, so a longer datum that ends in a digest
can be passed off as an inner node. -/

/-- No serialized datum is a 64-byte string one half of which is a digest. -/
def NoDigestHalf {D : Type} (sha256 : Bytes → Bytes) (serialize : D → Bytes) : Prop :=
  ∀ d x y, serialize d = x ++ y → x.length = 32 → y.length = 32 →
    ¬ IsDigest sha256 x ∧ ¬ IsDigest sha256 y

/-- A dict of dicts, `n` deep around the innermost empty one. -/
def nestedDict : Nat → PyVal FloatText
  | 0 => .dict []
  | n + 1 => .dict [("", nestedDict n)]

/-- Thirty-two closing braces. -/
def braces : Bytes := List.replicate 32 0x7d

/-- A hash that maps the datum `null` to `braces`. -/
def braceHash (x : Bytes) : Bytes :=
  if x = domainSeparator ++ serializeToBytes (.none : PyVal FloatText) then braces else zeroDigest

/-- A path whose one sibling is the text of `nestedDict 31` up to its braces. -/
def braceProof : InclusionProof :=
  ⟨braces, [((serializeToBytes (nestedDict 31)).take 156, true)], zeroDigest, 0⟩

theorem isDigest_braceHash {b : Bytes} (h : IsDigest braceHash b) : b = braces ∨ b = zeroDigest := by
  obtain ⟨x, rfl⟩ := h
  unfold safeHash braceHash
  split
  · exact .inl rfl
  · exact .inr rfl

/-- A serialized datum that ends in the 32 braces is longer than 64 bytes. -/
theorem braces_suffix_length (v : PyVal FloatText) {x : Bytes}
    (h : serializeToBytes v = x ++ braces) : 188 ≤ (serializeToBytes v).length := by
  have hlen : (serializeToBytes v).length = (dumps true v.sortKeys).length := by
    rw [serializeToBytes_eq_map, List.length_map]
  rw [serializeToBytes_eq_map] at h
  obtain ⟨pre, suf, htext, -, hsuf⟩ := List.map_eq_append_iff.mp h
  have hbrace : suf = List.replicate 32 '\x7d' := by
    refine List.eq_replicate_iff.mpr ⟨by simpa [braces] using congrArg List.length hsuf, ?_⟩
    intro c hc
    have hascii := (dumps_textChar true v.sortKeys c (htext ▸ List.mem_append_right _ hc)).2 rfl
    have hbyte : UInt8.ofNat c.toNat ∈ braces := hsuf ▸ List.mem_map_of_mem hc
    have heq := congrArg UInt8.toNat (List.eq_of_mem_replicate hbyte)
    rw [UInt8.toNat_ofNat', Nat.mod_eq_of_lt (by omega)] at heq
    rw [← Char.ofNat_toNat c, heq]
    rfl
  have hrun : 32 ≤ braceRun (dumps true v.sortKeys) := by
    have hall : ∀ c ∈ List.replicate 32 '\x7d', decide (c = '\x7d') = true :=
      fun c hc => decide_eq_true (List.eq_of_mem_replicate hc)
    rw [htext, hbrace, braceRun, List.reverse_append, List.reverse_replicate,
      List.takeWhile_append_of_pos hall, List.length_append, List.length_replicate]
    exact Nat.le_add_right _ _
  have := braceRun_dumps true v.sortKeys
  omega

theorem braceHash_noDigestHalf :
    NoDigestHalf braceHash (serializeToBytes : PyVal FloatText → Bytes) := by
  intro v x y h hx hy
  have hzero : ∀ z : Bytes, z <+: serializeToBytes v ∨ z <:+ serializeToBytes v → z ≠ zeroDigest := by
    rintro z hz rfl
    have hmem : (0 : UInt8) ∈ serializeToBytes v := by
      have h0 : (0 : UInt8) ∈ zeroDigest := by decide
      rcases hz with hz | hz <;> exact hz.subset h0
    exact absurd (serializeToBytes_printable v 0 hmem).1 (by decide)
  -- A digest of this hash is the braces or zeros. No text starts with a brace that closes, and one
  -- that ends in 32 of them is too long; there are no zeros in a text.
  constructor
  · intro hdig
    rcases isDigest_braceHash hdig with rfl | rfl
    · obtain ⟨c, cs, htext, hc⟩ := startsValue_dumps true v.sortKeys
      have hascii := (dumps_textChar true v.sortKeys c (by simp [htext])).2 rfl
      rw [serializeToBytes_eq_map, htext] at h
      have heq := congrArg UInt8.toNat (List.cons.inj h).1
      rw [UInt8.toNat_ofNat', Nat.mod_eq_of_lt (by omega)] at heq
      refine hc ?_
      rw [← Char.ofNat_toNat c, heq]
      decide
    · exact hzero _ (.inl ⟨y, h.symm⟩) rfl
  · intro hdig
    rcases isDigest_braceHash hdig with rfl | rfl
    · have hlong := braces_suffix_length v h
      rw [h, List.length_append] at hlong
      omega
    · exact hzero _ (.inr ⟨x, h.symm⟩) rfl

/-- The one leaf is `nestedDict 31`; a proof with a 156-byte sibling is accepted
for `null`, whose digest is not in the tree. -/
theorem inclusionProofs_unsound_long_sibling :
    (∀ x, (braceHash x).length = 32) ∧
      NoDigestHalf braceHash (serializeToBytes : PyVal FloatText → Bytes) ∧
      computeRoot braceHash (leafHashes braceHash serializeToBytes [nestedDict 31])
        = .ok braceProof.rootHash ∧
      CollisionFree braceHash
        (inclusionInputs braceHash serializeToBytes [nestedDict 31] braceProof .none) ∧
      verifyInclusionProof braceHash serializeToBytes braceProof (.none : PyVal FloatText) = true ∧
      safeHash braceHash (serializeToBytes (.none : PyVal FloatText))
        ∉ leafHashes braceHash serializeToBytes [nestedDict 31] := by
  refine ⟨fun x => ?_, braceHash_noDigestHalf, ?_, ?_, ?_, ?_⟩
  · unfold braceHash
    split <;> rfl
  all_goals decide +kernel

end Instances

/-! ## Binding -/

/-- `ys` is `xs` up to exchanging the two halves of aligned blocks of `2 ^ n`,
`2 ^ (n - 1)`, …, `2` elements. -/
def SiblingSwap {α : Type} : Nat → List α → List α → Prop
  | 0, xs, ys => xs = ys
  | n + 1, xs, ys =>
    (SiblingSwap n (xs.take (2 ^ n)) (ys.take (2 ^ n)) ∧
      SiblingSwap n (xs.drop (2 ^ n)) (ys.drop (2 ^ n))) ∨
    (SiblingSwap n (xs.take (2 ^ n)) (ys.drop (2 ^ n)) ∧
      SiblingSwap n (xs.drop (2 ^ n)) (ys.take (2 ^ n)))

/-- `SiblingSwap` is decided by trying both orders at every block. -/
def decSiblingSwap {α : Type} [DecidableEq α] :
    (n : Nat) → (xs ys : List α) → Decidable (SiblingSwap n xs ys)
  | 0, xs, ys => inferInstanceAs (Decidable (xs = ys))
  | n + 1, xs, ys =>
    have := decSiblingSwap n (xs.take (2 ^ n)) (ys.take (2 ^ n))
    have := decSiblingSwap n (xs.drop (2 ^ n)) (ys.drop (2 ^ n))
    have := decSiblingSwap n (xs.take (2 ^ n)) (ys.drop (2 ^ n))
    have := decSiblingSwap n (xs.drop (2 ^ n)) (ys.take (2 ^ n))
    inferInstanceAs (Decidable ((_ ∧ _) ∨ (_ ∧ _)))

instance {α : Type} [DecidableEq α] (n : Nat) (xs ys : List α) :
    Decidable (SiblingSwap n xs ys) := decSiblingSwap n xs ys

/-- Swapping siblings only permutes. -/
theorem SiblingSwap.perm {α : Type} {n : Nat} {xs ys : List α} (h : SiblingSwap n xs ys) :
    xs.Perm ys := by
  induction n generalizing xs ys with
  | zero =>
    cases h
    exact List.Perm.refl _
  | succ n ih =>
    have hx := List.take_append_drop (2 ^ n) xs
    have hy := List.take_append_drop (2 ^ n) ys
    rcases h with ⟨hl, hr⟩ | ⟨hl, hr⟩
    · rw [← hx, ← hy]
      exact (ih hl).append (ih hr)
    · rw [← hx, ← hy]
      exact ((ih hl).append (ih hr)).trans List.perm_append_comm

/-- The `2 ^ n` nodes of height `k` below the node of height `k + n` at `j`. -/
def segment (sha256 : Bytes → Bytes) (hs : List Bytes) (k n j : Nat) : List Bytes :=
  (List.range (2 ^ n)).map fun i => treeNode sha256 hs k (j * 2 ^ n + i)

theorem segment_succ (sha256 : Bytes → Bytes) (hs : List Bytes) (k n j : Nat) :
    segment sha256 hs k (n + 1) j
      = segment sha256 hs k n (2 * j) ++ segment sha256 hs k n (2 * j + 1) := by
  unfold segment
  rw [pow_succ, Nat.mul_two, List.range_add, List.map_append, List.map_map]
  refine congrArg₂ _ (List.map_congr_left fun i _ => ?_) (List.map_congr_left fun i _ => ?_)
  · rw [show j * (2 ^ n + 2 ^ n) + i = 2 * j * 2 ^ n + i by ring]
  · show treeNode sha256 hs k _ = _
    rw [show j * (2 ^ n + 2 ^ n) + (2 ^ n + i) = (2 * j + 1) * 2 ^ n + i by ring]

theorem siblingSwap_segments (sha256 : Bytes → Bytes) (hs hs' : List Bytes) (k k' n j j' : Nat) :
    SiblingSwap (n + 1) (segment sha256 hs k (n + 1) j) (segment sha256 hs' k' (n + 1) j') ↔
      (SiblingSwap n (segment sha256 hs k n (2 * j)) (segment sha256 hs' k' n (2 * j')) ∧
        SiblingSwap n (segment sha256 hs k n (2 * j + 1)) (segment sha256 hs' k' n (2 * j' + 1))) ∨
      (SiblingSwap n (segment sha256 hs k n (2 * j)) (segment sha256 hs' k' n (2 * j' + 1)) ∧
        SiblingSwap n (segment sha256 hs k n (2 * j + 1)) (segment sha256 hs' k' n (2 * j'))) := by
  have hlen : ∀ hs k j, (segment sha256 hs k n j).length = 2 ^ n := by simp [segment]
  rw [segment_succ, segment_succ, SiblingSwap, List.take_left' (hlen _ _ _),
    List.take_left' (hlen _ _ _), List.drop_left' (hlen _ _ _), List.drop_left' (hlen _ _ _)]

theorem treeNode_length {hs : List Bytes} (hlen : ∀ x, (sha256 x).length = 32) (hne : hs ≠ [])
    (h32 : ∀ h ∈ hs, h.length = 32) (k j : Nat) : (treeNode sha256 hs k j).length = 32 := by
  cases k with
  | zero => exact h32 _ (paddedLeaf_mem hne j)
  | succ k => exact (isDigest_hashPair _ _).length_eq hlen

/-- Two inner nodes agree iff their children agree, in one order or the other. -/
theorem treeNode_succ_eq_iff {hs hs' : List Bytes} (hlen : ∀ x, (sha256 x).length = 32)
    (hne : hs ≠ []) (hne' : hs' ≠ []) (h32 : ∀ h ∈ hs, h.length = 32)
    (h32' : ∀ h ∈ hs', h.length = 32)
    (hcol : CollisionFree sha256 (buildInputs sha256 hs ++ buildInputs sha256 hs'))
    {k k' j j' : Nat} (hk : k < depth hs.length) (hj : j < 2 ^ (depth hs.length - (k + 1)))
    (hk' : k' < depth hs'.length) (hj' : j' < 2 ^ (depth hs'.length - (k' + 1))) :
    treeNode sha256 hs (k + 1) j = treeNode sha256 hs' (k' + 1) j' ↔
      (treeNode sha256 hs k (2 * j) = treeNode sha256 hs' k' (2 * j') ∧
        treeNode sha256 hs k (2 * j + 1) = treeNode sha256 hs' k' (2 * j' + 1)) ∨
      (treeNode sha256 hs k (2 * j) = treeNode sha256 hs' k' (2 * j' + 1) ∧
        treeNode sha256 hs k (2 * j + 1) = treeNode sha256 hs' k' (2 * j')) := by
  have hl := treeNode_length hlen hne h32
  have hl' := treeNode_length hlen hne' h32'
  rw [← pairBytes_eq_iff (by rw [hl, hl]) (by rw [hl, hl']) (by rw [hl', hl'])]
  show hashPair sha256 _ _ = hashPair sha256 _ _ ↔ _
  rw [hashPair_eq, hashPair_eq]
  constructor
  · exact hcol _ (List.mem_append_left _ (mem_buildInputs hne hk hj)) _
      (List.mem_append_right _ (mem_buildInputs hne' hk' hj'))
  · exact congrArg (safeHash sha256)

/-- Nodes `n` levels above two rows agree iff the rows below them agree up to
swaps of siblings. -/
theorem treeNode_eq_iff {hs hs' : List Bytes} (hlen : ∀ x, (sha256 x).length = 32)
    (hne : hs ≠ []) (hne' : hs' ≠ []) (h32 : ∀ h ∈ hs, h.length = 32)
    (h32' : ∀ h ∈ hs', h.length = 32)
    (hcol : CollisionFree sha256 (buildInputs sha256 hs ++ buildInputs sha256 hs'))
    (n : Nat) {k k' j j' : Nat} (hk : k + n ≤ depth hs.length)
    (hj : j < 2 ^ (depth hs.length - (k + n))) (hk' : k' + n ≤ depth hs'.length)
    (hj' : j' < 2 ^ (depth hs'.length - (k' + n))) :
    treeNode sha256 hs (k + n) j = treeNode sha256 hs' (k' + n) j' ↔
      SiblingSwap n (segment sha256 hs k n j) (segment sha256 hs' k' n j') := by
  induction n generalizing j j' with
  | zero => simp [SiblingSwap, segment]
  | succ n ih =>
    -- two children on each side, so four comparisons one level below
    have hpow : 2 ^ (depth hs.length - (k + n)) = 2 * 2 ^ (depth hs.length - (k + n + 1)) := by
      rw [← pow_succ', show depth hs.length - (k + n + 1) + 1 = depth hs.length - (k + n) by omega]
    have hpow' : 2 ^ (depth hs'.length - (k' + n)) = 2 * 2 ^ (depth hs'.length - (k' + n + 1)) := by
      rw [← pow_succ', show depth hs'.length - (k' + n + 1) + 1 = depth hs'.length - (k' + n) by
        omega]
    rw [← Nat.add_assoc] at hk hj hk' hj'
    have ih' : ∀ {a b : Nat}, a < 2 ^ (depth hs.length - (k + n)) →
        b < 2 ^ (depth hs'.length - (k' + n)) →
        (treeNode sha256 hs (k + n) a = treeNode sha256 hs' (k' + n) b ↔
          SiblingSwap n (segment sha256 hs k n a) (segment sha256 hs' k' n b)) :=
      fun ha hb => ih (by omega) ha (by omega) hb
    rw [← Nat.add_assoc, ← Nat.add_assoc,
      treeNode_succ_eq_iff hlen hne hne' h32 h32' hcol (by omega) hj (by omega) hj',
      siblingSwap_segments, ih' (by omega) (by omega), ih' (by omega) (by omega),
      ih' (by omega) (by omega), ih' (by omega) (by omega)]

/-- **What the root determines.** For two non-empty lists of 32-byte commitments,
the tree over `hs` no higher than the tree over `hs'`, and no collision among the
strings hashed for the two trees: the roots agree iff the padded list of `hs` is,
up to exchanging the two halves of aligned blocks, the row of the same width in
the tree over `hs'`. With trees of one height this row is the padded list of
`hs'`, and the two padded lists are permutations of each other. -/
theorem computeRoot_eq_iff_siblingSwap (sha256 : Bytes → Bytes)
    (hlen : ∀ x, (sha256 x).length = 32) (hs hs' : List Bytes) (hne : hs ≠ []) (hne' : hs' ≠ [])
    (h32 : ∀ h ∈ hs, h.length = 32) (h32' : ∀ h ∈ hs', h.length = 32)
    (hcol : CollisionFree sha256 (buildInputs sha256 hs ++ buildInputs sha256 hs'))
    (levels levels' : List (List Bytes)) (hlev : buildLevels sha256 hs = .ok levels)
    (hlev' : buildLevels sha256 hs' = .ok levels') (hle : levels.length ≤ levels'.length) :
    (computeRoot sha256 hs = computeRoot sha256 hs' ↔
      SiblingSwap (levels.length - 1) (levels.getD 0 [])
        (levels'.getD (levels'.length - levels.length) [])) ∧
    (levels.length = levels'.length → computeRoot sha256 hs = computeRoot sha256 hs' →
      (levels.getD 0 []).Perm (levels'.getD 0 [])) := by
  rw [buildLevels_eq sha256 hne, Except.ok.injEq] at hlev
  rw [buildLevels_eq sha256 hne', Except.ok.injEq] at hlev'
  have hl : levels.length = depth hs.length + 1 := by simp [← hlev]
  have hl' : levels'.length = depth hs'.length + 1 := by simp [← hlev']
  obtain ⟨e, he⟩ : ∃ e, depth hs'.length = e + depth hs.length :=
    ⟨depth hs'.length - depth hs.length, by omega⟩
  have hrow : levels.getD 0 [] = segment sha256 hs 0 (depth hs.length) 0 := by
    simp [← hlev, segment, row, treeNode]
  have hrow' : levels'.getD e [] = segment sha256 hs' e (depth hs.length) 0 := by
    have hlt : e < depth hs'.length + 1 := by omega
    have hw : depth hs'.length - e = depth hs.length := by omega
    simp [← hlev', segment, row, treeNode, List.getD_eq_getElem?_getD, hlt, hw]
  -- the root of the lower tree against the node of the higher one in the same row
  have hroot : treeNode sha256 hs (0 + depth hs.length) 0
      = treeNode sha256 hs' (e + depth hs.length) 0 ↔
        SiblingSwap (depth hs.length) (segment sha256 hs 0 (depth hs.length) 0)
          (segment sha256 hs' e (depth hs.length) 0) :=
    treeNode_eq_iff hlen hne hne' h32 h32' hcol (depth hs.length) (by omega) (Nat.two_pow_pos _)
      (by omega) (Nat.two_pow_pos _)
  have hiff : computeRoot sha256 hs = computeRoot sha256 hs' ↔
      SiblingSwap (levels.length - 1) (levels.getD 0 [])
        (levels'.getD (levels'.length - levels.length) []) := by
    rw [computeRoot_eq, computeRoot_eq, Except.ok.injEq, rootOf_of_ne_nil sha256 hne,
      rootOf_of_ne_nil sha256 hne', he, hl, hl', Nat.add_sub_cancel,
      show depth hs'.length + 1 - (depth hs.length + 1) = e by omega, hrow, hrow', ← hroot,
      Nat.zero_add]
  refine ⟨hiff, fun hsame heq => ?_⟩
  have hswap := hiff.mp heq
  rw [hsame, Nat.sub_self] at hswap
  exact hswap.perm

/-- Walking the authentication path of position `j` reaches the root only from the
node at `j`: the path commits to its starting point. -/
theorem climb_authPath_injective (hlen : ∀ x, (sha256 x).length = 32) {hs : List Bytes}
    (hne : hs ≠ []) (h32 : ∀ h ∈ hs, h.length = 32) {inputs : List Bytes}
    (hcol : CollisionFree sha256 inputs) (hbuild : ∀ b ∈ buildInputs sha256 hs, b ∈ inputs)
    (n : Nat) {k j : Nat} (hk : k + n = depth hs.length) (hj : j < 2 ^ n) {y : Bytes}
    (hy : y.length = 32)
    (hwalk : ∀ b ∈ walkInputs sha256 y
      (PerfectTree.authPath (hashPair sha256) (paddedLeaf hs) k n j), b ∈ inputs)
    (hclimb : PerfectTree.climb (hashPair sha256) y
      (PerfectTree.authPath (hashPair sha256) (paddedLeaf hs) k n j)
        = treeNode sha256 hs (depth hs.length) 0) :
    y = treeNode sha256 hs k j := by
  induction n generalizing k j y with
  | zero =>
    have hj0 : j = 0 := by simpa using hj
    have hk0 : k = depth hs.length := by omega
    subst hj0 hk0
    exact hclimb
  | succ n ih =>
    have hpow : 2 ^ (n + 1) = 2 * 2 ^ n := by rw [pow_succ, mul_comm]
    have hdepth : depth hs.length - (k + 1) = n := by omega
    have hl := treeNode_length hlen hne h32 k
    -- the step up from `y` ends at the parent of `j`
    have hstep : PerfectTree.stepUp (hashPair sha256) y
        (treeNode sha256 hs k (PerfectTree.sibling j)) (j % 2 != 0) = treeNode sha256 hs (k + 1) (j / 2) := by
      refine ih (by omega) (by omega) ?_ ?_ ?_
      · rw [stepUp_eq]
        exact hlen _
      · exact fun b hb => hwalk b (List.mem_cons_of_mem _ hb)
      · exact hclimb
    have hparent : treeNode sha256 hs (k + 1) (j / 2) = safeHash sha256
        (pairBytes (treeNode sha256 hs k (PerfectTree.sibling j)) (treeNode sha256 hs k j)) := by
      rw [← stepUp_eq _ _ (j % 2 != 0)]
      exact (PerfectTree.climb_step (hashPair sha256) (paddedLeaf hs) k j).symm
    have hchild : pairBytes (treeNode sha256 hs k (PerfectTree.sibling j)) (treeNode sha256 hs k j)
        ∈ inputs := by
      have hmem : pairBytes (treeNode sha256 hs k (2 * (j / 2)))
          (treeNode sha256 hs k (2 * (j / 2) + 1)) ∈ buildInputs sha256 hs :=
        mem_buildInputs hne (by omega) (by rw [hdepth]; omega)
      refine hbuild _ ?_
      rcases Nat.mod_two_eq_zero_or_one j with h | h
      · rw [show 2 * (j / 2) = j by omega] at hmem
        rwa [PerfectTree.sibling, if_pos h, pairBytes_comm]
      · rw [show 2 * (j / 2) = j - 1 by omega, show j - 1 + 1 = j by omega] at hmem
        rwa [PerfectTree.sibling, if_neg (by omega)]
    have hfirst : pairBytes (treeNode sha256 hs k (PerfectTree.sibling j)) y ∈ inputs := by
      have hprefix : [] ++ [(treeNode sha256 hs k (PerfectTree.sibling j), j % 2 != 0)] <+:
          PerfectTree.authPath (hashPair sha256) (paddedLeaf hs) k (n + 1) j :=
        ⟨PerfectTree.authPath (hashPair sha256) (paddedLeaf hs) (k + 1) n (j / 2), rfl⟩
      exact hwalk _ (mem_walkInputs hprefix)
    rw [stepUp_eq, hparent] at hstep
    have hpair := hcol _ hfirst _ hchild hstep
    rcases (pairBytes_eq_iff (by rw [hl, hy]) rfl (by rw [hl, hl])).mp hpair with ⟨-, h⟩ | ⟨h, h'⟩
    · exact h
    · rw [h', h]

section Instances

/-- A commitment. -/
def commitA : Bytes := List.replicate 32 1

/-- Another commitment. -/
def commitB : Bytes := List.replicate 32 2

/-- Neither reordering two siblings nor repeating the last commitment up to the
next power of two changes the root. -/
theorem computeRoot_ignores_order_and_padding :
    ([commitA, commitB] ≠ [commitB, commitA] ∧
      CollisionFree Sha256.digest (buildInputs Sha256.digest [commitA, commitB] ++
        buildInputs Sha256.digest [commitB, commitA]) ∧
      computeRoot Sha256.digest [commitA, commitB] = computeRoot Sha256.digest [commitB, commitA]) ∧
    ([commitA, commitB, commitB] ≠ [commitA, commitB, commitB, commitB] ∧
      CollisionFree Sha256.digest (buildInputs Sha256.digest [commitA, commitB, commitB] ++
        buildInputs Sha256.digest [commitA, commitB, commitB, commitB]) ∧
      computeRoot Sha256.digest [commitA, commitB, commitB]
        = computeRoot Sha256.digest [commitA, commitB, commitB, commitB]) := by
  have hpad : padSequence [commitA, commitB, commitB] =
      padSequence [commitA, commitB, commitB, commitB] := by decide +kernel
  have hlevels : buildLevels Sha256.digest [commitA, commitB, commitB] =
      buildLevels Sha256.digest [commitA, commitB, commitB, commitB] := by
    rw [buildLevels, buildLevels, hpad]
  have hcol : CollisionFree Sha256.digest (buildInputs Sha256.digest [commitA, commitB, commitB]) :=
    collisionFree_of_nodup List.head? (by rw [Sha256.digest_eq_fastDigest]; decide +kernel)
  refine ⟨⟨by decide, by rw [Sha256.digest_eq_fastDigest]; decide +kernel, by rw [Sha256.digest_eq_fastDigest]; decide +kernel⟩, by decide, ?_, ?_⟩
  · have hinputs : buildInputs Sha256.digest [commitA, commitB, commitB, commitB] =
        buildInputs Sha256.digest [commitA, commitB, commitB] := by
      rw [buildInputs, buildInputs, hlevels]
    rw [hinputs]
    exact hcol.mono fun x hx => (List.mem_append.mp hx).elim id id
  · rw [computeRoot, computeRoot, if_neg (by simp), if_neg (by simp), hlevels]

/-- The characterization at work on two logs that differ in order. -/
theorem computeRoot_eq_iff_siblingSwap_pair :
    (computeRoot Sha256.digest [commitA, commitB] = computeRoot Sha256.digest [commitB, commitA] ↔
      SiblingSwap 1 [commitA, commitB] [commitB, commitA]) ∧
    [commitA, commitB].Perm [commitB, commitA] := by
  have h := computeRoot_eq_iff_siblingSwap Sha256.digest Sha256.length_digest [commitA, commitB]
    [commitB, commitA] (by simp) (by simp) (by decide) (by decide) (by rw [Sha256.digest_eq_fastDigest]; decide +kernel)
    [[commitA, commitB], [hashPair Sha256.digest commitA commitB]]
    [[commitB, commitA], [hashPair Sha256.digest commitB commitA]] (by rw [Sha256.digest_eq_fastDigest]; decide +kernel) (by rw [Sha256.digest_eq_fastDigest]; decide +kernel)
    (Nat.le_refl _)
  exact ⟨h.1, h.2 rfl (by rw [Sha256.digest_eq_fastDigest]; decide +kernel)⟩

end Instances

end Noema.Audit
