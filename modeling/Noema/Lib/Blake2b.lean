import Noema.Lib.Evaluation
import Noema.Lib.PyRuntime

/-!
# BLAKE2b

An executable BLAKE2b on byte lists (words are naturals below `2 ^ 64`), without a key, for digests
of up to 64 bytes and a salt of up to 16. The results about the audit code hold for any hash; this
one is what they are run at.

There are two versions of the compression. The first one follows the specification and is what a
reader compares; `fastDigest` evaluates each word before the next one is built from it (see
`Evaluation`), so that the kernel can run it. They are proved equal once, and concrete chains are
computed with the second one. `length_digest` is the one fact that the proofs about chains need.
-/

namespace Noema.Lib.Blake2b

open Noema.Lib

/-- The initialization vector. -/
def iv : List Nat := [
  0x6a09e667f3bcc908, 0xbb67ae8584caa73b, 0x3c6ef372fe94f82b, 0xa54ff53a5f1d36f1,
  0x510e527fade682d1, 0x9b05688c2b3e6c1f, 0x1f83d9abfb41bd6b, 0x5be0cd19137e2179]

/-- The message schedule: the order of the words in each of the twelve rounds. -/
def sigma : List (List Nat) := [
  [0, 1, 2, 3, 4, 5, 6, 7, 8, 9, 10, 11, 12, 13, 14, 15],
  [14, 10, 4, 8, 9, 15, 13, 6, 1, 12, 0, 2, 11, 7, 5, 3],
  [11, 8, 12, 0, 5, 2, 15, 13, 10, 14, 3, 6, 7, 1, 9, 4],
  [7, 9, 3, 1, 13, 12, 11, 14, 2, 6, 5, 10, 4, 0, 15, 8],
  [9, 0, 5, 7, 2, 4, 10, 15, 14, 1, 11, 12, 6, 8, 3, 13],
  [2, 12, 6, 10, 0, 11, 8, 3, 4, 13, 7, 5, 15, 14, 1, 9],
  [12, 5, 1, 15, 14, 13, 4, 10, 0, 7, 6, 3, 9, 2, 8, 11],
  [13, 11, 7, 14, 12, 1, 3, 9, 5, 0, 15, 4, 8, 6, 2, 10],
  [6, 15, 14, 9, 11, 3, 0, 8, 12, 2, 13, 7, 1, 4, 10, 5],
  [10, 2, 8, 4, 7, 6, 1, 5, 15, 11, 9, 14, 3, 12, 13, 0],
  [0, 1, 2, 3, 4, 5, 6, 7, 8, 9, 10, 11, 12, 13, 14, 15],
  [14, 10, 4, 8, 9, 15, 13, 6, 1, 12, 0, 2, 11, 7, 5, 3]]

/-- Rotation of a 64-bit word to the right. -/
def rotr (x n : Nat) : Nat := (x >>> n ||| x <<< (64 - n)) % 2 ^ 64

/-- The mixing function on four words of the state and two of the message. -/
def mix (a b c d x y : Nat) : Nat × Nat × Nat × Nat :=
  let a := (a + b + x) % 2 ^ 64
  let d := rotr (d ^^^ a) 32
  let c := (c + d) % 2 ^ 64
  let b := rotr (b ^^^ c) 24
  let a := (a + b + y) % 2 ^ 64
  let d := rotr (d ^^^ a) 16
  let c := (c + d) % 2 ^ 64
  let b := rotr (b ^^^ c) 63
  (a, b, c, d)

/-- The positions that are mixed in a round: the columns, then the diagonals. -/
def quarters : List (Nat × Nat × Nat × Nat) := [
  (0, 4, 8, 12), (1, 5, 9, 13), (2, 6, 10, 14), (3, 7, 11, 15),
  (0, 5, 10, 15), (1, 6, 11, 12), (2, 7, 8, 13), (3, 4, 9, 14)]

/-- One round with the message words in its order. -/
def round (v : List Nat) (words : List Nat) : List Nat :=
  (quarters.zipIdx).foldl (fun v ((i, j, k, l), n) =>
    let (a, b, c, d) := mix (v.getD i 0) (v.getD j 0) (v.getD k 0) (v.getD l 0)
      (words.getD (2 * n) 0) (words.getD (2 * n + 1) 0)
    (((v.set i a).set j b).set k c).set l d) v

/-- The compression of one block of sixteen words, after `count` bytes. -/
def compress (h block : List Nat) (count : Nat) (last : Bool) : List Nat :=
  let v := h ++ iv
  let v := v.set 12 (v.getD 12 0 ^^^ count % 2 ^ 64)
  let v := v.set 13 (v.getD 13 0 ^^^ count / 2 ^ 64)
  let v := if last then v.set 14 (v.getD 14 0 ^^^ 0xffffffffffffffff) else v
  let v := sigma.foldl (fun v order => round v (order.map fun i => block.getD i 0)) v
  (List.range 8).map fun i => h.getD i 0 ^^^ v.getD i 0 ^^^ v.getD (i + 8) 0

/-- The little-endian words of a byte string. -/
def words : Bytes → List Nat
  | a :: b :: c :: d :: e :: f :: g :: h :: rest =>
    ([h, g, f, e, d, c, b, a].foldl (fun n x => n * 256 + x.toNat) 0) :: words rest
  | _ => []

/-- `w` in eight little-endian bytes. -/
def littleEndian (w : Nat) : Bytes := (List.range 8).map fun i => UInt8.ofNat (w / 256 ^ i)

/-- `data` filled up to `n` bytes with zeros. -/
def fill (n : Nat) (data : Bytes) : Bytes := data ++ List.replicate (n - data.length) 0

/-- The state before the first block: the parameter block is mixed into the vector. -/
def start (digestSize : Nat) (salt : Bytes) : List Nat :=
  let parameters := (0x01010000 + digestSize) :: 0 :: 0 :: 0 :: words (fill 16 salt) ++ [0, 0]
  iv.zipWith (· ^^^ ·) parameters

/-- The blocks of a message of `n` blocks before its last one. -/
def absorb : Nat → Nat → List Nat → Bytes → List Nat
  | 0, count, h, data => compress h (words (fill 128 data)) (count + data.length) true
  | n + 1, count, h, data =>
    absorb n (count + 128) (compress h (words (data.take 128)) (count + 128) false) (data.drop 128)

/-- `hashlib.blake2b(data, digest_size=digestSize, salt=salt).digest()`. -/
def digest (digestSize : Nat) (salt data : Bytes) : Bytes :=
  ((absorb ((data.length - 1) / 128) 0 (start digestSize salt) data).flatMap littleEndian).take
    digestSize

theorem length_compress (h block : List Nat) (count : Nat) (last : Bool) :
    (compress h block count last).length = 8 := by
  simp [compress]

theorem length_absorb (n count : Nat) (h : List Nat) (data : Bytes) :
    (absorb n count h data).length = 8 := by
  induction n generalizing count h data with
  | zero => exact length_compress _ _ _ _
  | succ n ih => exact ih _ _ _

/-- Digests have the size that was asked for. -/
theorem length_digest {digestSize : Nat} (h : digestSize ≤ 64) (salt data : Bytes) :
    (digest digestSize salt data).length = digestSize := by
  have hwords := length_absorb ((data.length - 1) / 128) 0 (start digestSize salt) data
  have hbytes : ∀ ws : List Nat, (ws.flatMap littleEndian).length = 8 * ws.length := by
    intro ws
    induction ws with
    | nil => rfl
    | cons w ws ih =>
      rw [List.flatMap_cons, List.length_append, ih, List.length_cons]
      simp [littleEndian]
      omega
  rw [digest, List.length_take, hbytes, hwords]
  omega

/-! ## Evaluation

The same functions with every word evaluated when it is made. -/

/-- `rotr` of a word. -/
def fastRotr (x n : Nat) : Nat :=
  Nat.mod (Nat.lor (Nat.shiftRight x n) (Nat.shiftLeft x (Nat.sub 64 n))) 18446744073709551616

/-- `mix` with the words evaluated. -/
def fastMix {α : Type} (a b c d x y : Nat) (k : Nat → Nat → Nat → Nat → α) : α :=
  force (Nat.mod (Nat.add (Nat.add a b) x) 18446744073709551616) fun a =>
  force (fastRotr (Nat.xor d a) 32) fun d =>
  force (Nat.mod (Nat.add c d) 18446744073709551616) fun c =>
  force (fastRotr (Nat.xor b c) 24) fun b =>
  force (Nat.mod (Nat.add (Nat.add a b) y) 18446744073709551616) fun a =>
  force (fastRotr (Nat.xor d a) 16) fun d =>
  force (Nat.mod (Nat.add c d) 18446744073709551616) fun c =>
  force (fastRotr (Nat.xor b c) 63) fun b => k a b c d

theorem fastMix_eq {α : Type} (a b c d x y : Nat) (k : Nat → Nat → Nat → Nat → α) :
    fastMix a b c d x y k =
      match mix a b c d x y with
      | (a, b, c, d) => k a b c d := by
  simp only [fastMix, force_eq]
  rfl

/-- `round` with the words evaluated. -/
def fastRound (v words : List Nat) : List Nat :=
  match v, words with
  | [v0, v1, v2, v3, v4, v5, v6, v7, v8, v9, v10, v11, v12, v13, v14, v15],
    [m0, m1, m2, m3, m4, m5, m6, m7, m8, m9, m10, m11, m12, m13, m14, m15] =>
    fastMix v0 v4 v8 v12 m0 m1 fun v0 v4 v8 v12 =>
    fastMix v1 v5 v9 v13 m2 m3 fun v1 v5 v9 v13 =>
    fastMix v2 v6 v10 v14 m4 m5 fun v2 v6 v10 v14 =>
    fastMix v3 v7 v11 v15 m6 m7 fun v3 v7 v11 v15 =>
    fastMix v0 v5 v10 v15 m8 m9 fun v0 v5 v10 v15 =>
    fastMix v1 v6 v11 v12 m10 m11 fun v1 v6 v11 v12 =>
    fastMix v2 v7 v8 v13 m12 m13 fun v2 v7 v8 v13 =>
    fastMix v3 v4 v9 v14 m14 m15 fun v3 v4 v9 v14 =>
    [v0, v1, v2, v3, v4, v5, v6, v7, v8, v9, v10, v11, v12, v13, v14, v15]
  | v, words => round v words

/-- One mixing of a round. -/
def quarter (words v : List Nat) : (Nat × Nat × Nat × Nat) × Nat → List Nat
  | ((i, j, k, l), n) =>
    let (a, b, c, d) := mix (v.getD i 0) (v.getD j 0) (v.getD k 0) (v.getD l 0)
      (words.getD (2 * n) 0) (words.getD (2 * n + 1) 0)
    (((v.set i a).set j b).set k c).set l d

theorem quarter_cons (words v : List Nat) (x i j k l n : Nat) :
    quarter words (x :: v) ((i, j, k, l), n) =
      fastMix ((x :: v).getD i 0) ((x :: v).getD j 0) ((x :: v).getD k 0) ((x :: v).getD l 0)
        (words.getD (2 * n) 0) (words.getD (2 * n + 1) 0) fun a b c d =>
          ((((x :: v).set i a).set j b).set k c).set l d := by
  rw [fastMix_eq]
  rfl

theorem quarter_fastMix (words : List Nat) (a b c d x y : Nat) (k : Nat → Nat → Nat → Nat → List Nat)
    (q : (Nat × Nat × Nat × Nat) × Nat) :
    quarter words (fastMix a b c d x y k) q =
      fastMix a b c d x y fun a b c d => quarter words (k a b c d) q := by
  rw [fastMix_eq, fastMix_eq]

theorem fastRound_eq (v words : List Nat) : fastRound v words = round v words := by
  unfold fastRound
  split
  · show _ = List.foldl (quarter _) _ quarters.zipIdx
    simp only [quarters, List.zipIdx_cons, List.zipIdx_nil, List.foldl_cons, List.foldl_nil,
      quarter_cons, quarter_fastMix, List.set_cons_zero, List.set_cons_succ, List.getD_cons_zero,
      List.getD_cons_succ, Nat.reduceMul, Nat.reduceAdd, Nat.zero_add, Nat.mul_zero]
  · rfl

/-- `compress` with the words evaluated. -/
def fastCompress (h block : List Nat) (count : Nat) (last : Bool) : List Nat :=
  forceAll h fun h => forceAll block fun block =>
  let v := h ++ iv
  let v := v.set 12 (v.getD 12 0 ^^^ count % 2 ^ 64)
  let v := v.set 13 (v.getD 13 0 ^^^ count / 2 ^ 64)
  let v := if last then v.set 14 (v.getD 14 0 ^^^ 0xffffffffffffffff) else v
  forceAll v fun v =>
  forceAll (sigma.foldl (fun v order => fastRound v (order.map fun i => block.getD i 0)) v) fun v =>
  (List.range 8).map fun i => h.getD i 0 ^^^ v.getD i 0 ^^^ v.getD (i + 8) 0

theorem fastCompress_eq : fastCompress = compress := by
  funext h block count last
  simp only [fastCompress, compress, forceAll_eq, fastRound_eq]

/-- `absorb` with the words evaluated. -/
def fastAbsorb : Nat → Nat → List Nat → Bytes → List Nat
  | 0, count, h, data => fastCompress h (words (fill 128 data)) (count + data.length) true
  | n + 1, count, h, data =>
    fastAbsorb n (count + 128) (fastCompress h (words (data.take 128)) (count + 128) false) (data.drop 128)

theorem fastAbsorb_eq (n count : Nat) (h : List Nat) (data : Bytes) :
    fastAbsorb n count h data = absorb n count h data := by
  induction n generalizing count h data with
  | zero => rw [fastAbsorb, absorb, fastCompress_eq]
  | succ n ih => rw [fastAbsorb, absorb, ih, fastCompress_eq]

/-- `digest` with the words evaluated. -/
def fastDigest (digestSize : Nat) (salt data : Bytes) : Bytes :=
  ((fastAbsorb ((data.length - 1) / 128) 0 (start digestSize salt) data).flatMap littleEndian).take
    digestSize

theorem digest_eq_fastDigest : digest = fastDigest := by
  funext digestSize salt data
  rw [digest, fastDigest, fastAbsorb_eq]

/-- The digest of `b"abc"` with 32 bytes and no salt. -/
example : digest 32 [] [0x61, 0x62, 0x63] =
    [0xbd, 0xdd, 0x81, 0x3c, 0x63, 0x42, 0x39, 0x72, 0x31, 0x71, 0xef, 0x3f, 0xee, 0x98, 0x57, 0x9b,
      0x94, 0x96, 0x4e, 0x3b, 0xb1, 0xcb, 0x3e, 0x42, 0x72, 0x62, 0xc8, 0xc0, 0x68, 0xd5, 0x23, 0x19] := by
  rw [digest_eq_fastDigest]
  decide +kernel

end Noema.Lib.Blake2b
