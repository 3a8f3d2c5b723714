import Noema.Lib.Evaluation
import Noema.Lib.PyRuntime

/-!
# SHA-256

An executable SHA-256 on byte lists (words are naturals below `2 ^ 32`), with the one fact the audit
code needs of it: digests have 32 bytes. The results about the audit code hold for any hash; this
one is what they are run at.

Each word is evaluated before the next one is built from it (see `Evaluation`), so that the kernel
can compute the digest of a short text.
-/

namespace Noema.Lib.Sha256

open Noema.Lib

/-- The round constants. -/
def roundConstants : List Nat := [
  0x428a2f98, 0x71374491, 0xb5c0fbcf, 0xe9b5dba5, 0x3956c25b, 0x59f111f1, 0x923f82a4, 0xab1c5ed5,
  0xd807aa98, 0x12835b01, 0x243185be, 0x550c7dc3, 0x72be5d74, 0x80deb1fe, 0x9bdc06a7, 0xc19bf174,
  0xe49b69c1, 0xefbe4786, 0x0fc19dc6, 0x240ca1cc, 0x2de92c6f, 0x4a7484aa, 0x5cb0a9dc, 0x76f988da,
  0x983e5152, 0xa831c66d, 0xb00327c8, 0xbf597fc7, 0xc6e00bf3, 0xd5a79147, 0x06ca6351, 0x14292967,
  0x27b70a85, 0x2e1b2138, 0x4d2c6dfc, 0x53380d13, 0x650a7354, 0x766a0abb, 0x81c2c92e, 0x92722c85,
  0xa2bfe8a1, 0xa81a664b, 0xc24b8b70, 0xc76c51a3, 0xd192e819, 0xd6990624, 0xf40e3585, 0x106aa070,
  0x19a4c116, 0x1e376c08, 0x2748774c, 0x34b0bcb5, 0x391c0cb3, 0x4ed8aa4a, 0x5b9cca4f, 0x682e6ff3,
  0x748f82ee, 0x78a5636f, 0x84c87814, 0x8cc70208, 0x90befffa, 0xa4506ceb, 0xbef9a3f7, 0xc67178f2]

/-- Rotation of a 32-bit word to the right. -/
def rotr (x n : Nat) : Nat := (x >>> n ||| x <<< (32 - n)) % 2 ^ 32

/-- The eight working variables. -/
structure State where
  (a b c d e f g h : Nat)

/-- The initial hash value. -/
def State.init : State :=
  ⟨0x6a09e667, 0xbb67ae85, 0x3c6ef372, 0xa54ff53a, 0x510e527f, 0x9b05688c, 0x1f83d9ab, 0x5be0cd19⟩

/-- The first `n` words of the message schedule, from a window of sixteen. -/
def schedule : Nat → List Nat → List Nat
  | n + 1, w0 :: rest =>
    let w1 := rest.getD 0 0
    let w9 := rest.getD 8 0
    let w14 := rest.getD 13 0
    let s0 := rotr w1 7 ^^^ rotr w1 18 ^^^ (w1 >>> 3)
    let s1 := rotr w14 17 ^^^ rotr w14 19 ^^^ (w14 >>> 10)
    w0 :: schedule n (rest ++ [(w0 + s0 + w9 + s1) % 2 ^ 32])
  | _, _ => []

/-- One round, on a round constant and a schedule word. -/
def round (s : State) (kw : Nat × Nat) : State :=
  let s1 := rotr s.e 6 ^^^ rotr s.e 11 ^^^ rotr s.e 25
  let ch := (s.e &&& s.f) ^^^ ((s.e ^^^ 0xffffffff) &&& s.g)
  let t1 := s.h + s1 + ch + kw.1 + kw.2
  let s0 := rotr s.a 2 ^^^ rotr s.a 13 ^^^ rotr s.a 22
  let maj := (s.a &&& s.b) ^^^ (s.a &&& s.c) ^^^ (s.b &&& s.c)
  ⟨(t1 + s0 + maj) % 2 ^ 32, s.a, s.b, s.c, (s.d + t1) % 2 ^ 32, s.e, s.f, s.g⟩

/-- The compression of one block of sixteen words. -/
def compress (s : State) (block : List Nat) : State :=
  let r := (roundConstants.zip (schedule 64 block)).foldl round s
  ⟨(s.a + r.a) % 2 ^ 32, (s.b + r.b) % 2 ^ 32, (s.c + r.c) % 2 ^ 32, (s.d + r.d) % 2 ^ 32,
    (s.e + r.e) % 2 ^ 32, (s.f + r.f) % 2 ^ 32, (s.g + r.g) % 2 ^ 32, (s.h + r.h) % 2 ^ 32⟩

/-- `w` in `n` big-endian bytes. -/
def bigEndian (n w : Nat) : Bytes :=
  (List.range n).map fun i => UInt8.ofNat (w / 256 ^ (n - 1 - i))

/-- The big-endian words of a byte string. -/
def words : Bytes → List Nat
  | a :: b :: c :: d :: rest =>
    (((a.toNat * 256 + b.toNat) * 256 + c.toNat) * 256 + d.toNat) :: words rest
  | _ => []

/-- The padded message. -/
def pad (m : Bytes) : Bytes :=
  m ++ 0x80 :: List.replicate ((119 - m.length % 64) % 64) 0 ++ bigEndian 8 (8 * m.length)

/-- The first `n` blocks of sixteen words. -/
def blocks : Nat → List Nat → List (List Nat)
  | 0, _ => []
  | n + 1, ws => ws.take 16 :: blocks n (ws.drop 16)

/-- `hashlib.sha256(m).digest()`. -/
def digest (m : Bytes) : Bytes :=
  let r := (blocks ((pad m).length / 64) (words (pad m))).foldl compress State.init
  [r.a, r.b, r.c, r.d, r.e, r.f, r.g, r.h].flatMap (bigEndian 4)

/-- Digests have 32 bytes. -/
theorem length_digest (m : Bytes) : (digest m).length = 32 := by
  simp [digest, bigEndian]

/-! ## Evaluation

The same functions with every word evaluated when it is made. -/

/-- `rotr` of a word. -/
def fastRotr (x n : Nat) : Nat :=
  Nat.mod (Nat.lor (Nat.shiftRight x n) (Nat.shiftLeft x (Nat.sub 32 n))) 4294967296

/-- `round` with the words evaluated. -/
def fastRound (s : State) (kw : Nat × Nat) : State :=
  match s, kw with
  | ⟨a, b, c, d, e, f, g, h⟩, (k, w) =>
    force (Nat.add (Nat.add (Nat.add (Nat.add h
        (Nat.xor (Nat.xor (fastRotr e 6) (fastRotr e 11)) (fastRotr e 25)))
        (Nat.xor (Nat.land e f) (Nat.land (Nat.xor e 0xffffffff) g))) k) w) fun t1 =>
    force (Nat.mod (Nat.add (Nat.add t1
        (Nat.xor (Nat.xor (fastRotr a 2) (fastRotr a 13)) (fastRotr a 22)))
        (Nat.xor (Nat.xor (Nat.land a b) (Nat.land a c)) (Nat.land b c))) 4294967296) fun a' =>
    force (Nat.mod (Nat.add d t1) 4294967296) fun e' => ⟨a', a, b, c, e', e, f, g⟩

theorem fastRound_eq (s : State) (kw : Nat × Nat) : fastRound s kw = round s kw := by
  simp only [fastRound, force_eq]
  rfl

/-- `schedule` of a window of sixteen words. -/
def fastSchedule (n w0 w1 w2 w3 w4 w5 w6 w7 w8 w9 w10 w11 w12 w13 w14 w15 : Nat) : List Nat :=
  match n with
  | 0 => []
  | n + 1 =>
    force (Nat.mod (Nat.add (Nat.add (Nat.add w0
        (Nat.xor (Nat.xor (fastRotr w1 7) (fastRotr w1 18)) (Nat.shiftRight w1 3))) w9)
        (Nat.xor (Nat.xor (fastRotr w14 17) (fastRotr w14 19)) (Nat.shiftRight w14 10)))
      4294967296) fun w16 =>
    w0 :: fastSchedule n w1 w2 w3 w4 w5 w6 w7 w8 w9 w10 w11 w12 w13 w14 w15 w16

theorem fastSchedule_eq (n w0 w1 w2 w3 w4 w5 w6 w7 w8 w9 w10 w11 w12 w13 w14 w15 : Nat) :
    fastSchedule n w0 w1 w2 w3 w4 w5 w6 w7 w8 w9 w10 w11 w12 w13 w14 w15 =
      schedule n [w0, w1, w2, w3, w4, w5, w6, w7, w8, w9, w10, w11, w12, w13, w14, w15] := by
  induction n generalizing w0 w1 w2 w3 w4 w5 w6 w7 w8 w9 w10 w11 w12 w13 w14 w15 with
  | zero => rw [fastSchedule, schedule.eq_def]
  | succ n ih =>
    rw [fastSchedule, force_eq, ih]
    rfl

/-- The sums of the words of two states, evaluated. -/
def fastAdd (s r : State) : State :=
  match s, r with
  | ⟨a, b, c, d, e, f, g, h⟩, ⟨a', b', c', d', e', f', g', h'⟩ =>
    force (Nat.mod (Nat.add a a') 4294967296) fun a =>
    force (Nat.mod (Nat.add b b') 4294967296) fun b =>
    force (Nat.mod (Nat.add c c') 4294967296) fun c =>
    force (Nat.mod (Nat.add d d') 4294967296) fun d =>
    force (Nat.mod (Nat.add e e') 4294967296) fun e =>
    force (Nat.mod (Nat.add f f') 4294967296) fun f =>
    force (Nat.mod (Nat.add g g') 4294967296) fun g =>
    force (Nat.mod (Nat.add h h') 4294967296) fun h => ⟨a, b, c, d, e, f, g, h⟩

/-- `compress` with the words evaluated. -/
def fastCompress (s : State) (block : List Nat) : State :=
  match block with
  | [w0, w1, w2, w3, w4, w5, w6, w7, w8, w9, w10, w11, w12, w13, w14, w15] =>
    fastAdd s ((roundConstants.zip (fastSchedule 64 w0 w1 w2 w3 w4 w5 w6 w7 w8 w9 w10 w11 w12 w13 w14
      w15)).foldl fastRound s)
  | block => compress s block

theorem fastCompress_eq (s : State) (block : List Nat) : fastCompress s block = compress s block := by
  unfold fastCompress
  split
  · simp only [fastAdd, force_eq, fastSchedule_eq, funext₂ fastRound_eq]
    rfl
  · rfl

/-- `digest` with the words evaluated. -/
def fastDigest (m : Bytes) : Bytes :=
  match (blocks ((pad m).length / 64) (words (pad m))).foldl fastCompress State.init with
  | ⟨a, b, c, d, e, f, g, h⟩ => [a, b, c, d, e, f, g, h].flatMap (bigEndian 4)

theorem digest_eq_fastDigest : digest = fastDigest := by
  funext m
  rw [fastDigest, funext₂ fastCompress_eq]
  rfl

/-- The digest of `b"abc"`. -/
example : digest [0x61, 0x62, 0x63] =
    [0xba, 0x78, 0x16, 0xbf, 0x8f, 0x01, 0xcf, 0xea, 0x41, 0x41, 0x40, 0xde, 0x5d, 0xae, 0x22, 0x23,
      0xb0, 0x03, 0x61, 0xa3, 0x96, 0x17, 0x7a, 0x9c, 0xb4, 0x10, 0xff, 0x61, 0xf2, 0x00, 0x15, 0xad] := by
  rw [digest_eq_fastDigest]
  decide +kernel

end Noema.Lib.Sha256
