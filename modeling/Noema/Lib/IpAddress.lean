import Noema.Lib.PyRuntime

/-!
# Internet addresses

`ipAddress` reads the notations of `ipaddress.ip_address`: dotted quads, and the notations of IPv6.
The properties of an address (`isPrivate`, `isLoopback`, ...) are those of the IPv4 address that it
maps, if it does; their networks are listed under the names that the standard library has for them.
`inetAton` reads what resolvers read: one to four parts in decimal, octal or hexadecimal, the last
of which fills the bytes that the others leave.

- `within_agree`: two networks of one address have the same first bits; hence networks that differ
  there have no address in common (`apart`), which is decided on the lists.
- `not_of_isMulticast`: a multicast address is in none of the other ranges.
- `resolved_of_ipAddress`: of an address that `ipaddress` reads, a resolver reads the same. The
  converse is false (`127.1`, `0x7f000001`), and that is where a check of the first kind and a
  connection of the second kind part.
-/

namespace Noema.Lib

/-- An address; that of IPv6 is without its zone. -/
inductive IpAddress where
  | v4 (n : ℕ)
  | v6 (n : ℕ)
  deriving DecidableEq

/-! ## Reading -/

/-- A number without a sign; `none` if there are no digits, or others. -/
def number (base : ℕ) (cs : List Char) : Option ℕ :=
  if cs = [] then none
  else cs.foldlM (fun n c => (hexVal c).bind fun d => if d < base then some (n * base + d) else none) 0

/-- `_parse_octet`. -/
def octet (part : List Char) : Option ℕ :=
  if part.length ≤ 3 ∧ (part = ['0'] ∨ part.head? ≠ some '0') then
    (number 10 part).filter (· ≤ 255)
  else none

/-- The address of a dotted quad. -/
def quad (cs : List Char) : Option ℕ :=
  match cs.splitOn '.' with
  | [a, b, c, d] => do
    let a ← octet a
    let b ← octet b
    let c ← octet c
    let d ← octet d
    some (a * 2 ^ 24 + b * 2 ^ 16 + c * 2 ^ 8 + d)
  | _ => none

/-- `_parse_hextet`. -/
def hextet (part : List Char) : Option ℕ := if part.length ≤ 4 then number 16 part else none

/-- The value of hextets after a value. -/
def hextets (n : ℕ) (parts : List (List Char)) : Option ℕ :=
  parts.foldlM (fun n part => (hextet part).map fun h => n * 2 ^ 16 + h) n

/-- The parts before and after `::`, without the empty one at an end of the address. -/
def ends (parts : List (List Char)) : Option (List (List Char)) :=
  match parts with
  | [[]] => some []
  | _ => some parts

/-- The parts of an address whose dotted quad at the end was replaced by two hextets. -/
def colonParts (cs : List Char) : Option (List (List Char)) :=
  let parts := cs.splitOn ':'
  let last := parts.getLastD []
  if parts.length < 3 then none
  else if '.' ∈ last then
    (quad last).map fun n => parts.dropLast ++ [Nat.toDigits 16 (n / 2 ^ 16), Nat.toDigits 16 (n % 2 ^ 16)]
  else some parts

/-- The address of the parts between the colons. -/
def colonValue (parts : List (List Char)) : Option ℕ :=
  let between := parts.tail.dropLast
  if 9 < parts.length then none
  else
    match between.count [] with
    | 0 => if parts.length = 8 then hextets 0 parts else none
    | 1 => do
      let skip := between.idxOf [] + 1
      let hi ← ends (parts.take skip)
      let lo ← ends (parts.drop (skip + 1))
      if hi.length + lo.length < 8 then do
        let n ← hextets 0 hi
        hextets (n * 2 ^ (16 * (8 - (hi.length + lo.length)))) lo
      else none
    | _ => none

/-- The address before the zone, if the zone is one. -/
def withoutZone (cs : List Char) : Option (List Char) :=
  match cs.dropWhile (· ≠ '%') with
  | [] => some cs
  | _ :: zone => if zone = [] ∨ '%' ∈ zone then none else some (cs.takeWhile (· ≠ '%'))

/-- The address of a notation of IPv6. -/
def colonHex (cs : List Char) : Option ℕ :=
  if '/' ∈ cs then none
  else do
    let address ← withoutZone cs
    let parts ← colonParts address
    colonValue parts

/-- `ipaddress.ip_address(text)`; `none` is `ValueError`. -/
def ipAddress (cs : List Char) : Option IpAddress :=
  match quad cs with
  | some n => some (.v4 n)
  | none => (colonHex cs).map .v6

/-! ## Networks -/

/-- The address is in the network with this first address and so many first bits. -/
def within (bits n : ℕ) (net : ℕ × ℕ) : Bool :=
  n / 2 ^ (bits - net.2) == net.1 / 2 ^ (bits - net.2)

/-- Some of the networks have the address. -/
def inAny (bits n : ℕ) (nets : List (ℕ × ℕ)) : Bool := nets.any (within bits n)

/-- The IPv4 address of four numbers. -/
def ip4 (a b c d : ℕ) : ℕ := a * 2 ^ 24 + b * 2 ^ 16 + c * 2 ^ 8 + d

/-- The first address of the IPv6 network with these first hextets. -/
def ip6 (a b c : ℕ) : ℕ := a * 2 ^ 112 + b * 2 ^ 96 + c * 2 ^ 80

/-- `IPv4Address._constants._private_networks`. -/
def private4 : List (ℕ × ℕ) :=
  [(ip4 0 0 0 0, 8), (ip4 10 0 0 0, 8), (ip4 127 0 0 0, 8), (ip4 169 254 0 0, 16),
    (ip4 172 16 0 0, 12), (ip4 192 0 0 0, 24), (ip4 192 0 0 170, 31), (ip4 192 0 2 0, 24),
    (ip4 192 168 0 0, 16), (ip4 198 18 0 0, 15), (ip4 198 51 100 0, 24), (ip4 203 0 113 0, 24),
    (ip4 240 0 0 0, 4), (ip4 255 255 255 255, 32)]

/-- `IPv4Address._constants._private_networks_exceptions`. -/
def privateExceptions4 : List (ℕ × ℕ) := [(ip4 192 0 0 9, 32), (ip4 192 0 0 10, 32)]

/-- `IPv6Address._constants._private_networks`. -/
def private6 : List (ℕ × ℕ) :=
  [(1, 128), (0, 128), (0xffff * 2 ^ 32, 96), (ip6 0x64 0xff9b 1, 48), (ip6 0x100 0 0, 64),
    (ip6 0x2001 0 0, 23), (ip6 0x2001 0xdb8 0, 32), (ip6 0x2002 0 0, 16), (ip6 0x3fff 0 0, 20),
    (ip6 0xfc00 0 0, 7), (ip6 0xfe80 0 0, 10)]

/-- `IPv6Address._constants._private_networks_exceptions`. -/
def privateExceptions6 : List (ℕ × ℕ) :=
  [(ip6 0x2001 1 0 + 1, 128), (ip6 0x2001 1 0 + 2, 128), (ip6 0x2001 3 0, 32),
    (ip6 0x2001 4 0x112, 48), (ip6 0x2001 0x20 0, 28), (ip6 0x2001 0x30 0, 28)]

/-- `IPv6Address._constants._reserved_networks`. -/
def reserved6 : List (ℕ × ℕ) :=
  [(0, 8), (ip6 0x100 0 0, 8), (ip6 0x200 0 0, 7), (ip6 0x400 0 0, 6), (ip6 0x800 0 0, 5),
    (ip6 0x1000 0 0, 4), (ip6 0x4000 0 0, 3), (ip6 0x6000 0 0, 3), (ip6 0x8000 0 0, 3),
    (ip6 0xa000 0 0, 3), (ip6 0xc000 0 0, 3), (ip6 0xe000 0 0, 4), (ip6 0xf000 0 0, 5),
    (ip6 0xf800 0 0, 6), (ip6 0xfe00 0 0, 9)]

namespace IpAddress

/-- The IPv4 address that an address of IPv6 maps, or the address itself. -/
def unmapped : IpAddress → IpAddress
  | .v4 n => .v4 n
  | .v6 n => if n / 2 ^ 32 = 0xffff then .v4 (n % 2 ^ 32) else .v6 n

variable (a : IpAddress)

/-- `is_private`. -/
def isPrivate : Bool :=
  match a.unmapped with
  | .v4 n => inAny 32 n private4 && !inAny 32 n privateExceptions4
  | .v6 n => inAny 128 n private6 && !inAny 128 n privateExceptions6

/-- `is_loopback`. -/
def isLoopback : Bool :=
  match a.unmapped with
  | .v4 n => within 32 n (ip4 127 0 0 0, 8)
  | .v6 n => n == 1

/-- `is_link_local`. -/
def isLinkLocal : Bool :=
  match a.unmapped with
  | .v4 n => within 32 n (ip4 169 254 0 0, 16)
  | .v6 n => within 128 n (ip6 0xfe80 0 0, 10)

/-- `is_reserved`. -/
def isReserved : Bool :=
  match a.unmapped with
  | .v4 n => within 32 n (ip4 240 0 0 0, 4)
  | .v6 n => inAny 128 n reserved6

/-- `is_multicast`. -/
def isMulticast : Bool :=
  match a.unmapped with
  | .v4 n => within 32 n (ip4 224 0 0 0, 4)
  | .v6 n => within 128 n (ip6 0xff00 0 0, 8)

/-- `is_unspecified`. -/
def isUnspecified : Bool :=
  match a.unmapped with
  | .v4 n | .v6 n => n == 0

end IpAddress

/-! ## What resolvers read -/

/-- A part in decimal, octal or hexadecimal. -/
def aNumber : List Char → Option ℕ
  | '0' :: 'x' :: digits | '0' :: 'X' :: digits => number 16 digits
  | ['0'] => some 0
  | '0' :: digits => number 8 digits
  | digits => number 10 digits

/-- `inet_aton`: the last part fills the bytes that the others leave. -/
def inetAton (cs : List Char) : Option ℕ := do
  let parts ← (cs.splitOn '.').mapM aNumber
  match parts with
  | [a] => if a < 2 ^ 32 then some a else none
  | [a, b] => if a < 2 ^ 8 ∧ b < 2 ^ 24 then some (a * 2 ^ 24 + b) else none
  | [a, b, c] =>
    if a < 2 ^ 8 ∧ b < 2 ^ 8 ∧ c < 2 ^ 16 then some (a * 2 ^ 24 + b * 2 ^ 16 + c) else none
  | [a, b, c, d] =>
    if a < 2 ^ 8 ∧ b < 2 ^ 8 ∧ c < 2 ^ 8 ∧ d < 2 ^ 8 then
      some (a * 2 ^ 24 + b * 2 ^ 16 + c * 2 ^ 8 + d)
    else none
  | _ => none

/-- The address that a resolver reads, also with a dot at the end. -/
def resolved (cs : List Char) : Option IpAddress :=
  match inetAton cs with
  | some n => some (.v4 n)
  | none =>
    match if cs.getLast? = some '.' then inetAton cs.dropLast else none with
    | some n => some (.v4 n)
    | none => (colonHex cs).map .v6

/-! ## Networks without an address in common -/

/-- Two networks of one address have the same first bits. -/
theorem within_agree {bits n : ℕ} {p q : ℕ × ℕ} (hp : within bits n p) (hq : within bits n q) :
    p.1 / 2 ^ (bits - min p.2 q.2) = q.1 / 2 ^ (bits - min p.2 q.2) := by
  have hfirst : ∀ net : ℕ × ℕ, within bits n net → ∀ l ≤ net.2,
      net.1 / 2 ^ (bits - l) = n / 2 ^ (bits - l) := by
    intro net h l hl
    obtain ⟨k, hk⟩ := Nat.exists_eq_add_of_le (Nat.sub_le_sub_left hl bits)
    rw [hk, Nat.pow_add, ← Nat.div_div_eq_div_mul, ← Nat.div_div_eq_div_mul, of_decide_eq_true h]
  rw [hfirst p hp _ (min_le_left _ _), hfirst q hq _ (min_le_right _ _)]

/-- No network of the list has an address in common with this one. -/
def apart (bits : ℕ) (p : ℕ × ℕ) (nets : List (ℕ × ℕ)) : Bool :=
  nets.all fun q => p.1 / 2 ^ (bits - min p.2 q.2) != q.1 / 2 ^ (bits - min p.2 q.2)

theorem not_inAny_of_apart {bits n : ℕ} {p : ℕ × ℕ} (nets : List (ℕ × ℕ))
    (h : within bits n p) (hapart : apart bits p nets) : inAny bits n nets = false := by
  refine Bool.eq_false_iff.mpr fun hany => ?_
  obtain ⟨q, hq, hqn⟩ := List.any_eq_true.mp hany
  have hne := List.all_eq_true.mp hapart q hq
  rw [within_agree h hqn] at hne
  simp at hne

namespace IpAddress

/-- A multicast address is in none of the other ranges. -/
theorem not_of_isMulticast {a : IpAddress} (h : a.isMulticast) :
    ¬a.isPrivate ∧ ¬a.isLoopback ∧ ¬a.isLinkLocal ∧ ¬a.isReserved := by
  unfold isMulticast at h
  unfold isPrivate isLoopback isLinkLocal isReserved
  cases ha : a.unmapped with
  | v4 n =>
    rw [ha] at h
    have hone : ∀ net, apart 32 (ip4 224 0 0 0, 4) [net] → within 32 n net = false :=
      fun net hnet => by simpa [inAny] using not_inAny_of_apart [net] h hnet
    simp [not_inAny_of_apart private4 h (by decide), hone (ip4 127 0 0 0, 8) (by decide),
      hone (ip4 169 254 0 0, 16) (by decide), hone (ip4 240 0 0 0, 4) (by decide)]
  | v6 n =>
    rw [ha] at h
    have hone : ∀ net, apart 128 (ip6 0xff00 0 0, 8) [net] → within 128 n net = false :=
      fun net hnet => by simpa [inAny] using not_inAny_of_apart [net] h hnet
    have hloop : n ≠ 1 := by
      rintro rfl
      exact absurd h (by decide)
    simp [not_inAny_of_apart private6 h (by decide), hloop,
      hone (ip6 0xfe80 0 0, 10) (by decide), not_inAny_of_apart reserved6 h (by decide)]

theorem isPrivate_of_isUnspecified {a : IpAddress} (h : a.isUnspecified) : a.isPrivate := by
  unfold isUnspecified at h
  unfold isPrivate
  cases ha : a.unmapped with
  | v4 n =>
    rw [ha] at h
    rw [show n = 0 by simpa using h]
    decide
  | v6 n =>
    rw [ha] at h
    rw [show n = 0 by simpa using h]
    decide

end IpAddress

/-! ## The two readings -/

/-- The separators apart, the characters are those of the parts. -/
theorem mem_intercalate {c sep : Char} {parts : List (List Char)} (hc : c ≠ sep)
    (h : c ∈ [sep].intercalate parts) : ∃ part ∈ parts, c ∈ part := by
  induction parts with
  | nil => simp at h
  | cons part parts ih =>
    cases parts with
    | nil => exact ⟨part, by simp, by simpa using h⟩
    | cons next rest =>
      simp only [List.intercalate_cons_cons, List.mem_append, List.mem_singleton, hc] at h
      rcases h with (h | h) | h
      · exact ⟨part, by simp, h⟩
      · exact absurd h not_false
      · obtain ⟨p, hp, hcp⟩ := ih h
        exact ⟨p, List.mem_cons_of_mem _ hp, hcp⟩

theorem notMem_of_number {c : Char} {base : ℕ} {cs : List Char} {n : ℕ} (hc : hexVal c = none)
    (h : number base cs = some n) : c ∉ cs := by
  unfold number at h
  split at h
  · exact absurd h (by simp)
  · intro hmem
    generalize 0 = m at h
    clear * - h hmem hc
    induction cs generalizing m with
    | nil => exact absurd hmem (by simp)
    | cons d cs ih =>
      rw [List.foldlM_cons] at h
      obtain ⟨k, hk, h⟩ := Option.bind_eq_some_iff.mp h
      rcases List.mem_cons.mp hmem with rfl | hmem
      · rw [hc] at hk
        exact absurd hk (by simp)
      · exact ih hmem k h

/-- Digits, `x` and dots are all that a resolver reads. -/
theorem notMem_of_inetAton {c : Char} {cs : List Char} {n : ℕ} (hc : hexVal c = none)
    (hx : c ∉ ['x', 'X', '.']) (h : inetAton cs = some n) : c ∉ cs := by
  simp only [List.mem_cons, List.not_mem_nil, or_false, not_or] at hx
  obtain ⟨hx, hX, hdot⟩ := hx
  have hzero : c ≠ '0' := by
    rintro rfl
    exact absurd hc (by decide)
  intro hmem
  have hjoined : ['.'].intercalate (cs.splitOn '.') = cs := List.intercalate_splitOn '.'
  rw [← hjoined] at hmem
  obtain ⟨part, hpart, hcp⟩ := mem_intercalate hdot hmem
  obtain ⟨numbers, hnumbers, -⟩ := Option.bind_eq_some_iff.mp h
  obtain ⟨k, hk⟩ := exists_mapM_iff.mp ⟨numbers, hnumbers⟩ part hpart
  unfold aNumber at hk
  split at hk
  · exact notMem_of_number hc hk (by simpa [hzero, hx] using hcp)
  · exact notMem_of_number hc hk (by simpa [hzero, hX] using hcp)
  · simp [hzero] at hcp
  · exact notMem_of_number hc hk (by simpa [hzero] using hcp)
  · exact notMem_of_number hc hk hcp

/-- What `ipaddress` reads as a part of a dotted quad, a resolver reads alike. -/
theorem aNumber_octet {part : List Char} {n : ℕ} (h : octet part = some n) :
    aNumber part = some n ∧ n < 256 := by
  unfold octet at h
  split at h
  case isFalse => exact absurd h (by simp)
  case isTrue hpart =>
    obtain ⟨hn, hle⟩ := Option.filter_eq_some_iff.mp h
    refine ⟨?_, by simp at hle; omega⟩
    rcases hpart.2 with rfl | hhead
    · exact hn
    · unfold aNumber
      split <;> simp_all

/-- A dotted quad denotes the same address for both. -/
theorem inetAton_quad {cs : List Char} {n : ℕ} (h : quad cs = some n) : inetAton cs = some n := by
  unfold quad at h
  split at h
  case h_2 => exact absurd h (by simp)
  case h_1 a b c d hparts =>
    simp only [Option.bind_eq_bind, Option.bind_eq_some_iff] at h
    obtain ⟨a', ha, b', hb, c', hc, d', hd, h⟩ := h
    obtain ⟨ha, hla⟩ := aNumber_octet ha
    obtain ⟨hb, hlb⟩ := aNumber_octet hb
    obtain ⟨hc, hlc⟩ := aNumber_octet hc
    obtain ⟨hd, hld⟩ := aNumber_octet hd
    simp [inetAton, hparts, ha, hb, hc, hd, hla, hlb, hlc, hld, ← h]

/-- There is a colon in every notation of IPv6. -/
theorem colon_mem_of_colonHex {cs : List Char} {n : ℕ} (h : colonHex cs = some n) : ':' ∈ cs := by
  unfold colonHex at h
  split at h
  case isTrue => exact absurd h (by simp)
  case isFalse =>
    obtain ⟨address, haddress, h⟩ := Option.bind_eq_some_iff.mp h
    obtain ⟨parts, hparts, -⟩ := Option.bind_eq_some_iff.mp h
    have hcolon : ':' ∈ address := by
      by_contra hno
      simp [colonParts, List.splitOn_eq_singleton hno] at hparts
    unfold withoutZone at haddress
    split at haddress
    · rw [Option.some.injEq] at haddress
      exact haddress ▸ hcolon
    · split at haddress
      · exact absurd haddress (by simp)
      · rw [Option.some.injEq] at haddress
        exact List.takeWhile_subset _ (haddress ▸ hcolon)

/-- Of an address that `ipaddress` reads, a resolver reads the same. -/
theorem resolved_of_ipAddress {cs : List Char} {a : IpAddress} (h : ipAddress cs = some a) :
    resolved cs = some a := by
  unfold ipAddress at h
  split at h
  case h_1 n hquad =>
    simpa [resolved, inetAton_quad hquad] using h
  case h_2 =>
    obtain ⟨n, hn, rfl⟩ := Option.map_eq_some_iff.mp h
    have hcolon := colon_mem_of_colonHex hn
    have hno : inetAton cs = none := Option.eq_none_iff_forall_ne_some.mpr fun m hm =>
      notMem_of_inetAton (by decide) (by decide) hm hcolon
    have hdot : (if cs.getLast? = some '.' then inetAton cs.dropLast else none) = none := by
      split
      case isFalse => rfl
      case isTrue hlast =>
        refine Option.eq_none_iff_forall_ne_some.mpr fun m hm =>
          notMem_of_inetAton (c := ':') (by decide) (by decide) hm ?_
        obtain ⟨front, rfl⟩ := List.getLast?_eq_some_iff.mp hlast
        simpa using hcolon
    simp [resolved, hno, hdot, hn]

end Noema.Lib
