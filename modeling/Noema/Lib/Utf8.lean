import Noema.Lib.PyRuntime

/-!
# UTF-8

- `encodeUtf8`: `str.encode("utf-8")`, injective, and bytewise on ASCII text;
- `decodeUtf8Replace`: `bytes.decode("utf-8", errors="replace")`, where every maximal ill-formed
  prefix of a sequence becomes one replacement character. The bytes that may follow the first one
  depend on it (`secondByte`): overlong forms, surrogates and what lies above U+10FFFF are
  ill-formed from the second byte on.

On ASCII bytes the two are inverse (`encodeUtf8_decodeUtf8Replace`). Elsewhere decoding loses what
was ill-formed, so bytes that go through a text and back are not always the same.
-/

namespace Noema.Lib

/-- `text.encode("utf-8")`. -/
def encodeUtf8 (text : List Char) : Bytes := text.flatMap String.utf8EncodeChar

theorem encodeUtf8_injective {s t : List Char} (h : encodeUtf8 s = encodeUtf8 t) : s = t := by
  have h' : s.utf8Encode = t.utf8Encode := congrArg List.toByteArray h
  rw [← String.toByteArray_ofList, ← String.toByteArray_ofList] at h'
  simpa using congrArg String.toList (String.toByteArray_inj.mp h')

/-- ASCII text is one byte a character. -/
theorem encodeUtf8_ascii {text : List Char} (h : ∀ c ∈ text, c.toNat < 0x80) :
    encodeUtf8 text = text.map fun c => UInt8.ofNat c.toNat := by
  induction text with
  | nil => rfl
  | cons c cs ih =>
    have hc : String.utf8EncodeChar c = [UInt8.ofNat c.toNat] := by
      have hlt : c.toNat ≤ 0x7f := Nat.le_of_lt_succ (h c List.mem_cons_self)
      unfold String.utf8EncodeChar
      exact if_pos hlt
    rw [encodeUtf8, List.flatMap_cons, hc, List.map_cons]
    exact congrArg _ (ih fun d hd => h d (List.mem_cons_of_mem _ hd))

/-! ## Decoding -/

/-- The replacement character. -/
def replacement : Char := Char.ofNat 0xfffd

/-- The bytes that may follow the first byte `b` of a sequence. -/
def secondByte (b c : Nat) : Bool :=
  if b = 0xe0 then 0xa0 ≤ c && c ≤ 0xbf
  else if b = 0xed then 0x80 ≤ c && c ≤ 0x9f
  else if b = 0xf0 then 0x90 ≤ c && c ≤ 0xbf
  else if b = 0xf4 then 0x80 ≤ c && c ≤ 0x8f
  else 0x80 ≤ c && c ≤ 0xbf

/-- The later bytes of a sequence. -/
def laterByte (c : Nat) : Bool := 0x80 ≤ c && c ≤ 0xbf

/-- The next byte, if it continues the sequence. -/
def nextByte (accept : Nat → Bool) : Bytes → Option (Nat × Bytes)
  | c :: rest => if accept c.toNat then some (c.toNat, rest) else none
  | [] => none

/-- The first character of `b :: rest`, and the bytes after it. -/
def decodeOne (b : Nat) (rest : Bytes) : Char × Bytes :=
  if b < 0x80 then (Char.ofNat b, rest)
  -- a continuation byte, an overlong start, or beyond U+10FFFF
  else if b < 0xc2 ∨ 0xf4 < b then (replacement, rest)
  else
    match nextByte (secondByte b) rest with
    | none => (replacement, rest)
    | some (c, rest₁) =>
      if b < 0xe0 then (Char.ofNat ((b - 0xc0) * 0x40 + (c - 0x80)), rest₁)
      else
        match nextByte laterByte rest₁ with
        | none => (replacement, rest₁)
        | some (d, rest₂) =>
          if b < 0xf0 then
            (Char.ofNat ((b - 0xe0) * 0x1000 + (c - 0x80) * 0x40 + (d - 0x80)), rest₂)
          else
            match nextByte laterByte rest₂ with
            | none => (replacement, rest₂)
            | some (e, rest₃) =>
              (Char.ofNat ((b - 0xf0) * 0x40000 + (c - 0x80) * 0x1000 + (d - 0x80) * 0x40 +
                (e - 0x80)), rest₃)

theorem length_nextByte {accept : Nat → Bool} {bytes rest : Bytes} {c : Nat}
    (h : nextByte accept bytes = some (c, rest)) : rest.length ≤ bytes.length := by
  cases bytes with
  | nil => cases h
  | cons b bytes =>
    rw [nextByte] at h
    split at h
    · cases h
      exact Nat.le_succ _
    · cases h

theorem length_decodeOne (b : Nat) (rest : Bytes) : (decodeOne b rest).2.length ≤ rest.length := by
  unfold decodeOne
  split
  · exact Nat.le_refl _
  split
  · exact Nat.le_refl _
  split
  · exact Nat.le_refl _
  rename_i c rest₁ h₁
  have hle₁ := length_nextByte h₁
  split
  · exact hle₁
  split
  · exact hle₁
  rename_i d rest₂ h₂
  have hle₂ := length_nextByte h₂
  split
  · exact hle₂.trans hle₁
  split
  · exact hle₂.trans hle₁
  rename_i e rest₃ h₃
  exact (length_nextByte h₃).trans (hle₂.trans hle₁)

/-- `data.decode("utf-8", errors="replace")`. -/
def decodeUtf8Replace : Bytes → List Char
  | [] => []
  | b :: rest => (decodeOne b.toNat rest).1 :: decodeUtf8Replace (decodeOne b.toNat rest).2
termination_by bytes => bytes.length
decreasing_by exact Nat.lt_succ_of_le (length_decodeOne _ _)

theorem decodeUtf8Replace_ascii {bytes : Bytes} (h : ∀ b ∈ bytes, b.toNat < 0x80) :
    decodeUtf8Replace bytes = bytes.map fun b => Char.ofNat b.toNat := by
  induction bytes with
  | nil => rw [decodeUtf8Replace, List.map_nil]
  | cons b bytes ih =>
    have hone : decodeOne b.toNat bytes = (Char.ofNat b.toNat, bytes) :=
      if_pos (h b List.mem_cons_self)
    rw [decodeUtf8Replace, hone, List.map_cons, ih fun c hc => h c (List.mem_cons_of_mem _ hc)]

/-- ASCII bytes survive decoding and encoding. -/
theorem encodeUtf8_decodeUtf8Replace {bytes : Bytes} (h : ∀ b ∈ bytes, b.toNat < 0x80) :
    encodeUtf8 (decodeUtf8Replace bytes) = bytes := by
  have hnat : ∀ b ∈ bytes, (Char.ofNat b.toNat).toNat = b.toNat := by
    intro b hb
    rw [Char.toNat_ofNat, if_pos (Or.inl (by have := h b hb; omega))]
  rw [decodeUtf8Replace_ascii h, encodeUtf8_ascii, List.map_map]
  · refine (List.map_congr_left fun b hb => ?_).trans (List.map_id _)
    simp [hnat b hb]
  · intro c hc
    obtain ⟨b, hb, rfl⟩ := List.mem_map.mp hc
    rw [hnat b hb]
    exact h b hb

end Noema.Lib
