import Noema.Lib.Json

/-!
# The JSON codec round-trips

What the encoder writes, the decoder reads back, whatever comes after it. The proof goes through the
levels of the grammar from the bottom up:

- **Numbers.** A literal is scanned the same whatever follows it, unless the text goes on as a
  number (`EndsNumber`, `scanNumber_append`); so an item of a list is read up to its comma. The
  encoder writes integers without leading zeros (`toDigits_head_zero`), which the scanner insists
  on.
- **Strings.** One encoded character is a short escape, a `\u` escape, a pair of these, or the
  character itself (`escapeChar_cases`), and each is decoded in one step (`scanString_escapeChar`);
  `scanString_dumpsStr` is the induction over the characters. Beyond the basic plane the encoder
  writes a surrogate pair, which `unescape_surrogates` puts together again.
- **Values.** The decoder runs on fuel, the length of the text. Each case consumes its first
  character before it calls itself, so the fuel of a part suffices for the part, and the induction
  is over the value, its items and its pairs at once.

The results:

- `loads_dumps`: what `json.dumps` writes, `json.loads` reads back, up to `default=str`; hence
  `dumps` is injective up to `plain`.
- `dumps_textChar`: a JSON text has no control characters, and only ASCII characters under
  `ensure_ascii`. So it is one line of a file, and its UTF-8 bytes are its characters.
-/

namespace PyJson

open Noema.Lib (hexVal_digitChar)
variable {F : Type} [PyFloat F]

/-! ## Number literals -/

/-- Text that cannot continue a number literal. -/
def EndsNumber (rest : List Char) : Prop :=
  ∀ c ∈ rest.head?, c.isDigit = false ∧ c ∉ ['.', 'e', 'E', '+', '-']

theorem endsNumber_nil : EndsNumber [] := by
  intro c hc
  cases hc

theorem endsNumber_cons {c : Char} {cs : List Char} (hd : c.isDigit = false)
    (hn : c ∉ ['.', 'e', 'E', '+', '-']) : EndsNumber (c :: cs) := by
  intro d hd'
  cases hd'
  exact ⟨hd, hn⟩

section Append

variable {rest : List Char} (hrest : EndsNumber rest)

include hrest

theorem scanDigits_append (t : List Char) :
    scanDigits (t ++ rest) = ((scanDigits t).1, (scanDigits t).2 ++ rest) := by
  induction t with
  | nil =>
    cases rest with
    | nil => rfl
    | cons c cs =>
      have hc := (hrest c rfl).1
      simp [scanDigits, hc]
  | cons c cs ih =>
    rw [List.cons_append, scanDigits, scanDigits, ih]
    split <;> rfl

theorem scanFrac_append (t : List Char) :
    scanFrac (t ++ rest) = ((scanFrac t).1, (scanFrac t).2 ++ rest) := by
  cases t with
  | nil =>
    cases rest with
    | nil => rfl
    | cons c cs =>
      have hc := (hrest c rfl).2
      have : c ≠ '.' := fun h => hc (by simp [h])
      simp [scanFrac, this]
  | cons c cs =>
    by_cases hc : c = '.'
    · subst hc
      simp only [List.cons_append, scanFrac, scanDigits_append hrest]
      split <;> rfl
    · simp [scanFrac, hc]

theorem scanSign_append (t : List Char) :
    scanSign (t ++ rest) = ((scanSign t).1, (scanSign t).2 ++ rest) := by
  cases t with
  | nil =>
    cases rest with
    | nil => rfl
    | cons c cs =>
      have hc := (hrest c rfl).2
      have h₁ : c ≠ '+' := fun h => hc (by simp [h])
      have h₂ : c ≠ '-' := fun h => hc (by simp [h])
      simp [scanSign, h₁, h₂]
  | cons c cs =>
    by_cases h₁ : c = '+'
    · subst h₁
      rfl
    · by_cases h₂ : c = '-'
      · subst h₂
        rfl
      · simp [scanSign, h₁, h₂]

theorem scanExp_append (t : List Char) :
    scanExp (t ++ rest) = ((scanExp t).1, (scanExp t).2 ++ rest) := by
  cases t with
  | nil =>
    cases rest with
    | nil => rfl
    | cons c cs =>
      have hc := (hrest c rfl).2
      have h₁ : c ≠ 'e' := fun h => hc (by simp [h])
      have h₂ : c ≠ 'E' := fun h => hc (by simp [h])
      simp [scanExp, h₁, h₂]
  | cons c cs =>
    simp only [List.cons_append, scanExp, scanSign_append hrest, scanDigits_append hrest]
    split
    · split <;> rfl
    · rfl

theorem scanNat_append (t : List Char) :
    scanNat (t ++ rest) = (scanNat t).map fun r => (r.1, r.2 ++ rest) := by
  cases t with
  | nil =>
    cases rest with
    | nil => rfl
    | cons c cs =>
      have hc := (hrest c rfl).1
      have h0 : c ≠ '0' := by
        rintro rfl
        cases hc
      simp [scanNat, hc]
  | cons c cs =>
    by_cases h0 : c = '0'
    · subst h0
      rfl
    · simp only [List.cons_append, scanNat, scanDigits_append hrest]
      split <;> rfl

theorem scanInt_append (t : List Char) :
    scanInt (t ++ rest) = (scanInt t).map fun r => (r.1, r.2 ++ rest) := by
  cases t with
  | nil =>
    have h := scanNat_append hrest []
    cases rest with
    | nil => rfl
    | cons c cs =>
      have hc : c ≠ '-' := fun h => (hrest c rfl).2 (by simp [h])
      simpa [scanInt, hc] using h
  | cons c cs =>
    by_cases hc : c = '-'
    · subst hc
      simp only [List.cons_append, scanInt, scanNat_append hrest cs, Option.map_map]
      rfl
    · have h := scanNat_append hrest (c :: cs)
      simpa [scanInt, hc] using h

/-- A number literal is scanned the same whatever follows it. -/
theorem scanNumber_append (t : List Char) :
    scanNumber (t ++ rest) = (scanNumber t).map fun r => (r.1, r.2.1, r.2.2 ++ rest) := by
  rw [scanNumber, scanInt_append hrest, scanNumber, Option.map_map, Option.map_map]
  refine congrArg (Option.map · (scanInt t)) (funext fun r => ?_)
  simp only [Function.comp_apply, scanFrac_append hrest, scanExp_append hrest]

end Append

theorem scanDigits_of_all : ∀ {ds : List Char}, (∀ c ∈ ds, c.isDigit = true) →
    scanDigits ds = (ds, [])
  | [], _ => rfl
  | c :: cs, h => by
    have hc : c.isDigit = true := h c List.mem_cons_self
    have ih := scanDigits_of_all fun d hd => h d (List.mem_cons_of_mem _ hd)
    simp [scanDigits, hc, ih]

theorem toDigits_head_zero (n : Nat) : (Nat.toDigits 10 n).head? = some '0' → n = 0 := by
  induction n using Nat.strongRecOn with
  | ind n ih =>
    intro h
    by_cases hn : n < 10
    · rw [Nat.toDigits_of_lt_base hn] at h
      interval_cases n <;> first | rfl | simp at h
    · rw [Nat.toDigits_of_base_le (by decide) (by omega)] at h
      have hne : Nat.toDigits 10 (n / 10) ≠ [] := Nat.toDigits_ne_nil
      rw [List.head?_append_of_ne_nil _ hne] at h
      have := ih (n / 10) (by omega) h
      omega

theorem scanNat_toDigits (n : Nat) : scanNat (Nat.toDigits 10 n) = some (Nat.toDigits 10 n, []) := by
  have hdig : ∀ c ∈ Nat.toDigits 10 n, c.isDigit = true :=
    fun c hc => Nat.isDigit_of_mem_toDigits (by decide) (by decide) hc
  have hzero := toDigits_head_zero n
  have hne : Nat.toDigits 10 n ≠ [] := Nat.toDigits_ne_nil
  cases hds : Nat.toDigits 10 n with
  | nil => exact absurd hds hne
  | cons d ds =>
    rw [hds] at hdig hzero
    by_cases hd : d = '0'
    · have hn := hzero (by rw [hd]; rfl)
      subst hn hd
      cases hds
      rfl
    · have h := scanDigits_of_all fun c hc => hdig c (List.mem_cons_of_mem _ hc)
      simp [scanNat, hdig d List.mem_cons_self, h]

theorem scanInt_intText (i : Int) : scanInt (intText i) = some (intText i, []) := by
  unfold intText
  split
  · simp [scanInt, scanNat_toDigits]
  · have h := scanNat_toDigits i.natAbs
    generalize Nat.toDigits 10 i.natAbs = ds at *
    cases ds with
    | nil => exact h
    | cons c cs =>
      by_cases hc : c = '-'
      · subst hc
        cases h
      · simpa [scanInt, hc] using h

theorem scanNumber_intText (i : Int) : scanNumber (intText i) = some (intText i, [], []) := by
  rw [scanNumber, scanInt_intText]
  rfl

theorem intVal_intText (i : Int) : intVal (intText i) = i := by
  unfold intText
  split
  · rw [intVal, Nat.ofDigitChars_ten_toDigits]
    omega
  · have hdig : ∀ c ∈ Nat.toDigits 10 i.natAbs, c.isDigit = true :=
      fun c hc => Nat.isDigit_of_mem_toDigits (by decide) (by decide) hc
    have hval := Nat.ofDigitChars_ten_toDigits (n := i.natAbs)
    generalize Nat.toDigits 10 i.natAbs = ds at *
    have hpos : intVal ds = (Nat.ofDigitChars 10 ds 0 : Int) := by
      cases ds with
      | nil => rfl
      | cons c cs =>
        have hc : c ≠ '-' := by
          rintro rfl
          cases hdig '-' List.mem_cons_self
        simp [intVal, hc]
    rw [hpos, hval]
    omega

/-! ## Strings come back -/

theorem hex4_uEscape {n : Nat} (h : n < 0x10000) (cs : List Char) :
    hex4 ((uEscape n).drop 2 ++ cs) = some (n, cs) := by
  simp only [uEscape, List.drop_succ_cons, List.drop_zero, List.cons_append, List.nil_append, hex4,
    hexVal_digitChar (Nat.mod_lt _ (by decide : 0 < 16)), Option.bind_eq_bind, Option.bind_some]
  congr 2
  omega

theorem unescape_uEscape {c : Char} (h : c.toNat < 0x10000) (cs : List Char) :
    unescape ((uEscape c.toNat).drop 1 ++ cs) = some (c, cs) := by
  show unicodeEscape ((uEscape c.toNat).drop 2 ++ cs) = _
  have hvalid : c.toNat < 0xd800 ∨ 0xdfff < c.toNat := by
    rcases c.valid with h | h
    · exact .inl h
    · exact .inr h.1
  rw [unicodeEscape, hex4_uEscape h]
  dsimp only
  rw [if_neg (by omega), if_neg (by omega), Char.ofNat_toNat]

/-- An escaped surrogate pair stands for one character. -/
theorem unescape_surrogates {hi lo : Nat} (hhi : 0xd800 ≤ hi ∧ hi ≤ 0xdbff)
    (hlo : 0xdc00 ≤ lo ∧ lo ≤ 0xdfff) (cs : List Char) :
    unescape ((uEscape hi).drop 1 ++ (uEscape lo ++ cs))
      = some (Char.ofNat (0x10000 + (hi - 0xd800) * 1024 + (lo - 0xdc00)), cs) := by
  show unicodeEscape ((uEscape hi).drop 2 ++ ('\\' :: 'u' :: ((uEscape lo).drop 2 ++ cs))) = _
  have h₁ := hex4_uEscape (show hi < 0x10000 by omega)
    ('\\' :: 'u' :: ((uEscape lo).drop 2 ++ cs))
  have h₂ := hex4_uEscape (show lo < 0x10000 by omega) cs
  simp only [unicodeEscape, h₁, h₂, if_pos hhi, if_pos hlo]

theorem surrogates_toNat {c : Char} (h : ¬ c.toNat < 0x10000) :
    ∃ hi lo, 0xd800 + (c.toNat - 0x10000) / 1024 = hi ∧ 0xdc00 + (c.toNat - 0x10000) % 1024 = lo ∧
      (0xd800 ≤ hi ∧ hi ≤ 0xdbff) ∧ (0xdc00 ≤ lo ∧ lo ≤ 0xdfff) ∧
      Char.ofNat (0x10000 + (hi - 0xd800) * 1024 + (lo - 0xdc00)) = c := by
  have hvalid : c.toNat < 0x110000 := by
    rcases c.valid with h | h
    · exact Nat.lt_trans h (by decide)
    · exact h.2
  refine ⟨_, _, rfl, rfl, by omega, by omega, ?_⟩
  rw [show 0x10000 + (0xd800 + (c.toNat - 0x10000) / 1024 - 0xd800) * 1024
    + (0xdc00 + (c.toNat - 0x10000) % 1024 - 0xdc00) = c.toNat by omega, Char.ofNat_toNat]

theorem scanString_backslash {n : Nat} {cs rest : List Char} {e : Char}
    (h : unescape cs = some (e, rest)) :
    scanString (n + 1) ('\\' :: cs) = (scanString n rest).map fun r => (e :: r.1, r.2) := by
  simp [scanString, h]

/-- One encoded character is decoded in one step. -/
theorem scanString_escapeChar (ensureAscii : Bool) (c : Char) (n : Nat) (cs : List Char) :
    scanString (n + 1) (escapeChar ensureAscii c ++ cs)
      = (scanString n cs).map fun r => (c :: r.1, r.2) := by
  by_cases hsimple : c ∈ ['"', '\\', '\n', '\r', '\t', '\x08', '\x0c']
  · simp only [List.mem_cons, List.not_mem_nil, or_false] at hsimple
    rcases hsimple with rfl | rfl | rfl | rfl | rfl | rfl | rfl <;>
      exact scanString_backslash rfl
  · simp only [List.mem_cons, List.not_mem_nil, or_false, not_or] at hsimple
    obtain ⟨h₁, h₂, h₃, h₄, h₅, h₆, h₇⟩ := hsimple
    simp only [escapeChar, h₁, h₂, h₃, h₄, h₅, h₆, h₇, if_false]
    -- a control character is written in hexadecimal
    by_cases hctl : c.toNat < 0x20
    · rw [if_pos hctl]
      exact scanString_backslash (unescape_uEscape (by omega) cs)
    · rw [if_neg hctl]
      split
      · split
        · rename_i hbmp
          exact scanString_backslash (unescape_uEscape hbmp cs)
        · rename_i hbmp
          -- beyond the basic plane there are two escapes, which are read as one character
          obtain ⟨hi, lo, heqhi, heqlo, hhi, hlo, hchar⟩ := surrogates_toNat hbmp
          have hesc := unescape_surrogates hhi hlo cs
          rw [hchar] at hesc
          rw [heqhi, heqlo, List.append_assoc]
          exact scanString_backslash hesc
      · simp [scanString, h₁, h₂, hctl]

theorem scanString_flatMap (ensureAscii : Bool) (s rest : List Char) (n : Nat) (hn : s.length < n) :
    scanString n (s.flatMap (escapeChar ensureAscii) ++ '"' :: rest) = some (s, rest) := by
  induction s generalizing n with
  | nil =>
    cases n with
    | zero => cases hn
    | succ n => rfl
  | cons c s ih =>
    cases n with
    | zero => cases hn
    | succ n =>
      rw [List.flatMap_cons, List.append_assoc, scanString_escapeChar,
        ih n (Nat.lt_of_succ_lt_succ hn)]
      rfl

/-- An encoded character is a short escape, a `\u` escape, a pair of these, or the character. -/
theorem escapeChar_cases {P : List Char → Prop} {ensureAscii : Bool} {c : Char}
    (hshort : ∀ d ∈ ['"', '\\', 'n', 'r', 't', 'b', 'f'], P ['\\', d])
    (hunicode : ∀ n, P (uEscape n)) (hpair : ∀ m n, P (uEscape m ++ uEscape n))
    (hself : 0x20 ≤ c.toNat → (ensureAscii = true → c.toNat ≤ 0x7e) → P [c]) :
    P (escapeChar ensureAscii c) := by
  by_cases hsimple : c ∈ ['"', '\\', '\n', '\r', '\t', '\x08', '\x0c']
  · simp only [List.mem_cons, List.not_mem_nil, or_false] at hsimple
    rcases hsimple with rfl | rfl | rfl | rfl | rfl | rfl | rfl
    · exact hshort '"' (by decide)
    · exact hshort '\\' (by decide)
    · exact hshort 'n' (by decide)
    · exact hshort 'r' (by decide)
    · exact hshort 't' (by decide)
    · exact hshort 'b' (by decide)
    · exact hshort 'f' (by decide)
  · simp only [List.mem_cons, List.not_mem_nil, or_false, not_or] at hsimple
    obtain ⟨h₁, h₂, h₃, h₄, h₅, h₆, h₇⟩ := hsimple
    simp only [escapeChar, h₁, h₂, h₃, h₄, h₅, h₆, h₇, if_false]
    by_cases hctl : c.toNat < 0x20
    · rw [if_pos hctl]
      exact hunicode _
    · rw [if_neg hctl]
      split
      · split
        · exact hunicode _
        · exact hpair _ _
      next hascii =>
        refine hself (Nat.le_of_not_lt hctl) ?_
        intro h
        exact Nat.le_of_not_lt fun h' => hascii ⟨h, h'⟩

theorem escapeChar_ne_nil (ensureAscii : Bool) (c : Char) : escapeChar ensureAscii c ≠ [] := by
  refine escapeChar_cases (P := fun cs => cs ≠ []) ?_ ?_ ?_ ?_
  · intro d _
    exact List.cons_ne_nil _ _
  · intro n
    exact List.cons_ne_nil _ _
  · intro m n
    exact List.cons_ne_nil _ _
  · intro _ _
    exact List.cons_ne_nil _ _

theorem length_le_flatMap (ensureAscii : Bool) (s : List Char) :
    s.length ≤ (s.flatMap (escapeChar ensureAscii)).length := by
  induction s with
  | nil => exact Nat.le_refl _
  | cons c s ih =>
    have hc := List.length_pos_iff.mpr (escapeChar_ne_nil ensureAscii c)
    rw [List.flatMap_cons, List.length_append, List.length_cons]
    omega

/-- A quoted string is scanned back, whatever follows it. -/
theorem scanString_dumpsStr (ensureAscii : Bool) (s : String) (rest : List Char) {n : Nat}
    (hn : (dumpsStr ensureAscii s).length ≤ n + 1) :
    scanString n ((dumpsStr ensureAscii s).tail ++ rest) = some (s.toList, rest) := by
  have hlen := length_le_flatMap ensureAscii s.toList
  simp only [dumpsStr, List.length_cons, List.length_append, List.length_nil, List.cons_append] at hn
  rw [dumpsStr, List.cons_append, List.tail_cons, List.append_assoc]
  exact scanString_flatMap ensureAscii _ _ _ (by omega)

/-! ## The round trip -/

theorem dictInsert_of_not_mem {α : Type} {k : String} {v : α} :
    ∀ {d : List (String × α)}, k ∉ d.map Prod.fst → dictInsert k v d = d ++ [(k, v)]
  | [], _ => rfl
  | (k', v') :: d, h => by
    rw [List.map_cons, List.mem_cons, not_or] at h
    rw [dictInsert, if_neg (Ne.symm h.1), dictInsert_of_not_mem h.2]
    rfl

/-- Pairs with distinct keys already are a dict. -/
theorem dictOf_of_nodup {α : Type} {kvs : List (String × α)} (h : (kvs.map Prod.fst).Nodup) :
    dictOf kvs = kvs := by
  have key : ∀ (kvs d : List (String × α)), ((d ++ kvs).map Prod.fst).Nodup →
      kvs.foldl (fun d kv => dictInsert kv.1 kv.2 d) d = d ++ kvs := by
    intro kvs
    induction kvs with
    | nil =>
      intro d _
      simp
    | cons kv kvs ih =>
      intro d hd
      have hnot : kv.1 ∉ d.map Prod.fst := by
        intro hmem
        rw [List.map_append, List.nodup_append] at hd
        exact hd.2.2 _ hmem _ (List.mem_cons_self) rfl
      rw [List.foldl_cons, dictInsert_of_not_mem hnot, ih _ (by simpa using hd)]
      simp
  exact key kvs [] h

omit [PyFloat F] in
theorem map_fst_plainPairs (kvs : List (String × PyVal F)) :
    (plainPairs kvs).map Prod.fst = kvs.map Prod.fst := by
  induction kvs with
  | nil => rfl
  | cons kv kvs ih => simp [plainPairs, ih]

theorem scanNumber_head {t : List Char} {r : List Char × List Char × List Char}
    (h : scanNumber t = some r) : ∃ c cs, t = c :: cs ∧ (c = '-' ∨ c.isDigit = true) := by
  cases t with
  | nil => cases h
  | cons c cs =>
    refine ⟨c, cs, rfl, ?_⟩
    by_cases hc : c = '-'
    · exact .inl hc
    · refine .inr ?_
      by_contra hd
      have h0 : c ≠ '0' := by
        rintro rfl
        exact hd rfl
      simp [scanNumber, scanInt, scanNat, hc, hd] at h

theorem keyword_cons_ne {w c : Char} {word cs : List Char} (h : c ≠ w) :
    keyword (w :: word) (c :: cs) = none := by
  simp [keyword, Ne.symm h]

/-- What `scan_once` does on a text that starts with a number literal. -/
theorem parseValue_number {t rest : List Char} {int suffix : List Char} {n : Nat}
    (h : scanNumber t = some (int, suffix, [])) (hrest : EndsNumber rest) :
    (parseValue (n + 1) (t ++ rest) : Option (PyVal F × List Char))
      = if suffix = [] then some (.int (intVal int), rest)
        else some (.float (PyFloat.ofText (int ++ suffix)), rest) := by
  have happ := scanNumber_append hrest t
  rw [h] at happ
  obtain ⟨c, cs, rfl, hc⟩ := scanNumber_head h
  have hne : ∀ d : Char, d ≠ '-' → d.isDigit = false → c ≠ d := by
    rintro d hd hdig rfl
    rcases hc with rfl | hc
    · exact hd rfl
    · rw [hc] at hdig
      cases hdig
  have hq : c ≠ '"' := hne _ (by decide) (by decide)
  have hl : c ≠ '[' := hne _ (by decide) (by decide)
  have hb : c ≠ '\x7b' := hne _ (by decide) (by decide)
  have hnull : keyword ['n', 'u', 'l', 'l'] (c :: (cs ++ rest)) = none :=
    keyword_cons_ne (hne _ (by decide) (by decide))
  have htrue : keyword ['t', 'r', 'u', 'e'] (c :: (cs ++ rest)) = none :=
    keyword_cons_ne (hne _ (by decide) (by decide))
  have hfalse : keyword ['f', 'a', 'l', 's', 'e'] (c :: (cs ++ rest)) = none :=
    keyword_cons_ne (hne _ (by decide) (by decide))
  -- the first character belongs to none of the other values
  rw [List.cons_append] at happ ⊢
  rw [parseValue]
  · rw [parseScalar, hnull, htrue, hfalse, happ]
    rfl
  all_goals
    intro cs' heq
    cases heq
    contradiction

/-! A scanner cuts its input in two. -/

theorem scanDigits_cut (cs : List Char) : (scanDigits cs).1 ++ (scanDigits cs).2 = cs := by
  induction cs with
  | nil => rfl
  | cons c cs ih =>
    rw [scanDigits]
    split
    · simp [ih]
    · rfl

theorem scanFrac_cut (cs : List Char) : (scanFrac cs).1 ++ (scanFrac cs).2 = cs := by
  unfold scanFrac
  split
  · split
    · rfl
    · simp [scanDigits_cut]
  · rfl

theorem scanSign_cut (cs : List Char) : (scanSign cs).1 ++ (scanSign cs).2 = cs := by
  unfold scanSign
  split <;> rfl

theorem scanExp_cut (cs : List Char) : (scanExp cs).1 ++ (scanExp cs).2 = cs := by
  unfold scanExp
  split
  · split
    · dsimp only
      split
      · rfl
      · simp [scanDigits_cut, scanSign_cut]
    · rfl
  · rfl

theorem scanNat_cut {cs : List Char} {r : List Char × List Char} (h : scanNat cs = some r) :
    r.1 ++ r.2 = cs := by
  unfold scanNat at h
  split at h
  · cases h
    rfl
  · split at h
    · cases h
      simp [scanDigits_cut]
    · cases h
  · cases h

theorem scanInt_cut {cs : List Char} {r : List Char × List Char} (h : scanInt cs = some r) :
    r.1 ++ r.2 = cs := by
  unfold scanInt at h
  split at h
  · obtain ⟨r', hr', rfl⟩ := Option.map_eq_some_iff.mp h
    simp [scanNat_cut hr']
  · exact scanNat_cut h

theorem scanNumber_cut {cs int suffix rest : List Char}
    (h : scanNumber cs = some (int, suffix, rest)) : int ++ suffix ++ rest = cs := by
  obtain ⟨r, hr, heq⟩ := Option.map_eq_some_iff.mp h
  have hint := scanInt_cut hr
  have hfrac := scanFrac_cut r.2
  have hexp := scanExp_cut (scanFrac r.2).2
  cases heq
  rw [← hint, List.append_assoc, List.append_assoc, hexp, hfrac]

theorem parseValue_float {f : F} {rest : List Char} {n : Nat} (hrest : EndsNumber rest) :
    parseValue (n + 1) (PyFloat.repr f ++ rest) = some (.float f, rest) := by
  have htext := PyFloat.isFloatText_repr f
  have hback := PyFloat.ofText_repr f
  generalize PyFloat.repr f = t at *
  simp only [isFloatText, Bool.or_eq_true, beq_iff_eq] at htext
  rcases htext with ((rfl | rfl) | rfl) | hnum
  · subst hback
    rfl
  · subst hback
    rfl
  · subst hback
    rfl
  · cases hscan : scanNumber t with
    | none =>
      rw [hscan] at hnum
      cases hnum
    | some r =>
      obtain ⟨int, suffix, tail⟩ := r
      rw [hscan] at hnum
      obtain ⟨hsuffix, rfl⟩ : suffix ≠ [] ∧ tail = [] := by simpa using hnum
      have hcut := scanNumber_cut hscan
      rw [List.append_nil] at hcut
      rw [parseValue_number hscan hrest, if_neg hsuffix, hcut, hback]

theorem parseValue_int {i : Int} {rest : List Char} {n : Nat} (hrest : EndsNumber rest) :
    (parseValue (n + 1) (intText i ++ rest) : Option (PyVal F × List Char))
      = some (.int i, rest) := by
  rw [parseValue_number (scanNumber_intText i) hrest, if_pos rfl, intVal_intText]

theorem parseValue_str (ensureAscii : Bool) (s : String) (rest : List Char) {n : Nat}
    (hn : (dumpsStr ensureAscii s).length ≤ n + 1) :
    (parseValue (n + 1) (dumpsStr ensureAscii s ++ rest) : Option (PyVal F × List Char))
      = some (.str s, rest) := by
  have h := scanString_dumpsStr ensureAscii s rest hn
  show (scanString n ((dumpsStr ensureAscii s).tail ++ rest)).map _ = _
  rw [h, Option.map_some]
  dsimp only
  rw [String.ofList_toList]

theorem dumpsItems_ends (ensureAscii : Bool) (xs : List (PyVal F)) (rest : List Char) :
    EndsNumber (dumpsItems ensureAscii xs ++ rest) := by
  cases xs <;> exact endsNumber_cons (by decide) (by decide)

theorem dumpsPairs_ends (ensureAscii : Bool) (kvs : List (String × PyVal F)) (rest : List Char) :
    EndsNumber (dumpsPairs ensureAscii kvs ++ rest) := by
  cases kvs <;> exact endsNumber_cons (by decide) (by decide)

/-- Text that starts with neither whitespace, a closing bracket nor a byte order
mark. -/
def StartsValue (cs : List Char) : Prop :=
  ∃ c rest, cs = c :: rest ∧ c ∉ [' ', '\t', '\n', '\r', ']', '\x7d', '\ufeff']

theorem StartsValue.append {cs : List Char} (h : StartsValue cs) (rest : List Char) :
    StartsValue (cs ++ rest) := by
  obtain ⟨c, cs, rfl, hc⟩ := h
  exact ⟨c, cs ++ rest, rfl, hc⟩

theorem StartsValue.skipWs_eq {cs : List Char} (h : StartsValue cs) : skipWs cs = cs := by
  obtain ⟨c, cs, rfl, hc⟩ := h
  simp only [List.mem_cons, List.not_mem_nil, or_false, not_or] at hc
  simp [skipWs, hc]

theorem startsValue_number {t : List Char} {r : List Char × List Char × List Char}
    (h : scanNumber t = some r) : StartsValue t := by
  obtain ⟨c, cs, rfl, hc⟩ := scanNumber_head h
  refine ⟨c, cs, rfl, fun hmem => ?_⟩
  simp only [List.mem_cons, List.not_mem_nil, or_false] at hmem
  rcases hmem with rfl | rfl | rfl | rfl | rfl | rfl | rfl <;> revert hc <;> decide

theorem startsValue_float {t : List Char} (h : isFloatText t = true) : StartsValue t := by
  simp only [isFloatText, Bool.or_eq_true, beq_iff_eq] at h
  rcases h with ((rfl | rfl) | rfl) | hnum
  · exact ⟨_, _, rfl, by decide⟩
  · exact ⟨_, _, rfl, by decide⟩
  · exact ⟨_, _, rfl, by decide⟩
  · cases hscan : scanNumber t with
    | none =>
      rw [hscan] at hnum
      cases hnum
    | some r => exact startsValue_number hscan

theorem startsValue_dumps (ensureAscii : Bool) (v : PyVal F) : StartsValue (dumps ensureAscii v) := by
  cases v with
  | int i => exact startsValue_number (scanNumber_intText i)
  | float f => exact startsValue_float (PyFloat.isFloatText_repr f)
  | bool b => cases b <;> exact ⟨_, _, rfl, by decide⟩
  | list xs => cases xs <;> exact ⟨_, _, rfl, by decide⟩
  | dict kvs => cases kvs <;> exact ⟨_, _, rfl, by decide⟩
  | none => exact ⟨_, _, rfl, by decide⟩
  | str s => exact ⟨_, _, rfl, by decide⟩
  | other o => exact ⟨_, _, rfl, by decide⟩

theorem StartsValue.length_pos {cs : List Char} (h : StartsValue cs) : 0 < cs.length := by
  obtain ⟨c, cs, rfl, -⟩ := h
  exact Nat.succ_pos _

/-! One step of the decoder on the texts the encoder writes. -/

theorem parseValue_list {n : Nat} {cs mid rest : List Char} {x : PyVal F} {xs : List (PyVal F)}
    (hstart : StartsValue cs) (hx : parseValue n cs = some (x, mid))
    (hxs : parseItems n mid = some (xs, rest)) :
    parseValue (n + 1) ('[' :: cs) = some (.list (x :: xs), rest) := by
  have hws := hstart.skipWs_eq
  obtain ⟨c, cs, rfl, hc⟩ := hstart
  have hne : c ≠ ']' := fun h => hc (by simp [h])
  simp [parseValue, hws, hne, hx, hxs]

theorem parseItems_comma {n : Nat} {cs mid rest : List Char} {x : PyVal F} {xs : List (PyVal F)}
    (hstart : StartsValue cs) (hx : parseValue n cs = some (x, mid))
    (hxs : parseItems n mid = some (xs, rest)) :
    parseItems (n + 1) (',' :: ' ' :: cs) = some (x :: xs, rest) := by
  have hws : skipWs (' ' :: cs) = cs := hstart.skipWs_eq
  have hcomma : skipWs (',' :: ' ' :: cs) = ',' :: ' ' :: cs := rfl
  simp [parseItems, hcomma, hws, hx, hxs]

/-- A key, a colon and a value are read back. -/
theorem parsePair_key (ensureAscii : Bool) {k : String} {v : PyVal F} {cs rest : List Char}
    {n : Nat} (hk : (dumpsStr ensureAscii k).length ≤ n + 1) (hstart : StartsValue cs)
    (hv : parseValue n cs = some (v, rest)) :
    parsePair (n + 1) (dumpsStr ensureAscii k ++ ':' :: ' ' :: cs) = some ((k, v), rest) := by
  have hkey := scanString_dumpsStr ensureAscii k (':' :: ' ' :: cs) hk
  have hws : skipWs (' ' :: cs) = cs := hstart.skipWs_eq
  have hcolon : skipWs (':' :: ' ' :: cs) = ':' :: ' ' :: cs := rfl
  have hquote : dumpsStr ensureAscii k ++ ':' :: ' ' :: cs
      = '"' :: ((dumpsStr ensureAscii k).tail ++ ':' :: ' ' :: cs) := rfl
  rw [hquote]
  simp [parsePair, hkey, hcolon, hws, hv]

theorem parseValue_dict {n : Nat} {k cs mid rest : List Char} {kv : String × PyVal F}
    {kvs : List (String × PyVal F)} (hkv : parsePair n ('"' :: k ++ cs) = some (kv, mid))
    (hkvs : parsePairs n mid = some (kvs, rest)) :
    parseValue (n + 1) ('\x7b' :: '"' :: k ++ cs) = some (.dict (dictOf (kv :: kvs)), rest) := by
  have hws : skipWs ('"' :: (k ++ cs)) = '"' :: (k ++ cs) := rfl
  rw [List.cons_append] at hkv
  simp [parseValue, hws, hkv, hkvs]

theorem parsePairs_comma {n : Nat} {k cs mid rest : List Char} {kv : String × PyVal F}
    {kvs : List (String × PyVal F)} (hkv : parsePair n ('"' :: k ++ cs) = some (kv, mid))
    (hkvs : parsePairs n mid = some (kvs, rest)) :
    parsePairs (n + 1) (',' :: ' ' :: '"' :: k ++ cs) = some (kv :: kvs, rest) := by
  have hws : skipWs (' ' :: '"' :: (k ++ cs)) = '"' :: (k ++ cs) := rfl
  have hcomma : skipWs (',' :: ' ' :: '"' :: (k ++ cs)) = ',' :: ' ' :: '"' :: (k ++ cs) := rfl
  rw [List.cons_append] at hkv
  simp [parsePairs, hcomma, hws, hkv, hkvs]

mutual
theorem parseValue_dumps (ensureAscii : Bool) : ∀ (v : PyVal F), v.WF →
    ∀ (n : Nat) (rest : List Char), (dumps ensureAscii v).length ≤ n → EndsNumber rest →
      parseValue n (dumps ensureAscii v ++ rest) = some (v.plain, rest)
  | v, _, 0, _, hn, _ => absurd hn (Nat.not_le.mpr (startsValue_dumps ensureAscii v).length_pos)
  | .none, _, n + 1, rest, _, _ => rfl
  | .bool true, _, n + 1, rest, _, _ => rfl
  | .bool false, _, n + 1, rest, _, _ => rfl
  | .int i, _, n + 1, rest, _, hrest => parseValue_int hrest
  | .float f, _, n + 1, rest, _, hrest => parseValue_float hrest
  | .str s, _, n + 1, rest, hn, _ => parseValue_str ensureAscii s rest hn
  | .other o, _, n + 1, rest, hn, _ => parseValue_str ensureAscii o.str rest hn
  | .list [], _, n + 1, rest, _, _ => rfl
  | .list (x :: xs), hwf, n + 1, rest, hn, _ => by
    simp only [dumps, List.length_cons, List.cons_append, List.length_append] at hn
    have hx := parseValue_dumps ensureAscii x hwf.1 n (dumpsItems ensureAscii xs ++ rest) (by omega)
      (dumpsItems_ends ensureAscii xs rest)
    have hxs := parseItems_dumps ensureAscii xs hwf.2 n rest (by omega)
    rw [dumps, List.cons_append, List.cons_append, List.append_assoc]
    exact parseValue_list ((startsValue_dumps ensureAscii x).append _) hx hxs
  | .dict [], _, n + 1, rest, _, _ => rfl
  | .dict ((k, v) :: kvs), hwf, n + 1, rest, hn, _ => by
    simp only [dumps, List.length_cons, List.cons_append, List.length_append] at hn
    have hv := parseValue_dumps ensureAscii v hwf.2.1 (n - 1) (dumpsPairs ensureAscii kvs ++ rest)
      (by omega) (dumpsPairs_ends ensureAscii kvs rest)
    have hkvs := parsePairs_dumps ensureAscii kvs hwf.2.2 n rest (by omega)
    have hkv := parsePair_key ensureAscii (k := k) (by omega)
      ((startsValue_dumps ensureAscii v).append _) hv
    -- the parser keeps the last value of a key, and no key comes twice
    have hnodup : (((k, v.plain) :: plainPairs kvs).map Prod.fst).Nodup := by
      rw [List.map_cons, map_fst_plainPairs]
      exact hwf.1
    rw [show n - 1 + 1 = n by omega] at hkv
    have h := parseValue_dict hkv hkvs
    rw [dictOf_of_nodup hnodup] at h
    simpa [dumps, dumpsStr, PyVal.plain, plainPairs] using h
theorem parseItems_dumps (ensureAscii : Bool) : ∀ (xs : List (PyVal F)), wfItems xs →
    ∀ (n : Nat) (rest : List Char), (dumpsItems ensureAscii xs).length ≤ n →
      parseItems n (dumpsItems ensureAscii xs ++ rest) = some (plainItems xs, rest)
  | [], _, 0, _, hn => by simp [dumpsItems] at hn
  | _ :: _, _, 0, _, hn => by simp [dumpsItems] at hn
  | [], _, n + 1, rest, _ => rfl
  | x :: xs, hwf, n + 1, rest, hn => by
    simp only [dumpsItems, List.length_cons, List.cons_append, List.length_append] at hn
    have hx := parseValue_dumps ensureAscii x hwf.1 n (dumpsItems ensureAscii xs ++ rest) (by omega)
      (dumpsItems_ends ensureAscii xs rest)
    have hxs := parseItems_dumps ensureAscii xs hwf.2 n rest (by omega)
    rw [dumpsItems, List.cons_append, List.cons_append, List.cons_append, List.cons_append,
      List.append_assoc]
    exact parseItems_comma ((startsValue_dumps ensureAscii x).append _) hx hxs
theorem parsePairs_dumps (ensureAscii : Bool) : ∀ (kvs : List (String × PyVal F)), wfPairs kvs →
    ∀ (n : Nat) (rest : List Char), (dumpsPairs ensureAscii kvs).length ≤ n →
      parsePairs n (dumpsPairs ensureAscii kvs ++ rest) = some (plainPairs kvs, rest)
  | [], _, 0, _, hn => by simp [dumpsPairs] at hn
  | _ :: _, _, 0, _, hn => by simp [dumpsPairs] at hn
  | [], _, n + 1, rest, _ => rfl
  | (k, v) :: kvs, hwf, n + 1, rest, hn => by
    simp only [dumpsPairs, List.length_cons, List.cons_append, List.length_append] at hn
    have hv := parseValue_dumps ensureAscii v hwf.1 (n - 1) (dumpsPairs ensureAscii kvs ++ rest)
      (by omega) (dumpsPairs_ends ensureAscii kvs rest)
    have hkvs := parsePairs_dumps ensureAscii kvs hwf.2 n rest (by omega)
    have hkv := parsePair_key ensureAscii (k := k) (by omega)
      ((startsValue_dumps ensureAscii v).append _) hv
    rw [show n - 1 + 1 = n by omega] at hkv
    simpa [dumpsPairs, dumpsStr, plainPairs] using parsePairs_comma hkv hkvs
end

/-- **The round trip**: what `json.dumps` writes, `json.loads` reads back, up to
`default=str`. -/
theorem loads_dumps (ensureAscii : Bool) {v : PyVal F} (hwf : v.WF) :
    loads (dumps ensureAscii v) = some v.plain := by
  have h := parseValue_dumps ensureAscii v hwf ((dumps ensureAscii v).length + 1) [] (by omega)
    endsNumber_nil
  have hbom : (dumps ensureAscii v).head? ≠ some '\ufeff' := by
    obtain ⟨c, cs, hcs, hc⟩ := startsValue_dumps ensureAscii v
    rw [hcs]
    rintro ⟨⟩
    exact hc (by decide)
  rw [List.append_nil] at h
  rw [loads, if_neg hbom, (startsValue_dumps ensureAscii v).skipWs_eq, h]
  rfl

theorem dumps_plain_injective {ensureAscii : Bool} {v w : PyVal F} (hv : v.WF) (hw : w.WF)
    (h : dumps ensureAscii v = dumps ensureAscii w) : v.plain = w.plain := by
  have hback := loads_dumps ensureAscii hv
  rw [h, loads_dumps ensureAscii hw] at hback
  exact (Option.some.inj hback).symm

/-! ## The characters of a text -/

/-- A printable character, and an ASCII one under `ensure_ascii`. -/
def TextChar (ensureAscii : Bool) (c : Char) : Prop :=
  0x20 ≤ c.toNat ∧ (ensureAscii = true → c.toNat < 0x7f)

instance (ensureAscii : Bool) (c : Char) : Decidable (TextChar ensureAscii c) :=
  inferInstanceAs (Decidable (_ ∧ _))

theorem textChar_of_all (ensureAscii : Bool) (cs : List Char)
    (h : cs.all (fun c => 0x20 ≤ c.toNat && c.toNat < 0x7f) = true) :
    ∀ c ∈ cs, TextChar ensureAscii c := by
  intro c hc
  have hc := List.all_eq_true.mp h c hc
  simp only [Bool.and_eq_true, decide_eq_true_eq] at hc
  exact ⟨hc.1, fun _ => hc.2⟩

/-- A character of a number literal. -/
def NumberChar (c : Char) : Prop := c.isDigit = true ∨ c ∈ ['.', 'e', 'E', '+', '-']

theorem textChar_of_isDigit (ensureAscii : Bool) {c : Char} (h : c.isDigit = true) :
    TextChar ensureAscii c := by
  simp only [Char.isDigit, Bool.and_eq_true, decide_eq_true_eq] at h
  have hlo : 48 ≤ c.toNat := h.1
  have hhi : c.toNat ≤ 57 := h.2
  exact ⟨by omega, fun _ => by omega⟩

theorem NumberChar.textChar (ensureAscii : Bool) {c : Char} (h : NumberChar c) :
    TextChar ensureAscii c := by
  rcases h with h | h
  · exact textChar_of_isDigit ensureAscii h
  · exact textChar_of_all ensureAscii _ (by decide) c h

theorem scanDigits_chars {cs : List Char} : ∀ c ∈ (scanDigits cs).1, NumberChar c := by
  induction cs with
  | nil => simp [scanDigits]
  | cons d cs ih =>
    intro c hc
    rw [scanDigits] at hc
    split at hc
    · rename_i hd
      rcases List.mem_cons.mp hc with rfl | hc
      · exact .inl hd
      · exact ih c hc
    · cases hc

theorem scanFrac_chars {cs : List Char} : ∀ c ∈ (scanFrac cs).1, NumberChar c := by
  intro c hc
  unfold scanFrac at hc
  split at hc
  · split at hc
    · cases hc
    · rcases List.mem_cons.mp hc with rfl | hc
      · exact .inr (by decide)
      · exact scanDigits_chars c hc
  · cases hc

theorem scanSign_chars {cs : List Char} : ∀ c ∈ (scanSign cs).1, NumberChar c := by
  intro c hc
  unfold scanSign at hc
  split at hc
  · exact .inr (by simp_all)
  · exact .inr (by simp_all)
  · cases hc

theorem scanExp_chars {cs : List Char} : ∀ c ∈ (scanExp cs).1, NumberChar c := by
  intro c hc
  cases cs with
  | nil => cases hc
  | cons d cs =>
    rw [scanExp] at hc
    split at hc
    · rename_i hd
      dsimp only at hc
      split at hc
      · cases hc
      · rw [List.cons_append, List.mem_cons, List.mem_append] at hc
        rcases hc with rfl | hc | hc
        · rcases hd with rfl | rfl <;> exact .inr (by decide)
        · exact scanSign_chars c hc
        · exact scanDigits_chars c hc
    · cases hc

theorem scanNat_chars {cs : List Char} {r : List Char × List Char} (h : scanNat cs = some r) :
    ∀ c ∈ r.1, NumberChar c := by
  intro c hc
  unfold scanNat at h
  split at h
  · cases h
    rw [List.mem_singleton.mp hc]
    exact .inl (by decide)
  · split at h
    · rename_i hd
      cases h
      rcases List.mem_cons.mp hc with rfl | hc
      · exact .inl hd
      · exact scanDigits_chars c hc
    · cases h
  · cases h

theorem scanInt_chars {cs : List Char} {r : List Char × List Char} (h : scanInt cs = some r) :
    ∀ c ∈ r.1, NumberChar c := by
  intro c hc
  unfold scanInt at h
  split at h
  · obtain ⟨r', hr', rfl⟩ := Option.map_eq_some_iff.mp h
    rcases List.mem_cons.mp hc with rfl | hc
    · exact .inr (by decide)
    · exact scanNat_chars hr' c hc
  · exact scanNat_chars h c hc

theorem scanNumber_chars {cs int suffix rest : List Char}
    (h : scanNumber cs = some (int, suffix, rest)) : ∀ c ∈ int ++ suffix, NumberChar c := by
  intro c hc
  obtain ⟨r, hr, heq⟩ := Option.map_eq_some_iff.mp h
  cases heq
  simp only [List.mem_append] at hc
  rcases hc with hc | hc | hc
  · exact scanInt_chars hr c hc
  · exact scanFrac_chars c hc
  · exact scanExp_chars c hc

theorem intText_chars (i : Int) : ∀ c ∈ intText i, NumberChar c := by
  have h := scanNumber_chars (scanNumber_intText i)
  rwa [List.append_nil] at h

theorem floatText_chars {t : List Char} (h : isFloatText t = true) :
    ∀ c ∈ t, NumberChar c ∨ c ∈ ['-', 'N', 'a', 'I', 'n', 'f', 'i', 't', 'y'] := by
  simp only [isFloatText, Bool.or_eq_true, beq_iff_eq] at h
  rcases h with ((rfl | rfl) | rfl) | hnum
  · have hall : ∀ c ∈ nanText, c ∈ ['-', 'N', 'a', 'I', 'n', 'f', 'i', 't', 'y'] := by
      simp [nanText]
    exact fun c hc => .inr (hall c hc)
  · have hall : ∀ c ∈ infinityText, c ∈ ['-', 'N', 'a', 'I', 'n', 'f', 'i', 't', 'y'] := by
      simp [infinityText]
    exact fun c hc => .inr (hall c hc)
  · have hall : ∀ c ∈ '-' :: infinityText, c ∈ ['-', 'N', 'a', 'I', 'n', 'f', 'i', 't', 'y'] := by
      simp [infinityText]
    exact fun c hc => .inr (hall c hc)
  · cases hscan : scanNumber t with
    | none =>
      rw [hscan] at hnum
      cases hnum
    | some r =>
      obtain ⟨int, suffix, tail⟩ := r
      rw [hscan] at hnum
      obtain ⟨-, rfl⟩ : suffix ≠ [] ∧ tail = [] := by simpa using hnum
      have hcut := scanNumber_cut hscan
      rw [List.append_nil] at hcut
      exact fun c hc => .inl (scanNumber_chars hscan c (hcut ▸ hc))

theorem digitChar_textChar (ensureAscii : Bool) (n : Nat) : TextChar ensureAscii (Nat.digitChar (n % 16)) := by
  have h : ∀ m, m < 16 → ∀ b, TextChar b (Nat.digitChar m) := by decide
  exact h _ (Nat.mod_lt _ (by decide)) _

theorem uEscape_textChar (ensureAscii : Bool) (n : Nat) : ∀ c ∈ uEscape n, TextChar ensureAscii c := by
  intro c hc
  simp only [uEscape, List.mem_cons, List.not_mem_nil, or_false] at hc
  rcases hc with rfl | rfl | rfl | rfl | rfl | rfl
  · exact textChar_of_all ensureAscii ['\\'] (by decide) _ List.mem_cons_self
  · exact textChar_of_all ensureAscii ['u'] (by decide) _ List.mem_cons_self
  all_goals exact digitChar_textChar ensureAscii _

theorem escapeChar_textChar (ensureAscii : Bool) (c : Char) :
    ∀ d ∈ escapeChar ensureAscii c, TextChar ensureAscii d := by
  refine escapeChar_cases (P := fun cs => ∀ d ∈ cs, TextChar ensureAscii d) ?_ ?_ ?_ ?_
  · intro e he d hd
    have hescape : ∀ d ∈ ['\\', '"', 'n', 'r', 't', 'b', 'f'], TextChar ensureAscii d :=
      textChar_of_all ensureAscii _ (by decide)
    simp only [List.mem_cons, List.not_mem_nil, or_false] at he hd hescape
    refine hescape d ?_
    rcases hd with rfl | rfl
    · exact .inl rfl
    · tauto
  · intro n
    exact uEscape_textChar ensureAscii n
  · intro m n d hd
    rcases List.mem_append.mp hd with hd | hd
    · exact uEscape_textChar ensureAscii m d hd
    · exact uEscape_textChar ensureAscii n d hd
  · intro hprintable hascii d hd
    rw [List.mem_singleton.mp hd]
    exact ⟨hprintable, fun h => Nat.lt_succ_of_le (hascii h)⟩

theorem dumpsStr_textChar (ensureAscii : Bool) (s : String) :
    ∀ c ∈ dumpsStr ensureAscii s, TextChar ensureAscii c := by
  have hquote : ∀ c ∈ ['"'], TextChar ensureAscii c := textChar_of_all ensureAscii _ (by decide)
  intro c hc
  simp only [dumpsStr, List.cons_append, List.mem_cons, List.mem_append, List.mem_flatMap,
    List.not_mem_nil, or_false] at hc
  rcases hc with rfl | ⟨d, -, hc⟩ | rfl
  · exact hquote _ List.mem_cons_self
  · exact escapeChar_textChar ensureAscii d c hc
  · exact hquote _ List.mem_cons_self

theorem punctuation_textChar (ensureAscii : Bool) :
    ∀ c ∈ ['[', ']', '\x7b', '\x7d', ',', ':', ' '], TextChar ensureAscii c :=
  textChar_of_all ensureAscii _ (by decide)

mutual
/-- A JSON text has no control characters, and only ASCII ones under
`ensure_ascii`. -/
theorem dumps_textChar (ensureAscii : Bool) : ∀ (v : PyVal F),
    ∀ c ∈ dumps ensureAscii v, TextChar ensureAscii c
  | .none => textChar_of_all ensureAscii ['n', 'u', 'l', 'l'] (by decide)
  | .bool true => textChar_of_all ensureAscii ['t', 'r', 'u', 'e'] (by decide)
  | .bool false => textChar_of_all ensureAscii ['f', 'a', 'l', 's', 'e'] (by decide)
  | .int i => fun c hc => (intText_chars i c hc).textChar ensureAscii
  | .float f => fun c hc => by
    rcases floatText_chars (PyFloat.isFloatText_repr f) c hc with h | h
    · exact h.textChar ensureAscii
    · exact textChar_of_all ensureAscii _ (by decide) c h
  | .str s => dumpsStr_textChar ensureAscii s
  | .other o => dumpsStr_textChar ensureAscii o.str
  | .list [] => textChar_of_all ensureAscii ['[', ']'] (by decide)
  | .list (x :: xs) => fun c hc => by
    simp only [dumps, List.cons_append, List.mem_cons, List.mem_append] at hc
    -- the bracket, the first item, and the others
    rcases hc with rfl | hc | hc
    · exact punctuation_textChar ensureAscii _ (by decide)
    · exact dumps_textChar ensureAscii x c hc
    · exact dumpsItems_textChar ensureAscii xs c hc
  | .dict [] => textChar_of_all ensureAscii ['\x7b', '\x7d'] (by decide)
  | .dict ((k, v) :: kvs) => fun c hc => by
    simp only [dumps, List.cons_append, List.mem_cons, List.mem_append] at hc
    rcases hc with rfl | (hc | rfl | rfl | hc) | hc
    · exact punctuation_textChar ensureAscii _ (by decide)
    · exact dumpsStr_textChar ensureAscii k c hc
    · exact punctuation_textChar ensureAscii _ (by decide)
    · exact punctuation_textChar ensureAscii _ (by decide)
    · exact dumps_textChar ensureAscii v c hc
    · exact dumpsPairs_textChar ensureAscii kvs c hc
theorem dumpsItems_textChar (ensureAscii : Bool) : ∀ (xs : List (PyVal F)),
    ∀ c ∈ dumpsItems ensureAscii xs, TextChar ensureAscii c
  | [] => textChar_of_all ensureAscii [']'] (by decide)
  | x :: xs => fun c hc => by
    simp only [dumpsItems, List.cons_append, List.mem_cons, List.mem_append] at hc
    rcases hc with rfl | rfl | hc | hc
    · exact punctuation_textChar ensureAscii _ (by decide)
    · exact punctuation_textChar ensureAscii _ (by decide)
    · exact dumps_textChar ensureAscii x c hc
    · exact dumpsItems_textChar ensureAscii xs c hc
theorem dumpsPairs_textChar (ensureAscii : Bool) : ∀ (kvs : List (String × PyVal F)),
    ∀ c ∈ dumpsPairs ensureAscii kvs, TextChar ensureAscii c
  | [] => textChar_of_all ensureAscii ['\x7d'] (by decide)
  | (k, v) :: kvs => fun c hc => by
    simp only [dumpsPairs, List.cons_append, List.mem_cons, List.mem_append] at hc
    rcases hc with rfl | rfl | (hc | rfl | rfl | hc) | hc
    · exact punctuation_textChar ensureAscii _ (by decide)
    · exact punctuation_textChar ensureAscii _ (by decide)
    · exact dumpsStr_textChar ensureAscii k c hc
    · exact punctuation_textChar ensureAscii _ (by decide)
    · exact punctuation_textChar ensureAscii _ (by decide)
    · exact dumps_textChar ensureAscii v c hc
    · exact dumpsPairs_textChar ensureAscii kvs c hc
end

end PyJson
