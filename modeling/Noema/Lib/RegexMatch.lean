import Noema.Lib.Regex
import Mathlib.Data.List.Basic
import Mathlib.Tactic.Common

/-!
# What a pattern matches

`Pat.run` lists the matches at a position in the order of the matcher. The lemmas here say which
matches there are, which one comes first, and what a search finds. The three questions are separate
because their proofs are: which matches there are is a set, closed under concatenation; which one
comes first depends on greed; and a search quantifies over positions.

- `mem_run_one` … `mem_run_lit`: the matches of a pattern, one lemma for each constructor. Every
  match takes a part of the text (`exists_append_of_mem_run`), so the position after it is the
  position before it and the part, and the previous character is its last one (`Match.after`);
- `exists_of_head?_seq`, `head?_seq`: the first match of a sequence is the first match of its first
  part that the second part can go on from. A greedy class takes all that it can (`head?_many`,
  `head?_many1`) unless what follows is refused, so for the patterns in use the first match is read
  off the text without looking at the others;
- `search_eq_none_iff`, `search_eq_some`: a search is the first match at the first position that has
  one;
- `occurrences`, `search_eq_head?`: all occurrences of a pattern, of which a search finds the first.
  A program that uses `re.search` where it means all of them differs from its intention by the rest
  of this list.

`Unicode.Lawful` is what the lemmas need of the character data; ASCII has it
(`Unicode.ascii_lawful`).
-/

namespace Noema.Lib

/-! ## Character data -/

/-- What Python documents of the characters: `\d` and `\w` on ASCII text, and that decimals are word
characters and whitespace is none. -/
structure Unicode.Lawful (u : Unicode) : Prop where
  decimal_ascii : ∀ c : Char, c.toNat < 128 → u.isDecimal c = c.isDigit
  word_ascii : ∀ c : Char, c.toNat < 128 → u.isWord c = (c.isAlphanum || c == '_')
  decimal_micro : u.isDecimal 'µ' = false
  word_of_decimal : ∀ c, u.isDecimal c = true → u.isWord c = true
  not_word_of_space : ∀ c, isSpace c = true → u.isWord c = false

theorem isAlphanum_of_isSpace {c : Char} (h : isSpace c = true) : c.isAlphanum = false := by
  have hout : c.val.toNat ≤ 32 ∨ 133 ≤ c.val.toNat := by
    simp only [isSpace, Char.toNat, Bool.or_eq_true, Bool.and_eq_true, decide_eq_true_eq,
      beq_iff_eq] at h
    omega
  have hletters : 'A'.val.toNat = 65 ∧ 'Z'.val.toNat = 90 ∧ 'a'.val.toNat = 97 ∧
      'z'.val.toNat = 122 ∧ '0'.val.toNat = 48 ∧ '9'.val.toNat = 57 := by decide
  simp only [Char.isAlphanum, Char.isAlpha, Char.isUpper, Char.isLower, Char.isDigit,
    Bool.or_eq_false_iff, Bool.and_eq_false_iff, decide_eq_false_iff_not, ge_iff_le,
    UInt32.le_iff_toNat_le]
  omega

theorem Unicode.ascii_lawful : Unicode.ascii.Lawful where
  decimal_ascii _ _ := rfl
  word_ascii _ _ := rfl
  decimal_micro := rfl
  word_of_decimal c h := by
    have hdigit : c.isDigit = true := h
    show (c.isAlphanum || c == '_') = true
    rw [Char.isAlphanum, hdigit, Bool.or_true, Bool.true_or]
  not_word_of_space c h := by
    have hne : c ≠ '_' := by
      rintro rfl
      exact absurd h Bool.false_ne_true
    show (c.isAlphanum || c == '_') = false
    rw [isAlphanum_of_isSpace h, beq_false_of_ne hne, Bool.or_false]

namespace Pat

/-! ## Positions -/

/-- What is left of a match after a text. -/
def Match.after (m : Match) (cs rest : List Char) : Match :=
  ⟨⟨cs.getLast?.or m.pos.prev, rest⟩, m.groups⟩

theorem getLast?_cons_or (c : Char) (cs : List Char) (prev : Option Char) :
    (c :: cs).getLast?.or prev = cs.getLast?.or (some c) := by
  rw [List.getLast?_cons]
  cases cs.getLast? <;> rfl

theorem Match.after_nil (m : Match) : m.after [] m.pos.rest = m := rfl

theorem Match.after_after (m : Match) (cs ds rest rest' : List Char) :
    (m.after cs rest).after ds rest' = m.after (cs ++ ds) rest' := by
  rw [Match.after, Match.after, Match.after, List.getLast?_append, Option.or_assoc]

theorem Pos.advance_append (prev : Option Char) (cs rest : List Char) :
    (⟨prev, cs ++ rest⟩ : Pos).advance cs.length = ⟨cs.getLast?.or prev, rest⟩ := by
  induction cs generalizing prev with
  | nil => rfl
  | cons c cs ih =>
    rw [getLast?_cons_or, ← ih (some c)]
    rfl

theorem Pos.mem_back {pos p : Pos} {least n : Nat} :
    p ∈ pos.back least n ↔ ∃ k, least ≤ k ∧ k ≤ n ∧ p = pos.advance k := by
  induction n with
  | zero =>
    rw [Pos.back]
    split
    · next h =>
      rw [List.mem_singleton]
      constructor
      · rintro rfl
        exact ⟨0, by omega, le_rfl, rfl⟩
      · rintro ⟨k, -, hk, rfl⟩
        rw [Nat.le_zero.mp hk, Pos.advance]
    · next h =>
      simp only [List.not_mem_nil, false_iff]
      rintro ⟨k, hleast, hk, -⟩
      omega
  | succ n ih =>
    rw [Pos.back]
    split
    · next h =>
      rw [List.mem_cons, ih]
      constructor
      · rintro (rfl | ⟨k, hleast, hk, rfl⟩)
        · exact ⟨n + 1, h, le_rfl, rfl⟩
        · exact ⟨k, hleast, by omega, rfl⟩
      · rintro ⟨k, hleast, hk, rfl⟩
        -- the longest run is tried first, then the shorter ones
        rcases Nat.lt_or_eq_of_le hk with hlt | rfl
        · exact .inr ⟨k, hleast, by omega, rfl⟩
        · exact .inl rfl
    · next h =>
      simp only [List.not_mem_nil, false_iff]
      rintro ⟨k, hleast, hk, -⟩
      omega

/-- The farthest position at which a function has a value. -/
theorem Pos.findSome?_back {α : Type} {f : Pos → Option α} {pos : Pos} {least n : Nat} {a : α}
    (h : (pos.back least n).findSome? f = some a) :
    ∃ k, least ≤ k ∧ k ≤ n ∧ f (pos.advance k) = some a ∧
      ∀ j, k < j → j ≤ n → f (pos.advance j) = none := by
  induction n with
  | zero =>
    rw [Pos.back] at h
    split at h
    · next hleast =>
      refine ⟨0, by omega, le_rfl, ?_, fun j hlt hle => by omega⟩
      simpa [Pos.advance] using h
    · cases h
  | succ n ih =>
    rw [Pos.back] at h
    split at h
    · next hleast =>
      rw [List.findSome?_cons] at h
      split at h
      · next b hb =>
        exact ⟨n + 1, hleast, le_rfl, hb.trans h, fun j hlt hle => by omega⟩
      · next hnone =>
        obtain ⟨k, hk, hkn, hvalue, hfar⟩ := ih h
        refine ⟨k, hk, by omega, hvalue, fun j hlt hle => ?_⟩
        rcases Nat.lt_or_eq_of_le hle with hlt' | rfl
        · exact hfar j hlt (by omega)
        · exact hnone
    · cases h

/-- The first characters of a class are what lies in it before the rest of a text. -/
theorem le_takeWhile_iff {p : Char → Bool} {text : List Char} {k : Nat} :
    k ≤ (text.takeWhile p).length ↔ k ≤ text.length ∧ ∀ c ∈ text.take k, p c = true := by
  induction text generalizing k with
  | nil => cases k <;> simp
  | cons c text ih =>
    cases k with
    | zero => simp
    | succ k =>
      rw [List.takeWhile_cons]
      split
      · next h => simp [ih, h]
      · next h => simp [h]

/-! ## Matches -/

variable {u : Unicode} {m m' : Match}

section Equations

variable (u) (r s : Pat) (p : Char → Bool) (m : Match)

theorem run_eps : run u .eps m = [m] := rfl

theorem run_one : run u (.one p) m =
    match m.pos.rest with
    | c :: cs => if p c then [⟨⟨some c, cs⟩, m.groups⟩] else []
    | [] => [] := rfl

theorem run_many : run u (.many p) m =
    (m.pos.back 0 (m.pos.rest.takeWhile p).length).map fun pos => ⟨pos, m.groups⟩ := rfl

theorem run_many1 : run u (.many1 p) m =
    (m.pos.back 1 (m.pos.rest.takeWhile p).length).map fun pos => ⟨pos, m.groups⟩ := rfl

theorem run_opt : run u (.opt r) m = run u r m ++ [m] := rfl

theorem run_seq : run u (.seq r s) m = (run u r m).flatMap (run u s) := rfl

theorem run_alt : run u (.alt r s) m = run u r m ++ run u s m := rfl

theorem run_group : run u (.group r) m = (run u r m).map fun m' =>
    ⟨m'.pos, m'.groups ++ [m.pos.rest.take (m.pos.rest.length - m'.pos.rest.length)]⟩ := rfl

theorem run_boundary : run u .boundary m = if m.pos.isBoundary u then [m] else [] := rfl

end Equations

theorem mem_run_one {p : Char → Bool} :
    m' ∈ run u (.one p) m ↔ ∃ c rest, m.pos.rest = c :: rest ∧ p c = true ∧ m' = m.after [c] rest := by
  rw [run_one]
  cases hrest : m.pos.rest with
  | nil => simp
  | cons c rest => simp [Match.after, and_comm]

theorem mem_run_back {p : Char → Bool} {least : Nat} :
    (∃ pos ∈ m.pos.back least (m.pos.rest.takeWhile p).length, ⟨pos, m.groups⟩ = m') ↔
      ∃ cs rest, m.pos.rest = cs ++ rest ∧ (∀ c ∈ cs, p c = true) ∧ least ≤ cs.length ∧
        m' = m.after cs rest := by
  constructor
  · rintro ⟨pos, hpos, rfl⟩
    obtain ⟨k, hleast, hk, rfl⟩ := Pos.mem_back.mp hpos
    obtain ⟨hlength, hall⟩ := le_takeWhile_iff.mp hk
    have htake : (m.pos.rest.take k).length = k := List.length_take_of_le hlength
    refine ⟨m.pos.rest.take k, m.pos.rest.drop k, (List.take_append_drop k _).symm, hall,
      htake.symm ▸ hleast, ?_⟩
    have h := Pos.advance_append m.pos.prev (m.pos.rest.take k) (m.pos.rest.drop k)
    rw [List.take_append_drop, htake] at h
    rw [Match.after, ← h]
  · rintro ⟨cs, rest, hrest, hall, hleast, rfl⟩
    refine ⟨m.pos.advance cs.length, Pos.mem_back.mpr ⟨cs.length, hleast, ?_, rfl⟩, ?_⟩
    · rw [le_takeWhile_iff, hrest, List.take_left]
      exact ⟨by simp, hall⟩
    · have h := Pos.advance_append m.pos.prev cs rest
      rw [← hrest] at h
      rw [h, Match.after]

theorem mem_run_many {p : Char → Bool} :
    m' ∈ run u (.many p) m ↔
      ∃ cs rest, m.pos.rest = cs ++ rest ∧ (∀ c ∈ cs, p c = true) ∧ m' = m.after cs rest := by
  rw [run_many, List.mem_map, mem_run_back]
  simp

theorem mem_run_many1 {p : Char → Bool} :
    m' ∈ run u (.many1 p) m ↔ ∃ cs rest, m.pos.rest = cs ++ rest ∧ (∀ c ∈ cs, p c = true) ∧
      cs ≠ [] ∧ m' = m.after cs rest := by
  rw [run_many1, List.mem_map, mem_run_back]
  simp [Nat.one_le_iff_ne_zero]

theorem mem_run_seq {r s : Pat} :
    m' ∈ run u (.seq r s) m ↔ ∃ m₁ ∈ run u r m, m' ∈ run u s m₁ := by
  rw [run_seq, List.mem_flatMap]

theorem mem_run_opt {r : Pat} : m' ∈ run u (.opt r) m ↔ m' ∈ run u r m ∨ m' = m := by
  rw [run_opt, List.mem_append, List.mem_singleton]

theorem mem_run_alt {r s : Pat} :
    m' ∈ run u (.alt r s) m ↔ m' ∈ run u r m ∨ m' ∈ run u s m := by
  rw [run_alt, List.mem_append]

theorem mem_run_lit {text : String} :
    m' ∈ run u (.lit text) m ↔
      ∃ rest, m.pos.rest = text.toList ++ rest ∧ m' = m.after text.toList rest := by
  rw [lit]
  induction text.toList generalizing m with
  | nil =>
    rw [List.foldr_nil, run_eps, List.mem_singleton]
    constructor
    · rintro rfl
      exact ⟨_, rfl, m'.after_nil.symm⟩
    · rintro ⟨rest, hrest, rfl⟩
      rw [List.nil_append] at hrest
      rw [← hrest, m.after_nil]
  | cons c cs ih =>
    rw [List.foldr_cons, mem_run_seq]
    simp only [mem_run_one, ih, decide_eq_true_eq]
    constructor
    · rintro ⟨_, ⟨c', rest, hm, rfl, rfl⟩, rest', hrest, rfl⟩
      exact ⟨rest', hm.trans (congrArg _ hrest), m.after_after [c'] cs rest rest'⟩
    · rintro ⟨rest, hrest, rfl⟩
      exact ⟨m.after [c] (cs ++ rest), ⟨c, cs ++ rest, hrest, rfl, rfl⟩, rest, rfl,
        (m.after_after [c] cs (cs ++ rest) rest).symm⟩

/-- A match takes a part of the text. -/
theorem exists_append_of_mem_run {r : Pat} (h : m' ∈ run u r m) :
    ∃ cs, m.pos.rest = cs ++ m'.pos.rest ∧ m'.pos.prev = cs.getLast?.or m.pos.prev := by
  induction r generalizing m m' with
  | eps =>
    rw [run_eps, List.mem_singleton] at h
    exact ⟨[], by rw [h]; rfl, by rw [h]; rfl⟩
  | one p =>
    obtain ⟨c, rest, hrest, -, rfl⟩ := mem_run_one.mp h
    exact ⟨[c], hrest, rfl⟩
  | many p =>
    obtain ⟨cs, rest, hrest, -, rfl⟩ := mem_run_many.mp h
    exact ⟨cs, hrest, rfl⟩
  | many1 p =>
    obtain ⟨cs, rest, hrest, -, -, rfl⟩ := mem_run_many1.mp h
    exact ⟨cs, hrest, rfl⟩
  | opt r ih =>
    rcases mem_run_opt.mp h with h | rfl
    · exact ih h
    · exact ⟨[], rfl, rfl⟩
  | seq r s ihr ihs =>
    -- the texts of the two parts, one after the other
    obtain ⟨m₁, h₁, h₂⟩ := mem_run_seq.mp h
    obtain ⟨cs, hrest, hprev⟩ := ihr h₁
    obtain ⟨ds, hrest', hprev'⟩ := ihs h₂
    refine ⟨cs ++ ds, by rw [hrest, hrest', List.append_assoc], ?_⟩
    rw [hprev', hprev, List.getLast?_append, Option.or_assoc]
  | alt r s ihr ihs => exact (mem_run_alt.mp h).elim ihr ihs
  | group r ih =>
    rw [run_group, List.mem_map] at h
    obtain ⟨m₁, h₁, rfl⟩ := h
    obtain ⟨cs, hrest, hprev⟩ := ih h₁
    exact ⟨cs, hrest, hprev⟩
  | boundary =>
    rw [run_boundary] at h
    split at h
    · rw [List.mem_singleton] at h
      exact ⟨[], by rw [h]; rfl, by rw [h]; rfl⟩
    · cases h

/-- A group holds the text that was taken. -/
theorem mem_run_group {r : Pat} :
    m' ∈ run u (.group r) m ↔ ∃ m₁ ∈ run u r m, ∃ cs, m.pos.rest = cs ++ m₁.pos.rest ∧
      m' = ⟨m₁.pos, m₁.groups ++ [cs]⟩ := by
  have htake : ∀ {cs rest : List Char}, (cs ++ rest).take ((cs ++ rest).length - rest.length) = cs := by
    intro cs rest
    rw [List.length_append, Nat.add_sub_cancel, List.take_left]
  rw [run_group, List.mem_map]
  constructor
  · rintro ⟨m₁, h₁, rfl⟩
    obtain ⟨cs, hrest, -⟩ := exists_append_of_mem_run h₁
    exact ⟨m₁, h₁, cs, hrest, by rw [hrest, htake]⟩
  · rintro ⟨m₁, h₁, cs, hrest, rfl⟩
    exact ⟨m₁, h₁, by rw [hrest, htake]⟩

/-! ## The first match -/

theorem exists_of_head?_seq {r s : Pat} (h : (run u (.seq r s) m).head? = some m') :
    ∃ m₁ ∈ run u r m, (run u s m₁).head? = some m' := by
  rw [run_seq, List.head?_flatMap] at h
  exact List.exists_of_findSome?_eq_some h

theorem head?_seq {r s : Pat} {m₁ : Match} (h₁ : (run u r m).head? = some m₁)
    (h : (run u s m₁).head? = some m') : (run u (.seq r s) m).head? = some m' := by
  obtain ⟨ms, hms⟩ := List.head?_eq_some_iff.mp h₁
  rw [run_seq, hms, List.flatMap_cons, List.head?_append, h, Option.some_or]

theorem Pos.head?_back (pos : Pos) {least n : Nat} (h : least ≤ n) :
    (pos.back least n).head? = some (pos.advance n) := by
  cases n with
  | zero =>
    rw [Pos.back, if_pos (Nat.le_zero.mp h)]
    rfl
  | succ n =>
    rw [Pos.back, if_pos h]
    rfl

/-- What the class holds at the head of a text, up to a character that is not in it. -/
theorem takeWhile_append {p : Char → Bool} {cs rest : List Char} (hcs : ∀ c ∈ cs, p c = true)
    (hrest : ∀ c ∈ rest.head?, p c = false) : (cs ++ rest).takeWhile p = cs := by
  have hnil : rest.takeWhile p = [] := by
    cases rest with
    | nil => rfl
    | cons c rest => rw [List.takeWhile_cons, hrest c rfl, if_neg Bool.false_ne_true]
  rw [List.takeWhile_append_of_pos hcs, hnil, List.append_nil]

theorem head?_many {p : Char → Bool} {cs rest : List Char} (hm : m.pos.rest = cs ++ rest)
    (hcs : ∀ c ∈ cs, p c = true) (hrest : ∀ c ∈ rest.head?, p c = false) :
    (run u (.many p) m).head? = some (m.after cs rest) := by
  have hadvance := Pos.advance_append m.pos.prev cs rest
  rw [← hm] at hadvance
  rw [run_many, List.head?_map, hm, takeWhile_append hcs hrest, Pos.head?_back _ (Nat.zero_le _),
    hadvance]
  rfl

theorem head?_many1 {p : Char → Bool} {cs rest : List Char} (hm : m.pos.rest = cs ++ rest)
    (hcs : ∀ c ∈ cs, p c = true) (hne : cs ≠ []) (hrest : ∀ c ∈ rest.head?, p c = false) :
    (run u (.many1 p) m).head? = some (m.after cs rest) := by
  have hadvance := Pos.advance_append m.pos.prev cs rest
  rw [← hm] at hadvance
  rw [run_many1, List.head?_map, hm, takeWhile_append hcs hrest,
    Pos.head?_back _ (List.length_pos_of_ne_nil hne), hadvance]
  rfl

theorem head?_group {r : Pat} {cs rest : List Char} (hm : m.pos.rest = cs ++ rest)
    (h : (run u r m).head? = some (m.after cs rest)) :
    (run u (.group r) m).head? = some ⟨(m.after cs rest).pos, m.groups ++ [cs]⟩ := by
  have htake : (cs ++ rest).take ((cs ++ rest).length - rest.length) = cs := by
    rw [List.length_append, Nat.add_sub_cancel, List.take_left]
  rw [run_group, List.head?_map, h, Option.map_some, hm]
  exact congrArg (fun cs => some (⟨_, m.groups ++ [cs]⟩ : Match)) htake

theorem head?_one {p : Char → Bool} {c : Char} {rest : List Char} (hm : m.pos.rest = c :: rest)
    (hc : p c = true) : (run u (.one p) m).head? = some (m.after [c] rest) := by
  rw [run_one, hm]
  simp [hc, Match.after]

theorem run_one_eq_nil {p : Char → Bool} (h : ∀ c ∈ m.pos.rest.head?, p c = false) :
    run u (.one p) m = [] := by
  rw [List.eq_nil_iff_forall_not_mem]
  intro m' hm'
  obtain ⟨c, rest, hrest, hc, -⟩ := mem_run_one.mp hm'
  rw [h c (by rw [hrest]; rfl)] at hc
  cases hc

theorem head?_lit {text : String} {rest : List Char} (hm : m.pos.rest = text.toList ++ rest) :
    (run u (.lit text) m).head? = some (m.after text.toList rest) := by
  have hmem : m.after text.toList rest ∈ run u (.lit text) m := mem_run_lit.mpr ⟨rest, hm, rfl⟩
  cases hhead : (run u (.lit text) m).head? with
  | none =>
    rw [List.head?_eq_none_iff.mp hhead] at hmem
    cases hmem
  | some m' =>
    obtain ⟨rest', hrest, rfl⟩ := mem_run_lit.mp (List.mem_of_head? hhead)
    rw [List.append_cancel_left (hm.symm.trans hrest)]

theorem head?_opt {r : Pat} (h : (run u r m).head? = some m') :
    (run u (.opt r) m).head? = some m' := by
  rw [run_opt, List.head?_append, h, Option.some_or]

theorem head?_opt_none {r : Pat} (h : run u r m = []) : (run u (.opt r) m).head? = some m := by
  rw [run_opt, h]
  rfl

/-- A repeated group takes as much as what follows it allows. -/
theorem head?_group_many1 {p : Char → Bool} {s : Pat}
    (h : (run u (.seq (.group (.many1 p)) s) m).head? = some m') :
    ∃ cs rest, m.pos.rest = cs ++ rest ∧ (∀ c ∈ cs, p c = true) ∧ cs ≠ [] ∧
      (run u s ⟨(m.after cs rest).pos, m.groups ++ [cs]⟩).head? = some m' ∧
      ∀ cs' rest', m.pos.rest = cs' ++ rest' → (∀ c ∈ cs', p c = true) →
        cs.length < cs'.length → run u s ⟨(m.after cs' rest').pos, m.groups ++ [cs']⟩ = [] := by
  -- the group after the first `cs` characters
  have hstep : ∀ {cs rest : List Char}, m.pos.rest = cs ++ rest →
      (⟨m.pos.advance cs.length, m.groups ++
        [m.pos.rest.take (m.pos.rest.length - (m.pos.advance cs.length).rest.length)]⟩ : Match) =
      ⟨(m.after cs rest).pos, m.groups ++ [cs]⟩ := by
    intro cs rest hrest
    have hadvance := Pos.advance_append m.pos.prev cs rest
    rw [← hrest] at hadvance
    rw [hadvance, hrest, List.length_append, Nat.add_sub_cancel, List.take_left]
    rfl
  rw [run_seq, run_group, run_many1, List.head?_flatMap, List.map_map, List.findSome?_map] at h
  obtain ⟨k, hpos, hk, hvalue, hfar⟩ := Pos.findSome?_back h
  obtain ⟨hlength, hall⟩ := le_takeWhile_iff.mp hk
  have htake : (m.pos.rest.take k).length = k := List.length_take_of_le hlength
  have hsplit : m.pos.rest = m.pos.rest.take k ++ m.pos.rest.drop k := (List.take_append_drop k _).symm
  refine ⟨m.pos.rest.take k, m.pos.rest.drop k, hsplit, hall, ?_, ?_, ?_⟩
  · exact List.ne_nil_of_length_pos (by omega)
  · rw [← hstep hsplit, htake]
    exact hvalue
  · intro cs' rest' hrest' hall' hlt
    rw [← hstep hrest']
    refine List.head?_eq_none_iff.mp (hfar cs'.length (by omega) ?_)
    rw [le_takeWhile_iff, hrest', List.take_left]
    exact ⟨by simp, hall'⟩

/-! ## Search -/

theorem searchFrom_eq_none_iff {r : Pat} {prev : Option Char} {text : List Char} :
    searchFrom u r prev text = none ↔
      ∀ pre rest, text = pre ++ rest → run u r ⟨⟨pre.getLast?.or prev, rest⟩, []⟩ = [] := by
  induction text generalizing prev with
  | nil =>
    rw [searchFrom, Option.map_eq_none_iff, List.head?_eq_none_iff]
    constructor
    · intro h pre rest htext
      obtain ⟨rfl, rfl⟩ := List.append_eq_nil_iff.mp htext.symm
      exact h
    · exact fun h => h [] [] rfl
  | cons c cs ih =>
    rw [searchFrom]
    split
    · next m ms hrun =>
      simp only [reduceCtorEq, false_iff]
      intro h
      have hnil := h [] (c :: cs) rfl
      rw [List.getLast?_nil, Option.none_or, hrun] at hnil
      cases hnil
    · next hrun =>
      rw [ih]
      constructor
      · intro h pre rest htext
        -- a match would start at the first character, or further on
        cases pre with
        | nil =>
          cases htext
          exact hrun
        | cons c' pre =>
          obtain ⟨rfl, rfl⟩ := List.cons.inj htext
          rw [getLast?_cons_or]
          exact h pre rest rfl
      · intro h pre rest htext
        have hrest := h (c :: pre) rest (congrArg _ htext)
        rwa [getLast?_cons_or] at hrest

theorem searchFrom_eq_some {r : Pat} {prev : Option Char} {text : List Char}
    {groups : List (List Char)} (h : searchFrom u r prev text = some groups) :
    ∃ pre rest, text = pre ++ rest ∧
      (∃ m, (run u r ⟨⟨pre.getLast?.or prev, rest⟩, []⟩).head? = some m ∧ m.groups = groups) ∧
      ∀ pre' rest', text = pre' ++ rest' → pre'.length < pre.length →
        run u r ⟨⟨pre'.getLast?.or prev, rest'⟩, []⟩ = [] := by
  induction text generalizing prev with
  | nil =>
    rw [searchFrom, Option.map_eq_some_iff] at h
    exact ⟨[], [], rfl, h, fun _ _ _ hlt => absurd hlt (Nat.not_lt_zero _)⟩
  | cons c cs ih =>
    rw [searchFrom] at h
    split at h
    · next m ms hrun =>
      refine ⟨[], c :: cs, rfl, ⟨m, ?_, Option.some.inj h⟩,
        fun _ _ _ hlt => absurd hlt (Nat.not_lt_zero _)⟩
      rw [List.getLast?_nil, Option.none_or, hrun]
      rfl
    · next hrun =>
      obtain ⟨pre, rest, rfl, hm, hearlier⟩ := ih h
      refine ⟨c :: pre, rest, rfl, by rwa [getLast?_cons_or], fun pre' rest' htext hlt => ?_⟩
      cases pre' with
      | nil =>
        cases htext
        exact hrun
      | cons c' pre' =>
        obtain ⟨rfl, hsplit⟩ := List.cons.inj htext
        rw [getLast?_cons_or]
        exact hearlier pre' rest' hsplit (Nat.lt_of_succ_lt_succ hlt)

/-- The first match at the first position that has one. -/
theorem search_eq_some {r : Pat} {text : List Char} {groups : List (List Char)}
    (h : search u r text = some groups) :
    ∃ pre rest, text = pre ++ rest ∧
      (∃ m, (run u r ⟨⟨pre.getLast?, rest⟩, []⟩).head? = some m ∧ m.groups = groups) ∧
      ∀ pre' rest', text = pre' ++ rest' → pre'.length < pre.length →
        run u r ⟨⟨pre'.getLast?, rest'⟩, []⟩ = [] := by
  simpa only [Option.or_none] using searchFrom_eq_some h

theorem search_eq_none_iff {r : Pat} {text : List Char} :
    search u r text = none ↔
      ∀ pre rest, text = pre ++ rest → run u r ⟨⟨pre.getLast?, rest⟩, []⟩ = [] := by
  simp only [search, searchFrom_eq_none_iff, Option.or_none]

/-! ## All occurrences -/

/-- The groups of the first match at each position that has one, in the order of the positions. -/
def occurrencesFrom (u : Unicode) (r : Pat) (prev : Option Char) : List Char → List (List (List Char))
  | [] => ((run u r ⟨⟨prev, []⟩, []⟩).head?.map Match.groups).toList
  | c :: cs =>
    ((run u r ⟨⟨prev, c :: cs⟩, []⟩).head?.map Match.groups).toList ++ occurrencesFrom u r (some c) cs

/-- The groups of all occurrences in a text. -/
def occurrences (u : Unicode) (r : Pat) (text : List Char) : List (List (List Char)) :=
  occurrencesFrom u r none text

/-- A search finds the first occurrence. -/
theorem search_eq_head? (r : Pat) (text : List Char) :
    search u r text = (occurrences u r text).head? := by
  have hfrom : ∀ prev, searchFrom u r prev text = (occurrencesFrom u r prev text).head? := by
    induction text with
    | nil =>
      intro prev
      rw [searchFrom, occurrencesFrom]
      cases (run u r ⟨⟨prev, []⟩, []⟩).head? <;> rfl
    | cons c cs ih =>
      intro prev
      rw [searchFrom, occurrencesFrom]
      cases run u r ⟨⟨prev, c :: cs⟩, []⟩ with
      | nil => exact ih (some c)
      | cons m ms => rfl
  exact hfrom none

end Pat

end Noema.Lib
