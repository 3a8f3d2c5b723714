import Noema.Lib.Phrases
import Noema.Neurosymbolic.Symbolic

/-!
# Bound phrases (`neurosymbolic/symbolic.py`)

Every pattern of `_extract_bounds` is searched in every text. A text that states one bound is a
phrase of `_BOUND_PATTERNS` with a number after it; what the other patterns find in it is decided by
the last words of the phrase, since each of them ends directly before a number.

- `BoundPhrase`, `boundPhrases`: the table, with the words that the phrases of a pattern are written
  with. `reads_boundPhrases` says that the patterns match these words only.
- `BoundText`: a text that states a bound: a phrase that its pattern takes, white space, a numeral
  and a unit.
- `BoundText.number_at`, `BoundText.words_at`: where a number can stand in such a text, and that the
  words before it end the phrase.
- `BoundText.search_phrase`: a phrase that is found in the text ends the phrase of the text and has
  its number. By `kind_of_endsIn`, which compares the words of the table, it is of the same kind,
  with one exception.
- **`direction_iff`**: the bounds are that of the phrase and no other, if and only if the phrase is
  not "must not go above".
- `mustNotGoAbove_exact`: that phrase also holds "above", which is a lower bound, so that the limit
  is read as an equality.

The text is in lower case, as the source makes it before it searches.
-/

namespace Noema.Neurosymbolic

open Noema.Lib PyJson

/-! ## The table -/

/-- An entry of `_BOUND_PATTERNS`: the pattern of its phrase, its kind and the words that the
phrase is written with. -/
structure BoundPhrase where
  pattern : Pat
  kind : BoundKind
  wordings : List (List String)

/-- The phrases of `_BOUND_PATTERNS`. -/
def boundPhrases : List BoundPhrase :=
  [⟨.words ["no", "less", "than"], .lower, [["no", "less", "than"]]⟩,
    ⟨.words ["no", "more", "than"], .upper, [["no", "more", "than"]]⟩,
    ⟨.cat [.words ["must", "stay"], spaces, .alt (.lit "below") (.lit "under")], .upper,
      [["must", "stay", "below"], ["must", "stay", "under"]]⟩,
    ⟨.cat [.words ["must", "stay"], spaces, .alt (.lit "above") (.lit "over")], .lower,
      [["must", "stay", "above"], ["must", "stay", "over"]]⟩,
    ⟨.words ["must", "not", "exceed"], .upper, [["must", "not", "exceed"]]⟩,
    ⟨.words ["must", "not", "go", "above"], .upper, [["must", "not", "go", "above"]]⟩,
    ⟨.words ["greater", "than", "or", "equal", "to"], .lower,
      [["greater", "than", "or", "equal", "to"]]⟩,
    ⟨.words ["less", "than", "or", "equal", "to"], .upper, [["less", "than", "or", "equal", "to"]]⟩,
    ⟨.words ["at", "least"], .lower, [["at", "least"]]⟩,
    ⟨.words ["at", "most"], .upper, [["at", "most"]]⟩,
    ⟨.seq (.lit "minimum") (.opt (.lit "ly")), .lower, [["minimumly"], ["minimum"]]⟩,
    ⟨.seq (.lit "maximum") (.opt (.lit "ly")), .upper, [["maximumly"], ["maximum"]]⟩,
    ⟨.words ["up", "to"], .upper, [["up", "to"]]⟩,
    ⟨.lit "exactly", .exact, [["exactly"]]⟩,
    ⟨.cat [.boundary, .lit "exceed", .opt (.lit "s")], .upper, [["exceeds"], ["exceed"]]⟩,
    ⟨.seq .boundary (.lit "below"), .upper, [["below"]]⟩,
    ⟨.seq .boundary (.lit "above"), .lower, [["above"]]⟩]

theorem boundPatterns_eq (u : Unicode) :
    boundPatterns u = boundPhrases.map fun p => (phrase u p.pattern, p.kind) := rfl

/-- The phrases are written with the words of the table. -/
theorem reads_boundPhrases (u : Unicode) : ∀ p ∈ boundPhrases, Reads u p.pattern p.wordings := by
  have hwords : ∀ {w : String} {ws : List String}, (∀ x ∈ w :: ws, IsPlain x) →
      Reads u (.words (w :: ws)) [w :: ws] := fun h => Reads.words (List.cons_ne_nil _ _) h
  have hstay : Reads u (.words ["must", "stay"]) [["must", "stay"]] := hwords (by decide +kernel)
  have hplain : ∀ w ∈ ["below", "under", "above", "over", "exactly"], IsPlain w := by decide +kernel
  have hending : ∀ {w ending : String}, IsPlain w ∧ IsPlain (w ++ ending) →
      Reads u (.seq (.lit w) (.opt (.lit ending))) [[w ++ ending], [w]] := fun h =>
    Reads.ending h.1 h.2
  simp only [boundPhrases, List.forall_mem_cons, List.not_mem_nil, false_implies, implies_true,
    and_true]
  refine ⟨hwords ?_, hwords ?_, ?stayBelow, ?stayAbove, hwords ?_, hwords ?_, hwords ?_, hwords ?_,
    hwords ?_, hwords ?_, hending ?_, hending ?_, hwords ?_, .lit (hplain _ (by simp)), ?exceed,
    ?below, ?above⟩
  case stayBelow =>
    exact hstay.spaced ((Reads.lit (hplain _ (by simp))).alt (.lit (hplain _ (by simp)))).seq_eps
  case stayAbove =>
    exact hstay.spaced ((Reads.lit (hplain _ (by simp))).alt (.lit (hplain _ (by simp)))).seq_eps
  case exceed => exact (hending (by decide +kernel)).seq_seq_eps.boundary
  case below => exact (Reads.lit (hplain _ (by simp))).boundary
  case above => exact (Reads.lit (hplain _ (by simp))).boundary
  all_goals decide +kernel

/-- A phrase that ends in another phrase has its kind, unless it is `must not go above`. -/
theorem kind_of_endsIn : ∀ p ∈ boundPhrases, ∀ p' ∈ boundPhrases, p'.kind ≠ p.kind →
    ∀ ws ∈ p.wordings, ∀ ws' ∈ p'.wordings,
      endsIn (ws'.map String.toList) (ws.map String.toList) = true →
        ws = ["must", "not", "go", "above"] := by
  decide +kernel

theorem kind_of_mem_wordings : ∀ p ∈ boundPhrases,
    ["must", "not", "go", "above"] ∈ p.wordings → p.kind = .upper := by
  decide +kernel

/-- No phrase ends in the name of a field. -/
theorem not_endsIn_field : ∀ p ∈ boundPhrases, ∀ ws ∈ p.wordings, ∀ field ∈ ["min", "max"],
    endsIn [field.toList] (ws.map String.toList) = false := by
  decide +kernel

/-! ## Texts that state a bound -/

section Texts

variable (u : Unicode)

/-- A character of a number. -/
def isNumberChar (c : Char) : Bool := c == '-' || c == '+' || c == '.' || u.isDecimal c

/-- A character of a suffix. -/
def isUnitChar (c : Char) : Bool := isLetter c || c == 'µ'

/-- A numeral: a sign, decimals and a fraction. -/
structure IsNumeral (text : List Char) : Prop where
  parts : ∃ sign whole fraction, text = sign ++ (whole ++ fraction) ∧
    (sign = [] ∨ sign = ['-'] ∨ sign = ['+']) ∧
    (whole ≠ [] ∧ ∀ c ∈ whole, u.isDecimal c = true) ∧
    (fraction = [] ∨ ∃ ds, fraction = '.' :: ds ∧ ds ≠ [] ∧ ∀ c ∈ ds, u.isDecimal c = true)

/-- A number with its unit, as it follows a phrase. -/
structure Quantity where
  space : List Char
  numeral : List Char
  gap : List Char
  suffix : List Char
  isSpace_space : ∀ c ∈ space, isSpace c = true
  space_ne : space ≠ []
  isNumeral : IsNumeral u numeral
  isSpace_gap : ∀ c ∈ gap, isSpace c = true
  isUnit_suffix : ∀ c ∈ suffix, isUnitChar c = true

variable {u}

/-- The number and its unit. -/
def Quantity.amountText (q : Quantity u) : List Char := q.numeral ++ (q.gap ++ q.suffix)

/-- The text after the phrase. -/
def Quantity.text (q : Quantity u) : List Char := q.space ++ q.amountText

variable (u) in
/-- A text that states a bound: a phrase of the table that its pattern takes, and a number. -/
structure BoundText where
  entry : BoundPhrase
  mem : entry ∈ boundPhrases
  words : List Char
  quantity : Quantity u
  matched : ∃ m ∈ Pat.run u entry.pattern ⟨⟨none, words ++ quantity.text⟩, []⟩,
    m.pos.rest = quantity.text

/-- The text. -/
def BoundText.text (t : BoundText u) : List Char := t.words ++ t.quantity.text

theorem BoundText.written (t : BoundText u) : ∃ ws ∈ t.entry.wordings, Written ws t.words := by
  obtain ⟨m, hm, hrest⟩ := t.matched
  obtain ⟨ws, hws, text, rest, hsplit, rfl, hwritten⟩ := reads_boundPhrases u _ t.mem _ _ hm
  have hrest : rest = t.quantity.text := hrest
  have hsplit : t.words ++ t.quantity.text = text ++ rest := hsplit
  rw [hrest] at hsplit
  exact ⟨ws, hws, List.append_cancel_right hsplit ▸ hwritten⟩

/-! ## Characters -/

variable (hu : u.Lawful)

include hu

theorem not_isDecimal_of_isLetter {c : Char} (hc : isLetter c = true) : u.isDecimal c = false := by
  have hrange := toNat_of_isLetter hc
  have hdigits : '0'.toNat = 48 ∧ '9'.toNat = 57 := by decide
  have hval : c.toNat = c.val.toNat := rfl
  rw [hu.decimal_ascii c (by omega), Char.isDigit]
  simp only [Bool.and_eq_false_iff, decide_eq_false_iff_not, ge_iff_le, UInt32.le_iff_toNat_le]
  have hnine : '9'.val.toNat = 57 := by decide
  omega

theorem not_isDecimal_of_isSpace {c : Char} (hc : isSpace c = true) : u.isDecimal c = false := by
  by_contra h
  have hword := hu.word_of_decimal c (by simpa using h)
  rw [hu.not_word_of_space c hc] at hword
  cases hword

/-- What is no character of a number: letters, units and whitespace. -/
theorem not_isNumberChar {c : Char} (hc : isUnitChar c = true ∨ isSpace c = true) :
    isNumberChar u c = false := by
  have hdecimal : u.isDecimal c = false := by
    rcases hc with hc | hc
    · rcases Bool.or_eq_true_iff.mp hc with hc | hc
      · exact not_isDecimal_of_isLetter hu hc
      · rw [eq_of_beq hc, hu.decimal_micro]
    · exact not_isDecimal_of_isSpace hu hc
  have hsign : c ≠ '-' ∧ c ≠ '+' ∧ c ≠ '.' := by
    refine ⟨?_, ?_, ?_⟩ <;>
    · rintro rfl
      exact absurd hc (by decide)
  rw [isNumberChar, hdecimal, beq_false_of_ne hsign.1, beq_false_of_ne hsign.2.1,
    beq_false_of_ne hsign.2.2]
  rfl

omit hu in
theorem isNumberChar_of_numeral {text : List Char} (h : IsNumeral u text) :
    ∀ c ∈ text, isNumberChar u c = true := by
  obtain ⟨sign, whole, fraction, rfl, hsign, ⟨-, hwhole⟩, hfraction⟩ := h.parts
  intro c hc
  rcases List.mem_append.mp hc with hc | hc
  · rcases hsign with rfl | rfl | rfl
    · cases hc
    · rw [List.mem_singleton.mp hc]
      rfl
    · rw [List.mem_singleton.mp hc]
      rfl
  have hdecimal : ∀ {c : Char}, u.isDecimal c = true → isNumberChar u c = true := by
    intro c hc
    rw [isNumberChar, hc, Bool.or_true]
  rcases List.mem_append.mp hc with hc | hc
  · exact hdecimal (hwhole c hc)
  · rcases hfraction with rfl | ⟨ds, rfl, -, hds⟩
    · cases hc
    · rcases List.mem_cons.mp hc with rfl | hc
      · rfl
      · exact hdecimal (hds c hc)

/-! ## Where the number stands -/

/-- What stands before a number in the text is the phrase with its whitespace. -/
theorem BoundText.number_at (t : BoundText u) {pre rest : List Char} (h : t.text = pre ++ rest)
    (hpre : ∀ c ∈ pre.getLast?, isNumberChar u c = false)
    (hrest : ∃ c ∈ rest.head?, isNumberChar u c = true) :
    pre = t.words ++ t.quantity.space ∧ rest = t.quantity.amountText := by
  obtain ⟨ws, -, hwritten⟩ := t.written
  have hsplit : t.words ++ t.quantity.space ++ (t.quantity.numeral ++
      (t.quantity.gap ++ t.quantity.suffix)) = pre ++ rest := by
    rw [← h, BoundText.text, Quantity.text, Quantity.amountText, List.append_assoc]
  refine block_at hsplit (fun c hc => not_isNumberChar hu ?_)
    (isNumberChar_of_numeral t.quantity.isNumeral) (fun c hc => not_isNumberChar hu ?_) hpre hrest
  · rcases List.mem_append.mp hc with hc | hc
    · exact (hwritten.chars c hc).imp_left fun h => by rw [isUnitChar, h, Bool.true_or]
    · exact .inr (t.quantity.isSpace_space c hc)
  · rcases List.mem_append.mp hc with hc | hc
    · exact .inr (t.quantity.isSpace_gap c hc)
    · exact .inl (t.quantity.isUnit_suffix c hc)

/-- The phrase ends in every text of letters that stands directly before a number. -/
theorem BoundText.words_at (t : BoundText u) {pre text space rest : List Char}
    (h : t.text = pre ++ (text ++ (space ++ rest))) (hspace : ∀ c ∈ space, isSpace c = true)
    (hlast : ∃ c ∈ text.getLast?, isLetter c = true)
    (hrest : ∃ c ∈ rest.head?, isNumberChar u c = true) :
    t.words = pre ++ text ∧ rest = t.quantity.amountText := by
  obtain ⟨ws, -, hwritten⟩ := t.written
  obtain ⟨c, hc, hletter⟩ := hlast
  have hne : text ≠ [] := by
    rintro rfl
    cases hc
  have hlast' : (pre ++ text).getLast? = some c := by
    rwa [List.getLast?_append_of_ne_nil _ hne]
  -- what stands before the number ends with a letter or a space, and so with no character of one
  have hquiet : ∀ d ∈ (pre ++ text ++ space).getLast?, isNumberChar u d = false := by
    intro d hd
    rw [Option.mem_def, List.getLast?_append, hlast'] at hd
    cases hs : space.getLast? with
    | none =>
      rw [hs, Option.none_or, Option.some.injEq] at hd
      rw [← hd]
      exact not_isNumberChar hu (.inl (by rw [isUnitChar, hletter, Bool.true_or]))
    | some e =>
      rw [hs, Option.some_or, Option.some.injEq] at hd
      exact not_isNumberChar hu (.inr (hspace d (hd ▸ List.mem_of_getLast? hs)))
  have hsplit : t.text = pre ++ text ++ space ++ rest := by
    simpa only [List.append_assoc] using h
  obtain ⟨hpre, hamount⟩ := t.number_at hu hsplit hquiet hrest
  obtain ⟨d, hd, hdletter⟩ := hwritten.last
  refine ⟨?_, hamount⟩
  exact (eq_of_append_space hpre hspace t.quantity.isSpace_space
    ⟨c, hlast', not_isSpace_of_isLetter hletter⟩ ⟨d, hd, not_isSpace_of_isLetter hdletter⟩).symm

/-! ## The number of a match -/

omit hu

/-- A number begins with a sign or with one of its characters. -/
theorem head_of_sign {p : Char → Bool} {m m₁ m₂ : Pat.Match} (h₁ : m₁ ∈ Pat.run u signPat m)
    (h₂ : m₂ ∈ Pat.run u (.many1 p) m₁) (hp : ∀ c, p c = true → isNumberChar u c = true) :
    ∃ c ∈ m.pos.rest.head?, isNumberChar u c = true := by
  rcases Pat.mem_run_opt.mp h₁ with h | rfl
  · obtain ⟨c, rest, hrest, hc, -⟩ := Pat.mem_run_one.mp h
    refine ⟨c, by rw [hrest]; rfl, ?_⟩
    rw [isNumberChar, hc, Bool.true_or, Bool.true_or]
  · obtain ⟨cs, rest, hrest, hall, hne, -⟩ := Pat.mem_run_many1.mp h₂
    obtain ⟨c, cs, rfl⟩ := List.exists_cons_of_ne_nil hne
    exact ⟨c, by rw [hrest]; rfl, hp c (hall c List.mem_cons_self)⟩

theorem head_of_roughNumber {m m' : Pat.Match} (h : m' ∈ Pat.run u (roughNumber u) m) :
    ∃ c ∈ m.pos.rest.head?, isNumberChar u c = true := by
  obtain ⟨m₁, h₁, -⟩ := Pat.mem_run_group.mp h
  obtain ⟨m₂, hsign, hdigits⟩ := Pat.mem_run_seq.mp h₁
  refine head_of_sign hsign hdigits fun c hc => ?_
  rw [isNumberChar]
  rcases Bool.or_eq_true_iff.mp hc with hc | hc <;> simp [hc]

theorem head_of_amount {m m' : Pat.Match} (h : m' ∈ Pat.run u (amount u) m) :
    ∃ c ∈ m.pos.rest.head?, isNumberChar u c = true := by
  obtain ⟨m₁, h₁, -⟩ := Pat.mem_run_seq.mp h
  obtain ⟨m₂, h₂, -⟩ := Pat.mem_run_group.mp h₁
  obtain ⟨m₃, hsign, h₃⟩ := Pat.mem_run_seq.mp h₂
  obtain ⟨m₄, hdigits, -⟩ := Pat.mem_run_seq.mp h₃
  exact head_of_sign hsign hdigits fun c hc => by rw [isNumberChar, hc, Bool.or_true]

theorem quiet_of_not_isNumberChar {c : Char} (hc : isNumberChar u c = false) :
    u.isDecimal c = false ∧ c ≠ '.' := by
  rw [isNumberChar, Bool.or_eq_false_iff, Bool.or_eq_false_iff, beq_eq_false_iff_ne] at hc
  exact ⟨hc.2, hc.1.2⟩

include hu

theorem head?_sign {m : Pat.Match} {sign whole rest : List Char}
    (hsign : sign = [] ∨ sign = ['-'] ∨ sign = ['+'])
    (hwhole : whole ≠ [] ∧ ∀ c ∈ whole, u.isDecimal c = true)
    (hm : m.pos.rest = sign ++ (whole ++ rest)) :
    (Pat.run u signPat m).head? = some (m.after sign (whole ++ rest)) := by
  rcases hsign with rfl | rfl | rfl
  · rw [List.nil_append] at hm
    rw [← hm, Pat.Match.after_nil]
    refine Pat.head?_opt_none (Pat.run_one_eq_nil fun c hc => ?_)
    obtain ⟨d, whole', rfl⟩ := List.exists_cons_of_ne_nil hwhole.1
    rw [hm] at hc
    obtain rfl : d = c := Option.some.inj hc
    have hd := hwhole.2 d List.mem_cons_self
    have hne : d ≠ '-' ∧ d ≠ '+' := by
      constructor <;>
      · rintro rfl
        rw [hu.decimal_ascii _ (by decide)] at hd
        exact absurd hd (by decide)
    rw [beq_false_of_ne hne.1, beq_false_of_ne hne.2]
    rfl
  · exact Pat.head?_opt (Pat.head?_one hm rfl)
  · exact Pat.head?_opt (Pat.head?_one hm rfl)

omit hu in
theorem head?_fraction {m : Pat.Match} {fraction rest : List Char}
    (hfraction : fraction = [] ∨ ∃ ds, fraction = '.' :: ds ∧ ds ≠ [] ∧ ∀ c ∈ ds, u.isDecimal c = true)
    (hm : m.pos.rest = fraction ++ rest) (hrest : ∀ c ∈ rest.head?, isNumberChar u c = false) :
    (Pat.run u (.opt (.seq (.lit ".") (.many1 u.isDecimal))) m).head? =
      some (m.after fraction rest) := by
  rcases hfraction with rfl | ⟨ds, rfl, hne, hds⟩
  · rw [List.nil_append] at hm
    rw [← hm, Pat.Match.after_nil]
    refine Pat.head?_opt_none (List.eq_nil_iff_forall_not_mem.mpr fun m' hm' => ?_)
    obtain ⟨m₁, h₁, -⟩ := Pat.mem_run_seq.mp hm'
    obtain ⟨rest', hlit, -⟩ := Pat.mem_run_lit.mp h₁
    have hhead : '.' ∈ rest.head? := by
      rw [← hm, hlit]
      rfl
    exact (quiet_of_not_isNumberChar (hrest '.' hhead)).2 rfl
  · have hdot : m.pos.rest = ".".toList ++ (ds ++ rest) := hm
    have hds' := Pat.head?_many1 (u := u) (m := m.after ".".toList (ds ++ rest)) rfl hds hne
      fun c hc => (quiet_of_not_isNumberChar (hrest c hc)).1
    rw [Pat.Match.after_after] at hds'
    exact Pat.head?_opt (Pat.head?_seq (Pat.head?_lit hdot) hds')

/-- The first match of a numeral takes all of it. -/
theorem head?_numeral {m : Pat.Match} {numeral rest : List Char} (h : IsNumeral u numeral)
    (hm : m.pos.rest = numeral ++ rest) (hrest : ∀ c ∈ rest.head?, isNumberChar u c = false) :
    (Pat.run u (.cat [signPat, .many1 u.isDecimal, .opt (.seq (.lit ".") (.many1 u.isDecimal))])
      m).head? = some (m.after numeral rest) := by
  obtain ⟨sign, whole, fraction, rfl, hsign, hwhole, hfraction⟩ := h.parts
  have hrest' : ∀ c ∈ (fraction ++ rest).head?, u.isDecimal c = false := by
    intro c hc
    rcases hfraction with rfl | ⟨ds, rfl, -, -⟩
    · exact (quiet_of_not_isNumberChar (hrest c hc)).1
    · obtain rfl : '.' = c := Option.some.inj hc
      exact hu.decimal_ascii _ (by decide)
  rw [List.append_assoc, List.append_assoc] at hm
  have hsignHead := head?_sign hu hsign hwhole hm
  have hwholeHead := Pat.head?_many1 (u := u) (m := m.after sign (whole ++ (fraction ++ rest))) rfl
    hwhole.2 hwhole.1 hrest'
  have hfractionHead := head?_fraction
    (m := (m.after sign (whole ++ (fraction ++ rest))).after whole (fraction ++ rest))
    hfraction rfl hrest
  rw [Pat.Match.after_after, Pat.Match.after_after] at hfractionHead
  rw [Pat.Match.after_after] at hwholeHead
  rw [← List.append_assoc]
  exact Pat.head?_seq hsignHead (Pat.head?_seq hwholeHead (Pat.head?_seq hfractionHead rfl))

/-- The first match of the amount takes the whole numeral, and the whole suffix. -/
theorem head?_amount (q : Quantity u) {m : Pat.Match} (hm : m.pos.rest = q.amountText) :
    ∃ pos, (Pat.run u (amount u) m).head? = some ⟨pos, m.groups ++ [q.numeral] ++ [q.suffix]⟩ := by
  -- what follows the numeral is no part of a number
  have hafter : ∀ c ∈ (q.gap ++ q.suffix).head?, isNumberChar u c = false := by
    intro c hc
    refine not_isNumberChar hu ?_
    rcases List.mem_append.mp (List.mem_of_head? hc) with hc | hc
    · exact .inr (q.isSpace_gap c hc)
    · exact .inl (q.isUnit_suffix c hc)
  have hunit : ∀ c ∈ q.suffix.head?, isSpace c = false := by
    intro c hc
    rcases Bool.or_eq_true_iff.mp (q.isUnit_suffix c (List.mem_of_head? hc)) with h | h
    · exact not_isSpace_of_isLetter h
    · rw [eq_of_beq h]
      rfl
  have hnumeral := Pat.head?_group hm (head?_numeral hu q.isNumeral hm hafter)
  let m₁ : Pat.Match := ⟨(m.after q.numeral (q.gap ++ q.suffix)).pos, m.groups ++ [q.numeral]⟩
  have hgap : (Pat.run u (.many isSpace) m₁).head? = some (m₁.after q.gap q.suffix) :=
    Pat.head?_many rfl q.isSpace_gap hunit
  have hend : q.suffix = q.suffix ++ [] := (List.append_nil _).symm
  have hsuffix : (Pat.run u (.many isUnitChar) (m₁.after q.gap q.suffix)).head? =
      some ((m₁.after q.gap q.suffix).after q.suffix []) :=
    Pat.head?_many hend q.isUnit_suffix fun c hc => by cases hc
  have hgroup := Pat.head?_group (m := m₁.after q.gap q.suffix) hend hsuffix
  exact ⟨_, Pat.head?_seq hnumeral (Pat.head?_seq hgap (Pat.head?_seq hgroup rfl))⟩

/-! ## What the patterns find -/

/-- The text holds no bracket, no comparison and no assignment. -/
theorem BoundText.not_mem (t : BoundText u) {c : Char} (hc : c ∈ ['[', '(', '>', '<', ':', '=']) :
    c ∉ t.text := by
  obtain ⟨ws, -, hwritten⟩ := t.written
  have hall : ∀ d ∈ t.text, isUnitChar d = true ∨ isSpace d = true ∨ isNumberChar u d = true := by
    intro d hd
    rcases List.mem_append.mp hd with hd | hd
    · exact (hwritten.chars d hd).imp (fun h => by rw [isUnitChar, h, Bool.true_or]) .inl
    rcases List.mem_append.mp hd with hd | hd
    · exact .inr (.inl (t.quantity.isSpace_space d hd))
    rcases List.mem_append.mp hd with hd | hd
    · exact .inr (.inr (isNumberChar_of_numeral t.quantity.isNumeral d hd))
    rcases List.mem_append.mp hd with hd | hd
    · exact .inr (.inl (t.quantity.isSpace_gap d hd))
    · exact .inl (t.quantity.isUnit_suffix d hd)
  intro hmem
  have hkinds := hall c hmem
  simp only [List.mem_cons, List.not_mem_nil, or_false] at hc
  rcases hc with rfl | rfl | rfl | rfl | rfl | rfl <;>
    rw [isNumberChar, hu.decimal_ascii _ (by decide)] at hkinds <;>
    exact absurd hkinds (by decide)

theorem BoundText.search_in (t : BoundText u) : Pat.search u (inPattern u) t.text = none := by
  rw [Pat.search_eq_none_iff]
  refine fun pre rest h => List.eq_nil_iff_forall_not_mem.mpr fun m hm => ?_
  obtain ⟨m₁, h₁, hm⟩ := Pat.mem_run_seq.mp hm
  obtain ⟨m₂, h₂, hm⟩ := Pat.mem_run_seq.mp hm
  obtain ⟨m₃, h₃, -⟩ := Pat.mem_run_seq.mp hm
  obtain ⟨c, tail, hbracket, hc, -⟩ := Pat.mem_run_one.mp h₃
  obtain ⟨cs, hrest, -⟩ := Pat.exists_append_of_mem_run h₁
  obtain ⟨ds, hrest', -⟩ := Pat.exists_append_of_mem_run h₂
  have hrest : rest = cs ++ m₁.pos.rest := hrest
  have hmem : c ∈ t.text := by
    rw [h, hrest, hrest', hbracket]
    simp
  simp only [Bool.or_eq_true, beq_iff_eq] at hc
  rcases hc with rfl | rfl <;> exact t.not_mem hu (by decide) hmem

theorem BoundText.search_operator (t : BoundText u) {op : String}
    (hop : op.toList.head? = some '>' ∨ op.toList.head? = some '<') :
    Pat.search u (operatorPattern u op) t.text = none := by
  rw [Pat.search_eq_none_iff]
  refine fun pre rest h => List.eq_nil_iff_forall_not_mem.mpr fun m hm => ?_
  obtain ⟨m₁, h₁, -⟩ := Pat.mem_run_seq.mp hm
  obtain ⟨tail, hrest, -⟩ := Pat.mem_run_lit.mp h₁
  have hrest : rest = op.toList ++ tail := hrest
  have hmem : ∀ c ∈ op.toList.head?, c ∈ t.text := by
    intro c hc
    rw [h, hrest]
    exact List.mem_append_right _ (List.mem_append_left _ (List.mem_of_head? hc))
  rcases hop with hop | hop
  · exact t.not_mem hu (by decide) (hmem '>' hop)
  · exact t.not_mem hu (by decide) (hmem '<' hop)

theorem BoundText.search_field (t : BoundText u) {field : String} (hfield : field ∈ ["min", "max"]) :
    Pat.search u (fieldPattern u field) t.text = none := by
  have hplain : IsPlain field := by
    have : ∀ f ∈ ["min", "max"], IsPlain f := by decide +kernel
    exact this field hfield
  rw [Pat.search_eq_none_iff]
  refine fun pre rest h => List.eq_nil_iff_forall_not_mem.mpr fun m hm => ?_
  obtain ⟨m₀, h₀, hm⟩ := Pat.mem_run_seq.mp hm
  obtain ⟨m₁, h₁, hm⟩ := Pat.mem_run_seq.mp hm
  obtain ⟨m₂, h₂, hm⟩ := Pat.mem_run_seq.mp hm
  obtain ⟨m₃, h₃, hm⟩ := Pat.mem_run_seq.mp hm
  obtain ⟨m₄, h₄, hm⟩ := Pat.mem_run_seq.mp hm
  obtain ⟨m₅, h₅, -⟩ := Pat.mem_run_seq.mp hm
  have hnumber := head_of_roughNumber h₅
  have hstart : m₀.pos.rest = rest := by
    rw [Pat.run_boundary] at h₀
    split at h₀
    · rw [List.mem_singleton.mp h₀]
    · cases h₀
  obtain ⟨tail, hlit, rfl⟩ := Pat.mem_run_lit.mp h₁
  obtain ⟨space, rest₂, hspace, hall, rfl⟩ := Pat.mem_run_many.mp h₂
  obtain ⟨space', rest₄, hspace', hall', rfl⟩ := Pat.mem_run_many.mp h₄
  have hspace : tail = space ++ rest₂ := hspace
  -- an assignment would be a character of the text
  have hsame : m₃.pos.rest = rest₂ := by
    rcases Pat.mem_run_opt.mp h₃ with hone | rfl
    · obtain ⟨c, tail', hrest₂, hc, -⟩ := Pat.mem_run_one.mp hone
      have hrest₂ : rest₂ = c :: tail' := hrest₂
      have hmem : c ∈ t.text := by
        rw [h, ← hstart, hlit, hspace, hrest₂]
        simp
      simp only [Bool.or_eq_true, beq_iff_eq] at hc
      rcases hc with rfl | rfl <;> exact absurd hmem (t.not_mem hu (by decide))
    · rfl
  have hspaces : ∀ c ∈ space ++ space', isSpace c = true := fun c hc =>
    (List.mem_append.mp hc).elim (hall c) (hall' c)
  have htext : t.text = pre ++ (field.toList ++ ((space ++ space') ++ rest₄)) := by
    rw [h, ← hstart, hlit, hspace, ← hsame, hspace']
    simp only [List.append_assoc]
  obtain ⟨hwords, -⟩ := t.words_at hu htext hspaces
    ⟨_, List.getLast?_eq_some_getLast hplain.1, hplain.isLetter _ (List.getLast_mem hplain.1)⟩ hnumber
  obtain ⟨ws, hws, hwritten⟩ := t.written
  have hends := endsIn_splitWords pre field.toList
  rw [← hwords, hwritten.words, (Written.single hplain).words, List.map_singleton,
    not_endsIn_field _ t.mem ws hws field hfield] at hends
  cases hends

theorem BoundText.search_between (t : BoundText u) :
    Pat.search u (betweenPattern u) t.text = none := by
  rw [Pat.search_eq_none_iff]
  refine fun pre rest h => List.eq_nil_iff_forall_not_mem.mpr fun m hm => ?_
  obtain ⟨m₁, h₁, hm⟩ := Pat.mem_run_seq.mp hm
  obtain ⟨m₂, h₂, hm⟩ := Pat.mem_run_seq.mp hm
  obtain ⟨m₃, h₃, hm⟩ := Pat.mem_run_seq.mp hm
  obtain ⟨m₄, h₄, hm⟩ := Pat.mem_run_seq.mp hm
  obtain ⟨m₅, h₅, hm⟩ := Pat.mem_run_seq.mp hm
  obtain ⟨m₆, h₆, hm⟩ := Pat.mem_run_seq.mp hm
  obtain ⟨m₇, h₇, -⟩ := Pat.mem_run_seq.mp hm
  have hfirst := head_of_roughNumber h₃
  have hsecond := head_of_roughNumber h₇
  obtain ⟨rest₁, hlit, rfl⟩ := Pat.mem_run_lit.mp h₁
  obtain ⟨space, rest₂, hspace, hall, -, rfl⟩ := Pat.mem_run_many1.mp h₂
  obtain ⟨number, hnumber, -⟩ := Pat.exists_append_of_mem_run h₃
  obtain ⟨space', hspace', -⟩ := Pat.exists_append_of_mem_run h₄
  obtain ⟨rest₅, hand, rfl⟩ := Pat.mem_run_lit.mp h₅
  obtain ⟨space'', rest₆, hspace'', hall', -, rfl⟩ := Pat.mem_run_many1.mp h₆
  have hlit : rest = "between".toList ++ rest₁ := hlit
  have hspace : rest₁ = space ++ rest₂ := hspace
  have hnumber : rest₂ = number ++ m₃.pos.rest := hnumber
  have hspace'' : rest₅ = space'' ++ rest₆ := hspace''
  have htext : t.text = pre ++ ("between".toList ++ (space ++ rest₂)) := by rw [h, hlit, hspace]
  have htext' : t.text = (pre ++ ("between".toList ++ (space ++ (number ++ space')))) ++
      ("and".toList ++ (space'' ++ rest₆)) := by
    rw [htext, hnumber, hspace', hand, hspace'']
    simp only [List.append_assoc]
  obtain ⟨hwords, -⟩ := t.words_at hu htext hall ⟨'n', by decide +kernel, by decide⟩ hfirst
  obtain ⟨hwords', -⟩ := t.words_at hu htext' hall' ⟨'d', by decide +kernel, by decide⟩ hsecond
  have hlength := congrArg List.length (hwords.symm.trans hwords')
  have hand : "and".toList.length = 3 := by decide +kernel
  simp only [List.length_append] at hlength
  omega

/-- A phrase that is found in the text ends the phrase of the text, and has its number. -/
theorem BoundText.search_phrase (t : BoundText u) {p : BoundPhrase} (hp : p ∈ boundPhrases)
    {groups : List (List Char)} (h : Pat.search u (phrase u p.pattern) t.text = some groups) :
    groups = [t.quantity.numeral, t.quantity.suffix] ∧
      (p.kind = t.entry.kind ∨
        splitWords t.words = ["must", "not", "go", "above"].map String.toList) := by
  obtain ⟨pre, rest, hsplit, ⟨m, hm, rfl⟩, -⟩ := Pat.search_eq_some h
  -- the match is the phrase, then white space, then the amount
  obtain ⟨m₁, h₁, hm⟩ := Pat.exists_of_head?_seq hm
  obtain ⟨m₂, h₂, hm⟩ := Pat.exists_of_head?_seq hm
  obtain ⟨m₃, h₃, -⟩ := Pat.mem_run_seq.mp (List.mem_of_head? hm)
  obtain ⟨ws', hws', text, rest₁, hrest, rfl, hwritten'⟩ := reads_boundPhrases u p hp _ _ h₁
  obtain ⟨space, rest₂, hspace, hall, -, rfl⟩ := Pat.mem_run_many1.mp h₂
  have hrest : rest = text ++ rest₁ := hrest
  have hspace : rest₁ = space ++ rest₂ := hspace
  obtain ⟨c, hc, hletter⟩ := hwritten'.last
  have htext : t.text = pre ++ (text ++ (space ++ rest₂)) := by rw [hsplit, hrest, hspace]
  obtain ⟨hwords, hamount⟩ := t.words_at hu htext hall ⟨c, hc, hletter⟩ (head_of_amount h₃)
  -- the first match of the amount takes the whole number of the text
  let start : Pat.Match := ⟨⟨pre.getLast?, rest⟩, []⟩
  obtain ⟨pos, hhead⟩ :=
    head?_amount hu t.quantity (m := (start.after text rest₁).after space rest₂) hamount
  have hsame := Option.some.inj (hm.symm.trans (Pat.head?_seq (s := .eps) hhead rfl))
  refine ⟨by rw [hsame]; rfl, ?_⟩
  obtain ⟨ws, hws, hwritten⟩ := t.written
  -- the words that were found end the words of the text, and the table decides
  have hends := endsIn_splitWords pre text
  rw [← hwords, hwritten.words, hwritten'.words] at hends
  rw [hwritten.words]
  by_cases hkind : p.kind = t.entry.kind
  · exact .inl hkind
  · exact .inr (by rw [kind_of_endsIn _ t.mem p hp hkind ws hws ws' hws' hends])

/-- A phrase that its pattern takes before the number is found. -/
theorem BoundText.search_ne_none (t : BoundText u) {r : Pat} {pre rest : List Char} {m : Pat.Match}
    (hsplit : t.text = pre ++ rest) (hm : m ∈ Pat.run u r ⟨⟨pre.getLast?, rest⟩, []⟩)
    (hrest : m.pos.rest = t.quantity.text) : Pat.search u (phrase u r) t.text ≠ none := by
  intro hnone
  let m₂ := m.after t.quantity.space t.quantity.amountText
  have hspaces : m₂ ∈ Pat.run u spaces m := Pat.mem_run_many1.mpr
    ⟨_, _, hrest, t.quantity.isSpace_space, t.quantity.space_ne, rfl⟩
  obtain ⟨pos, hhead⟩ := head?_amount hu t.quantity (m := m₂) rfl
  have hamount := List.mem_of_head? (Pat.head?_seq (s := .eps) hhead rfl)
  have hfound := Pat.mem_run_seq.mpr ⟨m, hm, Pat.mem_run_seq.mpr ⟨m₂, hspaces, hamount⟩⟩
  exact List.eq_nil_iff_forall_not_mem.mp (Pat.search_eq_none_iff.mp hnone pre rest hsplit) _ hfound

theorem BoundText.search_entry (t : BoundText u) :
    Pat.search u (phrase u t.entry.pattern) t.text ≠ none := by
  obtain ⟨m, hm, hrest⟩ := t.matched
  have hsplit : t.text = [] ++ (t.words ++ t.quantity.text) := rfl
  exact t.search_ne_none hu hsplit hm hrest

/-- `must not go above` holds the phrase `above`. -/
theorem BoundText.search_above (t : BoundText u)
    (h : splitWords t.words = ["must", "not", "go", "above"].map String.toList) :
    Pat.search u (phrase u (.seq .boundary (.lit "above"))) t.text ≠ none := by
  obtain ⟨ws, -, hwritten⟩ := t.written
  obtain ⟨c, hc, hletter⟩ := hwritten.last
  have hlast : splitWords t.words = ["must", "not", "go"].map String.toList ++ ["above".toList] := h
  obtain ⟨pre, d, hwords, hd⟩ := exists_last_word hlast (by simp)
    ⟨c, hc, not_isSpace_of_isLetter hletter⟩
  have hsplit : t.text = (pre ++ [d]) ++ ("above".toList ++ t.quantity.text) := by
    rw [BoundText.text, hwords]
    simp only [List.append_assoc, List.cons_append, List.nil_append]
  let start : Pat.Match := ⟨⟨(pre ++ [d]).getLast?, "above".toList ++ t.quantity.text⟩, []⟩
  have hboundary : start ∈ Pat.run u .boundary start := by
    have hbefore : u.isWord d = false := hu.not_word_of_space d hd
    have hafter : u.isWord 'a' = true := hu.word_ascii 'a' (by decide)
    have hprev : start.pos.prev = some d := List.getLast?_concat
    have hhead : start.pos.rest.head? = some 'a' := rfl
    have hisBoundary : start.pos.isBoundary u = true := by
      rw [Pat.Pos.isBoundary, hprev, hhead, Option.map_some, Option.map_some, hbefore, hafter]
      rfl
    rw [Pat.run_boundary, if_pos hisBoundary]
    exact List.mem_singleton_self _
  have hlit : start.after "above".toList t.quantity.text ∈ Pat.run u (.lit "above") start :=
    Pat.mem_run_lit.mpr ⟨_, rfl, rfl⟩
  exact t.search_ne_none hu hsplit (Pat.mem_run_seq.mpr ⟨start, hboundary, hlit⟩) rfl

end Texts

/-! ## The bounds -/

section Bounds

variable {F : Type} [PyInterp F] {u : Unicode}

/-- Both bounds are missing or the number. -/
def Bounds.Within (b : Bounds F) (n : F) : Prop :=
  (b.lower = none ∨ b.lower = some n) ∧ (b.upper = none ∨ b.upper = some n)

/-- A bound is narrowed to the number of which it is, or is not yet. -/
theorem Bounds.narrow_within {b : Bounds F} {n : F} (h : b.Within n) (kind : BoundKind) :
    (b.narrow n kind).lower = (if kind = .upper then b.lower else some n) ∧
      (b.narrow n kind).upper = (if kind = .lower then b.upper else some n) := by
  obtain ⟨hlower, hupper⟩ := h
  have hmax : b.lower.elim n (pyMax · n) = n := by
    rcases hlower with h | h <;> simp [h, pyMax]
  have hmin : b.upper.elim n (pyMin · n) = n := by
    rcases hupper with h | h <;> simp [h, pyMin]
  cases kind <;> simp [Bounds.narrow, Bounds.raiseLower, Bounds.cutUpper, hmax, hmin]

/-- The loop over phrases that are not found or have one number. -/
theorem foldlM_phraseStep {lowered numeral suffix : List Char} {v : F}
    (hv : toFloat numeral = .ok v) {l : List (Pat × BoundKind)}
    (hl : ∀ e ∈ l, ∀ groups, e.1.search u lowered = some groups → groups = [numeral, suffix])
    {b : Bounds F} (hb : b.Within (PyInterp.mul v (unitScale u suffix))) :
    ∃ b', l.foldlM (phraseStep u lowered) b = .ok b' ∧
      b'.Within (PyInterp.mul v (unitScale u suffix)) ∧
      (b'.lower ≠ none ↔ b.lower ≠ none ∨ ∃ e ∈ l, e.1.search u lowered ≠ none ∧ e.2 ≠ .upper) ∧
      (b'.upper ≠ none ↔ b.upper ≠ none ∨ ∃ e ∈ l, e.1.search u lowered ≠ none ∧ e.2 ≠ .lower) := by
  induction l generalizing b with
  | nil => exact ⟨b, rfl, hb, by simp, by simp⟩
  | cons e l ih =>
    obtain ⟨r, kind⟩ := e
    have hl' := fun e he => hl e (List.mem_cons_of_mem _ he)
    rw [List.foldlM_cons]
    cases hsearch : r.search u lowered with
    | none =>
      -- a phrase that is not found changes nothing
      obtain ⟨b', hb', hwithin, hlower, hupper⟩ := ih hl' hb
      -- a phrase that is found narrows the bounds to the one number of the text
      have hstep : phraseStep u lowered b (r, kind) = .ok b := by rw [phraseStep, hsearch]
      refine ⟨b', by rw [hstep]; exact hb', hwithin, ?_, ?_⟩
      · simp [hlower, hsearch]
      · simp [hupper, hsearch]
    | some groups =>
      obtain rfl := hl (r, kind) List.mem_cons_self groups hsearch
      have hstep : phraseStep u lowered b (r, kind) =
          .ok (b.narrow (PyInterp.mul v (unitScale u suffix)) kind) := by
        rw [phraseStep, hsearch]
        show (toFloat numeral >>= fun value => _) = _
        rw [hv]
        rfl
      obtain ⟨hnarrowLower, hnarrowUpper⟩ := Bounds.narrow_within hb kind
      have hb₁ : (b.narrow (PyInterp.mul v (unitScale u suffix)) kind).Within
          (PyInterp.mul v (unitScale u suffix)) := by
        rw [Bounds.Within, hnarrowLower, hnarrowUpper]
        exact ⟨by split; exacts [hb.1, .inr rfl], by split; exacts [hb.2, .inr rfl]⟩
      obtain ⟨b', hb', hwithin, hlower, hupper⟩ := ih hl' hb₁
      refine ⟨b', by rw [hstep]; exact hb', hwithin, ?_, ?_⟩
      · rw [hlower, hnarrowLower]
        by_cases hkind : kind = .upper <;> simp [hkind, hsearch]
      · rw [hupper, hnarrowUpper]
        by_cases hkind : kind = .lower <;> simp [hkind, hsearch]

variable {req : List (String × PyVal F)} {lowered : List Char}

/-- The bounds of a requirement with one text in which only phrases can be found. -/
theorem extractBounds_eq {text : String} (hmin : dictGet req "min" = .none)
    (hmax : dictGet req "max" = .none) (htext : boundTextParts req = [text])
    (hlower : u.lower text.toList = lowered) (hin : (inPattern u).search u lowered = none)
    (hbetween : (betweenPattern u).search u lowered = none)
    (hop : ∀ op ∈ [">=", "<="], (operatorPattern u op).search u lowered = none)
    (hfield : ∀ field ∈ ["min", "max"], (fieldPattern u field).search u lowered = none) :
    extractBounds u req = (boundPatterns u).foldlM (phraseStep u lowered) ⟨none, none⟩ := by
  have hstep : textStep u ⟨none, none⟩ text =
      (boundPatterns u).foldlM (phraseStep u lowered) (⟨none, none⟩ : Bounds F) := by
    rw [textStep, hlower]
    simp only [intervalStep, boundStep, hin, hbetween, hop _ List.mem_cons_self,
      hop "<=" (by simp), hfield _ List.mem_cons_self, hfield "max" (by simp), ok_bind]
  have hnone : toNum (PyVal.none : PyVal F) = .ok none := rfl
  rw [extractBounds, hmin, hmax, htext, hnone]
  show [text].foldlM (textStep u) (⟨none, none⟩ : Bounds F) = _
  rw [List.foldlM_cons, hstep]
  simp only [List.foldlM_nil, bind_pure]

/-- A phrase gives the bound of its kind and no other, exactly when it is not `must not go above`.
The text is any phrase of the table, with any white space, number and unit after it, in letters of
either case; of the numbers of the interpreter only the one of the text is used. -/
theorem direction_iff (hu : u.Lawful) (t : BoundText u) (hkind : t.entry.kind ≠ .exact) {text : String}
    (hmin : dictGet req "min" = .none) (hmax : dictGet req "max" = .none)
    (htext : boundTextParts req = [text]) (hlower : u.lower text.toList = t.text) {v : F}
    (hv : toFloat t.quantity.numeral = .ok v) :
    extractBounds u req = .ok ((⟨none, none⟩ : Bounds F).narrow
        (PyInterp.mul v (unitScale u t.quantity.suffix)) t.entry.kind) ↔
      splitWords t.words ≠ ["must", "not", "go", "above"].map String.toList := by
  -- the patterns with a comparison, an interval or a field find nothing
  have hop : ∀ op ∈ [">=", "<="], Pat.search u (operatorPattern u op) t.text = none := by
    simp only [List.forall_mem_cons, List.not_mem_nil, false_implies, implies_true, and_true]
    exact ⟨t.search_operator hu (.inl rfl), t.search_operator hu (.inr rfl)⟩
  rw [extractBounds_eq hmin hmax htext hlower (t.search_in hu) (t.search_between hu) hop
    fun field hf => t.search_field hu hf, boundPatterns_eq]
  -- whatever is found has the one number of the text
  have hgroups : ∀ e ∈ boundPhrases.map (fun p => (phrase u p.pattern, p.kind)), ∀ groups,
      e.1.search u t.text = some groups → groups = [t.quantity.numeral, t.quantity.suffix] := by
    intro e he groups hsearch
    obtain ⟨p, hp, rfl⟩ := List.mem_map.mp he
    exact (t.search_phrase hu hp hsearch).1
  obtain ⟨b, hb, ⟨hbLower, hbUpper⟩, hlowerIff, hupperIff⟩ :=
    foldlM_phraseStep hv hgroups (b := ⟨none, none⟩) ⟨.inl rfl, .inl rfl⟩
  have hfound : ∀ {kind : BoundKind}, (∃ e ∈ boundPhrases.map fun p => (phrase u p.pattern, p.kind),
      e.1.search u t.text ≠ none ∧ e.2 ≠ kind) ↔
        ∃ p ∈ boundPhrases, (phrase u p.pattern).search u t.text ≠ none ∧ p.kind ≠ kind := by
    simp
  simp only [hfound, ne_eq, not_true_eq_false, false_or] at hlowerIff hupperIff
  rw [hb, Except.ok.injEq]
  have hown := t.search_entry hu
  by_cases hwords : splitWords t.words = ["must", "not", "go", "above"].map String.toList
  · -- the phrase `above` raises the lower bound
    refine iff_of_false (fun heq => ?_) (not_not_intro hwords)
    obtain ⟨ws, hws, hwritten⟩ := t.written
    have hws' : ws = ["must", "not", "go", "above"] :=
      List.map_injective_iff.mpr (fun _ _ h => String.toList_injective h) (hwritten.words.symm.trans hwords)
    have hupper := kind_of_mem_wordings _ t.mem (hws' ▸ hws)
    have habove := t.search_above hu hwords
    have hmem : (⟨.seq .boundary (.lit "above"), .lower, [["above"]]⟩ : BoundPhrase) ∈ boundPhrases := by
      simp [boundPhrases]
    refine hlowerIff.mpr ⟨_, hmem, habove, by decide⟩ ?_
    rw [heq, hupper]
    rfl
  · refine iff_of_true ?_ hwords
    have hsame : ∀ p ∈ boundPhrases, (phrase u p.pattern).search u t.text ≠ none →
        p.kind = t.entry.kind := by
      intro p hp hsearch
      obtain ⟨groups, hgroups'⟩ := Option.ne_none_iff_exists'.mp hsearch
      exact (t.search_phrase hu hp hgroups').2.resolve_right hwords
    cases hcase : t.entry.kind with
    | exact => exact absurd hcase hkind
    | lower =>
      have hlowerSome : b.lower ≠ none := hlowerIff.mpr ⟨_, t.mem, hown, by simp [hcase]⟩
      have hupperNone : b.upper = none := by
        by_contra h
        obtain ⟨p, hp, hsearch, hne⟩ := hupperIff.mp h
        exact hne ((hsame p hp hsearch).trans hcase)
      cases b
      simp_all [Bounds.narrow, Bounds.raiseLower]
    | upper =>
      have hupperSome : b.upper ≠ none := hupperIff.mpr ⟨_, t.mem, hown, by simp [hcase]⟩
      have hlowerNone : b.lower = none := by
        by_contra h
        obtain ⟨p, hp, hsearch, hne⟩ := hlowerIff.mp h
        exact hne ((hsame p hp hsearch).trans hcase)
      cases b
      simp_all [Bounds.narrow, Bounds.cutUpper]

end Bounds

/-- `at most 5 ms`. -/
def atMostText : BoundText .ascii where
  entry := ⟨.words ["at", "most"], .upper, [["at", "most"]]⟩
  mem := by simp [boundPhrases]
  words := "at most".toList
  quantity :=
    { space := [' ']
      numeral := ['5']
      gap := [' ']
      suffix := ['m', 's']
      isSpace_space := List.forall_mem_singleton.mpr rfl
      space_ne := List.cons_ne_nil _ _
      isNumeral := ⟨[], ['5'], [], rfl, .inl rfl,
        ⟨List.cons_ne_nil _ _, List.forall_mem_singleton.mpr rfl⟩, .inl rfl⟩
      isSpace_gap := List.forall_mem_singleton.mpr rfl
      isUnit_suffix := List.forall_mem_cons.mpr ⟨rfl, List.forall_mem_singleton.mpr rfl⟩ }
  matched := by decide +kernel

theorem atMostText_upper :
    extractBounds .ascii [("description", PyVal.str "At most 5 ms")] =
      .ok ((⟨none, none⟩ : Bounds FloatText).narrow (PyInterp.mul (PyFloat.ofText ['5', '.', '0'])
        (unitScale .ascii ['m', 's'])) .upper) := by
  have hv : toFloat ['5'] = .ok (PyFloat.ofText ['5', '.', '0'] : FloatText) := by decide +kernel
  refine (direction_iff Unicode.ascii_lawful atMostText (by decide) rfl rfl rfl ?_ hv).mpr ?_
  · decide +kernel
  · decide +kernel

/-- The limit is read as an equality. -/
theorem mustNotGoAbove_exact :
    extractBounds .ascii [("description", PyVal.str "Must not go above 5")] =
        .ok ((⟨none, none⟩ : Bounds FloatText).narrow
          (PyInterp.mul (PyFloat.ofText ['5', '.', '0']) (unitScale .ascii [])) .exact) ∧
      extractBounds .ascii [("description", PyVal.str "Must not go above 5")] ≠
        .ok ((⟨none, none⟩ : Bounds FloatText).narrow
          (PyInterp.mul (PyFloat.ofText ['5', '.', '0']) (unitScale .ascii [])) .upper) := by
  decide +kernel

end Noema.Neurosymbolic
