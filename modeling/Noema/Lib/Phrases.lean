import Noema.Lib.PyText
import Noema.Lib.RegexMatch

/-!
# Phrases

A phrase is a text of words with whitespace between them. `Written ws text` says which words a text
is made of, and `endsIn` compares two lists of words from the end, where the first word of one may
be the end of a longer word of the other: that is how a pattern without `\b` finds a phrase inside
of another one (`not less` in `cannot less`).

- `endsIn_splitWords`: a text ends in the words of its ends. With it, whether a pattern matches
  before a place in a text is a question about the words before the place;
- `Written.single`, `Written.append`: phrases from words;
- `Reads.lit` … `Reads.words`: the phrases that a pattern takes, one rule for each way to build a
  pattern of words. A pattern with alternatives takes one of several lists of words, so `Reads` is
  about a list of phrases.
-/

namespace Noema.Lib

/-- The letters from `a` to `z`. -/
def isLetter (c : Char) : Bool := 'a' ≤ c && c ≤ 'z'

theorem toNat_of_isLetter {c : Char} (h : isLetter c = true) : 97 ≤ c.toNat ∧ c.toNat ≤ 122 := by
  simp only [isLetter, Bool.and_eq_true, decide_eq_true_eq] at h
  exact h

theorem not_isSpace_of_isLetter {c : Char} (h : isLetter c = true) : isSpace c = false := by
  have hrange := toNat_of_isLetter h
  rw [isSpace]
  simp only [Bool.or_eq_false_iff, Bool.and_eq_false_iff, decide_eq_false_iff_not, beq_eq_false_iff_ne]
  omega

/-! ## Words of a text -/

theorem splitWords_nil : splitWords [] = [] := rfl

theorem splitWords_cons_space {c : Char} (hc : isSpace c = true) (text : List Char) :
    splitWords (c :: text) = splitWords text := by
  rw [splitWords, List.splitOnP_cons_eq_if_modifyHead, if_pos hc, List.filter_cons_of_neg (by simp)]
  rfl

/-- A character that is no whitespace is put in front of the first word, or is a word. -/
theorem splitWords_cons {c : Char} (hc : isSpace c = false) (text : List Char) :
    splitWords (c :: text) = [c] :: splitWords text ∨
      ∃ word words, splitWords text = word :: words ∧ splitWords (c :: text) = (c :: word) :: words := by
  obtain ⟨word, words, hsplit⟩ := List.exists_cons_of_ne_nil (List.splitOnP_ne_nil isSpace text)
  rw [splitWords, splitWords, List.splitOnP_cons_eq_if_modifyHead, if_neg (by simp [hc]), hsplit, List.modifyHead_cons,
    List.filter_cons_of_pos (by simp)]
  by_cases hword : word = []
  · exact .inl (by rw [hword, List.filter_cons_of_neg (by simp)])
  · exact .inr ⟨word, words.filter (· ≠ []), List.filter_cons_of_pos (by simp [hword]), rfl⟩

theorem splitWords_space_append {space : List Char} (hspace : ∀ c ∈ space, isSpace c = true)
    (text : List Char) : splitWords (space ++ text) = splitWords text := by
  induction space with
  | nil => rfl
  | cons c space ih =>
    rw [List.cons_append, splitWords_cons_space (hspace c List.mem_cons_self)]
    exact ih fun c hc => hspace c (List.mem_cons_of_mem _ hc)

/-- A word is read up to whitespace or to the end of the text. -/
theorem splitWords_word_append {word rest : List Char} (hne : word ≠ [])
    (hword : ∀ c ∈ word, isSpace c = false) (hrest : ∀ c ∈ rest.head?, isSpace c = true) :
    splitWords (word ++ rest) = word :: splitWords rest := by
  cases rest with
  | nil =>
    rw [List.append_nil, splitWords, List.splitOnP_eq_singleton hword,
      List.filter_cons_of_pos (by simpa using hne)]
    rfl
  | cons c rest =>
    have hc := hrest c rfl
    rw [splitWords_cons_space hc, splitWords, List.splitOnP_append_cons_of_forall_mem hword _ hc,
      List.filter_cons_of_pos (by simpa using hne)]
    rfl

theorem splitWords_word {word : List Char} (hne : word ≠ []) (hword : ∀ c ∈ word, isSpace c = false) :
    splitWords word = [word] := by
  have hsplit : splitWords (word ++ []) = word :: splitWords [] :=
    splitWords_word_append hne hword fun _ hc => by cases hc
  rwa [List.append_nil] at hsplit

theorem splitWords_append_space {space : List Char} (hne : space ≠ [])
    (hspace : ∀ c ∈ space, isSpace c = true) (text rest : List Char) :
    splitWords (text ++ (space ++ rest)) = splitWords text ++ splitWords rest := by
  obtain ⟨c, space, rfl⟩ := List.exists_cons_of_ne_nil hne
  rw [List.cons_append, splitWords, List.splitOnP_append_cons _ _ (hspace c List.mem_cons_self),
    List.filter_append]
  exact congrArg _ (splitWords_space_append (fun c hc => hspace c (List.mem_cons_of_mem _ hc)) rest)

/-- Whitespace stands before the last word, unless it is the only one. -/
theorem exists_last_word {text w : List Char} {init : List (List Char)}
    (h : splitWords text = init ++ [w]) (hinit : init ≠ [])
    (hlast : ∃ c ∈ text.getLast?, isSpace c = false) :
    ∃ pre c, text = pre ++ c :: w ∧ isSpace c = true := by
  let isWordChar := fun c => !isSpace c
  have hsplit : text = (text.reverse.dropWhile isWordChar).reverse ++
      (text.reverse.takeWhile isWordChar).reverse := by
    rw [← List.reverse_append, List.takeWhile_append_dropWhile, List.reverse_reverse]
  have hword : ∀ c ∈ (text.reverse.takeWhile isWordChar).reverse, isSpace c = false := by
    intro c hc
    simpa [isWordChar] using List.mem_takeWhile_imp (List.mem_reverse.mp hc)
  have hne : (text.reverse.takeWhile isWordChar).reverse ≠ [] := by
    obtain ⟨c, hc, hspace⟩ := hlast
    rw [Option.mem_def, ← List.head?_reverse] at hc
    obtain ⟨tail, htail⟩ := List.head?_eq_some_iff.mp hc
    rw [htail, List.takeWhile_cons_of_pos (by simp [isWordChar, hspace])]
    simp
  have hsingle : splitWords (text.reverse.takeWhile isWordChar).reverse =
      [(text.reverse.takeWhile isWordChar).reverse] := splitWords_word hne hword
  cases hdrop : text.reverse.dropWhile isWordChar with
  | nil =>
    rw [hdrop, List.reverse_nil, List.nil_append] at hsplit
    rw [hsplit, hsingle] at h
    cases init with
    | nil => exact absurd rfl hinit
    | cons i init => simp at h
  | cons c tail =>
    have hc : isSpace c = true := by
      have := List.head?_dropWhile_not isWordChar text.reverse
      rw [hdrop] at this
      simpa [isWordChar] using this
    rw [hdrop, List.reverse_cons, List.append_assoc] at hsplit
    rw [hsplit, splitWords_append_space (List.cons_ne_nil c []) (by simpa using hc), hsingle] at h
    obtain ⟨-, hw⟩ := List.append_inj' h rfl
    exact ⟨tail.reverse, c, by rw [hsplit, List.cons.inj hw |>.1]; rfl, hc⟩

/-! ## The end of a phrase -/

/-- A phrase ends in the words, where the first may be the end of a longer word. -/
def endsIn (words phrase : List (List Char)) : Bool :=
  match words with
  | [] => true
  | w :: ws => phrase.tails.any fun
    | [] => false
    | p :: ps => ws == ps && w.isSuffixOf p

theorem endsIn_cons_iff {w : List Char} {ws phrase : List (List Char)} :
    endsIn (w :: ws) phrase = true ↔ ∃ init p, phrase = init ++ p :: ws ∧ w <:+ p := by
  rw [endsIn, List.any_eq_true]
  constructor
  · rintro ⟨tail, htail, h⟩
    obtain ⟨init, rfl⟩ := (List.mem_tails _ _).mp htail
    cases tail with
    | nil => cases h
    | cons p ps =>
      obtain ⟨hws, hsuffix⟩ := Bool.and_eq_true_iff.mp h
      rw [eq_of_beq hws]
      exact ⟨init, p, rfl, List.isSuffixOf_iff_suffix.mp hsuffix⟩
  · rintro ⟨init, p, rfl, hsuffix⟩
    refine ⟨p :: ws, (List.mem_tails _ _).mpr ⟨init, rfl⟩, ?_⟩
    simpa using hsuffix

/-- A text ends in the words of its ends. -/
theorem endsIn_splitWords (pre text : List Char) :
    endsIn (splitWords text) (splitWords (pre ++ text)) = true := by
  cases hwords : splitWords text with
  | nil => rfl
  | cons w ws =>
    rw [endsIn_cons_iff]
    induction pre with
    | nil => exact ⟨[], w, hwords, List.suffix_refl w⟩
    | cons c pre ih =>
      obtain ⟨init, p, hphrase, hsuffix⟩ := ih
      cases hc : isSpace c with
      | true => exact ⟨init, p, by rw [List.cons_append, splitWords_cons_space hc, hphrase], hsuffix⟩
      | false =>
        rw [List.cons_append]
        rcases splitWords_cons hc (pre ++ text) with h | ⟨word, words, hsplit, h⟩
        · exact ⟨[c] :: init, p, by rw [h, hphrase]; rfl, hsuffix⟩
        · rw [hphrase] at hsplit
          cases init with
          | nil =>
            cases hsplit
            exact ⟨[], c :: p, h, hsuffix.trans (List.suffix_cons c p)⟩
          | cons i init =>
            cases hsplit
            exact ⟨(c :: word) :: init, p, h, hsuffix⟩

/-! ## Places in a text -/

/-- A block of characters of a class begins where no such character stands before it. -/
theorem block_at {p : Char → Bool} {before block after pre rest : List Char}
    (h : before ++ (block ++ after) = pre ++ rest) (hbefore : ∀ c ∈ before, p c = false)
    (hblock : ∀ c ∈ block, p c = true) (hafter : ∀ c ∈ after, p c = false)
    (hpre : ∀ c ∈ pre.getLast?, p c = false) (hrest : ∃ c ∈ rest.head?, p c = true) :
    pre = before ∧ rest = block ++ after := by
  obtain ⟨c, hc, hpc⟩ := hrest
  obtain ⟨tail, rfl⟩ : ∃ tail, rest = c :: tail := by
    cases rest with
    | nil => cases hc
    | cons d tail => exact ⟨tail, by rw [Option.some.inj hc]⟩
  rcases List.append_eq_append_iff.mp h with ⟨mid, rfl, hmid⟩ | ⟨mid, rfl, hmid⟩
  · cases hlast : mid.getLast? with
    | none => rw [List.getLast?_eq_none_iff.mp hlast] at hmid ⊢; simp_all
    | some d =>
      have hd : p d = false := hpre d (by rw [List.getLast?_append, hlast]; rfl)
      have hdmem : d ∈ mid := List.mem_of_getLast? hlast
      -- the characters of the block are passed over, so the rest begins after it
      rcases List.append_eq_append_iff.mp hmid with ⟨mid', rfl, hafter'⟩ | ⟨mid', rfl, -⟩
      · rw [hafter c (by rw [hafter']; simp)] at hpc
        cases hpc
      · rw [hblock d (List.mem_append_left _ hdmem)] at hd
        cases hd
  · cases mid with
    | nil => simp_all
    | cons d mid =>
      obtain ⟨rfl, -⟩ := List.cons.inj hmid
      rw [hbefore c (by simp)] at hpc
      cases hpc

/-- Texts that end in a letter are the same when they are with whitespace after them. -/
theorem eq_of_append_space {text text' space space' : List Char}
    (h : text ++ space = text' ++ space') (hspace : ∀ c ∈ space, isSpace c = true)
    (hspace' : ∀ c ∈ space', isSpace c = true) (hlast : ∃ c ∈ text.getLast?, isSpace c = false)
    (hlast' : ∃ c ∈ text'.getLast?, isSpace c = false) : text = text' := by
  have key : ∀ {a b s t : List Char}, a ++ s = b ++ t → (∀ c ∈ s, isSpace c = true) →
      (∃ c ∈ b.getLast?, isSpace c = false) → b.length ≤ a.length := by
    rintro a b s t h hs ⟨c, hc, hletter⟩
    by_contra hlt
    rcases List.append_eq_append_iff.mp h with ⟨mid, rfl, hmid⟩ | ⟨mid, rfl, -⟩
    · have hne : mid ≠ [] := by
        rintro rfl
        simp at hlt
      have hlast : mid.getLast? = some c := by
        rw [Option.mem_def, List.getLast?_append_of_ne_nil _ hne] at hc
        exact hc
      have := hs c (by rw [hmid]; exact List.mem_append_left _ (List.mem_of_getLast? hlast))
      rw [this] at hletter
      cases hletter
    · simp at hlt
  have hlength : text.length = text'.length :=
    le_antisymm (key h.symm hspace' hlast) (key h hspace hlast')
  exact (List.append_inj h hlength).1

/-! ## Written words -/

/-- A word of letters. -/
def IsPlain (word : String) : Prop := word.toList ≠ [] ∧ word.toList.all isLetter = true

instance (word : String) : Decidable (IsPlain word) := inferInstanceAs (Decidable (_ ∧ _))

theorem IsPlain.isLetter {word : String} (h : IsPlain word) :
    ∀ c ∈ word.toList, isLetter c = true := List.all_eq_true.mp h.2

/-- A text of words with whitespace between them. -/
structure Written (words : List String) (text : List Char) : Prop where
  words : splitWords text = words.map String.toList
  chars : ∀ c ∈ text, isLetter c = true ∨ isSpace c = true
  last : ∃ c, text.getLast? = some c ∧ isLetter c = true

theorem Written.single {word : String} (h : IsPlain word) : Written [word] word.toList where
  words := splitWords_word h.1 fun c hc => not_isSpace_of_isLetter (h.isLetter c hc)
  chars c hc := .inl (h.isLetter c hc)
  last := ⟨_, List.getLast?_eq_some_getLast h.1, h.isLetter _ (List.getLast_mem h.1)⟩

theorem Written.append {words words' : List String} {text space text' : List Char}
    (h : Written words text) (hne : space ≠ []) (hspace : ∀ c ∈ space, isSpace c = true)
    (h' : Written words' text') : Written (words ++ words') (text ++ (space ++ text')) where
  words := by
    rw [splitWords_append_space hne hspace, h.words, h'.words, List.map_append]
  chars c hc := by
    rcases List.mem_append.mp hc with hc | hc
    · exact h.chars c hc
    rcases List.mem_append.mp hc with hc | hc
    · exact .inr (hspace c hc)
    · exact h'.chars c hc
  last := by
    obtain ⟨c, hlast, hc⟩ := h'.last
    exact ⟨c, by simp [List.getLast?_append, hlast], hc⟩

/-! ## Patterns of words -/

variable {u : Unicode}

/-- A pattern takes texts that are written with one of the given lists of words. -/
def Reads (u : Unicode) (r : Pat) (wordings : List (List String)) : Prop :=
  ∀ m m' : Pat.Match, m' ∈ Pat.run u r m → ∃ words ∈ wordings, ∃ text rest,
    m.pos.rest = text ++ rest ∧ m' = m.after text rest ∧ Written words text

theorem Reads.lit {word : String} (h : IsPlain word) : Reads u (.lit word) [[word]] := by
  intro m m' hm
  obtain ⟨rest, hrest, rfl⟩ := Pat.mem_run_lit.mp hm
  exact ⟨[word], List.mem_singleton_self _, word.toList, rest, hrest, rfl, .single h⟩

theorem Reads.alt {r s : Pat} {a b : List (List String)} (hr : Reads u r a) (hs : Reads u s b) :
    Reads u (.alt r s) (a ++ b) := by
  intro m m' hm
  rcases Pat.mem_run_alt.mp hm with hm | hm
  · obtain ⟨words, hwords, h⟩ := hr _ _ hm
    exact ⟨words, List.mem_append_left _ hwords, h⟩
  · obtain ⟨words, hwords, h⟩ := hs _ _ hm
    exact ⟨words, List.mem_append_right _ hwords, h⟩

theorem Reads.boundary {r : Pat} {a : List (List String)} (hr : Reads u r a) :
    Reads u (.seq .boundary r) a := by
  intro m m' hm
  obtain ⟨m₁, h₁, h⟩ := Pat.mem_run_seq.mp hm
  rw [Pat.run_boundary] at h₁
  split at h₁
  · obtain rfl := List.mem_singleton.mp h₁
    exact hr _ _ h
  · cases h₁

theorem Reads.seq_eps {r : Pat} {a : List (List String)} (hr : Reads u r a) :
    Reads u (.seq r .eps) a := by
  intro m m' hm
  obtain ⟨m₁, h₁, hm⟩ := Pat.mem_run_seq.mp hm
  rw [Pat.run_eps, List.mem_singleton] at hm
  exact hr _ _ (hm ▸ h₁)

theorem Reads.seq_seq_eps {r s : Pat} {a : List (List String)} (h : Reads u (.seq r s) a) :
    Reads u (.seq r (.seq s .eps)) a := by
  intro m m' hm
  obtain ⟨m₁, h₁, hm⟩ := Pat.mem_run_seq.mp hm
  obtain ⟨m₂, h₂, heps⟩ := Pat.mem_run_seq.mp hm
  rw [Pat.run_eps, List.mem_singleton] at heps
  exact h _ _ (Pat.mem_run_seq.mpr ⟨m₁, h₁, heps ▸ h₂⟩)

/-- An ending that may be missing. -/
theorem Reads.ending {word ending : String} (h : IsPlain word) (h' : IsPlain (word ++ ending)) :
    Reads u (.seq (.lit word) (.opt (.lit ending))) [[word ++ ending], [word]] := by
  intro m m' hm
  obtain ⟨m₁, h₁, hm⟩ := Pat.mem_run_seq.mp hm
  obtain ⟨rest, hrest, rfl⟩ := Pat.mem_run_lit.mp h₁
  rcases Pat.mem_run_opt.mp hm with hm | rfl
  · obtain ⟨rest', rfl, rfl⟩ := Pat.mem_run_lit.mp hm
    refine ⟨[word ++ ending], List.mem_cons_self, (word ++ ending).toList, rest', ?_, ?_, .single h'⟩
    · rw [String.toList_append, List.append_assoc]
      exact hrest
    · rw [String.toList_append]
      exact m.after_after _ _ _ _
  · exact ⟨[word], by simp, word.toList, rest, hrest, rfl, .single h⟩

theorem Reads.spaced {r s : Pat} {a b : List (List String)} (hr : Reads u r a) (hs : Reads u s b) :
    Reads u (.seq r (.seq (.many1 isSpace) s)) (a.flatMap fun words => b.map (words ++ ·)) := by
  intro m m' hm
  obtain ⟨m₁, h₁, hm⟩ := Pat.mem_run_seq.mp hm
  obtain ⟨m₂, h₂, hm⟩ := Pat.mem_run_seq.mp hm
  obtain ⟨words, hwords, text, rest, hrest, rfl, hwritten⟩ := hr _ _ h₁
  obtain ⟨space, rest', hspace, hall, hne, rfl⟩ := Pat.mem_run_many1.mp h₂
  obtain ⟨words', hwords', text', rest'', hrest', rfl, hwritten'⟩ := hs _ _ hm
  have hrest : m.pos.rest = text ++ rest := hrest
  have hspace : rest = space ++ rest' := hspace
  have hrest' : rest' = text' ++ rest'' := hrest'
  refine ⟨words ++ words', ?_, text ++ (space ++ text'), rest'', ?_, ?_,
    hwritten.append hne hall hwritten'⟩
  · exact List.mem_flatMap.mpr ⟨words, hwords, List.mem_map_of_mem hwords'⟩
  · rw [hrest, hspace, hrest']
    simp only [List.append_assoc]
  · rw [Pat.Match.after_after, Pat.Match.after_after]

/-- The pattern of a list of words. -/
theorem Reads.words : ∀ {ws : List String}, ws ≠ [] → (∀ w ∈ ws, IsPlain w) →
    Reads u (.words ws) [ws]
  | [w], _, h => Reads.lit (h w List.mem_cons_self)
  | w :: w' :: ws, _, h => by
    have hrest : Reads u (.words (w' :: ws)) [w' :: ws] :=
      Reads.words (List.cons_ne_nil _ _) fun x hx => h x (List.mem_cons_of_mem _ hx)
    exact (Reads.lit (h w List.mem_cons_self)).spaced hrest

end Noema.Lib
