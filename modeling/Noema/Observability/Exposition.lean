import Noema.Lib.Phrases
import Noema.Observability.Grid

/-!
# The exposition format (`observability/grid.py`)

A sample is written as a line, with quotes, backslashes and newlines of its label values escaped.
`_parse_exposition_lines`, which is used when `prometheus_client` is not installed, breaks the line
at white space and the labels at `",`, and leaves the escapes as they are.

- `render`: the samples as the exposition format writes them, one in each line. It is not in the
  source, which only reads; the endpoint of a node writes it.
- `mem_splitChunks`: what the chunks of the labels are: no chunk but the last holds the end of one,
  and nothing gets lost.
- `Readable`: a label whose value has neither white space nor `",`. It is always one chunk
  (`Readable.parseLabels_open`, `Readable.parseLabels_comma`).
- `parseLabels_append`: labels that were written later are found before those that stand in front of
  them, as they overwrite these in the dict.
- `stripQuotes_escapeLabel_eq`: what is read of an escaped value is the value if and only if nothing
  was escaped, by counting backslashes and quotes.
- **`roundTrips_iff`**: the samples come back, for each metric in their order, if and only if every
  value of a label is `Plain`.
- `path_with_space_lost`: the cost of a module with a space in its path.
-/

namespace Noema.Observability

open Noema.Lib PyJson

/-! ## Chunks -/

/-- The end of a chunk. -/
def chunkEnd : List Char := ['"', ',']

section Chunks

variable {text : List Char}

theorem splitChunks_append (cur front back : List Char) :
    splitChunks cur (front ++ '"' :: ',' :: back) = splitChunks cur front ++ splitChunks [] back := by
  fun_induction splitChunks cur front with
  | case1 cur => rfl
  | case2 cur cs ih =>
    rw [List.cons_append, List.cons_append, splitChunks, ih]
    rfl
  | case3 cur c cs hne ih =>
    rw [List.cons_append, splitChunks, ih]
    rintro cs' rfl heq
    cases cs with
    | nil =>
      rw [List.nil_append] at heq
      cases heq
    | cons d cs =>
      rw [List.cons_append, List.cons.injEq] at heq
      exact hne cs rfl (by rw [heq.1])

theorem splitChunks_single (cur : List Char) (h : ¬ chunkEnd <:+: text) :
    splitChunks cur text = [cur.reverse ++ text] := by
  fun_induction splitChunks cur text with
  | case1 cur => rw [List.append_nil]
  | case2 cur cs => exact absurd (List.prefix_append chunkEnd cs).isInfix h
  | case3 cur c cs hne ih =>
    rw [ih fun hwithin => h (List.infix_cons hwithin), List.reverse_cons, List.append_assoc]
    rfl

/-- A text with an end of a chunk has a first one. -/
theorem mem_splitChunks {text chunk : List Char} (h : chunk ∈ splitChunks [] text) :
    chunk <:+: text ∧ ¬ chunkEnd <:+: chunk := by
  by_cases hend : chunkEnd <:+: text
  · obtain ⟨front, back, htext⟩ := hend
    have hsplit : text = front ++ '"' :: ',' :: back := by
      rw [← htext, List.append_assoc]
      rfl
    have hlength : text.length = front.length + back.length + 2 := by
      rw [hsplit, List.length_append, List.length_cons, List.length_cons]
      omega
    rw [hsplit, splitChunks_append, List.mem_append] at h
    rw [← htext]
    rcases h with h | h
    · have hchunk := mem_splitChunks h
      exact ⟨hchunk.1.trans ⟨[], chunkEnd ++ back, by simp⟩, hchunk.2⟩
    · have hchunk := mem_splitChunks h
      exact ⟨hchunk.1.trans ⟨front ++ chunkEnd, [], by simp⟩, hchunk.2⟩
  · rw [splitChunks_single [] hend, List.reverse_nil, List.nil_append, List.mem_singleton] at h
    rw [h]
    exact ⟨List.infix_rfl, hend⟩
termination_by text.length
decreasing_by
  all_goals omega

end Chunks

/-! ## Labels -/

/-- The label of a chunk, if it is one. -/
def chunkLabel (chunk : List Char) : List (String × String) :=
  if '=' ∈ chunk then
    [(String.ofList (strip (partitionAt '=' chunk).1),
      String.ofList (stripQuotes (strip (partitionAt '=' chunk).2)))]
  else []

section Labels

variable {text front back : List Char} {label : String × String}

theorem parseLabels_eq (text : List Char) :
    parseLabels text = (splitChunks [] text).reverse.flatMap chunkLabel := by
  have hfold : ∀ (chunks : List (List Char)) (labels : List (String × String)),
      chunks.foldl (fun labels chunk =>
        if '=' ∈ chunk then
          (String.ofList (strip (partitionAt '=' chunk).1),
            String.ofList (stripQuotes (strip (partitionAt '=' chunk).2))) :: labels
        else labels) labels = chunks.reverse.flatMap chunkLabel ++ labels := by
    intro chunks
    induction chunks with
    | nil => exact fun _ => rfl
    | cons chunk chunks ih =>
      intro labels
      rw [List.foldl_cons, ih, List.reverse_cons, List.flatMap_append, List.flatMap_singleton,
        List.append_assoc, chunkLabel]
      split_ifs <;> rfl
  rw [parseLabels]
  exact (hfold _ _).trans (List.append_nil _)

/-- Labels that were written later stand first. -/
theorem parseLabels_append (front back : List Char) :
    parseLabels (front ++ '"' :: ',' :: back) = parseLabels back ++ parseLabels front := by
  rw [parseLabels_eq, parseLabels_eq, parseLabels_eq, splitChunks_append, List.reverse_append,
    List.flatMap_append]

theorem parseLabels_single (h : ¬ chunkEnd <:+: text) : parseLabels text = chunkLabel text := by
  rw [parseLabels_eq, splitChunks_single [] h, List.reverse_singleton, List.flatMap_singleton]
  rfl

theorem infix_strip (cs : List Char) : strip cs <:+: cs :=
  (List.rdropWhile_prefix isSpace _).isInfix.trans (List.dropWhile_suffix _).isInfix

theorem infix_stripQuotes (cs : List Char) : stripQuotes cs <:+: cs :=
  (List.rdropWhile_prefix (· = '"') _).isInfix.trans (List.dropWhile_suffix _).isInfix

theorem infix_partitionAt (mark : Char) (cs : List Char) : (partitionAt mark cs).2 <:+: cs :=
  (List.drop_suffix _ _).isInfix.trans (List.dropWhile_suffix _).isInfix

theorem infix_chunkLabel {chunk : List Char} (h : label ∈ chunkLabel chunk) :
    label.2.toList <:+: chunk := by
  rw [chunkLabel] at h
  split_ifs at h
  · obtain rfl := List.mem_singleton.mp h
    rw [String.toList_ofList]
    exact (infix_stripQuotes _).trans ((infix_strip _).trans (infix_partitionAt '=' chunk))
  · cases h

/-- A value that was read is a part of the text, without an end of a chunk. -/
theorem infix_value (h : label ∈ parseLabels text) :
    label.2.toList <:+: text ∧ ¬ chunkEnd <:+: label.2.toList := by
  rw [parseLabels_eq, List.mem_flatMap] at h
  obtain ⟨chunk, hchunk, hlabel⟩ := h
  obtain ⟨htext, hend⟩ := mem_splitChunks (List.mem_reverse.mp hchunk)
  have hvalue := infix_chunkLabel hlabel
  exact ⟨hvalue.trans htext, fun hwithin => hend (hwithin.trans hvalue)⟩

end Labels

/-! ## Rendering -/

/-- A character of a label value, as the exposition format writes it. -/
def escapeLabelChar (c : Char) : List Char :=
  if c = '\\' then ['\\', '\\'] else if c = '"' then ['\\', '"']
  else if c = '\n' then ['\\', 'n'] else [c]

/-- A label value, escaped. -/
def escapeLabel (value : List Char) : List Char := value.flatMap escapeLabelChar

/-- `key="value"`, without the last quote. -/
def openLabel (label : String × String) : List Char :=
  label.1.toList ++ '=' :: '"' :: escapeLabel label.2.toList

/-- `key="value",...` -/
def labelsText : List (String × String) → List Char
  | [] => []
  | [label] => openLabel label ++ ['"']
  | label :: labels => openLabel label ++ '"' :: ',' :: labelsText labels

/-- `{key="value",...}`, if there are labels. -/
def bracedLabels (labels : List (String × String)) : List Char :=
  if labels = [] then [] else '\x7b' :: labelsText labels ++ ['\x7d']

section Render

variable {F : Type} (number : F → List Char)

/-- `name{labels} value` -/
def sampleLine (s : Sample F) : List Char :=
  s.name.toList ++ bracedLabels s.labels ++ ' ' :: number s.value

/-- The samples, one in each line. -/
def render (samples : List (Sample F)) : List Char :=
  samples.flatMap fun s => sampleLine number s ++ ['\n']

end Render

/-! ## Escaped values -/

/-- A letter or a digit of a name. -/
def isNameChar (c : Char) : Bool := c.isAlphanum || c == '_'

/-- `[a-zA-Z_][a-zA-Z0-9_]*` -/
def validLabelName (name : List Char) : Bool :=
  match name with
  | [] => false
  | c :: cs => (c.isAlpha || c == '_') && cs.all isNameChar

/-- `[a-zA-Z_:][a-zA-Z0-9_:]*` -/
def validMetricName (name : List Char) : Bool :=
  match name with
  | [] => false
  | c :: cs => (c.isAlpha || c == '_' || c == ':') && cs.all fun c => isNameChar c || c == ':'

/-- A value that the line parser reads: there is nothing to escape in it and no white space, and it
does not start with a comma. -/
def Plain (value : List Char) : Prop :=
  (∀ c ∈ value, isSpace c = false ∧ c ≠ '"' ∧ c ≠ '\\') ∧ value.head? ≠ some ','

section Escape

variable {value cs : List Char} {c : Char}

theorem escapeLabel_cons (c : Char) (value : List Char) :
    escapeLabel (c :: value) = escapeLabelChar c ++ escapeLabel value := List.flatMap_cons

theorem escapeLabel_eq_self (h : ∀ c ∈ value, isSpace c = false ∧ c ≠ '"' ∧ c ≠ '\\') :
    escapeLabel value = value := by
  induction value with
  | nil => rfl
  | cons c value ih =>
    obtain ⟨hspace, hquote, hback⟩ := h c List.mem_cons_self
    have hnewline : c ≠ '\n' := by
      rintro rfl
      cases hspace
    rw [escapeLabel_cons, ih fun c hc => h c (List.mem_cons_of_mem _ hc), escapeLabelChar,
      if_neg hback, if_neg hquote, if_neg hnewline]
    rfl

theorem isSpace_escapeLabel (h : ∀ c ∈ value, isSpace c = false) :
    ∀ c ∈ escapeLabel value, isSpace c = false := by
  intro d hd
  obtain ⟨c, hc, hd⟩ := List.mem_flatMap.mp hd
  have hspace := h c hc
  rw [escapeLabelChar] at hd
  split_ifs at hd
  all_goals simp only [List.mem_cons, List.not_mem_nil, or_false, or_self] at hd
  · rw [hd]
    decide
  · rcases hd with rfl | rfl
    all_goals decide
  · rcases hd with rfl | rfl
    all_goals decide
  · rw [hd, hspace]

theorem count_comma_escapeLabel (value : List Char) :
    (escapeLabel value).count ',' = value.count ',' := by
  induction value with
  | nil => rfl
  | cons c value ih =>
    rw [escapeLabel_cons, List.count_append, ih, List.count_cons, Nat.add_comm]
    congr 1
    rw [escapeLabelChar]
    split_ifs
    all_goals simp_all

/-- Escapes add backslashes. -/
theorem count_backslash_escapeLabel (value : List Char) :
    value.count '\\' + value.count '\\' + value.count '"' ≤ (escapeLabel value).count '\\' := by
  induction value with
  | nil => exact le_rfl
  | cons c value ih =>
    rw [escapeLabel_cons, List.count_append, List.count_cons, List.count_cons, escapeLabelChar]
    split_ifs
    all_goals simp_all
    all_goals omega

theorem head?_escapeLabel : (escapeLabel value).head? = some ',' ↔ value.head? = some ',' := by
  cases value with
  | nil => exact Iff.rfl
  | cons c value =>
    rw [escapeLabel_cons, List.head?_cons, escapeLabelChar]
    split_ifs
    all_goals simp_all

theorem chunkEnd_infix_cons :
    chunkEnd <:+: c :: cs ↔ (c = '"' ∧ cs.head? = some ',') ∨ chunkEnd <:+: cs := by
  rw [List.infix_cons_iff]
  refine or_congr_left ?_
  rw [chunkEnd, List.cons_prefix_cons, eq_comm]
  refine and_congr_right fun _ => ?_
  cases cs with
  | nil => simp
  | cons d cs => simp [List.cons_prefix_cons, eq_comm]

theorem chunkEnd_infix_append {front : List Char} (h : '"' ∉ front) :
    chunkEnd <:+: front ++ cs ↔ chunkEnd <:+: cs := by
  induction front with
  | nil => exact Iff.rfl
  | cons c front ih =>
    rw [List.mem_cons, not_or] at h
    rw [List.cons_append, chunkEnd_infix_cons, ih h.2, or_iff_right]
    exact fun hquote => h.1 hquote.1.symm

/-- A quote at the end does not end a chunk. -/
theorem chunkEnd_infix_quote (h : ¬ chunkEnd <:+: cs) : ¬ chunkEnd <:+: cs ++ ['"'] := by
  rw [List.infix_concat_iff, not_or]
  refine ⟨fun hsuffix => ?_, h⟩
  have hlast : (cs ++ ['"']).getLast? = some ',' := by
    obtain ⟨front, hfront⟩ := hsuffix
    rw [← hfront, List.getLast?_append]
    rfl
  rw [List.getLast?_concat] at hlast
  cases hlast

theorem chunkEnd_infix_escapeLabel (h : ¬ chunkEnd <:+: value) :
    ¬ chunkEnd <:+: escapeLabel value := by
  induction value with
  | nil => exact h
  | cons c value ih =>
    rw [chunkEnd_infix_cons, not_or] at h
    have ih := ih h.2
    have hhead : c = '"' → (escapeLabel value).head? ≠ some ',' := fun hc hhead =>
      h.1 ⟨hc, head?_escapeLabel.mp hhead⟩
    rw [escapeLabel_cons, escapeLabelChar]
    split_ifs with hback hquote hnewline
    · simp [chunkEnd_infix_cons, ih]
    · simp [chunkEnd_infix_cons, ih, hhead hquote]
    · simp [chunkEnd_infix_cons, ih]
    · simp [chunkEnd_infix_cons, ih, hquote]

theorem stripQuotes_cons (cs : List Char) : stripQuotes ('"' :: cs) = stripQuotes cs := by
  rw [stripQuotes, List.dropWhile_cons_of_pos (by simp)]
  rfl

theorem stripQuotes_quote (cs : List Char) : stripQuotes (cs ++ ['"']) = stripQuotes cs := by
  rw [stripQuotes, List.dropWhile_append]
  split_ifs with hempty
  · rw [stripQuotes, List.isEmpty_iff.mp hempty]
    rfl
  · rw [List.reverse_append, List.reverse_singleton, List.singleton_append,
      List.dropWhile_cons_of_pos (by simp)]
    rfl

theorem stripQuotes_eq_self (h : '"' ∉ cs) : stripQuotes cs = cs := by
  have hdrop : ∀ cs : List Char, '"' ∉ cs → cs.dropWhile (· = '"') = cs := by
    intro cs h
    cases cs with
    | nil => rfl
    | cons c cs =>
      refine List.dropWhile_cons_of_neg ?_
      simpa using fun hc : c = '"' => h (hc ▸ List.mem_cons_self)
  rw [stripQuotes, hdrop cs h, hdrop cs.reverse (mt List.mem_reverse.mp h), List.reverse_reverse]

/-- Only quotes are stripped. -/
theorem count_stripQuotes {c : Char} (hc : c ≠ '"') (cs : List Char) :
    (stripQuotes cs).count c = cs.count c := by
  have hdrop : ∀ cs : List Char, (cs.dropWhile (· = '"')).count c = cs.count c := by
    intro cs
    have hzero : (cs.takeWhile (· = '"')).count c = 0 :=
      List.count_eq_zero.mpr fun hmem => hc (by simpa using List.mem_takeWhile_imp hmem)
    calc (cs.dropWhile (· = '"')).count c
      _ = (cs.takeWhile (· = '"') ++ cs.dropWhile (· = '"')).count c := by
        rw [List.count_append, hzero, Nat.zero_add]
      _ = cs.count c := by rw [List.takeWhile_append_dropWhile]
  rw [stripQuotes, List.count_reverse, hdrop, List.count_reverse, hdrop]

/-- What is read of an escaped value is the value if and only if nothing was escaped. -/
theorem stripQuotes_escapeLabel_eq (hspace : ∀ c ∈ value, isSpace c = false) :
    stripQuotes (escapeLabel value) = value ↔ ∀ c ∈ value, c ≠ '"' ∧ c ≠ '\\' := by
  constructor
  · intro h
    have hcount : (stripQuotes (escapeLabel value)).count '\\' = value.count '\\' := by rw [h]
    rw [count_stripQuotes (by decide)] at hcount
    have hle := count_backslash_escapeLabel value
    have hback : value.count '\\' = 0 := by omega
    have hquote : value.count '"' = 0 := by omega
    rw [List.count_eq_zero] at hback hquote
    exact fun c hc => ⟨fun heq => hquote (heq ▸ hc), fun heq => hback (heq ▸ hc)⟩
  · intro h
    rw [escapeLabel_eq_self fun c hc => ⟨hspace c hc, h c hc⟩]
    exact stripQuotes_eq_self fun hmem => (h _ hmem).1 rfl

end Escape

/-! ## Rendered labels -/

section Names

variable {name : List Char} {c : Char}

theorem isSpace_of_nameChar (h : isNameChar c = true ∨ c = ':') : isSpace c = false := by
  have hrange : 48 ≤ c.toNat ∧ c.toNat ≤ 122 := by
    rcases h with h | rfl
    · simp only [isNameChar, Char.isAlphanum, Char.isAlpha, Char.isUpper, Char.isLower, Char.isDigit,
        Bool.or_eq_true, Bool.and_eq_true, decide_eq_true_eq, beq_iff_eq, ge_iff_le,
        UInt32.le_iff_toNat_le] at h
      rcases h with ((h | h) | h) | rfl
      · exact ⟨le_trans (by decide) h.1, le_trans h.2 (by decide)⟩
      · exact ⟨le_trans (by decide) h.1, le_trans h.2 (by decide)⟩
      · exact ⟨le_trans (by decide) h.1, le_trans h.2 (by decide)⟩
      · decide
    · decide
  rw [isSpace]
  simp only [Bool.or_eq_false_iff, Bool.and_eq_false_iff, decide_eq_false_iff_not, beq_eq_false_iff_ne]
  omega

theorem nameChar_of_validLabelName (h : validLabelName name = true) :
    ∀ c ∈ name, isNameChar c = true := by
  cases name with
  | nil => cases h
  | cons d name =>
    rw [validLabelName, Bool.and_eq_true, List.all_eq_true] at h
    intro c hc
    rcases List.mem_cons.mp hc with rfl | hc
    · rw [isNameChar, Char.isAlphanum]
      simp only [Bool.or_eq_true] at h ⊢
      exact h.1.imp_left .inl
    · exact h.2 c hc

end Names

/-- A label with a valid name, whose value has neither white space nor the end of a chunk. -/
structure Readable (label : String × String) : Prop where
  name : validLabelName label.1.toList = true
  space : ∀ c ∈ label.2.toList, isSpace c = false
  chunk : ¬ chunkEnd <:+: label.2.toList

section Parse

variable {label : String × String} {labels : List (String × String)}

theorem Readable.not_mem (h : Readable label) {c : Char} (hc : isNameChar c = false) :
    c ∉ label.1.toList := by
  intro hmem
  rw [nameChar_of_validLabelName h.name c hmem] at hc
  cases hc

theorem Readable.strip_name (h : Readable label) : strip label.1.toList = label.1.toList := by
  have hspace : ∀ c ∈ label.1.toList, isSpace c = false := fun c hc =>
    isSpace_of_nameChar (.inl (nameChar_of_validLabelName h.name c hc))
  exact strip_eq_self (fun c hc => hspace c (List.mem_of_head? hc))
    (fun c hc => hspace c (List.mem_of_getLast? hc))

theorem partitionAt_append {mark : Char} {front back : List Char} (h : mark ∉ front) :
    partitionAt mark (front ++ mark :: back) = (front, back) := by
  have hfront : ∀ c ∈ front, decide (c ≠ mark) = true := by
    intro c hc
    simpa using fun heq : c = mark => h (heq ▸ hc)
  rw [partitionAt, List.takeWhile_append_of_pos hfront, List.dropWhile_append_of_pos hfront,
    List.takeWhile_cons_of_neg (by simp), List.dropWhile_cons_of_neg (by simp), List.append_nil]
  rfl

/-- The chunk of a name and a raw value without white space. -/
theorem Readable.chunkLabel_eq (h : Readable label) {raw : List Char}
    (hraw : ∀ c ∈ raw, isSpace c = false) :
    chunkLabel (label.1.toList ++ '=' :: raw) = [(label.1, String.ofList (stripQuotes raw))] := by
  have hmem : '=' ∈ label.1.toList ++ '=' :: raw := List.mem_append_right _ List.mem_cons_self
  have hstrip : strip raw = raw := strip_eq_self (fun c hc => hraw c (List.mem_of_head? hc))
    (fun c hc => hraw c (List.mem_of_getLast? hc))
  rw [chunkLabel, if_pos hmem, partitionAt_append (h.not_mem (by decide)), h.strip_name, hstrip,
    String.ofList_toList]

/-- What closes a label. -/
def Closing (cs : List Char) : Prop := cs = [] ∨ cs = ['"']

theorem Closing.isSpace {cs : List Char} (h : Closing cs) : ∀ c ∈ cs, Noema.Lib.isSpace c = false := by
  rcases h with rfl | rfl
  · simp
  · simp [Noema.Lib.isSpace]

theorem Closing.stripQuotes {closing : List Char} (h : Closing closing) (cs : List Char) :
    Observability.stripQuotes (cs ++ closing) = Observability.stripQuotes cs := by
  rcases h with rfl | rfl
  · rw [List.append_nil]
  · exact stripQuotes_quote cs

theorem Closing.not_chunkEnd {closing cs : List Char} (h : Closing closing)
    (hcs : ¬ chunkEnd <:+: cs) : ¬ chunkEnd <:+: cs ++ closing := by
  rcases h with rfl | rfl
  · rwa [List.append_nil]
  · exact chunkEnd_infix_quote hcs

/-- A label without a comma after its first quote is one chunk. -/
theorem Readable.parseLabels_open (h : Readable label) (hcomma : label.2.toList.head? ≠ some ',')
    {closing : List Char} (hclosing : Closing closing) :
    parseLabels (openLabel label ++ closing) =
      [(label.1, String.ofList (stripQuotes (escapeLabel label.2.toList)))] := by
  have hraw : ∀ c ∈ '"' :: (escapeLabel label.2.toList ++ closing), isSpace c = false := by
    intro c hc
    rcases List.mem_cons.mp hc with rfl | hc
    · decide
    · rcases List.mem_append.mp hc with hc | hc
      · exact isSpace_escapeLabel h.space c hc
      · exact hclosing.isSpace c hc
  have htext : openLabel label ++ closing =
      label.1.toList ++ '=' :: '"' :: (escapeLabel label.2.toList ++ closing) := by
    rw [openLabel, List.append_assoc]
    rfl
  have hend : ¬ chunkEnd <:+: openLabel label ++ closing := by
    refine hclosing.not_chunkEnd ?_
    rw [openLabel, chunkEnd_infix_append (h.not_mem (by decide)), chunkEnd_infix_cons,
      chunkEnd_infix_cons, head?_escapeLabel]
    simp [hcomma, chunkEnd_infix_escapeLabel h.chunk]
  rw [parseLabels_single hend, htext, h.chunkLabel_eq hraw, stripQuotes_cons, hclosing.stripQuotes]

/-- A comma after the first quote ends the chunk. -/
theorem Readable.parseLabels_comma (h : Readable label) {value : List Char}
    (hvalue : label.2.toList = ',' :: value) {closing : List Char} (hclosing : Closing closing) :
    parseLabels (openLabel label ++ closing) =
      chunkLabel (escapeLabel value ++ closing) ++ [(label.1, "")] := by
  have hname : chunkLabel (label.1.toList ++ ['=']) = [(label.1, "")] :=
    h.chunkLabel_eq fun c hc => absurd hc List.not_mem_nil
  have hstart : ¬ chunkEnd <:+: label.1.toList ++ ['='] := by
    rw [chunkEnd_infix_append (h.not_mem (by decide))]
    decide
  have hend : ¬ chunkEnd <:+: value := by
    have hchunk := h.chunk
    rw [hvalue, chunkEnd_infix_cons, not_or] at hchunk
    exact hchunk.2
  have htext : openLabel label ++ closing =
      (label.1.toList ++ ['=']) ++ '"' :: ',' :: (escapeLabel value ++ closing) := by
    rw [openLabel, hvalue, escapeLabel_cons]
    simp [escapeLabelChar]
  rw [htext, parseLabels_append, parseLabels_single hstart, hname,
    parseLabels_single (hclosing.not_chunkEnd (chunkEnd_infix_escapeLabel hend))]

/-- A label that is read as it was written is plain. -/
theorem Readable.plain_of_lookup (h : Readable label) {closing : List Char}
    (hclosing : Closing closing)
    (hlookup : (parseLabels (openLabel label ++ closing)).lookup label.1 = some label.2) :
    Plain label.2.toList := by
  by_cases hcomma : label.2.toList.head? = some ','
  · obtain ⟨value, hvalue⟩ := List.head?_eq_some_iff.mp hcomma
    rw [h.parseLabels_comma hvalue hclosing, List.lookup_append] at hlookup
    -- a value that was read has fewer commas
    have hlabel : ∀ l ∈ chunkLabel (escapeLabel value ++ closing), l.2 ≠ label.2 := by
      intro l hl heq
      have hcount := (infix_chunkLabel hl).sublist.count_le ','
      have hzero : closing.count ',' = 0 := by
        rcases hclosing with rfl | rfl
        · rfl
        · rfl
      rw [heq, hvalue, List.count_append, hzero, count_comma_escapeLabel, List.count_cons_self]
        at hcount
      omega
    cases hfound : (chunkLabel (escapeLabel value ++ closing)).lookup label.1 with
    | none =>
      rw [hfound, Option.none_or, List.lookup_cons_self, Option.some.injEq] at hlookup
      rw [← hlookup] at hvalue
      cases hvalue
    | some found =>
      rw [hfound, Option.some_or, Option.some.injEq] at hlookup
      exact absurd hlookup (hlabel (label.1, found) (mem_of_lookup hfound))
  · rw [h.parseLabels_open hcomma hclosing, List.lookup_cons_self, Option.some.injEq] at hlookup
    have hvalue := congrArg String.toList hlookup
    rw [String.toList_ofList, stripQuotes_escapeLabel_eq h.space] at hvalue
    exact ⟨fun c hc => ⟨h.space c hc, hvalue c hc⟩, hcomma⟩

/-- A plain label is read as it was written. -/
theorem Readable.parseLabels_plain (h : Readable label) (hplain : Plain label.2.toList)
    {closing : List Char} (hclosing : Closing closing) :
    parseLabels (openLabel label ++ closing) = [label] := by
  have hvalue : stripQuotes (escapeLabel label.2.toList) = label.2.toList :=
    (stripQuotes_escapeLabel_eq h.space).mpr fun c hc => (hplain.1 c hc).2
  rw [h.parseLabels_open hplain.2 hclosing, hvalue, String.ofList_toList]

/-- A label of that name is always read. -/
theorem Readable.exists_mem (h : Readable label) {closing : List Char}
    (hclosing : Closing closing) :
    ∃ value, (label.1, value) ∈ parseLabels (openLabel label ++ closing) := by
  by_cases hcomma : label.2.toList.head? = some ','
  · obtain ⟨value, hvalue⟩ := List.head?_eq_some_iff.mp hcomma
    rw [h.parseLabels_comma hvalue hclosing]
    exact ⟨"", List.mem_append_right _ (List.mem_singleton_self _)⟩
  · rw [h.parseLabels_open hcomma hclosing]
    exact ⟨_, List.mem_singleton_self _⟩

theorem labelsText_cons (label : String × String) {labels : List (String × String)}
    (h : labels ≠ []) :
    labelsText (label :: labels) = openLabel label ++ '"' :: ',' :: labelsText labels := by
  cases labels with
  | nil => exact absurd rfl h
  | cons _ _ => rfl

/-- What is read of labels, one after the other. -/
theorem parseLabels_labelsText_cons (label : String × String) (labels : List (String × String)) :
    ∃ closing, Closing closing ∧ parseLabels (labelsText (label :: labels)) =
      parseLabels (labelsText labels) ++ parseLabels (openLabel label ++ closing) := by
  by_cases hnil : labels = []
  · subst hnil
    exact ⟨['"'], .inr rfl, rfl⟩
  · refine ⟨[], .inl rfl, ?_⟩
    rw [labelsText_cons label hnil, parseLabels_append, List.append_nil]

theorem parseLabels_labelsText (h : ∀ l ∈ labels, Readable l)
    (hplain : ∀ l ∈ labels, Plain l.2.toList) : parseLabels (labelsText labels) = labels.reverse := by
  induction labels with
  | nil => rfl
  | cons label labels ih =>
    obtain ⟨closing, hclosing, hparse⟩ := parseLabels_labelsText_cons label labels
    rw [hparse, ih (fun l hl => h l (List.mem_cons_of_mem _ hl))
      fun l hl => hplain l (List.mem_cons_of_mem _ hl),
      (h label List.mem_cons_self).parseLabels_plain (hplain label List.mem_cons_self) hclosing,
      List.reverse_cons]

theorem exists_mem_labelsText (h : ∀ l ∈ labels, Readable l) :
    ∀ l ∈ labels, ∃ value, (l.1, value) ∈ parseLabels (labelsText labels) := by
  induction labels with
  | nil => simp
  | cons label labels ih =>
    obtain ⟨closing, hclosing, hparse⟩ := parseLabels_labelsText_cons label labels
    intro l hl
    rw [hparse]
    rcases List.mem_cons.mp hl with rfl | hl
    · obtain ⟨value, hvalue⟩ := (h l List.mem_cons_self).exists_mem hclosing
      exact ⟨value, List.mem_append_right _ hvalue⟩
    · obtain ⟨value, hvalue⟩ := ih (fun l hl => h l (List.mem_cons_of_mem _ hl)) l hl
      exact ⟨value, List.mem_append_left _ hvalue⟩

/-- Labels that are all found as they were written are plain. A value may give other names a value,
but none that comes later, so the last label that is not plain would be found wrong. -/
theorem plain_of_lookup_labelsText (h : ∀ l ∈ labels, Readable l)
    (hnodup : (labels.map Prod.fst).Nodup)
    (hlookup : ∀ l ∈ labels, (parseLabels (labelsText labels)).lookup l.1 = some l.2) :
    ∀ l ∈ labels, Plain l.2.toList := by
  induction labels with
  | nil => simp
  | cons label labels ih =>
    obtain ⟨closing, hclosing, hparse⟩ := parseLabels_labelsText_cons label labels
    obtain ⟨hnot, hnodup⟩ := List.nodup_cons.mp hnodup
    have hrest : ∀ l ∈ labels, Readable l := fun l hl => h l (List.mem_cons_of_mem _ hl)
    have hplain : ∀ l ∈ labels, Plain l.2.toList := by
      -- what is found of a later label was read of the later labels
      refine ih hrest hnodup fun l hl => ?_
      have hfound := hlookup l (List.mem_cons_of_mem _ hl)
      obtain ⟨value, hvalue⟩ := exists_mem_labelsText hrest l hl
      obtain ⟨found, hsome⟩ := Option.isSome_iff_exists.mp
        (List.lookup_isSome_iff.mpr ⟨_, hvalue, beq_self_eq_true l.1⟩)
      rwa [hparse, List.lookup_append, hsome, Option.some_or, ← hsome] at hfound
    -- the labels after the first one are plain, so they do not give it a value
    have hnone : (parseLabels (labelsText labels)).lookup label.1 = none := by
      rw [parseLabels_labelsText hrest hplain, List.lookup_eq_none_iff]
      intro l hl
      refine bne_iff_ne.mpr fun heq => hnot ?_
      rw [heq]
      exact List.mem_map_of_mem (List.mem_reverse.mp hl)
    intro l hl
    rcases List.mem_cons.mp hl with rfl | hl
    · have hfound := hlookup l List.mem_cons_self
      rw [hparse, List.lookup_append, hnone, Option.none_or] at hfound
      exact (h l List.mem_cons_self).plain_of_lookup hclosing hfound
    · exact hplain l hl

end Parse

/-! ## Lines -/

theorem isSpace_of_mem_splitWords (text : List Char) :
    ∀ word ∈ splitWords text, ∀ c ∈ word, isSpace c = false := by
  induction text with
  | nil => simp [splitWords_nil]
  | cons c text ih =>
    cases hc : isSpace c with
    | true =>
      rw [splitWords_cons_space hc]
      exact ih
    | false =>
      rcases splitWords_cons hc text with heq | ⟨word, words, hwords, heq⟩
      · rw [heq]
        simpa [hc] using ih
      · rw [hwords] at ih
        rw [heq]
        simpa [hc] using ih

theorem isSpace_of_isLineBreak {c : Char} (h : isLineBreak c = true) : isSpace c = true := by
  simp only [isLineBreak, Bool.or_eq_true, Bool.and_eq_true, decide_eq_true_eq, beq_iff_eq] at h
  simp only [isSpace, Bool.or_eq_true, Bool.and_eq_true, decide_eq_true_eq, beq_iff_eq]
  omega

theorem splitLinesFrom_line {line : List Char} (hline : ∀ c ∈ line, isLineBreak c = false)
    (cur rest : List Char) :
    splitLinesFrom cur (line ++ '\n' :: rest) = (cur.reverse ++ line) :: splitLinesFrom [] rest := by
  induction line generalizing cur with
  | nil =>
    rw [List.nil_append, List.append_nil]
    rfl
  | cons c line ih =>
    have hc := hline c List.mem_cons_self
    rw [List.cons_append, splitLinesFrom, if_neg (by simp [hc]),
      ih (fun d hd => hline d (List.mem_cons_of_mem _ hd)), List.reverse_cons, List.append_assoc]
    · rfl
    · rintro cs rfl
      cases hc

section Line

variable {F : Type} [GridFloat F] {number : F → List Char} {s : Sample F}

/-- A value of a label that was read has neither white space nor the end of a chunk. -/
theorem value_of_mem_parseExpositionLines {text : String} {s : Sample F}
    (hs : s ∈ parseExpositionLines text) {l : String × String} (hl : l ∈ s.labels) :
    (∀ c ∈ l.2.toList, isSpace c = false) ∧ ¬ chunkEnd <:+: l.2.toList := by
  obtain ⟨line, -, hline⟩ := List.mem_filterMap.mp hs
  rw [parseLine] at hline
  dsimp only at hline
  split_ifs at hline with hcomment
  split at hline
  · next name token rest hwords =>
    have hname : ∀ c ∈ name, isSpace c = false :=
      isSpace_of_mem_splitWords _ name (by rw [hwords]; exact List.mem_cons_self)
    obtain ⟨value, -, rfl⟩ := Option.map_eq_some_iff.mp hline
    by_cases hbrace : '\x7b' ∈ name ∧ name.getLast? = some '\x7d'
    · rw [if_pos hbrace] at hl
      have hwithin := (infix_value hl).1.trans
        ((List.dropLast_prefix _).isInfix.trans (infix_partitionAt '\x7b' name))
      exact ⟨fun c hc => hname c (hwithin.subset hc), (infix_value hl).2⟩
    · rw [if_neg hbrace] at hl
      cases hl
  · cases hline

/-- The number is written so that `float` reads it, as one word. -/
structure Shown (number : F → List Char) (value : F) : Prop where
  read : PyInterp.ofStr (number value) = some value
  ne_nil : number value ≠ []
  space : ∀ c ∈ number value, isSpace c = false

/-- A sample with valid names and a number. -/
structure ValidSample (number : F → List Char) (s : Sample F) : Prop where
  name : validMetricName s.name.toList = true
  labels : ∀ l ∈ s.labels, validLabelName l.1.toList = true
  nodup : (s.labels.map Prod.fst).Nodup
  shown : Shown number s.value

/-- There is no white space in the values of the labels. -/
def Unspaced (s : Sample F) : Prop := ∀ l ∈ s.labels, ∀ c ∈ l.2.toList, isSpace c = false

/-- What is read of the line of a sample. -/
def readBack (s : Sample F) : Sample F := { s with labels := parseLabels (labelsText s.labels) }

theorem metricChar_of_valid {name : List Char} (h : validMetricName name = true) :
    name ≠ [] ∧ ∀ c ∈ name, isNameChar c = true ∨ c = ':' := by
  cases name with
  | nil => cases h
  | cons d name =>
    rw [validMetricName, Bool.and_eq_true, List.all_eq_true] at h
    refine ⟨List.cons_ne_nil _ _, fun c hc => ?_⟩
    rcases List.mem_cons.mp hc with rfl | hc
    · rw [isNameChar, Char.isAlphanum]
      have hc := h.1
      simp only [Bool.or_eq_true, beq_iff_eq] at hc ⊢
      exact hc.imp_left fun hc => hc.imp_left .inl
    · simpa using h.2 c hc

theorem isSpace_labelsText (labels : List (String × String))
    (hname : ∀ l ∈ labels, validLabelName l.1.toList = true)
    (hvalue : ∀ l ∈ labels, ∀ c ∈ l.2.toList, isSpace c = false) :
    ∀ c ∈ labelsText labels, isSpace c = false := by
  have hopen : ∀ l ∈ labels, ∀ c ∈ openLabel l, isSpace c = false := by
    intro l hl c hc
    rw [openLabel, List.mem_append, List.mem_cons, List.mem_cons] at hc
    rcases hc with hc | rfl | rfl | hc
    · exact isSpace_of_nameChar (.inl (nameChar_of_validLabelName (hname l hl) c hc))
    · decide
    · decide
    · exact isSpace_escapeLabel (hvalue l hl) c hc
  induction labels with
  | nil => simp [labelsText]
  | cons label labels ih =>
    have hlabels := ih (fun l hl => hname l (List.mem_cons_of_mem _ hl))
      (fun l hl => hvalue l (List.mem_cons_of_mem _ hl))
      fun l hl => hopen l (List.mem_cons_of_mem _ hl)
    intro c hc
    by_cases hnil : labels = []
    · subst hnil
      rw [labelsText, List.mem_append, List.mem_singleton] at hc
      rcases hc with hc | rfl
      · exact hopen label List.mem_cons_self c hc
      · decide
    · rw [labelsText_cons label hnil, List.mem_append, List.mem_cons, List.mem_cons] at hc
      rcases hc with hc | rfl | rfl | hc
      · exact hopen label List.mem_cons_self c hc
      · decide
      · decide
      · exact hlabels c hc

/-- The word before the number. -/
theorem ValidSample.isSpace_word (h : ValidSample number s) (hspace : Unspaced s) :
    ∀ c ∈ s.name.toList ++ bracedLabels s.labels, isSpace c = false := by
  intro c hc
  rcases List.mem_append.mp hc with hc | hc
  · exact isSpace_of_nameChar ((metricChar_of_valid h.name).2 c hc)
  · rw [bracedLabels] at hc
    split_ifs at hc
    · cases hc
    · rw [List.cons_append, List.mem_cons, List.mem_append, List.mem_singleton] at hc
      rcases hc with rfl | hc | rfl
      · decide
      · exact isSpace_labelsText s.labels h.labels hspace c hc
      · decide

/-- The name and the labels of that word. -/
theorem ValidSample.split_word (h : ValidSample number s) :
    (if '\x7b' ∈ s.name.toList ++ bracedLabels s.labels ∧
        (s.name.toList ++ bracedLabels s.labels).getLast? = some '\x7d' then
      ((partitionAt '\x7b' (s.name.toList ++ bracedLabels s.labels)).1,
        parseLabels (partitionAt '\x7b' (s.name.toList ++ bracedLabels s.labels)).2.dropLast)
      else (s.name.toList ++ bracedLabels s.labels, [])) =
      (s.name.toList, parseLabels (labelsText s.labels)) := by
  have hbrace : '\x7b' ∉ s.name.toList := by
    intro hmem
    rcases (metricChar_of_valid h.name).2 _ hmem with hchar | hchar
    · revert hchar
      decide
    · cases hchar
  rw [bracedLabels]
  split_ifs with hnil hword hword
  · rw [List.append_nil] at hword
    exact absurd hword.1 hbrace
  · rw [hnil, List.append_nil]
    rfl
  · rw [List.cons_append, partitionAt_append hbrace, List.dropLast_concat]
  · refine absurd ⟨?_, ?_⟩ hword
    · exact List.mem_append_right _ List.mem_cons_self
    · rw [← List.append_assoc, List.getLast?_concat]

/-- The line of a sample without white space in its labels. -/
theorem ValidSample.parseLine_sampleLine (h : ValidSample number s) (hspace : Unspaced s) :
    parseLine (sampleLine number s) = some (readBack s) := by
  have hword := h.isSpace_word hspace
  obtain ⟨hne, hmetric⟩ := metricChar_of_valid h.name
  obtain ⟨c, name, hname⟩ := List.exists_cons_of_ne_nil hne
  have hstrip : strip (sampleLine number s) = sampleLine number s := by
    refine strip_eq_self (fun d hd => ?_) (fun d hd => ?_)
    · rw [sampleLine, hname, List.cons_append, List.cons_append, List.head?_cons] at hd
      cases hd
      exact isSpace_of_nameChar (hmetric _ (by rw [hname]; exact List.mem_cons_self))
    · rw [sampleLine, List.getLast?_append, List.getLast?_cons_of_ne_nil h.shown.ne_nil] at hd
      obtain ⟨e, he⟩ := Option.ne_none_iff_exists'.mp (mt List.getLast?_eq_none_iff.mp h.shown.ne_nil)
      rw [he, Option.some_or] at hd
      cases hd
      exact h.shown.space _ (List.mem_of_getLast? he)
  -- a name does not start with a hash sign, so the line is no comment
  have hcomment : (sampleLine number s).head? ≠ some '#' := by
    rw [sampleLine, hname, List.cons_append, List.cons_append, List.head?_cons]
    rintro heq
    cases heq
    rcases hmetric '#' (by rw [hname]; exact List.mem_cons_self) with hchar | hchar
    · revert hchar
      decide
    · cases hchar
  -- the line has two words, the name with its labels and the number
  have hwords : splitWords (sampleLine number s) =
      [s.name.toList ++ bracedLabels s.labels, number s.value] := by
    have hspaces : ∀ c ∈ [' '], isSpace c = true := by
      simp [isSpace]
    have hsplit := splitWords_append_space (List.cons_ne_nil ' ' []) hspaces
      (s.name.toList ++ bracedLabels s.labels) (number s.value)
    rw [splitWords_word (List.append_ne_nil_of_left_ne_nil hne _) hword,
      splitWords_word h.shown.ne_nil h.shown.space] at hsplit
    exact hsplit
  rw [parseLine]
  dsimp only
  rw [hstrip, if_neg hcomment, hwords]
  have hsplit := h.split_word
  dsimp only
  rw [hsplit, h.shown.read]
  simp only [Option.map_some, readBack, String.ofList_toList]

theorem ValidSample.isLineBreak_sampleLine (h : ValidSample number s) (hspace : Unspaced s) :
    ∀ c ∈ sampleLine number s, isLineBreak c = false := by
  intro c hc
  rw [Bool.eq_false_iff]
  intro hbreak
  have hwhite := isSpace_of_isLineBreak hbreak
  rw [sampleLine, List.mem_append, List.mem_cons] at hc
  rcases hc with hc | rfl | hc
  · rw [h.isSpace_word hspace c hc] at hwhite
    cases hwhite
  · cases hbreak
  · rw [h.shown.space c hc] at hwhite
    cases hwhite

/-- Without white space in the labels, each line is read on its own. -/
theorem parseExpositionLines_render {samples : List (Sample F)}
    (hvalid : ∀ s ∈ samples, ValidSample number s) (hspace : ∀ s ∈ samples, Unspaced s) :
    parseExpositionLines (String.ofList (render number samples)) = samples.map readBack := by
  rw [parseExpositionLines, String.toList_ofList]
  induction samples with
  | nil => rfl
  | cons s samples ih =>
    have hs := hvalid s List.mem_cons_self
    have hunspaced := hspace s List.mem_cons_self
    have hrender : render number (s :: samples) =
        sampleLine number s ++ '\n' :: render number samples := by
      rw [render, List.flatMap_cons, List.append_assoc]
      rfl
    rw [hrender, splitLinesFrom_line (hs.isLineBreak_sampleLine hunspaced), List.reverse_nil,
      List.nil_append, List.filterMap_cons_some (hs.parseLine_sampleLine hunspaced),
      ih (fun s hs => hvalid s (List.mem_cons_of_mem _ hs))
        fun s hs => hspace s (List.mem_cons_of_mem _ hs), List.map_cons]

/-! ## The round trip -/

/-- Two samples with the same name, value and labels. -/
structure SameSample (s t : Sample F) : Prop where
  name : s.name = t.name
  labels : ∀ key, s.labels.lookup key = t.labels.lookup key
  value : s.value = t.value

/-- What is read of the rendered samples is the samples of each metric, in their order. -/
def RoundTrips (number : F → List Char) (samples : List (Sample F)) : Prop :=
  ∀ name, List.Forall₂ SameSample
    (samplesOf (parseExpositionLines (String.ofList (render number samples))) name)
    (samplesOf samples name)

theorem lookup_reverse {labels : List (String × String)} (h : (labels.map Prod.fst).Nodup)
    (key : String) : labels.reverse.lookup key = labels.lookup key := by
  have hnodup : (labels.reverse.map Prod.fst).Nodup := by
    rw [List.map_reverse]
    exact List.nodup_reverse.mpr h
  refine Option.ext fun value => ⟨fun hvalue => ?_, fun hvalue => ?_⟩
  · exact lookup_of_mem_nodup h (List.mem_reverse.mp (mem_of_lookup hvalue))
  · exact lookup_of_mem_nodup hnodup (List.mem_reverse.mpr (mem_of_lookup hvalue))

/-- A sample comes back if and only if its labels are plain. -/
theorem ValidSample.sameSample_readBack (h : ValidSample number s) (hspace : Unspaced s)
    (hchunk : ∀ l ∈ s.labels, ¬ chunkEnd <:+: l.2.toList) :
    SameSample (readBack s) s ↔ ∀ l ∈ s.labels, Plain l.2.toList := by
  have hreadable : ∀ l ∈ s.labels, Readable l := fun l hl =>
    ⟨h.labels l hl, hspace l hl, hchunk l hl⟩
  constructor
  · intro hsame
    refine plain_of_lookup_labelsText hreadable h.nodup fun l hl => ?_
    rw [← lookup_of_mem_nodup h.nodup hl]
    exact hsame.labels l.1
  · intro hplain
    refine ⟨rfl, fun key => ?_, rfl⟩
    rw [readBack, parseLabels_labelsText hreadable hplain, lookup_reverse h.nodup]

omit [GridFloat F] in
theorem samplesOf_map_readBack (samples : List (Sample F)) (name : String) :
    samplesOf (samples.map readBack) name = (samplesOf samples name).map readBack := by
  rw [samplesOf, samplesOf, List.filter_map]
  rfl

theorem exists_of_forall₂ {α β : Type} {R : α → β → Prop} {xs : List α} {ys : List β}
    (h : List.Forall₂ R xs ys) {y : β} (hy : y ∈ ys) : ∃ x ∈ xs, R x y := by
  induction h with
  | nil => cases hy
  | @cons x y' xs ys hR _ ih =>
    rcases List.mem_cons.mp hy with rfl | hy
    · exact ⟨x, List.mem_cons_self, hR⟩
    · obtain ⟨x', hx', hR'⟩ := ih hy
      exact ⟨x', List.mem_cons_of_mem _ hx', hR'⟩

/-- Where every line is read on its own, the samples come back one by one. -/
theorem roundTrips_iff_readBack {samples : List (Sample F)}
    (hvalid : ∀ s ∈ samples, ValidSample number s) (hspace : ∀ s ∈ samples, Unspaced s) :
    RoundTrips number samples ↔ ∀ s ∈ samples, SameSample (readBack s) s := by
  have hmetric : ∀ name, List.Forall₂ SameSample
      (samplesOf (parseExpositionLines (String.ofList (render number samples))) name)
      (samplesOf samples name) ↔ ∀ s ∈ samplesOf samples name, SameSample (readBack s) s := by
    intro name
    rw [parseExpositionLines_render hvalid hspace, samplesOf_map_readBack,
      List.forall₂_map_left_iff, List.forall₂_same]
  constructor
  · intro h s hs
    exact (hmetric s.name).mp (h s.name) s (List.mem_filter.mpr ⟨hs, decide_eq_true rfl⟩)
  · intro h name
    exact (hmetric name).mpr fun s hs => h s (List.mem_of_mem_filter hs)

/-- A value that comes back has neither white space nor the end of a chunk. -/
theorem RoundTrips.value {samples : List (Sample F)} (h : RoundTrips number samples)
    (hs : s ∈ samples) (hnodup : (s.labels.map Prod.fst).Nodup) {l : String × String}
    (hl : l ∈ s.labels) : (∀ c ∈ l.2.toList, isSpace c = false) ∧ ¬ chunkEnd <:+: l.2.toList := by
  obtain ⟨p, hp, hsame⟩ := exists_of_forall₂ (h s.name)
    (List.mem_filter.mpr ⟨hs, decide_eq_true rfl⟩)
  have hlookup := (hsame.labels l.1).trans (lookup_of_mem_nodup hnodup hl)
  exact value_of_mem_parseExpositionLines (List.mem_of_mem_filter hp) (mem_of_lookup hlookup)

/-- The line parser reads back what was rendered if and only if every value of a label is plain.
This is about all lists of valid samples: what is read of a metric is its samples in their order,
with the names, values and labels that they had. -/
theorem roundTrips_iff (number : F → List Char) (samples : List (Sample F))
    (hvalid : ∀ s ∈ samples, ValidSample number s) :
    RoundTrips number samples ↔ ∀ s ∈ samples, ∀ l ∈ s.labels, Plain l.2.toList := by
  constructor
  · intro h
    -- a value that comes back is a part of a word of the line, and of a chunk
    have hread : ∀ s ∈ samples, ∀ l ∈ s.labels,
        (∀ c ∈ l.2.toList, isSpace c = false) ∧ ¬ chunkEnd <:+: l.2.toList :=
      fun s hs l hl => h.value hs (hvalid s hs).nodup hl
    have hspace : ∀ s ∈ samples, Unspaced s := fun s hs l hl => (hread s hs l hl).1
    intro s hs
    exact ((hvalid s hs).sameSample_readBack (hspace s hs) fun l hl => (hread s hs l hl).2).mp
      ((roundTrips_iff_readBack hvalid hspace).mp h s hs)
  · intro hplain
    have hspace : ∀ s ∈ samples, Unspaced s := fun s hs l hl c hc => ((hplain s hs l hl).1 c hc).1
    refine (roundTrips_iff_readBack hvalid hspace).mpr fun s hs => ?_
    refine ((hvalid s hs).sameSample_readBack (hspace s hs) fun l hl hend => ?_).mpr (hplain s hs)
    exact ((hplain s hs l hl).1 '"' (hend.subset List.mem_cons_self)).2.1 rfl

end Line

/-- The number 1, as `repr` writes it. -/
def oneFloat : FloatText := ⟨['1', '.', '0'], by decide⟩

/-- The cost of a module. -/
def moduleCost (path : String) : Sample FloatText :=
  { name := "noema_code_cost_per_module", labels := [("module", path)], value := oneFloat }

theorem roundTrips_iff_path : RoundTrips PyFloat.repr [moduleCost "src/a,b.py"] := by
  have hvalid : ∀ s ∈ [moduleCost "src/a,b.py"], ValidSample PyFloat.repr s := by
    intro s hs
    rw [List.mem_singleton.mp hs]
    refine ⟨by decide, ?_, List.nodup_singleton _, by decide, by decide, ?_⟩
    · intro l hl
      rw [List.mem_singleton.mp hl]
      decide
    · simp [moduleCost, oneFloat, PyFloat.repr, isSpace]
  refine (roundTrips_iff PyFloat.repr _ hvalid).mpr fun s hs l hl => ?_
  rw [List.mem_singleton.mp hs] at hl
  rw [List.mem_singleton.mp hl]
  have hpath : "src/a,b.py".toList = ['s', 'r', 'c', '/', 'a', ',', 'b', '.', 'p', 'y'] := by decide
  rw [hpath]
  simp [Plain, isSpace]

/-- The cost of a module with a space in its path is lost. -/
theorem path_with_space_lost : ¬ RoundTrips PyFloat.repr [moduleCost "my file.py"] := fun h => by
  have hspace := (h.value (List.mem_singleton_self _) (List.nodup_singleton _)
    (List.mem_singleton_self _)).1 ' ' (by decide)
  cases hspace

end Noema.Observability
