import Noema.Utils.JsonUtils
import Noema.Lib.JsonCut

/-!
# Fenced JSON (`utils/json_utils.py`)

What `extract_fenced_json` makes of a JSON text in a code block. The block ends at the first fence
after its start, which may be one in the JSON text; the rest is then not decoded, and the text from
the first brace to the last is tried before the one from the first bracket to the last.

- `fenced`, `Prose`, `White`: a text in a code block, with white space and prose around it that has
  no marks of its own.
- `stripFences_fenced`: the block without a fence in it is the text. `exists_stripFences_cut`: with
  one it is cut there, and by `loads_cut` the cut text has no value.
- `outermost_append`: what surrounds a text has no part in the span of its marks; `loads_outermost`:
  the span of the right marks is the whole text.
- **`extractFencedJson_eq_iff`**: an object or array comes back, if and only if it is an object, or
  there is no fence in its text, or the text from its first brace to its last is no JSON.
- `array_lost`: an array of an object with a fence in it; the object comes back in its place.
-/

namespace Noema.Utils

open Noema.Lib PyJson

/-- The fence of a code block. -/
def fence : List Char := ['\x60', '\x60', '\x60']

/-! ## Finding a text -/

section Find

variable {needle text front rest : List Char} {i j : Nat}

/-- `find` returns the first position where the needle is. -/
theorem findText_eq_some_iff : findText needle text = some i ↔
    needle <+: text.drop i ∧ ∀ j < i, ¬ needle <+: text.drop j := by
  induction text generalizing i with
  | nil =>
    rw [findText, List.drop_nil, List.prefix_nil]
    constructor
    · intro h
      split_ifs at h with hnil
      cases h
      exact ⟨hnil, fun j hj => absurd hj (Nat.not_lt_zero j)⟩
    · rintro ⟨rfl, hfirst⟩
      cases i with
      | zero => rfl
      | succ i => exact absurd List.nil_prefix (hfirst 0 (Nat.succ_pos i))
  | cons c text ih =>
    rw [findText]
    by_cases hpre : needle <+: c :: text
    · rw [if_pos (List.isPrefixOf_iff_prefix.mpr hpre)]
      constructor
      · intro h
        cases h
        exact ⟨hpre, fun j hj => absurd hj (Nat.not_lt_zero j)⟩
      · rintro ⟨-, hfirst⟩
        cases i with
        | zero => rfl
        | succ i => exact absurd hpre (hfirst 0 (Nat.succ_pos i))
    · rw [if_neg fun h => hpre (List.isPrefixOf_iff_prefix.mp h)]
      cases i with
      | zero =>
        refine iff_of_false ?_ fun h => hpre h.1
        simp
      | succ i =>
        rw [Option.map_eq_some_iff]
        simp only [Nat.add_right_cancel_iff, exists_eq_right, ih, List.drop_succ_cons]
        refine and_congr_right fun _ => ⟨fun h j hj => ?_, fun h j hj => h (j + 1) (by omega)⟩
        cases j with
        | zero => exact hpre
        | succ j => exact h j (by omega)

/-- The needle is found where it is, or before. -/
theorem exists_findText (h : needle <+: text.drop j) : ∃ i ≤ j, findText needle text = some i := by
  classical
  have hex : ∃ j, needle <+: text.drop j := ⟨j, h⟩
  exact ⟨Nat.find hex, Nat.find_min' hex h,
    findText_eq_some_iff.mpr ⟨Nat.find_spec hex, fun _ => Nat.find_min hex⟩⟩

/-- Before the needle there is nothing that it could start with. -/
theorem findText_append {mark : Char} (h : mark ∉ front) :
    findText (mark :: needle) (front ++ (mark :: needle) ++ rest) = some front.length := by
  rw [findText_eq_some_iff, List.append_assoc, List.drop_left]
  refine ⟨List.prefix_append .., fun j hj hpre => ?_⟩
  rw [List.drop_append_of_le_length hj.le, List.drop_eq_getElem_cons hj] at hpre
  exact h ((List.cons_prefix_cons.mp hpre).1 ▸ List.getElem_mem hj)

end Find

/-! ## Stripping -/

section Strip

variable {p : Char → Bool} {front core back : List Char} {c : Char}

theorem dropWhile_append_of_head (hhead : core.head? = some c) (hc : p c = false) :
    (front ++ core).dropWhile p = front.dropWhile p ++ core := by
  obtain ⟨tail, rfl⟩ := List.head?_eq_some_iff.mp hhead
  rw [List.dropWhile_append]
  split_ifs with hempty
  · rw [List.isEmpty_iff.mp hempty, List.dropWhile_cons, hc]
    rfl
  · rfl

/-- Only the ends are stripped. -/
theorem strip_append {d : Char} (hhead : core.head? = some c) (hc : isSpace c = false)
    (hlast : core.getLast? = some d) (hd : isSpace d = false) :
    strip (front ++ core ++ back) = front.dropWhile isSpace ++ core ++ back.rdropWhile isSpace := by
  have hfront : (core ++ back).head? = some c := by
    rw [List.head?_append, hhead]
    rfl
  have hback : (front.dropWhile isSpace ++ core).reverse.head? = some d := by
    rw [List.head?_reverse, List.getLast?_append, hlast]
    rfl
  rw [strip, List.append_assoc, dropWhile_append_of_head hfront hc, ← List.append_assoc,
    List.reverse_append, dropWhile_append_of_head hback hd, List.reverse_append,
    List.reverse_reverse]
  rfl

theorem dropWhile_of_all {ws : List Char} (h : ∀ c ∈ ws, p c = true) : ws.dropWhile p = [] :=
  List.dropWhile_eq_nil_iff.mpr h

theorem prefix_dropWhile {xs ys : List Char} (h : xs <+: ys) : xs.dropWhile p <+: ys.dropWhile p := by
  obtain ⟨rest, rfl⟩ := h
  rw [List.dropWhile_append]
  split_ifs with hempty
  · rw [List.isEmpty_iff.mp hempty]
    exact List.nil_prefix
  · exact List.prefix_append ..

/-- What is stripped of the beginning of a text is a beginning of the text. -/
theorem strip_prefix {ws xs : List Char} (hws : ∀ c ∈ ws, isSpace c = true)
    (hcore : core.dropWhile isSpace = core) (h : xs <+: ws ++ core) : strip xs <+: core := by
  have hdrop := prefix_dropWhile (p := isSpace) h
  rw [List.dropWhile_append_of_pos hws, hcore] at hdrop
  exact (List.rdropWhile_prefix isSpace _).trans hdrop

end Strip

/-! ## Outermost spans -/

/-- The text from the first `opening` to the last `closing`. -/
def outermost (opening closing : Char) (text : List Char) : List Char :=
  (text.dropWhile (· ≠ opening)).rdropWhile (· ≠ closing)

section Outermost

variable {opening closing mark : Char} {front inner back text : List Char}

theorem exists_of_idxOf? {i : Nat} (h : text.idxOf? mark = some i) :
    ∃ front back, text = front ++ mark :: back ∧ mark ∉ front ∧ front.length = i := by
  obtain ⟨hi, hmark, hfirst⟩ := List.idxOf?_eq_some_iff.mp h
  refine ⟨text.take i, text.drop (i + 1), ?_, ?_, by rw [List.length_take]; omega⟩
  · rw [← hmark, ← List.drop_eq_getElem_cons hi, List.take_append_drop]
  · intro hmem
    obtain ⟨j, hj, heq⟩ := List.mem_iff_getElem.mp hmem
    rw [List.length_take] at hj
    rw [List.getElem_take] at heq
    exact hfirst j (by omega) heq

theorem exists_of_idxOf?_reverse {i : Nat} (h : text.reverse.idxOf? mark = some i) :
    ∃ front back, text = front ++ mark :: back ∧ mark ∉ back ∧ back.length = i := by
  obtain ⟨back, front, hreverse, hback, hlength⟩ := exists_of_idxOf? h
  refine ⟨front.reverse, back.reverse, ?_, fun hmem => hback (List.mem_reverse.mp hmem), ?_⟩
  · rw [← List.reverse_reverse text, hreverse]
    simp
  · rw [List.length_reverse, hlength]

theorem rdropWhile_all (h : mark ∉ text) : text.rdropWhile (· ≠ mark) = [] := by
  rw [List.rdropWhile_eq_nil_iff]
  intro c hc
  simpa using fun heq : c = mark => h (heq ▸ hc)

theorem rdropWhile_append_cons (h : mark ∉ back) :
    (front ++ mark :: back).rdropWhile (· ≠ mark) = front ++ [mark] := by
  rw [List.rdropWhile, List.reverse_append, List.reverse_cons, List.append_assoc,
    List.dropWhile_append_of_pos, List.singleton_append, List.dropWhile_cons_of_neg,
    List.reverse_cons, List.reverse_reverse]
  · simp
  · intro c hc
    simpa using fun heq : c = mark => h (heq ▸ List.mem_reverse.mp hc)

theorem dropWhile_append_cons (h : mark ∉ front) :
    (front ++ mark :: back).dropWhile (· ≠ mark) = mark :: back := by
  rw [List.dropWhile_append_of_pos, List.dropWhile_cons_of_neg]
  · simp
  · intro c hc
    simpa using fun heq : c = mark => h (heq ▸ hc)

/-- A span starts with its opening character. -/
theorem head?_outermost (h : outermost opening closing text ≠ []) :
    (outermost opening closing text).head? = some opening := by
  have hpre : outermost opening closing text <+: text.dropWhile (· ≠ opening) :=
    List.rdropWhile_prefix _ _
  obtain ⟨c, hc⟩ := Option.ne_none_iff_exists'.mp (mt List.head?_eq_none_iff.mp h)
  obtain ⟨rest, hrest⟩ := hpre
  have hhead := List.head?_dropWhile_not (· ≠ opening) text
  rw [← hrest, List.head?_append_of_ne_nil _ h, hc] at hhead
  rw [hc]
  simpa using hhead

theorem outermost_self (hhead : text.head? = some opening) (hlast : text.getLast? = some closing) :
    outermost opening closing text = text := by
  obtain ⟨tail, rfl⟩ := List.head?_eq_some_iff.mp hhead
  rw [outermost, List.dropWhile_cons_of_neg (by simp), List.rdropWhile_eq_self_iff]
  intro hne
  rw [List.getLast?_eq_some_getLast hne, Option.some.injEq] at hlast
  simp [hlast]

/-- What surrounds a text has no part in its span. -/
theorem outermost_append (hfront : opening ∉ front ∧ closing ∉ front)
    (hback : opening ∉ back ∧ closing ∉ back) :
    outermost opening closing (front ++ inner ++ back) = outermost opening closing inner := by
  have hdrop : ∀ {mark : Char} {cs : List Char}, mark ∉ cs → ∀ c ∈ cs, decide (c ≠ mark) = true := by
    intro mark cs h c hc
    simpa using fun heq : c = mark => h (heq ▸ hc)
  rw [outermost, outermost, List.append_assoc, List.dropWhile_append_of_pos (hdrop hfront.1),
    List.dropWhile_append]
  split_ifs with hempty
  · rw [List.isEmpty_iff.mp hempty, List.dropWhile_eq_nil_iff.mpr (hdrop hback.1)]
  · rw [List.rdropWhile, List.reverse_append, List.dropWhile_append_of_pos]
    · rfl
    · exact fun c hc => hdrop hback.2 c (List.mem_reverse.mp hc)

variable {F : Type} [PyFloat F]

/-- `loadsSpan` decodes the outermost span. -/
theorem loadsSpan_eq (hne : opening ≠ closing) (text : List Char) :
    (loadsSpan text opening closing : Option (PyVal F)) =
      loads (outermost opening closing text) := by
  have hempty : (loads [] : Option (PyVal F)) = none := rfl
  rw [loadsSpan, outermost]
  cases hfirst : text.idxOf? opening with
  | none =>
    rw [List.idxOf?_eq_none_iff] at hfirst
    -- without the opening mark the span is empty
    rw [List.dropWhile_eq_nil_iff.mpr, List.rdropWhile_nil, hempty]
    intro c hc
    simpa using fun heq : c = opening => hfirst (heq ▸ hc)
  | some first =>
    obtain ⟨front, back, rfl, hfront, rfl⟩ := exists_of_idxOf? hfirst
    rw [dropWhile_append_cons hfront]
    cases hlast : (front ++ opening :: back).reverse.idxOf? closing with
    | none =>
      rw [List.idxOf?_eq_none_iff, List.mem_reverse] at hlast
      rw [rdropWhile_all fun hmem => hlast (List.mem_append_right _ hmem), hempty]
    | some fromEnd =>
      obtain ⟨before, after, htext, hafter, rfl⟩ := exists_of_idxOf?_reverse hlast
      rw [htext]
      have hstop : (before ++ closing :: after).length - after.length = before.length + 1 := by
        rw [List.length_append, List.length_cons]
        omega
      have htake : (before ++ closing :: after).take (before.length + 1) = before ++ [closing] := by
        rw [List.take_append]
        simp
      dsimp only
      rw [hstop, htake]
      rcases List.append_eq_append_iff.mp htext with ⟨middle, rfl, hmiddle⟩ | ⟨middle, rfl, hmiddle⟩
      · -- the last `closing` is after the first `opening`
        rcases middle with _ | ⟨c, middle⟩
        · exact absurd (List.cons.inj hmiddle).1 hne
        · rw [List.cons_append, List.cons.injEq] at hmiddle
          obtain ⟨rfl, rfl⟩ := hmiddle
          have hspan := @rdropWhile_append_cons closing (opening :: middle) after hafter
          rw [List.cons_append] at hspan
          rw [hspan, if_pos, List.append_assoc, List.drop_left]
          rw [List.length_append, List.length_cons]
          omega
      · -- it is before the first `opening`
        rcases middle with _ | ⟨c, middle⟩
        · exact absurd (List.cons.inj hmiddle).1.symm hne
        · rw [List.cons_append, List.cons.injEq] at hmiddle
          obtain ⟨rfl, rfl⟩ := hmiddle
          have hnot : closing ∉ opening :: back := fun hmem =>
            hafter (List.mem_append_right _ hmem)
          rw [rdropWhile_all hnot, hempty, if_neg]
          rw [List.length_append]
          omega

end Outermost

/-! ## The code block -/

/-- The start of a code block of JSON. -/
def jsonFence : List Char := fence ++ ['j', 's', 'o', 'n']

/-- A text in a code block, with white space and prose around it. -/
def fenced (before ws text ws' after : List Char) : List Char :=
  before ++ jsonFence ++ (ws ++ text ++ ws') ++ fence ++ after

/-- Prose has no backticks, braces or brackets. -/
def Prose (text : List Char) : Prop :=
  ∀ c ∈ text, c ∉ ['\x60', '\x7b', '\x7d', '[', ']']

/-- White space, for `str.strip`. -/
def White (text : List Char) : Prop := ∀ c ∈ text, isSpace c = true

theorem Prose.sublist {xs ys : List Char} (h : Prose ys) (hsub : xs.Sublist ys) : Prose xs :=
  fun c hc => h c (hsub.subset hc)

theorem Prose.not_mem {text : List Char} (h : Prose text) {c : Char}
    (hc : c ∈ ['\x60', '\x7b', '\x7d', '[', ']']) : c ∉ text :=
  fun hmem => h c hmem hc

section Block

variable {before body after : List Char} {stop : Nat}

/-- The block ends at the first fence after its start. -/
theorem stripFences_block (hbefore : Prose before) (hend : stop ≤ body.length)
    (hstop : findText fence (body ++ (fence ++ after.rdropWhile isSpace)) = some stop) :
    stripFences (before ++ jsonFence ++ body ++ fence ++ after) = strip (body.take stop) := by
  have hstrip : strip (before ++ jsonFence ++ body ++ fence ++ after) =
      before.dropWhile isSpace ++ jsonFence ++ (body ++ (fence ++ after.rdropWhile isSpace)) := by
    have h := @strip_append before (jsonFence ++ body ++ fence) after '\x60' '\x60' rfl (by decide)
      (by rw [List.getLast?_append]; rfl) (by decide)
    simpa only [List.append_assoc] using h
  have hjson : "```json".toList = jsonFence := by decide
  have hfence : "```".toList = fence := by decide
  have hfind : findText jsonFence (before.dropWhile isSpace ++ jsonFence ++
      (body ++ (fence ++ after.rdropWhile isSpace))) = some (before.dropWhile isSpace).length :=
    findText_append ((hbefore.sublist (List.dropWhile_sublist _)).not_mem (by simp))
  rw [stripFences, hstrip, hjson, hfence, insideFence, hfind, hfence]
  have hdrop : (before.dropWhile isSpace ++ jsonFence ++
      (body ++ (fence ++ after.rdropWhile isSpace))).drop
        ((before.dropWhile isSpace).length + jsonFence.length) =
      body ++ (fence ++ after.rdropWhile isSpace) := by
    rw [← List.length_append, List.drop_left]
  simp only [Option.map_some, Option.orElse_some, Option.getD_some, hdrop, hstop]
  rw [List.take_append_of_le_length hend]

/-- A fence is three backticks. -/
theorem fence_prefix_drop {text : List Char} {j : Nat} : fence <+: text.drop j ↔
    text[j]? = some '\x60' ∧ text[j + 1]? = some '\x60' ∧ text[j + 2]? = some '\x60' := by
  rw [List.prefix_iff_getElem?]
  constructor
  · intro h
    refine ⟨?_, ?_, ?_⟩
    · simpa [fence] using h 0 (by decide)
    · simpa [fence] using h 1 (by decide)
    · simpa [fence] using h 2 (by decide)
  · rintro ⟨h0, h1, h2⟩ i hi
    rw [List.getElem?_drop]
    match i, hi with
    | 0, _ => exact h0
    | 1, _ => exact h1
    | 2, _ => exact h2

variable {ws text ws' rest : List Char} {last : Char}

theorem White.getElem?_ne (h : White ws) (i : Nat) : ws[i]? ≠ some '\x60' := fun hi =>
  absurd (h _ (List.mem_of_getElem? hi)) (by decide)

/-- The end of the block, where there is no fence in the text. -/
theorem findText_whole (hws : White ws) (hws' : White ws') (hlast : text.getLast? = some last)
    (hne : last ≠ '\x60') (hfence : ¬ fence <:+: text) :
    findText fence ((ws ++ text ++ ws') ++ (fence ++ rest)) = some (ws ++ text ++ ws').length := by
  rw [findText_eq_some_iff, List.drop_left]
  refine ⟨List.prefix_append .., fun j hj hpre => ?_⟩
  obtain ⟨h0, h1, h2⟩ := fence_prefix_drop.mp hpre
  have hat : ∀ i < (ws ++ text ++ ws').length, ((ws ++ text ++ ws') ++ (fence ++ rest))[i]? =
      some '\x60' → ws.length ≤ i ∧ text[i - ws.length]? = some '\x60' := by
    intro i hi hback
    rw [List.getElem?_append_left hi, List.append_assoc] at hback
    rcases lt_or_ge i ws.length with hlt | hge
    · rw [List.getElem?_append_left hlt] at hback
      exact absurd hback (hws.getElem?_ne i)
    · rw [List.getElem?_append_right hge] at hback
      rcases lt_or_ge (i - ws.length) text.length with hlt' | hge'
      · rw [List.getElem?_append_left hlt'] at hback
        exact ⟨hge, hback⟩
      · rw [List.getElem?_append_right hge'] at hback
        exact absurd hback (hws'.getElem?_ne _)
  -- the last character of the text is none of these
  have hnext : ∀ i, text[i]? = some '\x60' → i + 1 < text.length := by
    intro i hi
    rw [List.getLast?_eq_getElem?] at hlast
    have hlt := (List.getElem?_eq_some_iff.mp hi).1
    by_contra hge
    obtain rfl : i = text.length - 1 := by omega
    exact hne (Option.some.inj (hlast.symm.trans hi))
  have hlength : (ws ++ text ++ ws').length = ws.length + text.length + ws'.length := by
    rw [List.length_append, List.length_append]
  obtain ⟨hle, h0⟩ := hat j hj h0
  have hlt0 := hnext _ h0
  obtain ⟨-, h1⟩ := hat (j + 1) (by omega) h1
  have hlt1 := hnext _ h1
  obtain ⟨-, h2⟩ := hat (j + 2) (by omega) h2
  rw [Nat.sub_add_comm hle] at h1 h2
  have hpre := fence_prefix_drop.mpr ⟨h0, h1, h2⟩
  exact hfence (hpre.isInfix.trans (List.drop_suffix _ _).isInfix)

/-- A block without a fence in its text. -/
theorem stripFences_fenced (hbefore : Prose before) (hws : White ws) (hws' : White ws') {first : Char}
    (hhead : text.head? = some first) (hfirst : isSpace first = false)
    (hlast : text.getLast? = some last) (hspace : isSpace last = false) (hne : last ≠ '\x60')
    (hfence : ¬ fence <:+: text) : stripFences (fenced before ws text ws' after) = text := by
  rw [fenced, stripFences_block hbefore le_rfl (findText_whole hws hws' hlast hne hfence),
    List.take_length, strip_append hhead hfirst hlast hspace, dropWhile_of_all hws, List.nil_append,
    List.rdropWhile_eq_nil_iff.mpr hws', List.append_nil]

/-- A block with a fence in its text is cut there. -/
theorem exists_stripFences_cut (hbefore : Prose before) (hws : White ws) {first : Char}
    (hhead : text.head? = some first) (hfirst : isSpace first = false) (hfence : fence <:+: text) :
    ∃ front back, text = front ++ back ∧ back ≠ [] ∧
      stripFences (fenced before ws text ws' after) = front := by
  obtain ⟨a, b, rfl⟩ := hfence
  have hlength : (ws ++ (a ++ fence ++ b) ++ ws').length =
      ws.length + a.length + (fence ++ b ++ ws').length := by
    simp only [List.length_append]
    omega
  have hat : fence <+: ((ws ++ (a ++ fence ++ b) ++ ws') ++
      (fence ++ after.rdropWhile isSpace)).drop (ws ++ a).length := by
    have hassoc : (ws ++ (a ++ fence ++ b) ++ ws') ++ (fence ++ after.rdropWhile isSpace) =
        (ws ++ a) ++ (fence ++ (b ++ ws' ++ (fence ++ after.rdropWhile isSpace))) := by
      simp only [List.append_assoc]
    rw [hassoc, List.drop_left]
    exact List.prefix_append ..
  -- the first fence after the start of the block is the one in the text, or one before it
  obtain ⟨stop, hstop, hfind⟩ := exists_findText hat
  have hend : stop ≤ (ws ++ (a ++ fence ++ b) ++ ws').length := by
    rw [List.length_append] at hstop
    omega
  have hcut : (ws ++ (a ++ fence ++ b) ++ ws').take stop <+: ws ++ a := by
    have hassoc : ws ++ (a ++ fence ++ b) ++ ws' = (ws ++ a) ++ (fence ++ (b ++ ws')) := by
      simp only [List.append_assoc]
    rw [hassoc, List.take_append_of_le_length hstop]
    exact List.take_prefix ..
  -- the text does not start with white space, so nothing of it is stripped at the front
  have hcore : a.dropWhile isSpace = a := by
    cases a with
    | nil => rfl
    | cons c a =>
      obtain rfl := Option.some.inj hhead
      exact List.dropWhile_cons_of_neg (by simp [hfirst])
  obtain ⟨back, hback⟩ := strip_prefix hws hcore hcut
  refine ⟨strip ((ws ++ (a ++ fence ++ b) ++ ws').take stop), back ++ (fence ++ b), ?_, ?_, ?_⟩
  · rw [← List.append_assoc, hback, List.append_assoc]
  · exact List.append_ne_nil_of_right_ne_nil _ (List.cons_ne_nil _ _)
  · rw [fenced, stripFences_block hbefore hend hfind]

end Block

/-! ## Values in a block -/

section Value

variable {before ws text ws' after : List Char}

/-- The marks of objects and arrays. -/
def marks : List Char := ['\x7b', '\x7d', '[', ']']

theorem White.not_mem_marks (hws : White ws) : ∀ c ∈ marks, c ∉ ws := by
  have hspace : ∀ c ∈ marks, isSpace c = false := by
    simp [marks, isSpace]
  intro c hc hmem
  exact Bool.false_ne_true ((hspace c hc).symm.trans (hws c hmem))

theorem Prose.not_mem_marks (h : Prose text) : ∀ c ∈ marks, c ∉ text :=
  fun _ hc => h.not_mem (List.mem_cons_of_mem _ hc)

/-- The spans of the whole text are those of the text in the block. -/
theorem outermost_fenced (hbefore : Prose before) (hafter : Prose after) (hws : White ws)
    (hws' : White ws') {opening closing : Char} (hopening : opening ∈ marks)
    (hclosing : closing ∈ marks) :
    outermost opening closing (fenced before ws text ws' after) = outermost opening closing text := by
  have hjson : ∀ c ∈ marks, c ∉ jsonFence ∧ c ∉ fence := by
    simp [marks, jsonFence, fence]
  have hfront : ∀ c ∈ marks, c ∉ before ++ jsonFence ++ ws := by
    intro c hc
    simp only [List.mem_append, not_or]
    exact ⟨⟨hbefore.not_mem_marks c hc, (hjson c hc).1⟩, hws.not_mem_marks c hc⟩
  have hback : ∀ c ∈ marks, c ∉ ws' ++ fence ++ after := by
    intro c hc
    simp only [List.mem_append, not_or]
    exact ⟨⟨hws'.not_mem_marks c hc, (hjson c hc).2⟩, hafter.not_mem_marks c hc⟩
  have hassoc : fenced before ws text ws' after =
      (before ++ jsonFence ++ ws) ++ text ++ (ws' ++ fence ++ after) := by
    simp only [fenced, List.append_assoc]
  rw [hassoc, outermost_append ⟨hfront _ hopening, hfront _ hclosing⟩
    ⟨hback _ hopening, hback _ hclosing⟩]

variable {F : Type} [PyFloat F]

theorem dumpsItems_getLast (ensureAscii : Bool) (xs : List (PyVal F)) :
    (dumpsItems ensureAscii xs).getLast? = some ']' := by
  induction xs with
  | nil => rfl
  | cons x xs ih =>
    rw [dumpsItems, List.getLast?_append, ih]
    rfl

/-- The first and the last mark of the text of an object or an array. -/
inductive Delimited (v : PyVal F) : Char → Char → Prop
  | dict {kvs : List (String × PyVal F)} (h : v = .dict kvs) : Delimited v '\x7b' '\x7d'
  | list {xs : List (PyVal F)} (h : v = .list xs) : Delimited v '[' ']'

theorem Delimited.head? {v : PyVal F} {opening closing : Char} (h : Delimited v opening closing) :
    (dumps true v).head? = some opening := by
  cases h with
  | dict h =>
    rw [h, dumps_dict_head]
  | @list xs h =>
    rw [h]
    cases xs <;> rfl

theorem Delimited.getLast? {v : PyVal F} {opening closing : Char} (h : Delimited v opening closing) :
    (dumps true v).getLast? = some closing := by
  cases h with
  | @dict kvs h =>
    obtain ⟨pre, hpre⟩ := dumps_dict_getLast true kvs
    rw [h, hpre, List.getLast?_concat]
  | @list xs h =>
    rw [h]
    cases xs with
    | nil => rfl
    | cons x xs =>
      rw [dumps, List.getLast?_append, dumpsItems_getLast]
      rfl

omit [PyFloat F] in
theorem Delimited.marks {v : PyVal F} {opening closing : Char} (h : Delimited v opening closing) :
    v.IsContainer ∧ opening ∈ marks ∧ closing ∈ marks ∧ opening ≠ closing ∧
      isSpace opening = false ∧ isSpace closing = false ∧ closing ≠ '\x60' := by
  cases h with
  | dict h =>
    rw [h]
    exact ⟨trivial, by decide⟩
  | list h =>
    rw [h]
    exact ⟨trivial, by decide⟩

/-- What is decoded from a text that starts with a brace is an object. -/
theorem isDict_of_loads {cs : List Char} {w : PyVal F} (hhead : cs.head? = some '\x7b')
    (h : loads cs = some w) : ∃ kvs, w = .dict kvs := by
  obtain ⟨tail, rfl⟩ := List.head?_eq_some_iff.mp hhead
  have hdict : ∀ {n : Nat} {w : PyVal F} {rest : List Char},
      parseValue (n + 1) ('\x7b' :: tail) = some (w, rest) → ∃ kvs, w = .dict kvs := by
    intro n w rest hparse
    rw [parseValue] at hparse
    split at hparse
    · cases hparse
      exact ⟨[], rfl⟩
    · split at hparse
      · cases hparse
      · obtain ⟨r, -, hr⟩ := Option.map_eq_some_iff.mp hparse
        cases hr
        exact ⟨_, rfl⟩
  have hbom : ('\x7b' :: tail).head? ≠ some '\ufeff' := by
    rw [List.head?_cons]
    decide
  have hws : skipWs ('\x7b' :: tail) = '\x7b' :: tail := rfl
  rw [loads, if_neg hbom, hws] at h
  split at h
  · next hparse =>
    split_ifs at h
    cases h
    exact hdict hparse
  · cases h

section Extract

variable (hbefore : Prose before) (hafter : Prose after) (hws : White ws) (hws' : White ws')
  {v : PyVal F} (hwf : v.WF) (hjson : v.plain = v) {opening closing : Char}
  (hv : Delimited v opening closing)

include hbefore hws hws' hwf hjson hv in
/-- Without a fence in it, the text is decoded from the block. -/
theorem loads_stripFences_whole (hfence : ¬ fence <:+: dumps true v) :
    loads (stripFences (fenced before ws (dumps true v) ws' after)) = some v := by
  obtain ⟨-, -, -, -, hopening, hclosing, hne⟩ := hv.marks
  rw [stripFences_fenced hbefore hws hws' hv.head? hopening hv.getLast? hclosing hne hfence,
    loads_dumps true hwf, hjson]

include hbefore hws hwf hv in
/-- With a fence in it, it is cut, and the block has no value. -/
theorem loads_stripFences_cut (hfence : fence <:+: dumps true v) :
    (loads (stripFences (fenced before ws (dumps true v) ws' after)) : Option (PyVal F)) = none := by
  obtain ⟨hcontainer, -, -, -, hopening, -, -⟩ := hv.marks
  have hex : ∃ front back, dumps true v = front ++ back ∧ back ≠ [] ∧
      stripFences (fenced before ws (dumps true v) ws' after) = front :=
    exists_stripFences_cut hbefore hws hv.head? hopening hfence
  obtain ⟨front, back, hcut, hback, hstrip⟩ := hex
  rw [hstrip, loads_cut true hwf hcontainer hcut hback]

include hwf hjson hv in
/-- The outermost span of the right marks is the whole text. -/
theorem loads_outermost : loads (outermost opening closing (dumps true v)) = some v := by
  rw [outermost_self hv.head? hv.getLast?, loads_dumps true hwf, hjson]

include hbefore hafter hws hws' hwf hv in
/-- With a fence in the text, the span of braces is tried before the span of brackets. -/
theorem extractFencedJson_cut (hfence : fence <:+: dumps true v) (fallback : PyVal F) :
    extractFencedJson (String.ofList (fenced before ws (dumps true v) ws' after)) fallback =
      ((loads (outermost '\x7b' '\x7d' (dumps true v))).orElse fun _ =>
        loads (outermost '[' ']' (dumps true v))).getD fallback := by
  rw [extractFencedJson, String.toList_ofList, loads_stripFences_cut hbefore hws hwf hv hfence,
    loadsSpan_eq (by decide), loadsSpan_eq (by decide),
    outermost_fenced hbefore hafter hws hws' (by simp [marks]) (by simp [marks]),
    outermost_fenced hbefore hafter hws hws' (by simp [marks]) (by simp [marks])]
  rfl

end Extract

/-- A value comes back if and only if it is an object, or there is no fence in its text, or the text
from its first brace to its last is not JSON. -/
theorem extractFencedJson_eq_iff (before ws ws' after : List Char) (v fallback : PyVal F)
    (hbefore : Prose before) (hafter : Prose after) (hws : White ws) (hws' : White ws')
    (hwf : v.WF) (hjson : v.plain = v) (hcontainer : v.IsContainer) :
    extractFencedJson (String.ofList (fenced before ws (dumps true v) ws' after)) fallback = v ↔
      (∃ kvs, v = .dict kvs) ∨ ¬ fence <:+: dumps true v ∨
        (loads (outermost '\x7b' '\x7d' (dumps true v)) : Option (PyVal F)) = none := by
  by_cases hfence : fence <:+: dumps true v
  · cases v with
    | dict kvs =>
      refine iff_of_true ?_ (.inl ⟨kvs, rfl⟩)
      rw [extractFencedJson_cut hbefore hafter hws hws' hwf (.dict rfl) hfence,
        loads_outermost hwf hjson (.dict rfl)]
      rfl
    | list xs =>
      have hnot : ¬ ∃ kvs, PyVal.list xs = .dict kvs := fun ⟨kvs, h⟩ => by cases h
      rw [extractFencedJson_cut hbefore hafter hws hws' hwf (.list rfl) hfence,
        loads_outermost hwf hjson (.list rfl)]
      simp only [hnot, hfence, not_true_eq_false, false_or]
      -- the span of braces of a list: if it has a value, this is an object and not the list
      rcases hspan : (loads (outermost '\x7b' '\x7d' (dumps true (.list xs))) :
          Option (PyVal F)) with _ | w
      · exact iff_of_true rfl rfl
      · refine iff_of_false ?_ (by simp)
        have hne : outermost '\x7b' '\x7d' (dumps true (PyVal.list xs)) ≠ [] := by
          intro hnil
          rw [hnil] at hspan
          cases hspan
        obtain ⟨kvs, rfl⟩ := isDict_of_loads (head?_outermost hne) hspan
        exact fun h => by cases h
    | _ => cases hcontainer
  · refine iff_of_true ?_ (.inr (.inl hfence))
    obtain ⟨opening, closing, hv⟩ : ∃ opening closing, Delimited v opening closing := by
      cases v with
      | list xs => exact ⟨_, _, .list rfl⟩
      | dict kvs => exact ⟨_, _, .dict rfl⟩
      | _ => cases hcontainer
    rw [extractFencedJson, String.toList_ofList,
      loads_stripFences_whole hbefore hws hws' hwf hjson hv hfence]
    rfl

/-- An object with a fence in a string. -/
def fencedDict : PyVal FloatText := .dict [("a", .str (String.ofList fence))]

theorem dumps_fencedDict : dumps true fencedDict =
    ['\x7b', '"', 'a', '"', ':', ' ', '"', '\x60', '\x60', '\x60', '"', '\x7d'] := by
  have ha : dumpsStr true "a" = ['"', 'a', '"'] := by decide
  have hvalue : dumpsStr true (String.ofList fence) = ['"', '\x60', '\x60', '\x60', '"'] := by
    rw [dumpsStr, String.toList_ofList]
    decide
  rw [fencedDict, dumps, dumps, ha, hvalue]
  rfl

theorem prose_here : Prose ['H', 'e', 'r', 'e', ':', '\n'] := by
  simp [Prose]

theorem white_newline : White ['\n'] := by
  simp [White, isSpace]

theorem prose_nil : Prose [] := fun _ hc => absurd hc List.not_mem_nil

theorem wf_fencedDict : fencedDict.WF := by
  simp [fencedDict, PyVal.WF, wfPairs]

theorem extractFencedJson_eq_iff_dict :
    extractFencedJson (String.ofList (fenced ['H', 'e', 'r', 'e', ':', '\n'] ['\n']
      (dumps true fencedDict) ['\n'] [])) .none = fencedDict :=
  (extractFencedJson_eq_iff _ ['\n'] ['\n'] [] fencedDict .none prose_here
    prose_nil white_newline white_newline wf_fencedDict rfl trivial).mpr (.inl ⟨_, rfl⟩)

/-- An array of this object does not come back: the object does. -/
theorem array_lost :
    extractFencedJson (String.ofList (fenced ['H', 'e', 'r', 'e', ':', '\n'] ['\n']
      (dumps true (.list [fencedDict])) ['\n'] [])) .none ≠ .list [fencedDict] := by
  have hdumps : dumps true (.list [fencedDict]) = ['['] ++ dumps true fencedDict ++ [']'] := by
    rw [dumps]
    rfl
  have hfence : fence <:+: dumps true (.list [fencedDict]) := by
    rw [hdumps, dumps_fencedDict]
    exact ⟨['[', '\x7b', '"', 'a', '"', ':', ' ', '"'], ['"', '\x7d', ']'], rfl⟩
  have hspan : loads (outermost '\x7b' '\x7d' (dumps true (.list [fencedDict]))) =
      some fencedDict := by
    rw [hdumps, outermost_append (by decide) (by decide)]
    exact loads_outermost wf_fencedDict rfl (.dict rfl)
  have hwf : (PyVal.list [fencedDict]).WF := by
    rw [PyVal.WF]
    exact ⟨wf_fencedDict, trivial⟩
  rw [extractFencedJson_cut prose_here prose_nil white_newline white_newline hwf (.list rfl) hfence,
    hspan]
  exact fun h => by cases h

end Value

end Noema.Utils
