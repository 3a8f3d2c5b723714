import Noema.Lib.JsonRoundTrip
import Noema.Lib.TextFile

/-!
# Canonical JSON texts

What the encoder's options do to a text, and where a text can end:

- `dumps_plain`, `sortKeys_plain`, `sortKeys_wf`, `sorted_dumps_lookup`: `default=str` and
  `sort_keys=True` lose nothing but the objects and the order. So two dicts with the same canonical
  text agree on every key, which is what a hash of that text commits to;
- `isLine_dict`: an object is a line of a text file, and is not blank;
- `braceRun_dumps`: a text that ends in a run of braces is long. Every brace of the run closes a
  dict of its own, so a short text cannot end in many of them; this separates a text from another
  one that was wrapped in more dicts.
-/

namespace PyJson

open Noema.Lib (sortedBy sortedBy_perm map_sortedBy)

variable {F : Type}

/-! ## `default=str` and `sort_keys` -/

theorem plainPairs_eq_map (kvs : List (String × PyVal F)) :
    plainPairs kvs = kvs.map fun kv => (kv.1, kv.2.plain) := by
  induction kvs with
  | nil => rfl
  | cons kv kvs ih => simp [plainPairs, ih]

theorem sortPairs_eq_map (kvs : List (String × PyVal F)) :
    sortPairs kvs = kvs.map fun kv => (kv.1, kv.2.sortKeys) := by
  induction kvs with
  | nil => rfl
  | cons kv kvs ih => simp [sortPairs, ih]

mutual
/-- A JSON value comes back as it is. -/
theorem plain_eq_self : ∀ v : PyVal F, v.isJson = true → v.plain = v
  | .none, _ | .bool _, _ | .int _, _ | .float _, _ | .str _, _ => rfl
  | .list xs, h => congrArg PyVal.list (plainItems_eq_self xs h)
  | .dict kvs, h => congrArg PyVal.dict (plainPairs_eq_self kvs h)
  | .other _, h => (by cases h)
theorem plainItems_eq_self : ∀ xs : List (PyVal F), isJsonItems xs = true → plainItems xs = xs
  | [], _ => rfl
  | x :: xs, h => by
    obtain ⟨hx, hxs⟩ := (Bool.and_eq_true ..).mp h
    rw [plainItems, plain_eq_self x hx, plainItems_eq_self xs hxs]
theorem plainPairs_eq_self : ∀ kvs : List (String × PyVal F), isJsonPairs kvs = true →
    plainPairs kvs = kvs
  | [], _ => rfl
  | (k, v) :: kvs, h => by
    obtain ⟨hv, hkvs⟩ := (Bool.and_eq_true ..).mp h
    rw [plainPairs, plain_eq_self v hv, plainPairs_eq_self kvs hkvs]
end

mutual
/-- Sorting the keys commutes with `default=str`. -/
theorem sortKeys_plain : ∀ v : PyVal F, v.plain.sortKeys = v.sortKeys.plain
  | .none | .bool _ | .int _ | .float _ | .str _ | .other _ => rfl
  | .list xs => congrArg PyVal.list (sortItems_plain xs)
  | .dict kvs => by
    show PyVal.dict _ = PyVal.dict (plainPairs _)
    rw [sortPairs_plain kvs, plainPairs_eq_map, plainPairs_eq_map]
    exact congrArg PyVal.dict (map_sortedBy _ (fun _ => rfl) _).symm
theorem sortItems_plain : ∀ xs : List (PyVal F),
    sortItems (plainItems xs) = plainItems (sortItems xs)
  | [] => rfl
  | x :: xs => congrArg₂ List.cons (sortKeys_plain x) (sortItems_plain xs)
theorem sortPairs_plain : ∀ kvs : List (String × PyVal F),
    sortPairs (plainPairs kvs) = plainPairs (sortPairs kvs)
  | [] => rfl
  | (k, v) :: kvs => congrArg₂ List.cons (congrArg (Prod.mk k) (sortKeys_plain v)) (sortPairs_plain kvs)
end

theorem wfPairs_iff {kvs : List (String × PyVal F)} : wfPairs kvs ↔ ∀ kv ∈ kvs, kv.2.WF := by
  induction kvs with
  | nil => simp [wfPairs]
  | cons kv kvs ih => simp [wfPairs, ih]

mutual
theorem sortKeys_wf : ∀ v : PyVal F, v.WF → v.sortKeys.WF
  | .none, _ | .bool _, _ | .int _, _ | .float _, _ | .str _, _ | .other _, _ => trivial
  | .list xs, h => sortItems_wf xs h
  | .dict kvs, h => by
    have hperm := sortedBy_perm Prod.fst (sortPairs kvs)
    refine ⟨?_, wfPairs_iff.mpr fun kv hkv => wfPairs_iff.mp (sortPairs_wf kvs h.2) kv ?_⟩
    · rw [(hperm.map Prod.fst).nodup_iff, sortPairs_eq_map, List.map_map]
      exact h.1
    · exact hperm.subset hkv
theorem sortItems_wf : ∀ xs : List (PyVal F), wfItems xs → wfItems (sortItems xs)
  | [], _ => trivial
  | x :: xs, h => ⟨sortKeys_wf x h.1, sortItems_wf xs h.2⟩
theorem sortPairs_wf : ∀ kvs : List (String × PyVal F), wfPairs kvs → wfPairs (sortPairs kvs)
  | [], _ => trivial
  | (_, v) :: kvs, h => ⟨sortKeys_wf v h.1, sortPairs_wf kvs h.2⟩
end

mutual
theorem plain_wf : ∀ v : PyVal F, v.WF → v.plain.WF
  | .none, _ | .bool _, _ | .int _, _ | .float _, _ | .str _, _ | .other _, _ => trivial
  | .list xs, h => plainItems_wf xs h
  | .dict kvs, h => by
    refine ⟨?_, plainPairs_wf kvs h.2⟩
    rw [map_fst_plainPairs]
    exact h.1
theorem plainItems_wf : ∀ xs : List (PyVal F), wfItems xs → wfItems (plainItems xs)
  | [], _ => trivial
  | x :: xs, h => ⟨plain_wf x h.1, plainItems_wf xs h.2⟩
theorem plainPairs_wf : ∀ kvs : List (String × PyVal F), wfPairs kvs → wfPairs (plainPairs kvs)
  | [], _ => trivial
  | (_, v) :: kvs, h => ⟨plain_wf v h.1, plainPairs_wf kvs h.2⟩
end

section

variable [PyFloat F]

mutual
/-- The encoder applies `default=str` itself. -/
theorem dumps_plain (ensureAscii : Bool) : ∀ v : PyVal F,
    dumps ensureAscii v.plain = dumps ensureAscii v
  | .none | .bool _ | .int _ | .float _ | .str _ | .other _ | .list [] | .dict [] => rfl
  | .list (x :: xs) => by
    rw [PyVal.plain, plainItems, dumps, dumps, dumps_plain ensureAscii x,
      dumpsItems_plain ensureAscii xs]
  | .dict ((k, v) :: kvs) => by
    rw [PyVal.plain, plainPairs, dumps, dumps, dumps_plain ensureAscii v,
      dumpsPairs_plain ensureAscii kvs]
theorem dumpsItems_plain (ensureAscii : Bool) : ∀ xs : List (PyVal F),
    dumpsItems ensureAscii (plainItems xs) = dumpsItems ensureAscii xs
  | [] => rfl
  | x :: xs => by
    rw [plainItems, dumpsItems, dumpsItems, dumps_plain ensureAscii x,
      dumpsItems_plain ensureAscii xs]
theorem dumpsPairs_plain (ensureAscii : Bool) : ∀ kvs : List (String × PyVal F),
    dumpsPairs ensureAscii (plainPairs kvs) = dumpsPairs ensureAscii kvs
  | [] => rfl
  | (k, v) :: kvs => by
    rw [plainPairs, dumpsPairs, dumpsPairs, dumps_plain ensureAscii v,
      dumpsPairs_plain ensureAscii kvs]
end

theorem eq_of_mem_nodup {α : Type} {kvs : List (String × α)} (hnodup : (kvs.map Prod.fst).Nodup)
    {k : String} {v w : α} (hv : (k, v) ∈ kvs) (hw : (k, w) ∈ kvs) : v = w := by
  have h := List.inj_on_of_nodup_map hnodup hv hw rfl
  exact congrArg Prod.snd h

/-- Two dicts with the same sorted text agree on every key. -/
theorem sorted_dumps_lookup {ensureAscii : Bool} {kvs kvs' : List (String × PyVal F)}
    (hwf : (PyVal.dict kvs).WF) (hwf' : (PyVal.dict kvs').WF)
    (h : dumps ensureAscii (PyVal.dict kvs).sortKeys = dumps ensureAscii (PyVal.dict kvs').sortKeys)
    {k : String} {v w : PyVal F} (hv : (k, v) ∈ kvs) (hw : (k, w) ∈ kvs') :
    v.sortKeys.plain = w.sortKeys.plain := by
  have hplain := dumps_plain_injective (sortKeys_wf _ hwf) (sortKeys_wf _ hwf') h
  have hmem : ∀ {kvs : List (String × PyVal F)} {v : PyVal F}, (k, v) ∈ kvs →
      (k, v.sortKeys.plain) ∈ plainPairs (sortedBy Prod.fst (sortPairs kvs)) := by
    intro kvs v hv
    rw [plainPairs_eq_map, sortPairs_eq_map]
    refine List.mem_map.mpr ⟨(k, v.sortKeys), ?_, rfl⟩
    exact (sortedBy_perm _ _).mem_iff.mpr (List.mem_map.mpr ⟨(k, v), hv, rfl⟩)
  have hkv := hmem hv
  have hkw := hmem hw
  rw [← PyVal.dict.inj hplain] at hkw
  refine eq_of_mem_nodup ?_ hkv hkw
  exact (plain_wf _ (sortKeys_wf _ hwf)).1

end

/-! ## Closing braces

Every brace that ends a JSON text closes a dict, and an enclosing dict costs at
least six characters (its braces, a quoted key, a colon and a blank). -/

/-- The number of braces a text ends with. -/
def braceRun (cs : List Char) : Nat := (cs.reverse.takeWhile (· = '\x7d')).length

theorem braceRun_concat (cs : List Char) : braceRun (cs ++ ['\x7d']) = braceRun cs + 1 := by
  simp [braceRun]

theorem braceRun_concat_ne (cs : List Char) {c : Char} (h : c ≠ '\x7d') :
    braceRun (cs ++ [c]) = 0 := by
  simp [braceRun, h]

theorem braceRun_append {b : List Char} (h : ∃ c ∈ b, c ≠ '\x7d') (a : List Char) :
    braceRun (a ++ b) = braceRun b := by
  obtain ⟨c, hc, hne⟩ := h
  have hlt : ¬ (b.reverse.takeWhile (· = '\x7d')).length = b.reverse.length := by
    intro hlen
    have hall := List.takeWhile_eq_self_iff.mp ((List.takeWhile_prefix _).eq_of_length hlen)
    have := hall c (List.mem_reverse.mpr hc)
    simp [hne] at this
  rw [braceRun, List.reverse_append, List.takeWhile_append, if_neg hlt, braceRun]

theorem braceRun_of_forall_ne : ∀ {cs : List Char}, (∀ c ∈ cs, c ≠ '\x7d') → braceRun cs = 0 := by
  intro cs h
  rcases List.eq_nil_or_concat cs with rfl | ⟨cs, c, rfl⟩
  · rfl
  · rw [List.concat_eq_append] at h ⊢
    exact braceRun_concat_ne cs (h c (by simp))

variable [PyFloat F]

theorem dumpsPairs_getLast (ensureAscii : Bool) (kvs : List (String × PyVal F)) :
    ∃ pre, dumpsPairs ensureAscii kvs = pre ++ ['\x7d'] := by
  induction kvs with
  | nil => exact ⟨[], rfl⟩
  | cons kv kvs ih =>
    obtain ⟨pre, hpre⟩ := ih
    rw [dumpsPairs, hpre, ← List.append_assoc]
    exact ⟨_, rfl⟩

/-- The text of a dict ends in its closing brace. -/
theorem dumps_dict_getLast (ensureAscii : Bool) (kvs : List (String × PyVal F)) :
    ∃ pre, dumps ensureAscii (.dict kvs) = pre ++ ['\x7d'] := by
  cases kvs with
  | nil => exact ⟨['\x7b'], rfl⟩
  | cons kv kvs =>
    obtain ⟨pre, hpre⟩ := dumpsPairs_getLast ensureAscii kvs
    rw [dumps, hpre, ← List.append_assoc]
    exact ⟨_, rfl⟩

theorem dumps_dict_head (ensureAscii : Bool) (kvs : List (String × PyVal F)) :
    (dumps ensureAscii (.dict kvs)).head? = some '\x7b' := by
  cases kvs with
  | nil => rfl
  | cons kv kvs => rfl

/-- An object is read back as one line. -/
theorem isLine_dict (ensureAscii : Bool) (kvs : List (String × PyVal F)) :
    Noema.Lib.IsLine (dumps ensureAscii (.dict kvs)) := by
  have htext := dumps_textChar ensureAscii (PyVal.dict kvs)
  obtain ⟨start, hstart⟩ := dumps_dict_getLast ensureAscii kvs
  refine ⟨fun h => by simp [hstart] at h, fun c hc => ?_, fun c hc => ?_, fun c hc => ?_⟩
  · have h32 := (htext c hc).1
    constructor
    · rintro rfl
      exact absurd h32 (by decide)
    · rintro rfl
      exact absurd h32 (by decide)
  · rw [dumps_dict_head] at hc
    cases hc
    decide
  · rw [hstart, List.getLast?_concat] at hc
    cases hc
    decide

theorem exists_ne_brace (ensureAscii : Bool) (v : PyVal F) : ∃ c ∈ dumps ensureAscii v, c ≠ '\x7d' := by
  obtain ⟨c, cs, hcs, hc⟩ := startsValue_dumps ensureAscii v
  refine ⟨c, by simp [hcs], ?_⟩
  rintro rfl
  exact hc (by decide)

theorem NumberChar.ne_brace {c : Char} (h : NumberChar c) : c ≠ '\x7d' := by
  rintro rfl
  revert h
  unfold NumberChar
  decide

theorem braceRun_dumpsItems (ensureAscii : Bool) (xs : List (PyVal F)) (a : List Char) :
    braceRun (a ++ dumpsItems ensureAscii xs) = 0 := by
  induction xs generalizing a with
  | nil => exact braceRun_concat_ne a (by decide)
  | cons x xs ih =>
    have h := ih (a ++ ',' :: ' ' :: dumps ensureAscii x)
    rwa [List.append_assoc] at h

theorem braceRun_dumpsStr (ensureAscii : Bool) (s : String) : braceRun (dumpsStr ensureAscii s) = 0 :=
  braceRun_concat_ne _ (by decide)

/-- The bound for a dict from the bounds for one of its values and the pairs
after it. -/
theorem braceRun_pair (ensureAscii : Bool) (a : List Char) (k : String) (v : PyVal F)
    (kvs : List (String × PyVal F))
    (hv : 6 * braceRun (dumps ensureAscii v) ≤ (dumps ensureAscii v).length + 4)
    (hkvs : 6 * braceRun (dumpsPairs ensureAscii kvs) ≤ (dumpsPairs ensureAscii kvs).length + 5) :
    6 * braceRun (a ++ (dumpsStr ensureAscii k ++ ':' :: ' ' :: dumps ensureAscii v ++
        dumpsPairs ensureAscii kvs))
      ≤ (dumpsStr ensureAscii k).length + (dumps ensureAscii v).length +
        (dumpsPairs ensureAscii kvs).length + 7 := by
  have hkey : 2 ≤ (dumpsStr ensureAscii k).length := by simp [dumpsStr]
  cases kvs with
  | nil =>
    have hsplit : a ++ (dumpsStr ensureAscii k ++ ':' :: ' ' :: dumps ensureAscii v ++
        dumpsPairs ensureAscii ([] : List (String × PyVal F)))
        = (a ++ dumpsStr ensureAscii k ++ [':', ' ']) ++ dumps ensureAscii v ++ ['\x7d'] := by
      simp [dumpsPairs]
    rw [hsplit, braceRun_concat, braceRun_append (exists_ne_brace ensureAscii v)]
    simp only [dumpsPairs, List.length_singleton]
    omega
  | cons kv kvs =>
    have hcomma : ∃ c ∈ dumpsPairs ensureAscii (kv :: kvs), c ≠ '\x7d' :=
      ⟨',', by simp [dumpsPairs], by decide⟩
    rw [← List.append_assoc, braceRun_append hcomma]
    omega

mutual
/-- A text that ends in `n` braces has at least `6 n - 4` characters. -/
theorem braceRun_dumps (ensureAscii : Bool) : ∀ v : PyVal F,
    6 * braceRun (dumps ensureAscii v) ≤ (dumps ensureAscii v).length + 4
  | .none => by simp [dumps, braceRun]
  | .bool true => by simp [dumps, braceRun]
  | .bool false => by simp [dumps, braceRun]
  | .int i => by simp [dumps, braceRun_of_forall_ne fun c hc => (intText_chars i c hc).ne_brace]
  | .float f => by
    have h : ∀ c ∈ PyFloat.repr f, c ≠ '\x7d' := by
      intro c hc
      rcases floatText_chars (PyFloat.isFloatText_repr f) c hc with h | h
      · exact h.ne_brace
      · rintro rfl
        revert h
        decide
    simp [dumps, braceRun_of_forall_ne h]
  | .str s => by simp [dumps, braceRun_dumpsStr]
  | .other o => by simp [dumps, braceRun_dumpsStr]
  | .list [] => by simp [dumps, braceRun]
  | .list (x :: xs) => by
    rw [dumps, braceRun_dumpsItems]
    omega
  | .dict [] => by simp [dumps, braceRun]
  | .dict ((k, v) :: kvs) => by
    have hv := braceRun_dumps ensureAscii v
    have hkvs := braceRun_dumpsPairs ensureAscii kvs
    -- a run of closing braces is as long as the nesting, and every level has its key
    have h := braceRun_pair ensureAscii ['\x7b'] k v kvs hv hkvs
    simp only [dumps, List.length_append, List.length_cons, List.cons_append, List.nil_append] at h ⊢
    omega
theorem braceRun_dumpsPairs (ensureAscii : Bool) : ∀ kvs : List (String × PyVal F),
    6 * braceRun (dumpsPairs ensureAscii kvs) ≤ (dumpsPairs ensureAscii kvs).length + 5
  | [] => by simp [dumpsPairs, braceRun]
  | (k, v) :: kvs => by
    have hv := braceRun_dumps ensureAscii v
    have hkvs := braceRun_dumpsPairs ensureAscii kvs
    have h := braceRun_pair ensureAscii [',', ' '] k v kvs hv hkvs
    simp only [dumpsPairs, List.length_append, List.length_cons, List.cons_append,
      List.nil_append] at h ⊢
    omega
end

end PyJson
