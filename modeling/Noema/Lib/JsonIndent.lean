import Noema.Lib.JsonText

/-!
# JSON texts with line breaks

`json.dumps` with `indent=2` puts each item and each pair on a line of its own, and closes a list or
a dict on the line below its last item. The decoder skips whitespace in exactly these places, so the
proof follows the one of the compact texts step by step: one lemma for each step of the decoder on
such a text (`parseItems_lines`, `parsePairs_lines`, and the closing brackets), and a mutual
induction over the value, its items and its pairs.

- `loads_dumpsIndent`: **the round trip**, up to `default=str`.
- `carriageReturn_not_mem`: the only control characters in such a text are line feeds. So a file
  that is written in text mode and read back with universal newlines gives the same text.
-/

namespace PyJson

variable {F : Type} [PyFloat F] (ensureAscii : Bool)

/-- The line break before an item at a depth. -/
def newline (level : Nat) : List Char := '\n' :: List.replicate (2 * level) ' '

mutual
/-- `json.dumps(v, ensure_ascii=…, indent=2, default=str)`, for a value at a depth. -/
def dumpsIndent (level : Nat) : PyVal F → List Char
  | .none => dumps ensureAscii (.none : PyVal F)
  | .bool b => dumps ensureAscii (.bool b : PyVal F)
  | .int i => dumps ensureAscii (.int i : PyVal F)
  | .float f => dumps ensureAscii (.float f)
  | .str s => dumps ensureAscii (.str s : PyVal F)
  | .other o => dumps ensureAscii (.other o : PyVal F)
  | .list [] => ['[', ']']
  | .list (x :: xs) =>
    '[' :: newline (level + 1) ++ dumpsIndent (level + 1) x ++ dumpsIndentItems level xs
  | .dict [] => ['\x7b', '\x7d']
  | .dict ((k, v) :: kvs) =>
    '\x7b' :: newline (level + 1) ++ dumpsStr ensureAscii k ++ ':' :: ' ' ::
      dumpsIndent (level + 1) v ++ dumpsIndentPairs level kvs
/-- The items after the first, and the closing bracket. -/
def dumpsIndentItems (level : Nat) : List (PyVal F) → List Char
  | [] => newline level ++ [']']
  | x :: xs =>
    ',' :: newline (level + 1) ++ dumpsIndent (level + 1) x ++ dumpsIndentItems level xs
/-- The pairs after the first, and the closing brace. -/
def dumpsIndentPairs (level : Nat) : List (String × PyVal F) → List Char
  | [] => newline level ++ ['\x7d']
  | (k, v) :: kvs =>
    ',' :: newline (level + 1) ++ dumpsStr ensureAscii k ++ ':' :: ' ' ::
      dumpsIndent (level + 1) v ++ dumpsIndentPairs level kvs
end

/-! ## One step of the decoder -/

theorem skipWs_newline (level : Nat) (cs : List Char) : skipWs (newline level ++ cs) = skipWs cs := by
  have hspaces : ∀ n, skipWs (List.replicate n ' ' ++ cs) = skipWs cs := by
    intro n
    induction n with
    | zero => rfl
    | succ n ih => simpa [List.replicate_succ, skipWs] using ih
  rw [newline, List.cons_append]
  simpa [skipWs] using hspaces (2 * level)

theorem startsValue_dumpsIndent (level : Nat) (v : PyVal F) :
    StartsValue (dumpsIndent ensureAscii level v) := by
  cases v with
  | list xs =>
    cases xs with
    | nil => exact ⟨_, _, rfl, by decide⟩
    | cons x xs => exact ⟨_, _, rfl, by decide⟩
  | dict kvs =>
    cases kvs with
    | nil => exact ⟨_, _, rfl, by decide⟩
    | cons kv kvs => exact ⟨_, _, rfl, by decide⟩
  | _ => exact startsValue_dumps ensureAscii _

theorem dumpsIndentItems_ends (level : Nat) (xs : List (PyVal F)) (rest : List Char) :
    EndsNumber (dumpsIndentItems ensureAscii level xs ++ rest) := by
  cases xs with
  | nil => exact endsNumber_cons (by decide) (by decide)
  | cons x xs => exact endsNumber_cons (by decide) (by decide)

theorem dumpsIndentPairs_ends (level : Nat) (kvs : List (String × PyVal F)) (rest : List Char) :
    EndsNumber (dumpsIndentPairs ensureAscii level kvs ++ rest) := by
  cases kvs with
  | nil => exact endsNumber_cons (by decide) (by decide)
  | cons kv kvs => exact endsNumber_cons (by decide) (by decide)

section Steps

variable {ensureAscii} {n : Nat} (level : Nat) {cs mid rest : List Char}

theorem parseValue_listLines {x : PyVal F} {xs : List (PyVal F)} (hstart : StartsValue cs)
    (hx : parseValue n cs = some (x, mid)) (hxs : parseItems n mid = some (xs, rest)) :
    parseValue (n + 1) ('[' :: (newline level ++ cs)) = some (.list (x :: xs), rest) := by
  have hws : skipWs (newline level ++ cs) = cs := by rw [skipWs_newline, hstart.skipWs_eq]
  obtain ⟨c, cs, rfl, hc⟩ := hstart
  have hne : c ≠ ']' := fun h => hc (by simp [h])
  simp [parseValue, hws, hne, hx, hxs]

theorem parseItems_lines {x : PyVal F} {xs : List (PyVal F)} (hstart : StartsValue cs)
    (hx : parseValue n cs = some (x, mid)) (hxs : parseItems n mid = some (xs, rest)) :
    parseItems (n + 1) (',' :: (newline level ++ cs)) = some (x :: xs, rest) := by
  have hws : skipWs (newline level ++ cs) = cs := by rw [skipWs_newline, hstart.skipWs_eq]
  have hcomma : skipWs (',' :: (newline level ++ cs)) = ',' :: (newline level ++ cs) := rfl
  simp [parseItems, hcomma, hws, hx, hxs]

theorem parseItems_close : parseItems (F := F) (n + 1) (newline level ++ ']' :: rest) =
    some ([], rest) := by
  have hws : skipWs (newline level ++ ']' :: rest) = ']' :: rest := skipWs_newline level _
  simp [parseItems, hws]

theorem parseValue_dictLines {k : List Char} {kv : String × PyVal F} {kvs : List (String × PyVal F)}
    (hkv : parsePair n ('"' :: k ++ cs) = some (kv, mid))
    (hkvs : parsePairs n mid = some (kvs, rest)) :
    parseValue (n + 1) ('\x7b' :: (newline level ++ ('"' :: k ++ cs))) =
      some (.dict (dictOf (kv :: kvs)), rest) := by
  have hws : skipWs (newline level ++ ('"' :: k ++ cs)) = '"' :: (k ++ cs) := skipWs_newline level _
  rw [List.cons_append] at hkv hws
  simp [parseValue, hws, hkv, hkvs]

theorem parsePairs_lines {k : List Char} {kv : String × PyVal F} {kvs : List (String × PyVal F)}
    (hkv : parsePair n ('"' :: k ++ cs) = some (kv, mid))
    (hkvs : parsePairs n mid = some (kvs, rest)) :
    parsePairs (n + 1) (',' :: (newline level ++ ('"' :: k ++ cs))) = some (kv :: kvs, rest) := by
  have hws : skipWs (newline level ++ ('"' :: k ++ cs)) = '"' :: (k ++ cs) := skipWs_newline level _
  have hcomma : skipWs (',' :: (newline level ++ ('"' :: k ++ cs))) =
    ',' :: (newline level ++ ('"' :: k ++ cs)) := rfl
  rw [List.cons_append] at hkv hws hcomma
  simp [parsePairs, hcomma, hws, hkv, hkvs]

theorem parsePairs_close : parsePairs (F := F) (n + 1) (newline level ++ '\x7d' :: rest) =
    some ([], rest) := by
  have hws : skipWs (newline level ++ '\x7d' :: rest) = '\x7d' :: rest := skipWs_newline level _
  simp [parsePairs, hws]

end Steps

/-! ## The round trip -/

mutual
theorem parseValue_dumpsIndent (level : Nat) : ∀ (v : PyVal F), v.WF →
    ∀ (n : Nat) (rest : List Char), (dumpsIndent ensureAscii level v).length ≤ n →
      EndsNumber rest → parseValue n (dumpsIndent ensureAscii level v ++ rest) = some (v.plain, rest)
  | v, _, 0, _, hn, _ =>
    absurd hn (Nat.not_le.mpr (startsValue_dumpsIndent ensureAscii level v).length_pos)
  | .none, hwf, n + 1, rest, hn, hrest => parseValue_dumps ensureAscii .none hwf (n + 1) rest hn hrest
  | .bool b, hwf, n + 1, rest, hn, hrest =>
    parseValue_dumps ensureAscii (.bool b) hwf (n + 1) rest hn hrest
  | .int i, hwf, n + 1, rest, hn, hrest =>
    parseValue_dumps ensureAscii (.int i) hwf (n + 1) rest hn hrest
  | .float f, hwf, n + 1, rest, hn, hrest =>
    parseValue_dumps ensureAscii (.float f) hwf (n + 1) rest hn hrest
  | .str s, hwf, n + 1, rest, hn, hrest =>
    parseValue_dumps ensureAscii (.str s) hwf (n + 1) rest hn hrest
  | .other o, hwf, n + 1, rest, hn, hrest =>
    parseValue_dumps ensureAscii (.other o) hwf (n + 1) rest hn hrest
  | .list [], _, n + 1, rest, _, _ => rfl
  | .list (x :: xs), hwf, n + 1, rest, hn, _ => by
    simp only [dumpsIndent, List.length_cons, List.cons_append, List.length_append] at hn
    have hx := parseValue_dumpsIndent (level + 1) x hwf.1 n
      (dumpsIndentItems ensureAscii level xs ++ rest) (by omega)
      (dumpsIndentItems_ends ensureAscii level xs rest)
    have hxs := parseItems_dumpsIndent level xs hwf.2 n rest (by omega)
    rw [dumpsIndent, List.cons_append, List.cons_append, List.cons_append, List.append_assoc,
      List.append_assoc]
    exact parseValue_listLines (level + 1)
      ((startsValue_dumpsIndent ensureAscii (level + 1) x).append _) hx hxs
  | .dict [], _, n + 1, rest, _, _ => rfl
  | .dict ((k, v) :: kvs), hwf, n + 1, rest, hn, _ => by
    simp only [dumpsIndent, List.length_cons, List.cons_append, List.length_append] at hn
    have hv := parseValue_dumpsIndent (level + 1) v hwf.2.1 (n - 1)
      (dumpsIndentPairs ensureAscii level kvs ++ rest) (by omega)
      (dumpsIndentPairs_ends ensureAscii level kvs rest)
    have hkvs := parsePairs_dumpsIndent level kvs hwf.2.2 n rest (by omega)
    have hkv := parsePair_key ensureAscii (k := k) (by omega)
      ((startsValue_dumpsIndent ensureAscii (level + 1) v).append _) hv
    -- the parser keeps the last value of a key, and no key comes twice
    have hnodup : (((k, v.plain) :: plainPairs kvs).map Prod.fst).Nodup := by
      rw [List.map_cons, map_fst_plainPairs]
      exact hwf.1
    rw [show n - 1 + 1 = n by omega] at hkv
    have h := parseValue_dictLines (level + 1) hkv hkvs
    rw [dictOf_of_nodup hnodup] at h
    simpa [dumpsIndent, dumpsStr, PyVal.plain, plainPairs] using h
theorem parseItems_dumpsIndent (level : Nat) : ∀ (xs : List (PyVal F)), wfItems xs →
    ∀ (n : Nat) (rest : List Char), (dumpsIndentItems ensureAscii level xs).length ≤ n →
      parseItems n (dumpsIndentItems ensureAscii level xs ++ rest) = some (plainItems xs, rest)
  | [], _, 0, _, hn => by simp [dumpsIndentItems] at hn
  | _ :: _, _, 0, _, hn => by simp [dumpsIndentItems] at hn
  | [], _, n + 1, rest, _ => by
    rw [dumpsIndentItems, List.append_assoc]
    exact parseItems_close level
  | x :: xs, hwf, n + 1, rest, hn => by
    simp only [dumpsIndentItems, List.length_cons, List.cons_append, List.length_append] at hn
    have hx := parseValue_dumpsIndent (level + 1) x hwf.1 n
      (dumpsIndentItems ensureAscii level xs ++ rest) (by omega)
      (dumpsIndentItems_ends ensureAscii level xs rest)
    have hxs := parseItems_dumpsIndent level xs hwf.2 n rest (by omega)
    rw [dumpsIndentItems, List.cons_append, List.cons_append, List.cons_append, List.append_assoc,
      List.append_assoc]
    exact parseItems_lines (level + 1)
      ((startsValue_dumpsIndent ensureAscii (level + 1) x).append _) hx hxs
theorem parsePairs_dumpsIndent (level : Nat) : ∀ (kvs : List (String × PyVal F)), wfPairs kvs →
    ∀ (n : Nat) (rest : List Char), (dumpsIndentPairs ensureAscii level kvs).length ≤ n →
      parsePairs n (dumpsIndentPairs ensureAscii level kvs ++ rest) = some (plainPairs kvs, rest)
  | [], _, 0, _, hn => by simp [dumpsIndentPairs] at hn
  | _ :: _, _, 0, _, hn => by simp [dumpsIndentPairs] at hn
  | [], _, n + 1, rest, _ => by
    rw [dumpsIndentPairs, List.append_assoc]
    exact parsePairs_close level
  | (k, v) :: kvs, hwf, n + 1, rest, hn => by
    simp only [dumpsIndentPairs, List.length_cons, List.cons_append, List.length_append] at hn
    have hv := parseValue_dumpsIndent (level + 1) v hwf.1 (n - 1)
      (dumpsIndentPairs ensureAscii level kvs ++ rest) (by omega)
      (dumpsIndentPairs_ends ensureAscii level kvs rest)
    have hkvs := parsePairs_dumpsIndent level kvs hwf.2 n rest (by omega)
    have hkv := parsePair_key ensureAscii (k := k) (by omega)
      ((startsValue_dumpsIndent ensureAscii (level + 1) v).append _) hv
    rw [show n - 1 + 1 = n by omega] at hkv
    simpa [dumpsIndentPairs, dumpsStr, plainPairs] using
      parsePairs_lines (level + 1) hkv hkvs
end

/-- **The round trip** of texts with line breaks, up to `default=str`. -/
theorem loads_dumpsIndent {v : PyVal F} (hwf : v.WF) :
    loads (dumpsIndent ensureAscii 0 v) = some v.plain := by
  have hstart := startsValue_dumpsIndent ensureAscii 0 v
  have h := parseValue_dumpsIndent ensureAscii 0 v hwf
    ((dumpsIndent ensureAscii 0 v).length + 1) [] (by omega) endsNumber_nil
  have hbom : (dumpsIndent ensureAscii 0 v).head? ≠ some '\ufeff' := by
    obtain ⟨c, cs, hcs, hc⟩ := hstart
    rw [hcs]
    rintro ⟨⟩
    exact hc (by decide)
  rw [List.append_nil] at h
  rw [loads, if_neg hbom, hstart.skipWs_eq, h]
  rfl

/-! ## The characters of a text -/

/-- A line feed or a character of a JSON text. -/
def LineChar (c : Char) : Prop := c = '\n' ∨ TextChar ensureAscii c

theorem newline_lineChar (level : Nat) : ∀ c ∈ newline level, LineChar ensureAscii c := by
  intro c hc
  rcases List.mem_cons.mp hc with rfl | hc
  · exact .inl rfl
  · rw [List.eq_of_mem_replicate hc]
    exact .inr (punctuation_textChar ensureAscii _ (by decide))

theorem punctuation_lineChar :
    ∀ c ∈ ['[', ']', '\x7b', '\x7d', ',', ':', ' '], LineChar ensureAscii c :=
  fun c hc => .inr (punctuation_textChar ensureAscii c hc)

/-- A mark, an item on a line of its own, and what comes after it. -/
theorem item_lineChar {mark : Char} (hmark : mark ∈ ['[', ']', '\x7b', '\x7d', ',', ':', ' '])
    (level : Nat) {item rest : List Char} (hitem : ∀ c ∈ item, LineChar ensureAscii c)
    (hrest : ∀ c ∈ rest, LineChar ensureAscii c) :
    ∀ c ∈ mark :: newline level ++ item ++ rest, LineChar ensureAscii c := by
  intro c hc
  simp only [List.cons_append, List.mem_cons, List.mem_append] at hc
  rcases hc with rfl | (hc | hc) | hc
  · exact punctuation_lineChar ensureAscii _ hmark
  · exact newline_lineChar ensureAscii level c hc
  · exact hitem c hc
  · exact hrest c hc

/-- A key and its value. -/
theorem pair_lineChar (k : String) {value : List Char}
    (hvalue : ∀ c ∈ value, LineChar ensureAscii c) :
    ∀ c ∈ dumpsStr ensureAscii k ++ ':' :: ' ' :: value, LineChar ensureAscii c := by
  intro c hc
  simp only [List.mem_cons, List.mem_append] at hc
  rcases hc with hc | rfl | rfl | hc
  · exact .inr (dumpsStr_textChar ensureAscii k c hc)
  · exact punctuation_lineChar ensureAscii _ (by decide)
  · exact punctuation_lineChar ensureAscii _ (by decide)
  · exact hvalue c hc

mutual
theorem dumpsIndent_lineChar (level : Nat) : ∀ (v : PyVal F),
    ∀ c ∈ dumpsIndent ensureAscii level v, LineChar ensureAscii c
  | .none => fun c hc => .inr (dumps_textChar ensureAscii (.none : PyVal F) c hc)
  | .bool b => fun c hc => .inr (dumps_textChar ensureAscii (.bool b : PyVal F) c hc)
  | .int i => fun c hc => .inr (dumps_textChar ensureAscii (.int i : PyVal F) c hc)
  | .float f => fun c hc => .inr (dumps_textChar ensureAscii (.float f) c hc)
  | .str s => fun c hc => .inr (dumps_textChar ensureAscii (.str s : PyVal F) c hc)
  | .other o => fun c hc => .inr (dumps_textChar ensureAscii (.other o : PyVal F) c hc)
  | .list [] => fun c hc => .inr (textChar_of_all ensureAscii ['[', ']'] (by decide) c hc)
  | .list (x :: xs) => by
    rw [dumpsIndent]
    exact item_lineChar ensureAscii (by decide) (level + 1) (dumpsIndent_lineChar (level + 1) x)
      (dumpsIndentItems_lineChar level xs)
  | .dict [] => fun c hc => .inr (textChar_of_all ensureAscii ['\x7b', '\x7d'] (by decide) c hc)
  | .dict ((k, v) :: kvs) => by
    have hpair := pair_lineChar ensureAscii k (dumpsIndent_lineChar (level + 1) v)
    have hpairs := @item_lineChar ensureAscii '\x7b' (by decide) (level + 1) _ _ hpair
      (dumpsIndentPairs_lineChar level kvs)
    rw [dumpsIndent]
    simpa only [List.cons_append, List.append_assoc] using hpairs
theorem dumpsIndentItems_lineChar (level : Nat) : ∀ (xs : List (PyVal F)),
    ∀ c ∈ dumpsIndentItems ensureAscii level xs, LineChar ensureAscii c
  | [] => fun c hc => by
    rcases List.mem_append.mp hc with hc | hc
    · exact newline_lineChar ensureAscii level c hc
    · exact .inr (textChar_of_all ensureAscii [']'] (by decide) c hc)
  | x :: xs => by
    rw [dumpsIndentItems]
    exact item_lineChar ensureAscii (by decide) (level + 1) (dumpsIndent_lineChar (level + 1) x)
      (dumpsIndentItems_lineChar level xs)
theorem dumpsIndentPairs_lineChar (level : Nat) : ∀ (kvs : List (String × PyVal F)),
    ∀ c ∈ dumpsIndentPairs ensureAscii level kvs, LineChar ensureAscii c
  | [] => fun c hc => by
    rcases List.mem_append.mp hc with hc | hc
    · exact newline_lineChar ensureAscii level c hc
    · exact .inr (textChar_of_all ensureAscii ['\x7d'] (by decide) c hc)
  | (k, v) :: kvs => by
    have hpair := pair_lineChar ensureAscii k (dumpsIndent_lineChar (level + 1) v)
    have hpairs := @item_lineChar ensureAscii ',' (by decide) (level + 1) _ _ hpair
      (dumpsIndentPairs_lineChar level kvs)
    rw [dumpsIndentPairs]
    simpa only [List.cons_append, List.append_assoc] using hpairs
end

/-- A text has no carriage returns, and is read back as it was written. -/
theorem carriageReturn_not_mem (v : PyVal F) : '\r' ∉ dumpsIndent ensureAscii 0 v := by
  intro h
  rcases dumpsIndent_lineChar ensureAscii 0 v _ h with h | h
  · exact absurd h (by decide)
  · exact absurd h.1 (by decide)

end PyJson
