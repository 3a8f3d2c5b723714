import Noema.Lib.JsonRoundTrip

/-!
# JSON texts that were cut

A list or a dict ends with its own bracket, so what the decoder reads of it does not depend on what
follows (`stable`). A text of a list or a dict that was cut is therefore no JSON text (`loads_cut`):
if the decoder took the cut text, it would have taken the whole text to be that and something more.

An item of a list may be a number, of which more could follow; but then a comma or a bracket comes
after it, and it is complete (`Complete`). The induction is over the fuel of the decoder, with one
statement for each of its four functions (`StableValue`, `StableItems`, `StablePair`,
`StablePairs`), and `stable` ties the knot. The scanners below the decoder have their own lemmas,
since what they read is stable as soon as one character follows that they do not take.
-/

namespace PyJson

variable {F : Type} [PyFloat F] {n m : Nat} {cs rest extra : List Char}

/-! ## Scanners -/

theorem skipWs_append (h : skipWs cs ≠ []) (extra : List Char) :
    skipWs (cs ++ extra) = skipWs cs ++ extra := by
  induction cs with
  | nil => exact absurd rfl h
  | cons c cs ih =>
    rw [List.cons_append, skipWs, skipWs]
    rw [skipWs] at h
    split_ifs at h ⊢
    · exact ih h
    · rfl

theorem skipWs_append_of_cons {c : Char} (h : skipWs cs = c :: rest) (extra : List Char) :
    skipWs (cs ++ extra) = c :: (rest ++ extra) := by
  rw [skipWs_append (by rw [h]; exact List.cons_ne_nil _ _), h, List.cons_append]

theorem hex4_append {r : Nat × List Char} (h : hex4 cs = some r) (extra : List Char) :
    hex4 (cs ++ extra) = some (r.1, r.2 ++ extra) := by
  rcases cs with _ | ⟨a, _ | ⟨b, _ | ⟨c, _ | ⟨d, cs⟩⟩⟩⟩
  · cases h
  · cases h
  · cases h
  · cases h
  · simp only [hex4, Option.bind_eq_bind, Option.bind_eq_some_iff, Option.some.injEq] at h
    obtain ⟨a', ha, b', hb, c', hc, d', hd, rfl⟩ := h
    simp [hex4, ha, hb, hc, hd]

theorem unicodeEscape_append {r : Char × List Char} (h : unicodeEscape cs = some r)
    (extra : List Char) : unicodeEscape (cs ++ extra) = some (r.1, r.2 ++ extra) := by
  rw [unicodeEscape] at h ⊢
  cases hhex : hex4 cs with
  | none =>
    rw [hhex] at h
    cases h
  | some hi =>
    rw [hhex] at h
    rw [hex4_append hhex]
    dsimp only at h ⊢
    split_ifs at h ⊢
    · rcases hi with ⟨n, tail⟩
      dsimp only at h ⊢
      split at h
      · next low _ =>
        cases hlow : hex4 low with
        | none =>
          rw [hlow] at h
          cases h
        | some lo =>
          rw [hlow] at h
          dsimp only at h
          split_ifs at h with hrange
          have heq := Option.some.inj h
          subst heq
          simp only [List.cons_append, hex4_append hlow]
          rw [if_pos hrange]
      · cases h
    · cases h
      rfl

theorem unescape_append {r : Char × List Char} (h : unescape cs = some r) (extra : List Char) :
    unescape (cs ++ extra) = some (r.1, r.2 ++ extra) := by
  cases cs with
  | nil => cases h
  | cons c cs =>
    unfold unescape at h
    split at h
    case h_9 heq =>
      cases heq
      exact unicodeEscape_append h extra
    case h_10 => cases h
    all_goals
      next heq =>
        cases heq
        cases h
        rfl

theorem scanString_append {r : List Char × List Char} (h : scanString n cs = some r) (hm : n ≤ m)
    (extra : List Char) : scanString m (cs ++ extra) = some (r.1, r.2 ++ extra) := by
  induction n generalizing cs r m with
  | zero => cases h
  | succ n ih =>
    obtain ⟨m, rfl⟩ : ∃ m', m = m' + 1 := ⟨m - 1, by omega⟩
    cases cs with
    | nil => cases h
    | cons c cs =>
      rw [scanString] at h
      rw [List.cons_append, scanString]
      split_ifs at h ⊢
      · cases h
        rfl
      · cases hesc : unescape cs with
        | none =>
          rw [hesc] at h
          cases h
        | some e =>
          rw [hesc] at h
          obtain ⟨r', hr', rfl⟩ := Option.map_eq_some_iff.mp h
          rw [unescape_append hesc]
          dsimp only
          rw [ih hr' (by omega)]
          rfl
      · obtain ⟨r', hr', rfl⟩ := Option.map_eq_some_iff.mp h
        rw [ih hr' (by omega)]
        rfl

/-! ## Complete items -/

/-- What was read is complete: something follows, and it does not continue a number. -/
def Complete (rest : List Char) : Prop := rest ≠ [] ∧ EndsNumber rest

theorem Complete.append (h : Complete rest) (extra : List Char) : EndsNumber (rest ++ extra) := by
  obtain ⟨hne, hends⟩ := h
  obtain ⟨c, rest, rfl⟩ := List.exists_cons_of_ne_nil hne
  exact fun d hd => hends d hd

/-- Punctuation makes what is before it complete. -/
theorem complete_of_skipWs {c : Char} {tail : List Char} (h : skipWs rest = c :: tail)
    (hc : c.isDigit = false ∧ c ∉ ['.', 'e', 'E', '+', '-']) : Complete rest := by
  cases rest with
  | nil => cases h
  | cons d rest =>
    refine ⟨List.cons_ne_nil _ _, ?_⟩
    rw [skipWs] at h
    split_ifs at h with hd
    · rcases hd with rfl | rfl | rfl | rfl
      all_goals exact endsNumber_cons (by decide) (by decide)
    · cases h
      exact endsNumber_cons hc.1 hc.2

theorem keyword_eq_some {word : List Char} : keyword word cs = some rest ↔ cs = word ++ rest := by
  rw [keyword]
  constructor
  · intro h
    split_ifs at h with hpre
    obtain ⟨tail, rfl⟩ := List.isPrefixOf_iff_prefix.mp hpre
    rw [List.drop_left] at h
    rw [Option.some.inj h]
  · rintro rfl
    rw [if_pos (List.isPrefixOf_iff_prefix.mpr (List.prefix_append ..)), List.drop_left]

theorem parseScalar_append {v : PyVal F} (h : parseScalar cs = some (v, rest)) (hrest : Complete rest)
    (extra : List Char) : parseScalar (cs ++ extra) = some (v, rest ++ extra) := by
  rw [parseScalar] at h
  split at h
  · next heq =>
    cases h
    rw [keyword_eq_some.mp heq]
    rfl
  split at h
  · next heq =>
    cases h
    rw [keyword_eq_some.mp heq]
    rfl
  split at h
  · next heq =>
    cases h
    rw [keyword_eq_some.mp heq]
    rfl
  split at h
  · next int suffix tail heq =>
    have hcut := scanNumber_cut heq
    have htail : tail = rest := by
      split_ifs at h
      · cases h
        rfl
      · cases h
        rfl
    subst htail
    -- the literal is the same, whatever follows it
    have happend : scanNumber (cs ++ extra) = some (int, suffix, tail ++ extra) := by
      have hliteral := scanNumber_append hrest.2 (int ++ suffix)
      rw [hcut, heq] at hliteral
      obtain ⟨⟨int', suffix', tail'⟩, hscan, hparts⟩ := Option.map_eq_some_iff.mp hliteral.symm
      simp only [Prod.mk.injEq, List.append_left_eq_self] at hparts
      obtain ⟨rfl, rfl, rfl⟩ := hparts
      rw [← hcut, List.append_assoc, scanNumber_append (hrest.append extra), hscan]
      rfl
    obtain ⟨c, cs', hcs, hc⟩ := scanNumber_head happend
    have hne : ∀ d : Char, d ≠ '-' → d.isDigit = false → c ≠ d := by
      rintro d hd hdig rfl
      rcases hc with rfl | hc
      · exact hd rfl
      · rw [hc] at hdig
        cases hdig
    have hnull : keyword ['n', 'u', 'l', 'l'] (c :: cs') = none :=
      keyword_cons_ne (hne _ (by decide) (by decide))
    have htrue : keyword ['t', 'r', 'u', 'e'] (c :: cs') = none :=
      keyword_cons_ne (hne _ (by decide) (by decide))
    have hfalse : keyword ['f', 'a', 'l', 's', 'e'] (c :: cs') = none :=
      keyword_cons_ne (hne _ (by decide) (by decide))
    rw [hcs] at happend ⊢
    rw [parseScalar, hnull, htrue, hfalse, happend]
    dsimp only
    split_ifs at h ⊢
    · cases h
      rfl
    · cases h
      rfl
  split at h
  · next heq =>
    cases h
    rw [keyword_eq_some.mp heq]
    rfl
  split at h
  · next heq =>
    cases h
    rw [keyword_eq_some.mp heq]
    rfl
  split at h
  · next heq =>
    cases h
    rw [keyword_eq_some.mp heq]
    rfl
  · cases h

/-! ## Values -/

/-- The text starts with a mark that the decoder waits for the other end of. -/
def Opens (cs : List Char) : Prop := cs.head? = some '"' ∨ cs.head? = some '[' ∨ cs.head? = some '\x7b'

section Stable

variable (F : Type) [PyFloat F] (n : Nat) (extra : List Char)

/-- What `scan_once` reads is the same, whatever follows it. -/
def StableValue : Prop :=
  ∀ m ≥ n, ∀ (cs rest : List Char) (v : PyVal F), parseValue n cs = some (v, rest) →
    Complete rest ∨ Opens cs → parseValue m (cs ++ extra) = some (v, rest ++ extra)

def StableItems : Prop :=
  ∀ m ≥ n, ∀ (cs rest : List Char) (xs : List (PyVal F)), parseItems n cs = some (xs, rest) →
    parseItems m (cs ++ extra) = some (xs, rest ++ extra)

def StablePair : Prop :=
  ∀ m ≥ n, ∀ (cs rest : List Char) (kv : String × PyVal F), parsePair n cs = some (kv, rest) →
    Complete rest → parsePair m (cs ++ extra) = some (kv, rest ++ extra)

def StablePairs : Prop :=
  ∀ m ≥ n, ∀ (cs rest : List Char) (kvs : List (String × PyVal F)),
    parsePairs n cs = some (kvs, rest) → parsePairs m (cs ++ extra) = some (kvs, rest ++ extra)

end Stable

section Steps

theorem parseValue_nil : (parseValue n [] : Option (PyVal F × List Char)) = none := by
  cases n with
  | zero => rfl
  | succ n => rfl

theorem parsePair_nil : (parsePair n [] : Option ((String × PyVal F) × List Char)) = none := by
  cases n with
  | zero => rfl
  | succ n => rfl

/-- After an item of a list comes a comma or the bracket. -/
theorem complete_of_parseItems {xs : List (PyVal F)} (h : parseItems n cs = some (xs, rest)) :
    Complete cs := by
  cases n with
  | zero => cases h
  | succ n =>
    rw [parseItems] at h
    split at h
    · next heq => exact complete_of_skipWs heq (by decide)
    · next heq => exact complete_of_skipWs heq (by decide)
    · cases h

theorem complete_of_parsePairs {kvs : List (String × PyVal F)}
    (h : parsePairs n cs = some (kvs, rest)) : Complete cs := by
  cases n with
  | zero => cases h
  | succ n =>
    rw [parsePairs] at h
    split at h
    · next heq => exact complete_of_skipWs heq (by decide)
    · next heq => exact complete_of_skipWs heq (by decide)
    · cases h

variable (hvalue : StableValue F n extra) (hitems : StableItems F n extra)
  (hpair : StablePair F n extra) (hpairs : StablePairs F n extra)

include hvalue in
/-- A value that was found is found again. -/
theorem StableValue.skipWs {v : PyVal F} (hm : n ≤ m) (h : parseValue n (skipWs cs) = some (v, rest))
    (hrest : Complete rest) :
    parseValue m (PyJson.skipWs (cs ++ extra)) = some (v, rest ++ extra) := by
  have hne : PyJson.skipWs cs ≠ [] := by
    intro hnil
    rw [hnil, parseValue_nil] at h
    cases h
  rw [skipWs_append hne]
  exact hvalue m hm _ _ v h (.inl hrest)

include hvalue hitems in
theorem stableItems_succ : StableItems F (n + 1) extra := by
  intro m hm cs rest xs h
  obtain ⟨m, rfl⟩ : ∃ m', m = m' + 1 := ⟨m - 1, by omega⟩
  replace hm : n ≤ m := by omega
  rw [parseItems] at h
  split at h
  · next heq =>
    cases h
    simp [parseItems, skipWs_append_of_cons heq]
  · next tail heq =>
    split at h
    · cases h
    · next x mid hx =>
      obtain ⟨⟨ys, rest'⟩, hys, hcons⟩ := Option.map_eq_some_iff.mp h
      cases hcons
      have hx' := hvalue.skipWs hm hx (complete_of_parseItems hys)
      simp [parseItems, skipWs_append_of_cons heq, hx', hitems m hm _ _ _ hys]
  · cases h

include hpair hpairs in
theorem stablePairs_succ : StablePairs F (n + 1) extra := by
  intro m hm cs rest kvs h
  obtain ⟨m, rfl⟩ : ∃ m', m = m' + 1 := ⟨m - 1, by omega⟩
  replace hm : n ≤ m := by omega
  rw [parsePairs] at h
  split at h
  · next heq =>
    cases h
    simp [parsePairs, skipWs_append_of_cons heq]
  · next tail heq =>
    split at h
    · cases h
    · next kv mid hkv =>
      obtain ⟨⟨kvs', rest'⟩, hkvs, hcons⟩ := Option.map_eq_some_iff.mp h
      cases hcons
      have hne : skipWs tail ≠ [] := by
        intro hnil
        rw [hnil, parsePair_nil] at hkv
        cases hkv
      have hkv' := hpair m hm _ _ _ hkv (complete_of_parsePairs hkvs)
      rw [← skipWs_append hne] at hkv'
      simp [parsePairs, skipWs_append_of_cons heq, hkv', hpairs m hm _ _ _ hkvs]
  · cases h

include hvalue in
theorem stablePair_succ : StablePair F (n + 1) extra := by
  intro m hm cs rest kv h hrest
  obtain ⟨m, rfl⟩ : ∃ m', m = m' + 1 := ⟨m - 1, by omega⟩
  replace hm : n ≤ m := by omega
  rcases cs with _ | ⟨c, cs⟩
  · cases h
  · by_cases hquote : c = '"'
    · subst hquote
      rw [parsePair] at h
      split at h
      · cases h
      · next k mid hk =>
        split at h
        · next tail hcolon =>
          obtain ⟨⟨v, rest'⟩, hv, hcons⟩ := Option.map_eq_some_iff.mp h
          cases hcons
          have hk' := scanString_append hk hm extra
          have hv' := hvalue.skipWs hm hv hrest
          simp [parsePair, hk', skipWs_append_of_cons hcolon, hv']
        · cases h
    · have hnone : (parsePair (n + 1) (c :: cs) : Option ((String × PyVal F) × List Char)) = none := by
        rw [parsePair]
        intro cs' heq
        cases heq
        contradiction
      rw [hnone] at h
      cases h

include hvalue hitems in
/-- A list. -/
theorem stableValue_list (hm : n ≤ m) {v : PyVal F}
    (h : parseValue (n + 1) ('[' :: cs) = some (v, rest)) :
    parseValue (m + 1) ('[' :: (cs ++ extra)) = some (v, rest ++ extra) := by
  rw [parseValue] at h
  split at h
  · next heq =>
    cases h
    simp [parseValue, skipWs_append_of_cons heq]
  · next hne =>
    split at h
    · cases h
    · next x mid hx =>
      obtain ⟨⟨ys, rest'⟩, hys, hcons⟩ := Option.map_eq_some_iff.mp h
      cases hcons
      have hx' := hvalue.skipWs hm hx (complete_of_parseItems hys)
      cases hws : skipWs cs with
      | nil =>
        rw [hws, parseValue_nil] at hx
        cases hx
      | cons c tail =>
        have hc : c ≠ ']' := fun heq => hne tail (heq ▸ hws)
        rw [skipWs_append_of_cons hws] at hx'
        simp [parseValue, skipWs_append_of_cons hws, hc, hx', hitems m hm _ _ _ hys]

include hpair hpairs in
/-- A dict. -/
theorem stableValue_dict (hm : n ≤ m) {v : PyVal F}
    (h : parseValue (n + 1) ('\x7b' :: cs) = some (v, rest)) :
    parseValue (m + 1) ('\x7b' :: (cs ++ extra)) = some (v, rest ++ extra) := by
  rw [parseValue] at h
  split at h
  · next heq =>
    cases h
    simp [parseValue, skipWs_append_of_cons heq]
  · next hne =>
    split at h
    · cases h
    · next kv mid hkv =>
      obtain ⟨⟨kvs, rest'⟩, hkvs, hcons⟩ := Option.map_eq_some_iff.mp h
      cases hcons
      have hkv' := hpair m hm _ _ _ hkv (complete_of_parsePairs hkvs)
      cases hws : skipWs cs with
      | nil =>
        rw [hws, parsePair_nil] at hkv
        cases hkv
      | cons c tail =>
        have hc : c ≠ '\x7d' := fun heq => hne tail (heq ▸ hws)
        rw [hws, List.cons_append] at hkv'
        simp [parseValue, skipWs_append_of_cons hws, hc, hkv', hpairs m hm _ _ _ hkvs]

include hvalue hitems hpair hpairs in
theorem stableValue_succ : StableValue F (n + 1) extra := by
  intro m hm cs rest v h hend
  obtain ⟨m, rfl⟩ : ∃ m', m = m' + 1 := ⟨m - 1, by omega⟩
  replace hm : n ≤ m := by omega
  rcases cs with _ | ⟨c, cs⟩
  · cases h
  · by_cases hquote : c = '"'
    · subst hquote
      obtain ⟨r, hr, heq⟩ := Option.map_eq_some_iff.mp h
      cases heq
      show (scanString m (cs ++ extra)).map _ = _
      rw [scanString_append hr hm]
      rfl
    by_cases hlist : c = '['
    · subst hlist
      exact stableValue_list hvalue hitems hm h
    by_cases hdict : c = '\x7b'
    · subst hdict
      exact stableValue_dict hpair hpairs hm h
    -- a number or a keyword: what follows must not go on with it
    have hscalar : ∀ (k : Nat) (cs : List Char),
        (parseValue (k + 1) (c :: cs) : Option (PyVal F × List Char)) = parseScalar (c :: cs) := by
      intro k cs
      rw [parseValue]
      all_goals
        intro cs' heq
        cases heq
        contradiction
    rw [hscalar] at h
    rw [List.cons_append, hscalar]
    refine parseScalar_append h (hend.resolve_right ?_) extra
    rintro (heq | heq | heq)
    all_goals
      cases heq
      contradiction

end Steps

/-- What is read is the same, whatever follows it. -/
theorem stable (n : Nat) (extra : List Char) : StableValue F n extra ∧ StableItems F n extra ∧
    StablePair F n extra ∧ StablePairs F n extra := by
  induction n with
  | zero =>
    refine ⟨?_, ?_, ?_, ?_⟩
    all_goals
      intro m hm cs rest v h
      cases h
  | succ n ih =>
    obtain ⟨hvalue, hitems, hpair, hpairs⟩ := ih
    exact ⟨stableValue_succ hvalue hitems hpair hpairs, stableItems_succ hvalue hitems,
      stablePair_succ hvalue, stablePairs_succ hpair hpairs⟩

/-! ## Cut texts -/

/-- The value is a list or a dict. -/
def PyVal.IsContainer : PyVal F → Prop
  | .list _ | .dict _ => True
  | _ => False

/-- The text of a list or a dict starts with its bracket. -/
theorem PyVal.IsContainer.head (ensureAscii : Bool) {v : PyVal F} (h : v.IsContainer) :
    (dumps ensureAscii v).head? = some '[' ∨ (dumps ensureAscii v).head? = some '\x7b' := by
  cases v with
  | list xs =>
    left
    cases xs <;> rfl
  | dict kvs =>
    right
    rcases kvs with _ | ⟨⟨k, v⟩, kvs⟩ <;> rfl
  | _ => cases h

/-- A part of the text of a list or a dict, from its start, is no JSON text. -/
theorem loads_cut (ensureAscii : Bool) {v : PyVal F} (hwf : v.WF) (hv : v.IsContainer)
    {front back : List Char} (hcut : dumps ensureAscii v = front ++ back) (hback : back ≠ []) :
    (loads front : Option (PyVal F)) = none := by
  rcases front with _ | ⟨c, front⟩
  · rfl
  · have hhead := hv.head ensureAscii
    rw [hcut, List.cons_append, List.head?_cons] at hhead
    have hopens : Opens (c :: front) := .inr hhead
    have hws : skipWs (c :: front) = c :: front := by
      rcases hhead with heq | heq
      · cases heq
        rfl
      · cases heq
        rfl
    have hbom : (c :: front).head? ≠ some '\ufeff' := by
      rw [List.head?_cons]
      rcases hhead with heq | heq
      · rw [heq]
        decide
      · rw [heq]
        decide
    rw [loads, if_neg hbom, hws]
    rcases hparse : (parseValue ((c :: front).length + 1) (c :: front) :
        Option (PyVal F × List Char)) with _ | ⟨w, rest⟩
    · rfl
    · -- the whole text would be read no further
      have hlength : (c :: front).length + 1 ≤ (dumps ensureAscii v).length + 1 := by
        rw [hcut, List.length_append]
        omega
      -- reading the cut text, with more behind it, leaves the rest unread
      have hmore := (stable _ back).1 _ hlength _ _ _ hparse (.inr hopens)
      have hall := parseValue_dumps ensureAscii v hwf ((dumps ensureAscii v).length + 1) [] (by omega)
        endsNumber_nil
      rw [List.append_nil, hcut] at hall
      rw [hcut, hall] at hmore
      have hnil : rest ++ back = [] := (Prod.mk.inj (Option.some.inj hmore)).2.symm
      exact absurd (List.append_eq_nil_iff.mp hnil).2 hback

end PyJson
