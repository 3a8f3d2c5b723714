import Noema.Lib.Json

/-!
# What `json.loads` does beyond `loads`

`loads` decodes texts without lone surrogates and without the limits of the interpreter. Code that
catches nothing but `JSONDecodeError` sees both, so this module adds them:

- `limitError`: a number of more than 4300 digits raises `ValueError`, and a list or an object that is
  nested too deep raises `RecursionError`, where the decoder comes to it. A text with an error before
  that place is still a `JSONDecodeError`.
- `mendSurrogates`: an escaped surrogate on its own is a character to Python. It is no `Char`, so it
  is read as U+FFFD.
- `loadsLimited`: `json.loads` with both.
- `limitError_of_length`: a short text is within the limits.

How much nesting the interpreter allows depends on the stack it is called on, so it is a parameter.
-/

namespace PyJson

open Noema.Lib (PyExc)

/-! ## Lone surrogates -/

/-- The text with an escaped U+FFFD for every escape of a lone surrogate. The fuel bounds the number
of characters. -/
def mendFrom : Nat → List Char → List Char
  | n + 1, '\\' :: 'u' :: cs =>
    match unicodeEscape cs, hex4 cs with
    | some (_, rest), _ => '\\' :: 'u' :: cs.take (cs.length - rest.length) ++ mendFrom n rest
    -- four digits that are no character
    | none, some (_, rest) => '\\' :: 'u' :: 'f' :: 'f' :: 'f' :: 'd' :: mendFrom n rest
    | none, none => '\\' :: 'u' :: mendFrom n cs
  | n + 1, '\\' :: c :: cs => '\\' :: c :: mendFrom n cs
  | n + 1, c :: cs => c :: mendFrom n cs
  | _, cs => cs

/-- The text as a decoder of `Char`s can read it. -/
def mendSurrogates (text : List Char) : List Char := mendFrom text.length text

/-! ## The limits of the interpreter -/

/-- `sys.get_int_max_str_digits()`. -/
def maxDigits : Nat := 4300

/-- A place in a text outside its strings: what comes before it, backwards, the brackets that close
what is open there, and what follows. -/
structure Place where
  before : List Char
  closers : List Char
  rest : List Char

/-- The closing brackets after one more character. -/
def closersAfter (c : Char) (closers : List Char) : List Char :=
  if c = '[' then ']' :: closers
  else if c = '\x7b' then '\x7d' :: closers
  else if c = ']' ∨ c = '\x7d' then closers.tail
  else closers

/-- Where a scan of a text stands with its strings. -/
inductive ScanState where
  | outside
  | inside
  | escaped

/-- The places of a text, from where a scan has come to. -/
def placesFrom (state : ScanState) (before closers : List Char) : List Char → List Place
  | [] => []
  | c :: cs =>
    match state with
    | .outside =>
      ⟨before, closers, c :: cs⟩ ::
        placesFrom (if c = '"' then .inside else .outside) (c :: before) (closersAfter c closers) cs
    | .inside =>
      placesFrom (if c = '\\' then .escaped else if c = '"' then .outside else .inside) (c :: before)
        closers cs
    | .escaped => placesFrom .inside (c :: before) closers cs

/-- The decoder comes to the place and reads a value there: with any value at the place, and what is
open closed behind it, the text is JSON. -/
def Place.expectsValue (p : Place) : Bool :=
  (loads (mendSurrogates (p.before.reverse ++ '0' :: p.closers)) : Option (PyVal FloatText)).isSome

/-- An integer starts at the place that has too many digits. -/
def Place.startsLong (p : Place) : Bool :=
  -- the digits of a fraction or an exponent start nothing
  !(p.before.head?.any fun c => c.isDigit || c ∈ ['.', '-', '+', 'e', 'E']) &&
    match scanNumber p.rest with
    | some (int, suffix, _) => suffix == [] && decide (maxDigits < (int.filter Char.isDigit).length)
    | none => false

/-- A list or an object starts at the place that is nested too deep. -/
def Place.startsDeep (depth : Nat) (p : Place) : Bool :=
  (p.rest.head?.any fun c => c == '[' || c == '\x7b') && decide (depth ≤ p.closers.length)

/-- What the decoder raises at a place. -/
def Place.limitError (depth : Nat) (p : Place) : Option PyExc :=
  if p.startsLong && p.expectsValue then
    some (.valueError "Exceeds the limit (4300 digits) for integer string conversion")
  else if p.startsDeep depth && p.expectsValue then
    some (.custom "RecursionError" "maximum recursion depth exceeded")
  else none

/-- What decoding a text raises besides `JSONDecodeError`. -/
def limitError (depth : Nat) (text : List Char) : Option PyExc :=
  (placesFrom .outside [] [] text).findSome? (Place.limitError depth)

/-! ### Short texts -/

theorem length_scanDigits_le (cs : List Char) : (scanDigits cs).1.length ≤ cs.length := by
  induction cs with
  | nil => exact Nat.le_refl 0
  | cons c cs ih =>
    rw [scanDigits]
    split
    · exact Nat.succ_le_succ ih
    · exact Nat.zero_le _

theorem length_scanNat_le {cs int rest : List Char} (h : scanNat cs = some (int, rest)) :
    int.length ≤ cs.length := by
  unfold scanNat at h
  split at h
  · cases h
    exact Nat.succ_le_succ (Nat.zero_le _)
  · split at h
    · cases h
      exact Nat.succ_le_succ (length_scanDigits_le _)
    · cases h
  · cases h

theorem length_scanNumber_le {cs int suffix rest : List Char}
    (h : scanNumber cs = some (int, suffix, rest)) : int.length ≤ cs.length := by
  rw [scanNumber, Option.map_eq_some_iff] at h
  obtain ⟨⟨int', rest'⟩, hint, heq⟩ := h
  cases heq
  unfold scanInt at hint
  split at hint
  · obtain ⟨⟨ds, rest''⟩, hnat, heq⟩ := Option.map_eq_some_iff.mp hint
    cases heq
    exact Nat.succ_le_succ (length_scanNat_le hnat)
  · exact length_scanNat_le hint

theorem length_closersAfter_le (c : Char) (closers : List Char) :
    (closersAfter c closers).length ≤ closers.length + 1 := by
  unfold closersAfter
  split
  · exact Nat.le_refl _
  · split
    · exact Nat.le_refl _
    · split
      · rw [List.length_tail]
        omega
      · exact Nat.le_succ _

/-- At a place no more is open than characters came before. -/
theorem length_of_mem_placesFrom {state : ScanState} {before closers text : List Char} {p : Place}
    (h : p ∈ placesFrom state before closers text) :
    p.rest ≠ [] ∧ p.closers.length + p.rest.length ≤ closers.length + text.length := by
  induction text generalizing state before closers with
  | nil => cases h
  | cons c cs ih =>
    rw [List.length_cons]
    cases state with
    | outside =>
      rcases List.mem_cons.mp h with rfl | h
      · exact ⟨List.cons_ne_nil _ _, Nat.le_refl _⟩
      · obtain ⟨hne, hle⟩ := ih h
        have hafter := length_closersAfter_le c closers
        exact ⟨hne, by omega⟩
    | inside =>
      obtain ⟨hne, hle⟩ := ih h
      exact ⟨hne, by omega⟩
    | escaped =>
      obtain ⟨hne, hle⟩ := ih h
      exact ⟨hne, by omega⟩

/-- **A short text is within the limits.** -/
theorem limitError_of_length {depth : Nat} {text : List Char} (hdepth : text.length ≤ depth)
    (hdigits : text.length ≤ maxDigits) : limitError depth text = none := by
  refine List.findSome?_eq_none_iff.mpr fun p hp => ?_
  obtain ⟨hne, hlength⟩ := length_of_mem_placesFrom hp
  rw [List.length_nil, Nat.zero_add] at hlength
  have hpos := List.length_pos_of_ne_nil hne
  have hlong : p.startsLong = false := by
    rw [Place.startsLong, Bool.and_eq_false_iff]
    refine .inr ?_
    split
    · next int suffix rest hscan =>
      have hint := (List.length_filter_le Char.isDigit int).trans (length_scanNumber_le hscan)
      rw [Bool.and_eq_false_iff]
      exact .inr (decide_eq_false (by omega))
    · rfl
  have hdeep : p.startsDeep depth = false := by
    rw [Place.startsDeep, Bool.and_eq_false_iff]
    exact .inr (decide_eq_false (by omega))
  rw [Place.limitError, hlong, hdeep]
  rfl

variable {F : Type} [PyFloat F]

/-- `json.loads(text)`, where `none` is `JSONDecodeError`. -/
def loadsLimited (depth : Nat) (text : List Char) : Except PyExc (Option (PyVal F)) :=
  match limitError depth text with
  | some e => .error e
  | none => .ok (loads text <|> loads (mendSurrogates text))

/-- Within the limits, what `loads` decodes is decoded. -/
theorem loadsLimited_of_loads {depth : Nat} {text : List Char} {v : PyVal F}
    (hlimit : limitError depth text = none) (h : loads text = some v) :
    loadsLimited depth text = .ok (some v) := by
  rw [loadsLimited, hlimit, h]
  rfl

end PyJson
