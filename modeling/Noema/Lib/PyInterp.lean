import Noema.Lib.Json
import Noema.Lib.TextFile

/-!
# Numbers and text of the interpreter

`PyInterp F` is what code that computes with values asks of the interpreter beyond the codec:
conversions to and from `float`, comparison and multiplication of floats, and `repr`. `toFloat`,
`pyMax` and `pyMin` are `float(text)`, `max` and `min` over it; `pyEq` is `==`, where a number
equals one of another type and the order of a dict does not count.

The methods of `PyVal` that raise for a wrong type (`iter`, `len`, `getKey`, `joinWith`) have the
messages of CPython. `asStr` and `asStrList` are what pydantic lets into a field.

The instance for `FloatText` computes with the exact value of a literal. Results are proved for any
`F`; that instance is what concrete inputs are run at.
-/

namespace PyJson

open Noema.Lib

/-- Float arithmetic and `repr`. -/
class PyInterp (F : Type) extends PyBuiltins F where
  /-- `float(i)`, which may overflow. -/
  ofInt : Int → Except PyExc F
  /-- `float(text)`; `none` is `ValueError`. -/
  ofStr : List Char → Option F
  lt : F → F → Bool
  le : F → F → Bool
  /-- `f == g` -/
  eq : F → F → Bool
  /-- `f == i` -/
  eqInt : F → Int → Bool
  mul : F → F → F
  /-- `f.is_integer()` -/
  isInteger : F → Bool
  /-- `int(f)` of an integer. -/
  toInt : F → Int
  /-- `repr(v)` -/
  reprOf : PyVal F → String

variable {F : Type} [PyInterp F]

/-- `float(text)`. -/
def toFloat (text : List Char) : Except PyExc F :=
  match PyInterp.ofStr text with
  | some f => .ok f
  | none => .error (.valueError ("could not convert string to float: '" ++ String.ofList text ++ "'"))

/-- `max(a, b)`: the first unless the second is greater. -/
def pyMax (a b : F) : F := if PyInterp.lt a b then b else a

/-- `min(a, b)`: the first unless the second is less. -/
def pyMin (a b : F) : F := if PyInterp.lt b a then b else a

/-- `d.get(key)`. -/
def dictGet (d : List (String × PyVal F)) (key : String) : PyVal F := (d.lookup key).getD .none

/-- `d.get(key, fallback)`. -/
def getOr (d : List (String × PyVal F)) (key : String) (fallback : PyVal F) : PyVal F :=
  (d.lookup key).getD fallback

/-- `v[:n]`. -/
def PyVal.sliceTo (n : Nat) : PyVal F → Except PyExc (PyVal F)
  | .str s => .ok (.str (String.ofList (s.toList.take n)))
  | .list xs => .ok (.list (xs.take n))
  | .dict _ => .error (.keyError ("slice(None, " ++ toString n ++ ", None)"))
  | v => .error (.typeError ("'" ++ v.typeName ++ "' object is not subscriptable"))

/-- `iter(v)`. -/
def PyVal.iter : PyVal F → Except PyExc (List (PyVal F))
  | .str s => .ok (s.toList.map fun c => .str (String.ofList [c]))
  | .list xs => .ok xs
  | .dict d => .ok (d.map fun (k, _) => .str k)
  | v => .error (.typeError ("'" ++ v.typeName ++ "' object is not iterable"))

/-- `len(v)`. -/
def PyVal.len : PyVal F → Except PyExc Nat
  | .str s => .ok s.length
  | .list xs => .ok xs.length
  | .dict d => .ok d.length
  | v => .error (.typeError ("object of type '" ++ v.typeName ++ "' has no len()"))

/-- `v.get(key, fallback)`. -/
def PyVal.getKey (v : PyVal F) (key : String) (fallback : PyVal F) : Except PyExc (PyVal F) :=
  match v with
  | .dict d => .ok (getOr d key fallback)
  | v => .error (.attributeError ("'" ++ v.typeName ++ "' object has no attribute 'get'"))

/-- `separator.join(v)`. -/
def PyVal.joinWith (separator : String) (v : PyVal F) : Except PyExc String := do
  let items ← v.iter
  let texts ← items.zipIdx.mapM fun (item, i) =>
    match item with
    | .str s => .ok s
    | item => .error (.typeError ("sequence item " ++ toString i ++
        ": expected str instance, " ++ item.typeName ++ " found"))
  return separator.intercalate texts

/-- What pydantic lets into a field of type `str`; the text of the error is shortened. -/
def PyVal.asStr : PyVal F → Except PyExc String
  | .str s => .ok s
  | _ => .error (.custom "ValidationError" "Input should be a valid string")

/-- What pydantic lets into a field of type `list[str]`. -/
def PyVal.asStrList : PyVal F → Except PyExc (List String)
  | .list xs => xs.mapM PyVal.asStr
  | _ => .error (.custom "ValidationError" "Input should be a valid list")

/-- `v or w`. -/
def PyVal.pyOr (v w : PyVal F) : PyVal F := if v.truthy then v else w

mutual
/-- `v == w`: numbers are compared by their values, dicts without regard to the order of their
items. -/
def PyVal.pyEq : PyVal F → PyVal F → Bool
  | .none, w => match w with
    | .none => true
    | _ => false
  -- `True == 1` and `1 == 1.0`
  | .bool b, w => match w with
    | .bool c => b == c
    | .int j => (if b then 1 else 0) == j
    | .float g => PyInterp.eqInt g (if b then 1 else 0)
    | _ => false
  | .int i, w => match w with
    | .bool c => i == (if c then 1 else 0)
    | .int j => i == j
    | .float g => PyInterp.eqInt g i
    | _ => false
  | .float f, w => match w with
    | .bool c => PyInterp.eqInt f (if c then 1 else 0)
    | .int j => PyInterp.eqInt f j
    | .float g => PyInterp.eq f g
    | _ => false
  | .str s, w => match w with
    | .str t => s == t
    | _ => false
  | .list xs, w => match w with
    | .list ys => pyEqItems xs ys
    | _ => false
  | .dict d, w => match w with
    -- the order of the keys does not matter
    | .dict e => d.length == e.length && pyEqPairs d e
    | _ => false
  | .other o, w => match w with
    | .other o' => o == o'
    | _ => false
def pyEqItems : List (PyVal F) → List (PyVal F) → Bool
  | [], ys => ys.isEmpty
  | x :: xs, ys => match ys with
    | y :: ys => x.pyEq y && pyEqItems xs ys
    | [] => false
def pyEqPairs : List (String × PyVal F) → List (String × PyVal F) → Bool
  | [], _ => true
  | (k, v) :: d, e => (match e.lookup k with
    | some w => v.pyEq w
    | none => false) && pyEqPairs d e
end

/-! ## Dicts -/

section Dict

variable {α : Type}

theorem lookup_dictInsert (k k' : String) (v : α) (d : List (String × α)) :
    (dictInsert k v d).lookup k' = if k' = k then some v else d.lookup k' := by
  induction d with
  | nil =>
    rw [dictInsert, List.lookup_cons]
    by_cases h : k' = k
    · simp [h]
    · simp [h, beq_false_of_ne h]
  | cons kv d ih =>
    obtain ⟨k₀, v₀⟩ := kv
    rw [dictInsert]
    by_cases h₀ : k₀ = k
    · subst h₀
      rw [if_pos rfl, List.lookup_cons, List.lookup_cons]
      by_cases h : k' = k₀
      · simp [h]
      · simp [h, beq_false_of_ne h]
    · rw [if_neg h₀, List.lookup_cons, List.lookup_cons, ih]
      by_cases h : k' = k₀
      · simp [h, h₀]
      · simp [beq_false_of_ne h]

theorem mem_keys_dictInsert {k k' : String} {v : α} {d : List (String × α)} :
    k' ∈ (dictInsert k v d).map Prod.fst ↔ k' = k ∨ k' ∈ d.map Prod.fst := by
  induction d with
  | nil => simp [dictInsert]
  | cons kv d ih =>
    obtain ⟨k₀, v₀⟩ := kv
    rw [dictInsert]
    by_cases h₀ : k₀ = k
    · subst h₀
      simp
    · rw [if_neg h₀, List.map_cons, List.mem_cons, ih, List.map_cons, List.mem_cons]
      tauto

/-- A key that is there keeps its place. -/
theorem keys_dictInsert_of_mem {k : String} {v : α} {d : List (String × α)}
    (h : k ∈ d.map Prod.fst) : (dictInsert k v d).map Prod.fst = d.map Prod.fst := by
  induction d with
  | nil => cases h
  | cons kv d ih =>
    obtain ⟨k₀, v₀⟩ := kv
    rw [dictInsert]
    by_cases h₀ : k₀ = k
    · rw [if_pos h₀, List.map_cons, List.map_cons, h₀]
    · have hmem : k ∈ d.map Prod.fst := (List.mem_cons.mp h).resolve_left (Ne.symm h₀)
      rw [if_neg h₀, List.map_cons, List.map_cons, ih hmem]

theorem mem_dictInsert {k : String} {v : α} {d : List (String × α)} {kv : String × α}
    (h : kv ∈ dictInsert k v d) : kv = (k, v) ∨ kv ∈ d := by
  induction d with
  | nil => exact .inl (List.mem_singleton.mp h)
  | cons kv₀ d ih =>
    obtain ⟨k₀, v₀⟩ := kv₀
    rw [dictInsert] at h
    split at h
    · exact (List.mem_cons.mp h).imp_right (List.mem_cons_of_mem _)
    · rcases List.mem_cons.mp h with rfl | h
      · exact .inr List.mem_cons_self
      · exact (ih h).imp_right (List.mem_cons_of_mem _)

theorem mem_foldl_dictInsert {pairs d : List (String × α)} {kv : String × α}
    (h : kv ∈ pairs.foldl (fun d kv => dictInsert kv.1 kv.2 d) d) : kv ∈ d ∨ kv ∈ pairs := by
  induction pairs generalizing d with
  | nil => exact .inl h
  | cons kv₀ pairs ih =>
    rcases ih h with hd | hpairs
    · rcases mem_dictInsert hd with rfl | hd
      · exact .inr List.mem_cons_self
      · exact .inl hd
    · exact .inr (List.mem_cons_of_mem kv₀ hpairs)

/-- The items of a dict display are among those that it lists. -/
theorem mem_dictOf {pairs : List (String × α)} {kv : String × α} (h : kv ∈ dictOf pairs) :
    kv ∈ pairs :=
  (mem_foldl_dictInsert h).resolve_left List.not_mem_nil

theorem not_mem_keys_of_lookup {κ : Type} [DecidableEq κ] {k : κ} {d : List (κ × α)}
    (h : d.lookup k = none) : k ∉ d.map Prod.fst := by
  intro hk
  obtain ⟨kv, hkv, rfl⟩ := List.mem_map.mp hk
  simpa using List.lookup_eq_none_iff.mp h kv hkv

theorem mem_of_lookup {key : String} {v : α} {d : List (String × α)}
    (h : d.lookup key = some v) : (key, v) ∈ d := by
  induction d with
  | nil => cases h
  | cons kv d ih =>
    obtain ⟨k, w⟩ := kv
    rw [List.lookup_cons] at h
    by_cases heq : key = k
    · subst heq
      rw [beq_self_eq_true] at h
      cases h
      exact List.mem_cons_self
    · rw [beq_false_of_ne heq] at h
      exact List.mem_cons_of_mem _ (ih h)

theorem lookup_mapValues {β : Type} (g : α → β) (key : String) (d : List (String × α)) :
    (d.map fun p => (p.1, g p.2)).lookup key = (d.lookup key).map g := by
  induction d with
  | nil => rfl
  | cons p d ih =>
    rw [List.map_cons, List.lookup_cons, List.lookup_cons]
    by_cases hkey : key = p.1
    · simp [hkey]
    · rw [beq_false_of_ne hkey]
      exact ih

/-- The entries that a function gives to the keys of a list. -/
theorem lookup_filterMap {κ : Type} [DecidableEq κ] (f : κ → Option α) (keys : List κ) (k : κ) :
    (keys.filterMap fun k => (f k).map fun v => (k, v)).lookup k =
      if k ∈ keys then f k else none := by
  induction keys with
  | nil => simp
  | cons k' keys ih =>
    rw [List.filterMap_cons]
    by_cases hk : k = k'
    · subst hk
      rcases hf : f k with _ | v
      · simp [ih, hf]
      · simp
    · rcases f k' with _ | v
      · simp [ih, hk]
      · simp [ih, hk, List.lookup_cons, beq_false_of_ne hk]

end Dict

/-! ## The instance on literals -/

namespace FloatText

/-- The mantissa and the exponent of a literal that is a number. -/
def decimal (f : FloatText) : Option (Int × Int) :=
  match scanNumber f.text with
  | some (int, suffix, []) =>
    let frac := (scanFrac suffix).1.drop 1
    let exp := ((scanFrac suffix).2.drop 1).filter (· != '+')
    some (intVal (int ++ frac), intVal exp - frac.length)
  | _ => none

/-- The value of a literal; `none` is `nan`. -/
def value (f : FloatText) : Option (WithBot (WithTop ℚ)) :=
  match f.decimal with
  | some (m, .ofNat e) => some (((m * 10 ^ e : ℚ) : WithTop ℚ))
  | some (m, .negSucc e) => some (((m / 10 ^ (e + 1) : ℚ) : WithTop ℚ))
  | none =>
    if f.text = infinityText then some ((⊤ : WithTop ℚ) : WithBot (WithTop ℚ))
    else if f.text = '-' :: infinityText then some ⊥
    else none

/-- The value of a literal that is a number. -/
def finite (f : FloatText) : Option ℚ :=
  match f.value with
  | some (some (some q)) => some q
  | _ => none

/-- The literal of a decimal number. -/
def ofDecimal (m e : Int) : FloatText := PyFloat.ofText (intText m ++ 'e' :: intText e)

end FloatText

instance : PyInterp FloatText where
  ofInt i :=
    if i.natAbs < 2 ^ 1024 then .ok (PyFloat.ofText (intText i ++ ['.', '0']))
    else .error (.overflowError "int too large to convert to float")
  ofStr text :=
    let text := strip text
    if isFloatText text then some (PyFloat.ofText text)
    else if isFloatText (text ++ ['.', '0']) then some (PyFloat.ofText (text ++ ['.', '0']))
    else none
  lt a b :=
    match a.value, b.value with
    | some p, some q => p < q
    | _, _ => false
  le a b :=
    match a.value, b.value with
    | some p, some q => p ≤ q
    | _, _ => false
  eq a b :=
    match a.value, b.value with
    | some p, some q => p = q
    | _, _ => false
  eqInt a i := a.finite == some (i : ℚ)
  mul a b :=
    match a.decimal, b.decimal with
    | some (m, e), some (m', e') => .ofDecimal (m * m') (e + e')
    | _, _ => PyFloat.ofText nanText
  isInteger f := (f.finite.map fun q => decide (q.den = 1)).getD false
  toInt f := (f.finite.map Rat.num).getD 0
  reprOf
    | .str s => "'" ++ s ++ "'"
    | v => v.toStr

end PyJson
