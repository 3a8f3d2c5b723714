import Mathlib

/-!
# The fragment of the Python runtime the models run on

Shared vocabulary of every module that embeds Python code:

- `PyExc`: the exceptions a modelled function can raise, each with its message (`custom` has the
  name of a class that is not built in); fallible code returns `Except PyExc`.
- `Bytes`: `bytes` objects, ordered lexicographically as Python orders them (core's order on
  `List`).
- `pyIndex`, `pyIndexInt`: `xs[i]` for a non-negative and for any index, with its `IndexError`.
- `bitLength`: `int.bit_length`.
- `PyM σ`: code that updates a state and may raise. An exception keeps the updates made before it,
  as it does in Python: this is not a transaction, and most of what goes wrong in the programs goes
  wrong there.
- `PyM.Keeps`: what a computation does to the state, with a rule for each way to build one.
- `hex`, `fromhex`: `bytes.hex` and `bytes.fromhex`.
- `sortedBy`: `sorted(xs, key=...)`, which is stable.

`bind_eq_ok` and its kin take a computation that returned apart: what the first part returned, and
that the second one returned from there. Proofs about fallible code use them and do not unfold the
monad.
-/

namespace Noema.Lib

/-- Python exceptions, with the text they carry. -/
inductive PyExc where
  | valueError (msg : String)
  | indexError (msg : String)
  | keyError (msg : String)
  | typeError (msg : String)
  | attributeError (msg : String)
  | overflowError (msg : String)
  | runtimeError (msg : String)
  | osError (msg : String)
  | custom (cls msg : String)
  deriving DecidableEq, Repr

/-- `str(e)`. -/
def PyExc.msg : PyExc → String
  | .valueError msg | .indexError msg | .keyError msg | .typeError msg | .attributeError msg
  | .overflowError msg | .runtimeError msg | .osError msg | .custom _ msg => msg

/-- `type(e).__name__`. -/
def PyExc.typeName : PyExc → String
  | .valueError _ => "ValueError"
  | .indexError _ => "IndexError"
  | .keyError _ => "KeyError"
  | .typeError _ => "TypeError"
  | .attributeError _ => "AttributeError"
  | .overflowError _ => "OverflowError"
  | .runtimeError _ => "RuntimeError"
  | .osError _ => "OSError"
  | .custom cls _ => cls

instance decidableEqExcept {ε α : Type} [DecidableEq ε] [DecidableEq α] : DecidableEq (Except ε α)
  | .ok a, .ok b => decidable_of_iff (a = b) (by simp)
  | .error a, .error b => decidable_of_iff (a = b) (by simp)
  | .ok _, .error _ => isFalse (by simp)
  | .error _, .ok _ => isFalse (by simp)

@[simp] theorem ok_bind {ε α β : Type} (a : α) (f : α → Except ε β) :
    (Except.ok a >>= f) = f a := rfl

theorem eq_ok_of_toOption {ε α : Type} {x : Except ε α} {a : α} (h : x.toOption = some a) :
    x = .ok a := by
  cases x with
  | error e => cases h
  | ok b => rw [Option.some.inj h]

theorem toBool_iff {ε α : Type} {x : Except ε α} : x.toBool = true ↔ ∃ a, x = .ok a := by
  cases x with
  | ok a => exact iff_of_true rfl ⟨a, rfl⟩
  | error e =>
    refine iff_of_false (fun h => by cases h) ?_
    rintro ⟨a, ha⟩
    cases ha

instance decidableExistsOk {ε α : Type} (x : Except ε α) : Decidable (∃ a, x = .ok a) :=
  decidable_of_iff _ toBool_iff

@[simp] theorem error_bind {ε α β : Type} (e : ε) (f : α → Except ε β) :
    (Except.error e >>= f) = Except.error e := rfl

/-- A `bytes` object. -/
abbrev Bytes := List UInt8

/-- `xs[i]` for `0 ≤ i`. -/
def pyIndex {α : Type} (xs : List α) (i : Nat) : Except PyExc α :=
  match xs[i]? with
  | some x => .ok x
  | none => .error (.indexError "list index out of range")

theorem pyIndex_eq_ok {α : Type} {xs : List α} {i : Nat} {x : α} (h : xs[i]? = some x) :
    pyIndex xs i = .ok x := by
  simp [pyIndex, h]

/-- `xs[i]`: a negative index counts from the end. -/
def pyIndexInt {α : Type} (xs : List α) (i : Int) : Except PyExc α :=
  let j := if i < 0 then i + xs.length else i
  if j < 0 then .error (.indexError "list index out of range") else pyIndex xs j.toNat

theorem pyIndexInt_natCast {α : Type} (xs : List α) (i : Nat) :
    pyIndexInt xs (i : Int) = pyIndex xs i := by
  have hnonneg : ¬ (i : Int) < 0 := by omega
  simp only [pyIndexInt, if_neg hnonneg, Int.toNat_natCast]

/-- `n.bit_length()` for `0 ≤ n`. -/
def bitLength (n : Nat) : Nat := n.size

theorem bitLength_le {m n : Nat} : bitLength m ≤ n ↔ m < 2 ^ n :=
  Nat.size_le

theorem bitLength_two_pow (n : Nat) : bitLength (2 ^ n) = n + 1 :=
  Nat.size_pow

/-! ## Code that may raise -/

theorem bind_eq_ok {α β : Type} {x : Except PyExc α} {f : α → Except PyExc β} {b : β}
    (h : x >>= f = .ok b) : ∃ a, x = .ok a ∧ f a = .ok b := by
  rcases x with e | a
  · cases h
  · exact ⟨a, rfl, h⟩

/-- A comprehension that did not raise has the results of all items. -/
theorem mapM_eq_ok {α β : Type} {f : α → Except PyExc β} {xs : List α} {ys : List β}
    (h : xs.mapM f = .ok ys) : List.Forall₂ (fun x y => f x = .ok y) xs ys := by
  induction xs generalizing ys with
  | nil =>
    cases h
    exact .nil
  | cons x xs ih =>
    rw [List.mapM_cons] at h
    obtain ⟨y, hy, h⟩ := bind_eq_ok h
    obtain ⟨rest, hrest, h⟩ := bind_eq_ok h
    cases h
    exact .cons hy (ih hrest)

theorem exists_mapM_iff {α β : Type} {f : α → Option β} {xs : List α} :
    (∃ ys, xs.mapM f = some ys) ↔ ∀ x ∈ xs, ∃ y, f x = some y := by
  induction xs with
  | nil => exact iff_of_true ⟨[], rfl⟩ fun x hx => by cases hx
  | cons x xs ih =>
    rw [List.forall_mem_cons, ← ih, List.mapM_cons]
    constructor
    · rintro ⟨ys, hys⟩
      obtain ⟨y, hy, hys⟩ := Option.bind_eq_some_iff.mp hys
      obtain ⟨ys, hrest, -⟩ := Option.bind_eq_some_iff.mp hys
      exact ⟨⟨y, hy⟩, ys, hrest⟩
    · rintro ⟨⟨y, hy⟩, ys, hys⟩
      exact ⟨y :: ys, by rw [hy, hys]; rfl⟩

theorem exists_mem_of_forall₂ {α β : Type} {R : α → β → Prop} {xs : List α} {ys : List β}
    (h : List.Forall₂ R xs ys) {x : α} (hx : x ∈ xs) : ∃ y ∈ ys, R x y := by
  induction h with
  | nil => cases hx
  | @cons x' y' xs ys hhead htail ih =>
    rcases List.mem_cons.mp hx with rfl | hx
    · exact ⟨y', List.mem_cons_self, hhead⟩
    · obtain ⟨y, hy, hR⟩ := ih hx
      exact ⟨y, List.mem_cons_of_mem _ hy, hR⟩

/-! ## Stateful code -/

/-- A computation on a state `σ` that may raise; the state survives the
exception. -/
def PyM (σ α : Type) : Type := σ → Except PyExc α × σ

namespace PyM

variable {σ α β : Type}

instance : Monad (PyM σ) where
  pure a := fun s => (.ok a, s)
  bind x f := fun s =>
    match x s with
    | (.ok a, s) => f a s
    | (.error e, s) => (.error e, s)

/-- The current state. -/
def get : PyM σ σ := fun s => (.ok s, s)

/-- Update the state. -/
def modify (f : σ → σ) : PyM σ Unit := fun s => (.ok (), f s)

/-- Run pure code that may raise. -/
def lift (x : Except PyExc α) : PyM σ α := fun s => (x, s)

/-- `raise`. -/
def raise (e : PyExc) : PyM σ α := fun s => (.error e, s)

/-- `try: x except: h`. -/
def tryCatch (x : PyM σ α) (h : PyExc → PyM σ α) : PyM σ α := fun s =>
  match x s with
  | (.ok a, s) => (.ok a, s)
  | (.error e, s) => h e s

@[simp] theorem pure_apply (a : α) (s : σ) : (pure a : PyM σ α) s = (.ok a, s) := rfl

@[simp] theorem get_apply (s : σ) : (get : PyM σ σ) s = (.ok s, s) := rfl

@[simp] theorem modify_apply (f : σ → σ) (s : σ) : modify f s = (.ok (), f s) := rfl

@[simp] theorem lift_apply (x : Except PyExc α) (s : σ) : lift x s = (x, s) := rfl

@[simp] theorem raise_apply (e : PyExc) (s : σ) : (raise e : PyM σ α) s = (.error e, s) := rfl

theorem bind_apply (x : PyM σ α) (f : α → PyM σ β) (s : σ) :
    (x >>= f) s = match x s with
      | (.ok a, s) => f a s
      | (.error e, s) => (.error e, s) := rfl

theorem bind_ok {x : PyM σ α} {s s' : σ} {a : α} (h : x s = (.ok a, s')) (f : α → PyM σ β) :
    (x >>= f) s = f a s' := by
  rw [bind_apply, h]

theorem bind_error {x : PyM σ α} {s s' : σ} {e : PyExc} (h : x s = (.error e, s'))
    (f : α → PyM σ β) : (x >>= f) s = (.error e, s') := by
  rw [bind_apply, h]

theorem bind_inv {x : PyM σ α} {f : α → PyM σ β} {s s' : σ} {b : β}
    (h : (x >>= f) s = (.ok b, s')) : ∃ a s₁, x s = (.ok a, s₁) ∧ f a s₁ = (.ok b, s') := by
  rw [bind_apply] at h
  rcases hx : x s with ⟨_ | a, s₁⟩
  · rw [hx] at h
    cases h
  · rw [hx] at h
    exact ⟨a, s₁, rfl, h⟩

/-! ### What a computation does to the state -/

/-- The states before and after a run of `x` are related, whether it raises or not. -/
def Keeps (R : σ → σ → Prop) (x : PyM σ α) : Prop := ∀ s, R s (x s).2

section Keeps

variable {R : σ → σ → Prop}

theorem Keeps.lift [Std.Refl R] (x : Except PyExc α) : Keeps R (PyM.lift x : PyM σ α) :=
  fun s => refl s

theorem Keeps.get [Std.Refl R] : Keeps R (PyM.get : PyM σ σ) :=
  fun s => refl s

theorem Keeps.pure [Std.Refl R] (a : α) : Keeps R (pure a : PyM σ α) :=
  fun s => refl s

theorem Keeps.modify {f : σ → σ} (h : ∀ s, R s (f s)) : Keeps R (PyM.modify f) := h

theorem Keeps.bind [IsTrans σ R] {x : PyM σ α} {f : α → PyM σ β} (hx : Keeps R x)
    (hf : ∀ a, Keeps R (f a)) : Keeps R (x >>= f) := by
  intro s
  have hfirst := hx s
  rw [bind_apply]
  rcases hrun : x s with ⟨_ | a, s'⟩ <;> rw [hrun] at hfirst
  · exact hfirst
  · exact IsTrans.trans _ _ _ hfirst (hf a s')

theorem Keeps.ite {p : Prop} [Decidable p] {x y : PyM σ α} (hx : Keeps R x) (hy : Keeps R y) :
    Keeps R (if p then x else y) := by
  split
  · exact hx
  · exact hy

theorem Keeps.foldlM [Std.Refl R] [IsTrans σ R] {f : β → α → PyM σ β}
    (hf : ∀ b a, Keeps R (f b a)) (xs : List α) (b : β) : Keeps R (xs.foldlM f b) := by
  induction xs generalizing b with
  | nil => exact Keeps.pure b
  | cons a xs ih => exact Keeps.bind (hf b a) ih

end Keeps

end PyM

/-! ## Hexadecimal -/

/-- `data.hex()`: two lower-case digits a byte. -/
def hex (data : Bytes) : String :=
  String.ofList (data.flatMap fun b => [Nat.digitChar (b.toNat / 16), Nat.digitChar (b.toNat % 16)])

/-- The value of a hexadecimal digit of either case. -/
def hexVal (c : Char) : Option Nat :=
  if c.isDigit then some (c.toNat - 48)
  else if 'a' ≤ c ∧ c ≤ 'f' then some (c.toNat - 87)
  else if 'A' ≤ c ∧ c ≤ 'F' then some (c.toNat - 55)
  else none

/-- The loop of `bytes.fromhex`: pairs of digits, with ASCII whitespace skipped
between pairs; `none` is `ValueError`. -/
def fromhexChars : List Char → Option Bytes
  | [] => some []
  | c :: cs =>
    if c ∈ [' ', '\t', '\n', '\x0b', '\x0c', '\r'] then fromhexChars cs
    else
      match cs with
      | [] => none
      | d :: cs =>
        match hexVal c, hexVal d with
        | some hi, some lo => (fromhexChars cs).map fun bs => UInt8.ofNat (hi * 16 + lo) :: bs
        | _, _ => none

/-- `bytes.fromhex(text)`. -/
def fromhex (text : String) : Option Bytes := fromhexChars text.toList

theorem hexVal_digitChar {n : Nat} (h : n < 16) : hexVal (Nat.digitChar n) = some n := by
  revert h
  revert n
  decide

theorem digitChar_not_space {n : Nat} (h : n < 16) :
    Nat.digitChar n ∉ [' ', '\t', '\n', '\x0b', '\x0c', '\r'] := by
  revert h
  revert n
  decide

theorem fromhex_hex (data : Bytes) : fromhex (hex data) = some data := by
  rw [fromhex, hex, String.toList_ofList]
  induction data with
  | nil => rfl
  | cons b bs ih =>
    have hb : b.toNat < 256 := b.toNat_lt
    have hval : UInt8.ofNat (b.toNat / 16 * 16 + b.toNat % 16) = b := by
      rw [show b.toNat / 16 * 16 + b.toNat % 16 = b.toNat by omega, UInt8.ofNat_toNat]
    rw [List.flatMap_cons, List.cons_append, List.cons_append, List.nil_append, fromhexChars,
      if_neg (digitChar_not_space (by omega))]
    simp only [hexVal_digitChar (show b.toNat / 16 < 16 by omega),
      hexVal_digitChar (show b.toNat % 16 < 16 by omega), ih, Option.map_some, hval]

/-! ## Sorting -/

section Sorting

variable {α β κ : Type} [LinearOrder κ]

/-- `sorted(xs, key=key)`: a stable sort. -/
def sortedBy (key : α → κ) (xs : List α) : List α :=
  xs.insertionSort fun a b => key a ≤ key b

theorem sortedBy_perm (key : α → κ) (xs : List α) : (sortedBy key xs).Perm xs :=
  List.perm_insertionSort _ xs

theorem sortedBy_of_pairwise {key : α → κ} {xs : List α}
    (h : xs.Pairwise fun a b => key a ≤ key b) : sortedBy key xs = xs :=
  h.insertionSort_eq

/-- Sorting commutes with a map that keeps the keys. -/
theorem map_sortedBy {key : α → κ} {key' : β → κ} (f : α → β) (hf : ∀ a, key' (f a) = key a)
    (xs : List α) : (sortedBy key xs).map f = sortedBy key' (xs.map f) :=
  List.map_insertionSort _ _ f xs fun a _ b _ => by rw [hf, hf]

/-- Sorting by a strictly increasing key restores the order. -/
theorem sortedBy_eq_of_perm {key : α → κ} {xs ys : List α} (hperm : xs.Perm ys)
    (hsorted : ys.Pairwise fun a b => key a < key b) : sortedBy key xs = ys := by
  have hpair : (sortedBy key xs).Pairwise fun a b => key a ≤ key b :=
    List.pairwise_insertionSort (fun a b => key a ≤ key b) xs
  refine List.Perm.eq_of_pairwise ?_ hpair (hsorted.imp le_of_lt)
    ((sortedBy_perm key xs).trans hperm)
  intro a b ha hb hab hba
  have ha' : a ∈ ys := hperm.subset ((sortedBy_perm key xs).subset ha)
  obtain ⟨i, hi, rfl⟩ := List.getElem_of_mem ha'
  obtain ⟨j, hj, rfl⟩ := List.getElem_of_mem hb
  rcases Nat.lt_trichotomy i j with h | rfl | h
  · exact absurd (List.pairwise_iff_getElem.mp hsorted i j hi hj h) (not_lt_of_ge hba)
  · rfl
  · exact absurd (List.pairwise_iff_getElem.mp hsorted j i hj hi h) (not_lt_of_ge hab)

end Sorting

end Noema.Lib
