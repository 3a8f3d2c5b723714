import Noema.Lib.PyInterp

/-!
# `int` and `float` of a value

`PyNumber F` adds to the interpreter how floats are cut off and texts are read as integers;
`PyVal.pyInt` and `PyVal.pyFloat` are the calls of `int` and `float`. Both raise `TypeError` for
`None`, lists, dicts and other objects, `ValueError` for a text that is no number, and `int` also
raises `OverflowError` or `ValueError` for an infinity or a NaN. Code that catches some of these and
not the others is where it matters which one it is.
-/

namespace PyJson

open Noema.Lib

/-- Conversions to `int`. -/
class PyNumber (F : Type) extends PyInterp F where
  /-- `int(f)`, which raises for infinities and for `nan`. -/
  truncate : F → Except PyExc Int
  /-- `int(text)`; `none` is `ValueError`. -/
  intOf : List Char → Option Int

variable {F : Type}

/-- `int(v)`. -/
def PyVal.pyInt [PyNumber F] : PyVal F → Except PyExc Int
  | .int i => .ok i
  | .bool b => .ok (if b then 1 else 0)
  | .float f => PyNumber.truncate f
  | .str s =>
    match PyNumber.intOf (F := F) s.toList with
    | .some i => .ok i
    | .none => .error (.valueError ("invalid literal for int() with base 10: " ++
        PyInterp.reprOf (.str s : PyVal F)))
  | v => .error (.typeError ("int() argument must be a string, a bytes-like object or a real " ++
      "number, not '" ++ v.typeName ++ "'"))

/-- `float(v)`. -/
def PyVal.pyFloat [PyInterp F] : PyVal F → Except PyExc F
  | .int i => PyInterp.ofInt i
  | .bool b => PyInterp.ofInt (if b then 1 else 0)
  | .float f => .ok f
  | .str s => toFloat s.toList
  | v => .error (.typeError ("float() argument must be a string or a real number, not '" ++
      v.typeName ++ "'"))

/-- `0.0`. -/
def zeroFloat [PyFloat F] : F := PyFloat.ofText ['0', '.', '0']

/-- The digits of an integer with an optional sign. -/
def readInt (text : List Char) : Option Int :=
  let digits (ds : List Char) : Option Int :=
    if ds ≠ [] ∧ ds.all Char.isDigit then some (Nat.ofDigitChars 10 ds 0 : Int) else none
  match strip text with
  | '-' :: ds => (digits ds).map fun i => -i
  | '+' :: ds => digits ds
  | ds => digits ds

instance : PyNumber FloatText where
  truncate f :=
    match f.finite with
    | some q => .ok (if 0 ≤ q then ⌊q⌋ else ⌈q⌉)
    | none =>
      match f.value with
      | some _ => .error (.overflowError "cannot convert float infinity to integer")
      | none => .error (.valueError "cannot convert float NaN to integer")
  intOf := readInt

end PyJson
