import Noema.Lib.PyRuntime

/-!
# Python's `json` codec

A model of `json.dumps` and `json.loads` on the values they exchange, following the documented
behaviour of the standard library:

- `PyVal F`: Python values as the encoder sees them, over a type `F` of floats. Integers are
  unbounded; a dict is the list of its items in insertion order; `other` is an object the encoder
  hands to `default=str`.
- `dumps`: the encoder with the default separators, for both settings of `ensure_ascii`; `sortKeys`
  is the effect of `sort_keys=True`.
- `loads`: the decoder (`none` is `JSONDecodeError`), with Python's escapes, surrogate pairs, number
  grammar, `NaN`/`Infinity` and duplicate-key rule. Its four functions take a fuel, of which the
  length of the text is enough, so that all of it is structural and can be evaluated.

A Lean `Char` is a Unicode scalar value, so lone surrogates have no counterpart and are rejected
here. The decoder of Python takes them, and it raises other exceptions on very long numbers and very
deep nesting; code for which that makes a difference uses `loadsLimited` (`Lib.JsonLimits`).

Floats are abstract: all the codec needs of them is that `float(repr(x))` is `x` and that `repr`
writes a literal of the JSON grammar (`PyFloat`).
-/

namespace PyJson

open Noema.Lib (hexVal sortedBy)

/-! ## Number literals -/

/-- The maximal run of digits at the front. -/
def scanDigits : List Char → List Char × List Char
  | [] => ([], [])
  | c :: cs => if c.isDigit then (c :: (scanDigits cs).1, (scanDigits cs).2) else ([], c :: cs)

/-- `(\.[0-9]+)?` -/
def scanFrac : List Char → List Char × List Char
  | '.' :: cs =>
    if (scanDigits cs).1 = [] then ([], '.' :: cs) else ('.' :: (scanDigits cs).1, (scanDigits cs).2)
  | cs => ([], cs)

/-- `[-+]?` -/
def scanSign : List Char → List Char × List Char
  | '+' :: cs => (['+'], cs)
  | '-' :: cs => (['-'], cs)
  | cs => ([], cs)

/-- `([eE][-+]?[0-9]+)?` -/
def scanExp : List Char → List Char × List Char
  | c :: cs =>
    if c = 'e' ∨ c = 'E' then
      let sign := scanSign cs
      let digits := scanDigits sign.2
      if digits.1 = [] then ([], c :: cs) else (c :: sign.1 ++ digits.1, digits.2)
    else ([], c :: cs)
  | [] => ([], [])

/-- `0|[1-9][0-9]*` -/
def scanNat : List Char → Option (List Char × List Char)
  | '0' :: cs => some (['0'], cs)
  | c :: cs => if c.isDigit then some (c :: (scanDigits cs).1, (scanDigits cs).2) else none
  | [] => none

/-- `-?(?:0|[1-9][0-9]*)` -/
def scanInt : List Char → Option (List Char × List Char)
  | '-' :: cs => (scanNat cs).map fun (ds, rest) => ('-' :: ds, rest)
  | cs => scanNat cs

/-- The number regex of the decoder: integer part, the fraction and exponent
text together, and what follows. -/
def scanNumber (cs : List Char) : Option (List Char × List Char × List Char) :=
  (scanInt cs).map fun (int, cs) =>
    let frac := scanFrac cs
    let exp := scanExp frac.2
    (int, frac.1 ++ exp.1, exp.2)

/-- `NaN` -/
def nanText : List Char := ['N', 'a', 'N']

/-- `Infinity` -/
def infinityText : List Char := ['I', 'n', 'f', 'i', 'n', 'i', 't', 'y']

/-- A literal that the decoder reads as a float. -/
def isFloatText (t : List Char) : Bool :=
  t == nanText || t == infinityText || t == '-' :: infinityText ||
    match scanNumber t with
    | some (_, suffix, rest) => suffix != [] && rest == []
    | none => false

/-- The interface of Python floats to the codec: `repr` as the encoder writes it,
and `float(text)`. -/
class PyFloat (F : Type) where
  repr : F → List Char
  ofText : List Char → F
  isFloatText_repr : ∀ f, isFloatText (repr f) = true
  ofText_repr : ∀ f, ofText (repr f) = f

/-- The free model of floats: a float is its literal. -/
structure FloatText where
  text : List Char
  isFloat : isFloatText text = true
  deriving DecidableEq

instance : PyFloat FloatText where
  repr f := f.text
  ofText t := if h : isFloatText t = true then ⟨t, h⟩ else ⟨nanText, rfl⟩
  isFloatText_repr f := f.isFloat
  ofText_repr f := dif_pos f.isFloat

/-! ## Values -/

/-- An object the encoder cannot serialize: its `str()`, and the result of its
`isoformat()` method if it has one. -/
structure PyObj where
  str : String
  isoformat : Option String
  deriving DecidableEq, Repr

/-- A Python value. -/
inductive PyVal (F : Type) where
  | none
  | bool (b : Bool)
  | int (i : Int)
  | float (f : F)
  | str (s : String)
  | list (xs : List (PyVal F))
  | dict (kvs : List (String × PyVal F))
  | other (o : PyObj)
  deriving Repr

variable {F : Type}

/-- `dict(pairs)`: a repeated key keeps its place and takes the later value. -/
def dictInsert {α : Type} (k : String) (v : α) : List (String × α) → List (String × α)
  | [] => [(k, v)]
  | (k', v') :: kvs => if k' = k then (k, v) :: kvs else (k', v') :: dictInsert k v kvs

/-- `dict(pairs)`. -/
def dictOf {α : Type} (pairs : List (String × α)) : List (String × α) :=
  pairs.foldl (fun d kv => dictInsert kv.1 kv.2 d) []

mutual
/-- Every dict has distinct keys. -/
def PyVal.WF : PyVal F → Prop
  | .list xs => wfItems xs
  | .dict kvs => (kvs.map Prod.fst).Nodup ∧ wfPairs kvs
  | _ => True
def wfItems : List (PyVal F) → Prop
  | [] => True
  | x :: xs => x.WF ∧ wfItems xs
def wfPairs : List (String × PyVal F) → Prop
  | [] => True
  | (_, v) :: kvs => v.WF ∧ wfPairs kvs
end

mutual
/-- The value that comes back: `default=str` has turned objects into strings. -/
def PyVal.plain : PyVal F → PyVal F
  | .list xs => .list (plainItems xs)
  | .dict kvs => .dict (plainPairs kvs)
  | .other o => .str o.str
  | v => v
def plainItems : List (PyVal F) → List (PyVal F)
  | [] => []
  | x :: xs => x.plain :: plainItems xs
def plainPairs : List (String × PyVal F) → List (String × PyVal F)
  | [] => []
  | (k, v) :: kvs => (k, v.plain) :: plainPairs kvs
end

mutual
/-- The effect of `sort_keys=True`: the items of every dict in the order of their
keys. -/
def PyVal.sortKeys : PyVal F → PyVal F
  | .list xs => .list (sortItems xs)
  | .dict kvs => .dict (sortedBy Prod.fst (sortPairs kvs))
  | v => v
def sortItems : List (PyVal F) → List (PyVal F)
  | [] => []
  | x :: xs => x.sortKeys :: sortItems xs
def sortPairs : List (String × PyVal F) → List (String × PyVal F)
  | [] => []
  | (k, v) :: kvs => (k, v.sortKeys) :: sortPairs kvs
end

/-! ## Operations of the interpreter -/

/-- What the code asks of values that the codec does not: the truth value of a
float, and `str()` of a value that is neither a string nor an object. -/
class PyBuiltins (F : Type) extends PyFloat F where
  floatTruthy : F → Bool
  strOf : PyVal F → String

instance : PyBuiltins FloatText where
  floatTruthy f := (f.text.takeWhile fun c => c != 'e' && c != 'E').any fun c =>
    c.isAlpha || c.isDigit && c != '0'
  strOf
    | .none => "None"
    | .bool true => "True"
    | .bool false => "False"
    | .int i => toString i
    | .float f => String.ofList f.text
    | .list [] => "[]"
    | .dict [] => "\x7b\x7d"
    | _ => ""

/-- `bool(v)`; objects are truthy. -/
def PyVal.truthy [PyBuiltins F] : PyVal F → Bool
  | .none => false
  | .bool b => b
  | .int i => i != 0
  | .float f => PyBuiltins.floatTruthy f
  | .str s => s != ""
  | .list xs => !xs.isEmpty
  | .dict kvs => !kvs.isEmpty
  | .other _ => true

/-- `str(v)`. -/
def PyVal.toStr [PyBuiltins F] : PyVal F → String
  | .str s => s
  | .other o => o.str
  | v => PyBuiltins.strOf v

/-- `type(v).__name__`. -/
def PyVal.typeName : PyVal F → String
  | .none => "NoneType"
  | .bool _ => "bool"
  | .int _ => "int"
  | .float _ => "float"
  | .str _ => "str"
  | .list _ => "list"
  | .dict _ => "dict"
  | .other _ => "object"

mutual
/-- The value has no part that `json.dumps` refuses without a `default`. -/
def PyVal.isJson : PyVal F → Bool
  | .list xs => isJsonItems xs
  | .dict kvs => isJsonPairs kvs
  | .other _ => false
  | _ => true
def isJsonItems : List (PyVal F) → Bool
  | [] => true
  | x :: xs => x.isJson && isJsonItems xs
def isJsonPairs : List (String × PyVal F) → Bool
  | [] => true
  | (_, v) :: kvs => v.isJson && isJsonPairs kvs
end

/-! ## The encoder -/

/-- `'\\u{0:04x}'.format(n)` -/
def uEscape (n : Nat) : List Char :=
  ['\\', 'u', Nat.digitChar (n / 4096 % 16), Nat.digitChar (n / 256 % 16), Nat.digitChar (n / 16 % 16),
    Nat.digitChar (n % 16)]

/-- The encoding of one character of a string. -/
def escapeChar (ensureAscii : Bool) (c : Char) : List Char :=
  if c = '"' then ['\\', '"']
  else if c = '\\' then ['\\', '\\']
  else if c = '\n' then ['\\', 'n']
  else if c = '\r' then ['\\', 'r']
  else if c = '\t' then ['\\', 't']
  else if c = '\x08' then ['\\', 'b']
  else if c = '\x0c' then ['\\', 'f']
  else if c.toNat < 0x20 then uEscape c.toNat
  else if ensureAscii ∧ 0x7e < c.toNat then
    if c.toNat < 0x10000 then uEscape c.toNat
    else
      let n := c.toNat - 0x10000
      uEscape (0xd800 + n / 1024) ++ uEscape (0xdc00 + n % 1024)
  else [c]

/-- A quoted string. -/
def dumpsStr (ensureAscii : Bool) (s : String) : List Char :=
  '"' :: s.toList.flatMap (escapeChar ensureAscii) ++ ['"']

/-- `int.__repr__`. -/
def intText (i : Int) : List Char :=
  if i < 0 then '-' :: Nat.toDigits 10 i.natAbs else Nat.toDigits 10 i.natAbs

variable [PyFloat F] (ensureAscii : Bool)

mutual
/-- `json.dumps(v, ensure_ascii=…, default=str)`. -/
def dumps : PyVal F → List Char
  | .none => ['n', 'u', 'l', 'l']
  | .bool true => ['t', 'r', 'u', 'e']
  | .bool false => ['f', 'a', 'l', 's', 'e']
  | .int i => intText i
  | .float f => PyFloat.repr f
  | .str s => dumpsStr ensureAscii s
  | .list [] => ['[', ']']
  | .list (x :: xs) => '[' :: dumps x ++ dumpsItems xs
  | .dict [] => ['\x7b', '\x7d']
  | .dict ((k, v) :: kvs) =>
    '\x7b' :: dumpsStr ensureAscii k ++ ':' :: ' ' :: dumps v ++ dumpsPairs kvs
  | .other o => dumpsStr ensureAscii o.str
/-- The items after the first, and the closing bracket. -/
def dumpsItems : List (PyVal F) → List Char
  | [] => [']']
  | x :: xs => ',' :: ' ' :: dumps x ++ dumpsItems xs
/-- The pairs after the first, and the closing brace. -/
def dumpsPairs : List (String × PyVal F) → List Char
  | [] => ['\x7d']
  | (k, v) :: kvs =>
    ',' :: ' ' :: dumpsStr ensureAscii k ++ ':' :: ' ' :: dumps v ++ dumpsPairs kvs
end

/-! ## The decoder -/

/-- `WHITESPACE.match`. -/
def skipWs : List Char → List Char
  | [] => []
  | c :: cs => if c = ' ' ∨ c = '\t' ∨ c = '\n' ∨ c = '\r' then skipWs cs else c :: cs

/-- What follows `word` if the text starts with it. -/
def keyword (word cs : List Char) : Option (List Char) :=
  if word.isPrefixOf cs then some (cs.drop word.length) else none

/-- `_decode_uXXXX`. -/
def hex4 : List Char → Option (Nat × List Char)
  | a :: b :: c :: d :: cs => do
    let a ← hexVal a
    let b ← hexVal b
    let c ← hexVal c
    let d ← hexVal d
    some (a * 4096 + b * 256 + c * 16 + d, cs)
  | _ => none

/-- The escape after `\u`: a high surrogate has to be followed by an escaped low
one. -/
def unicodeEscape (cs : List Char) : Option (Char × List Char) :=
  match hex4 cs with
  | none => none
  | some (n, rest) =>
    -- a high surrogate needs a low one, and together they are one character
    if 0xd800 ≤ n ∧ n ≤ 0xdbff then
      match rest with
      | '\\' :: 'u' :: rest =>
        match hex4 rest with
        | none => none
        | some (m, rest) =>
          if 0xdc00 ≤ m ∧ m ≤ 0xdfff then
            some (Char.ofNat (0x10000 + (n - 0xd800) * 1024 + (m - 0xdc00)), rest)
          else none
      | _ => none
    else if 0xdc00 ≤ n ∧ n ≤ 0xdfff then none
    else some (Char.ofNat n, rest)

/-- The character an escape stands for, from the text after its backslash. -/
def unescape : List Char → Option (Char × List Char)
  | '"' :: cs => some ('"', cs)
  | '\\' :: cs => some ('\\', cs)
  | '/' :: cs => some ('/', cs)
  | 'b' :: cs => some ('\x08', cs)
  | 'f' :: cs => some ('\x0c', cs)
  | 'n' :: cs => some ('\n', cs)
  | 'r' :: cs => some ('\r', cs)
  | 't' :: cs => some ('\t', cs)
  | 'u' :: cs => unicodeEscape cs
  | _ => none

/-- `scanstring`, from after the opening quote. The fuel bounds the number of
characters. -/
def scanString : Nat → List Char → Option (List Char × List Char)
  | 0, _ => none
  | _ + 1, [] => none
  | n + 1, c :: cs =>
    if c = '"' then some ([], cs)
    else if c = '\\' then
      match unescape cs with
      | none => none
      | some (e, rest) => (scanString n rest).map fun (s, rest) => (e :: s, rest)
    else if c.toNat < 0x20 then none
    else (scanString n cs).map fun (s, rest) => (c :: s, rest)

/-- `int(text)` for a match of `scanInt`. -/
def intVal : List Char → Int
  | '-' :: ds => -(Nat.ofDigitChars 10 ds 0 : Int)
  | ds => (Nat.ofDigitChars 10 ds 0 : Int)

/-- The literals of `scan_once`. -/
def parseScalar (cs : List Char) : Option (PyVal F × List Char) :=
  match keyword ['n', 'u', 'l', 'l'] cs with
  | some rest => some (.none, rest)
  | none =>
  match keyword ['t', 'r', 'u', 'e'] cs with
  | some rest => some (.bool true, rest)
  | none =>
  match keyword ['f', 'a', 'l', 's', 'e'] cs with
  | some rest => some (.bool false, rest)
  | none =>
  match scanNumber cs with
  | some (int, suffix, rest) =>
    if suffix = [] then some (.int (intVal int), rest)
    else some (.float (PyFloat.ofText (int ++ suffix)), rest)
  | none =>
  -- `json.loads` reads these three as well
  match keyword nanText cs with
  | some rest => some (.float (PyFloat.ofText nanText), rest)
  | none =>
  match keyword infinityText cs with
  | some rest => some (.float (PyFloat.ofText infinityText), rest)
  | none =>
  match keyword ('-' :: infinityText) cs with
  | some rest => some (.float (PyFloat.ofText ('-' :: infinityText)), rest)
  | none => none

mutual
/-- `scan_once`. Every call consumes a character per unit of fuel. -/
def parseValue : Nat → List Char → Option (PyVal F × List Char)
  | 0, _ => none
  | n + 1, '"' :: cs => (scanString n cs).map fun (s, rest) => (.str (String.ofList s), rest)
  | n + 1, '[' :: cs =>
    match skipWs cs with
    | ']' :: rest => some (.list [], rest)
    | cs =>
      match parseValue n cs with
      | none => none
      | some (x, rest) => (parseItems n rest).map fun (xs, rest) => (.list (x :: xs), rest)
  | n + 1, '\x7b' :: cs =>
    match skipWs cs with
    | '\x7d' :: rest => some (.dict [], rest)
    | cs =>
      match parsePair n cs with
      | none => none
      | some (kv, rest) =>
        (parsePairs n rest).map fun (kvs, rest) => (.dict (dictOf (kv :: kvs)), rest)
  | _ + 1, cs => parseScalar cs
/-- The rest of `JSONArray`, from after an item. -/
def parseItems : Nat → List Char → Option (List (PyVal F) × List Char)
  | 0, _ => none
  | n + 1, cs =>
    match skipWs cs with
    | ']' :: rest => some ([], rest)
    | ',' :: rest =>
      match parseValue n (skipWs rest) with
      | none => none
      | some (x, rest) => (parseItems n rest).map fun (xs, rest) => (x :: xs, rest)
    | _ => none
/-- A key, a colon and a value of `JSONObject`. -/
def parsePair : Nat → List Char → Option ((String × PyVal F) × List Char)
  | 0, _ => none
  | n + 1, '"' :: cs =>
    match scanString n cs with
    | none => none
    | some (k, rest) =>
      match skipWs rest with
      | ':' :: rest =>
        (parseValue n (skipWs rest)).map fun (v, rest) => ((String.ofList k, v), rest)
      | _ => none
  | _ + 1, _ => none
/-- The rest of `JSONObject`, from after a pair. -/
def parsePairs : Nat → List Char → Option (List (String × PyVal F) × List Char)
  | 0, _ => none
  | n + 1, cs =>
    match skipWs cs with
    | '\x7d' :: rest => some ([], rest)
    | ',' :: rest =>
      match parsePair n (skipWs rest) with
      | none => none
      | some (kv, rest) => (parsePairs n rest).map fun (kvs, rest) => (kv :: kvs, rest)
    | _ => none
end

/-- `json.loads(text)`; `none` is `JSONDecodeError`. -/
def loads (text : List Char) : Option (PyVal F) :=
  if text.head? = some '\ufeff' then none
  else
    match parseValue (text.length + 1) (skipWs text) with
    | some (v, rest) => if skipWs rest = [] then some v else none
    | none => none

end PyJson
