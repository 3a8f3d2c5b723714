import Noema.Lib.JsonText
import Noema.Lib.TextFile
import Noema.Lib.Utf8

/-!
# Canonical JSON bytes and fenced JSON (`utils/json_utils.py`)

`serializeToBytes` is the encoding behind every commitment of the audit log: keys are sorted, and
what `json` cannot encode is replaced by its `str`. It is blind to that replacement
(`serializeToBytes_plain`), it determines every field of a dict (`serializeToBytes_lookup`), and it
only writes printable ASCII (`serializeToBytes_printable`).

`extractFencedJson` reads JSON out of the answer of an LLM: the first code block, then the outermost
span of braces, then that of brackets, and the fallback if none of them has a value. What it makes
of a text is in `Utils.FencedJson`.
-/

namespace Noema.Utils

open Noema.Lib PyJson

variable {F : Type} [PyFloat F]

/-- `serialize_to_bytes` (json_utils.py:9). -/
def serializeToBytes (data : PyVal F) : Bytes := encodeUtf8 (dumps true data.sortKeys)

theorem serializeToBytes_plain (v : PyVal F) : serializeToBytes v.plain = serializeToBytes v := by
  rw [serializeToBytes, sortKeys_plain, dumps_plain, serializeToBytes]

/-- Dicts with the same bytes agree on every key they share. -/
theorem serializeToBytes_lookup {kvs kvs' : List (String × PyVal F)} (hwf : (PyVal.dict kvs).WF)
    (hwf' : (PyVal.dict kvs').WF)
    (h : serializeToBytes (.dict kvs) = serializeToBytes (.dict kvs'))
    {k : String} {v w : PyVal F} (hv : (k, v) ∈ kvs) (hw : (k, w) ∈ kvs') :
    v.sortKeys.plain = w.sortKeys.plain :=
  sorted_dumps_lookup hwf hwf' (encodeUtf8_injective h) hv hw

theorem serializeToBytes_eq_map (v : PyVal F) :
    serializeToBytes v = (dumps true v.sortKeys).map fun c => UInt8.ofNat c.toNat :=
  encodeUtf8_ascii fun c hc => Nat.lt_succ_of_lt ((dumps_textChar true _ c hc).2 rfl)

theorem serializeToBytes_printable (v : PyVal F) :
    ∀ b ∈ serializeToBytes v, 0x20 ≤ b.toNat ∧ b.toNat < 0x7f := by
  intro b hb
  rw [serializeToBytes_eq_map] at hb
  obtain ⟨c, hc, rfl⟩ := List.mem_map.mp hb
  have hlo := (dumps_textChar true _ c hc).1
  have hhi := (dumps_textChar true _ c hc).2 rfl
  rw [UInt8.toNat_ofNat', Nat.mod_eq_of_lt (by omega)]
  exact ⟨hlo, hhi⟩

/-! ## Fenced JSON -/

/-- `text.find(needle)`, with `none` for `-1`. -/
def findText (needle : List Char) : List Char → Option Nat
  | [] => if needle = [] then some 0 else none
  | c :: text =>
    if needle.isPrefixOf (c :: text) then some 0 else (findText needle text).map (· + 1)

/-- The text of the code block that begins after `fence`, if there is one. -/
def insideFence (fence text : List Char) : Option (List Char) :=
  (findText fence text).map fun start =>
    let body := text.drop (start + fence.length)
    match findText "```".toList body with
    | some stop => strip (body.take stop)
    | none => strip body

/-- `strip_fences` (json_utils.py:18). -/
def stripFences (text : List Char) : List Char :=
  let t := strip text
  ((insideFence "```json".toList t).orElse fun _ => insideFence "```".toList t).getD t

/-- `json.loads(text[first : last + 1])` for the first `opening` and the last `closing`. -/
def loadsSpan (text : List Char) (opening closing : Char) : Option (PyVal F) :=
  match text.idxOf? opening, text.reverse.idxOf? closing with
  | some first, some fromEnd =>
    let stop := text.length - fromEnd
    if first + 1 < stop then loads ((text.take stop).drop first) else none
  | _, _ => none

/-- `extract_fenced_json` (json_utils.py:35). -/
def extractFencedJson (text : String) (fallback : PyVal F) : PyVal F :=
  let t := text.toList
  ((loads (stripFences t)).orElse fun _ =>
    (loadsSpan t '\x7b' '\x7d').orElse fun _ => loadsSpan t '[' ']').getD fallback

end Noema.Utils
