import Noema.Lib.PyRuntime

/-!
# The tracer (`tracing/tracer.py`)

A `Tracer` has a stack of open spans and a bounded history of ended ones. `get_stats` adds up the
attributes of the spans in the history, so it knows nothing of what the bound has dropped. An
operation ends spans and may drop others, so that statistics before and after it differ by both.

- `startSpan`, `endSpan`, `traceLlmCall`, `getStats`: the methods that the engine and the workers
  use.
- `Tracer.tokens`, `getStats_totalTokens`: what `get_stats` says of the tokens of a history.
- `Tracer.Ends`: an operation that ends spans with these tokens. Such operations compose
  (`Ends.trans`), since a part of a history that is cut twice is cut once (`drop_drop_append`).
- **`Tracer.Ends.sum`**: what the history holds in the end is what it carried over and what was
  added, but for the spans that were pushed out.

A span is identified by the number with which it was created; the code gives it a random id.
-/

namespace Noema.Tracing

open Noema.Lib

/-- `TraceConfig`: the bound of the history. -/
structure TraceConfig where
  maxSpans : Int := 10000

/-- `TraceSpan`, with the attributes that are numbers of tokens. -/
structure TraceSpan where
  spanId : Nat
  parentId : Option Nat
  name : String
  kind : String
  attributes : List (String × Nat)
  status : String := "ok"
  error : String := ""
  deriving DecidableEq, Repr

/-- A `Tracer`. The stack is listed from its top; `created` counts the spans, whose ids are
unique. -/
structure Tracer where
  config : TraceConfig
  spans : List TraceSpan
  stack : List TraceSpan
  created : Nat

/-- `xs[-n:]`. -/
def sliceLast {α : Type} (n : Int) (xs : List α) : List α :=
  if 0 < n then xs.drop (xs.length - n.toNat) else xs.drop (-n).toNat

/-- How a call of an LLM ends: with the tokens of its answer, with an answer from the cache, or
with an exception. -/
inductive LlmCall where
  | answered (tokensUsed tokensInput tokensOutput : Nat)
  | cached
  | failed (error : String)
  deriving DecidableEq, Repr

/-- The tokens that the call consumed. -/
def LlmCall.tokens : LlmCall → Nat
  | .answered tokensUsed .. => tokensUsed
  | .cached => 0
  | .failed _ => 0

/-- The attributes of the span of a call. -/
def LlmCall.attributes : LlmCall → List (String × Nat)
  | .answered tokensUsed tokensInput tokensOutput =>
    [("llm.tokens", tokensUsed), ("llm.tokens_input", tokensInput),
      ("llm.tokens_output", tokensOutput)]
  | .cached => [("llm.tokens", 0)]
  | .failed _ => [("llm.tokens", 0)]

/-- The error of a call, or the empty text. -/
def LlmCall.error : LlmCall → String
  | .answered .. => ""
  | .cached => ""
  | .failed error => error

/-- `TraceStats`: the numbers of `get_stats`. -/
structure TraceStats where
  totalSpans : Nat
  llmCalls : Nat
  totalTokens : Nat
  tokensInput : Nat
  tokensOutput : Nat
  errors : Nat
  deriving DecidableEq, Repr

/-- `span.attributes.get(key, 0)`. -/
def TraceSpan.attribute (span : TraceSpan) (key : String) : Nat :=
  (span.attributes.lookup key).getD 0

namespace Tracer

/-- `Tracer(config)`. -/
def new (config : TraceConfig) : Tracer := ⟨config, [], [], 0⟩

/-- `start_span` (tracer.py:182). -/
def startSpan (t : Tracer) (name kind : String) (attributes : List (String × Nat)) :
    TraceSpan × Tracer :=
  let span : TraceSpan :=
    { spanId := t.created, parentId := t.stack.head?.map TraceSpan.spanId, name, kind, attributes }
  (span, { t with stack := span :: t.stack, created := t.created + 1 })

/-- The history with one more span, cut to its bound. -/
def push (t : Tracer) (span : TraceSpan) : Tracer :=
  let spans := t.spans ++ [span]
  { t with
    spans := if t.config.maxSpans < spans.length then sliceLast t.config.maxSpans spans else spans }

/-- `end_span` (tracer.py:205) with a span. Without open spans nothing happens. -/
def endSpan (t : Tracer) (span : TraceSpan) (status error : String) : Tracer :=
  if t.stack = [] then t
  else
    { t with stack := t.stack.eraseP fun s => s.spanId = span.spanId }.push
      { span with status, error }

/-- `trace_llm_call` (tracer.py:253). -/
def traceLlmCall (t : Tracer) (provider : String) (call : LlmCall) : Tracer :=
  let (span, t) := t.startSpan ("llm." ++ provider) "llm" call.attributes
  t.endSpan span (if call.error ≠ "" then "error" else "ok") call.error

/-- `get_stats` (tracer.py:291). -/
def getStats (t : Tracer) : TraceStats :=
  let llmSpans := t.spans.filter fun s => s.kind = "llm"
  { totalSpans := t.spans.length
    llmCalls := llmSpans.length
    totalTokens := (llmSpans.map fun s => s.attribute "llm.tokens").sum
    tokensInput := (llmSpans.map fun s => s.attribute "llm.tokens_input").sum
    tokensOutput := (llmSpans.map fun s => s.attribute "llm.tokens_output").sum
    errors := (t.spans.filter fun s => s.status = "error").length }

end Tracer

/-! ## The tokens of a history -/

/-- The tokens of a span for `get_stats`. -/
def TraceSpan.tokens (span : TraceSpan) : Nat :=
  if span.kind = "llm" then span.attribute "llm.tokens" else 0

/-- The tokens of the spans of a history, one by one. -/
def Tracer.tokens (t : Tracer) : List Nat := t.spans.map TraceSpan.tokens

/-- What a span counts for a sum of `get_stats`. -/
def usage (key : String) (span : TraceSpan) : Nat :=
  if span.kind = "llm" then span.attribute key else 0

/-- What some spans count. -/
def usages (key : String) (spans : List TraceSpan) : Nat := (spans.map (usage key)).sum

/-- The sums of `get_stats` are those of all spans. -/
theorem sum_llmSpans (key : String) (spans : List TraceSpan) :
    ((spans.filter fun s => s.kind = "llm").map fun s => s.attribute key).sum = usages key spans := by
  induction spans with
  | nil => rfl
  | cons span spans ih =>
    rw [usages, List.map_cons, List.sum_cons, ← usages, ← ih, usage, List.filter_cons]
    by_cases hkind : span.kind = "llm"
    · rw [if_pos (decide_eq_true hkind), if_pos hkind, List.map_cons, List.sum_cons]
    · rw [if_neg (by simpa using hkind), if_neg hkind, zero_add]

theorem getStats_totalTokens (t : Tracer) : t.getStats.totalTokens = t.tokens.sum :=
  sum_llmSpans "llm.tokens" t.spans

/-- The span of a call has the tokens of the call. -/
theorem attribute_tokens (call : LlmCall) (span : TraceSpan)
    (h : span.attributes = call.attributes) : span.attribute "llm.tokens" = call.tokens := by
  rw [TraceSpan.attribute, h]
  cases call with
  | answered => rfl
  | cached => rfl
  | failed => rfl

namespace Tracer

/-- From `t` to `t'` the history got spans with these tokens, and kept the last `bound`. -/
structure Ends (bound : Nat) (t t' : Tracer) (ended : List Nat) : Prop where
  config : t'.config = t.config
  tokens : t'.tokens = (t.tokens ++ ended).drop (t.tokens.length + ended.length - bound)

variable {bound : Nat} {t t' t'' : Tracer}

theorem length_tokens (t : Tracer) : t.tokens.length = t.spans.length := List.length_map ..

/-- A part of a history that is cut twice is cut once. -/
theorem drop_drop_append {α : Type} (xs ys zs : List α) (bound : Nat) :
    ((xs ++ ys).drop (xs.length + ys.length - bound) ++ zs).drop
        ((xs.length + ys.length - (xs.length + ys.length - bound)) + zs.length - bound) =
      (xs ++ (ys ++ zs)).drop (xs.length + (ys.length + zs.length) - bound) := by
  have hle : xs.length + ys.length - bound ≤ (xs ++ ys).length := by
    rw [List.length_append]
    omega
  rw [← List.drop_append_of_le_length hle, List.drop_drop, List.append_assoc]
  congr 1
  omega

theorem Ends.length {ended : List Nat} (h : Ends bound t t' ended) :
    t'.tokens.length = t.tokens.length + ended.length -
      (t.tokens.length + ended.length - bound) := by
  rw [h.tokens, List.length_drop, List.length_append]

theorem Ends.refl (hbound : t.tokens.length ≤ bound) : Ends bound t t [] where
  config := rfl
  tokens := by rw [List.append_nil, List.length_nil, add_zero, Nat.sub_eq_zero_of_le hbound,
    List.drop_zero]

theorem Ends.trans {ended ended' : List Nat} (h : Ends bound t t' ended)
    (h' : Ends bound t' t'' ended') : Ends bound t t'' (ended ++ ended') where
  config := h'.config.trans h.config
  tokens := by
    rw [h'.tokens, h.length, h.tokens, drop_drop_append, List.length_append]

/-- The history is within its bound after it has been cut. -/
theorem Ends.bounded {ended : List Nat} (h : Ends bound t t' ended) : t'.tokens.length ≤ bound := by
  rw [h.length]
  omega

theorem ends_push (hbound : t.config.maxSpans = bound) (hpos : 0 < bound) (span : TraceSpan) :
    Ends bound t (t.push span) [span.tokens] where
  config := rfl
  tokens := by
    have hmap : (t.spans ++ [span]).map TraceSpan.tokens = t.tokens ++ [span.tokens] := by
      rw [List.map_append, tokens, List.map_singleton]
    have hlength : (t.spans ++ [span]).length = t.tokens.length + 1 := by
      rw [List.length_append, length_tokens, List.length_singleton]
    show List.map _ (ite (t.config.maxSpans < ((t.spans ++ [span]).length : Int)) _ _) = _
    rw [hbound, List.length_singleton, hlength]
    split
    next hover =>
      rw [sliceLast, if_pos (by exact_mod_cast hpos), Int.toNat_natCast, List.map_drop, hmap,
        hlength]
    next hwithin =>
      have hle : t.tokens.length + 1 ≤ bound := by exact_mod_cast not_lt.mp hwithin
      rw [hmap, Nat.sub_eq_zero_of_le hle, List.drop_zero]

/-- The tokens of a history that are still in it after `n` more spans. -/
def carried (bound : Nat) (history : List Nat) (n : Nat) : Nat :=
  (history.drop (history.length + n - bound)).sum

/-- The tokens of the first of some spans, which the later ones have pushed out. -/
def pushedOut (bound : Nat) (ended : List Nat) : Nat := (ended.take (ended.length - bound)).sum

/-- What the history holds in the end is what it carried over and what was added, but for the
spans that were pushed out. -/
theorem Ends.sum {ended : List Nat} (h : Ends bound t t' ended) :
    t'.tokens.sum + pushedOut bound ended = carried bound t.tokens ended.length + ended.sum := by
  have hcut : t.tokens.length + ended.length - bound - t.tokens.length = ended.length - bound := by
    omega
  have hsplit : (ended.take (ended.length - bound)).sum + (ended.drop (ended.length - bound)).sum =
      ended.sum := by
    rw [← List.sum_append, List.take_append_drop]
  rw [h.tokens, List.drop_append, hcut, List.sum_append, carried, pushedOut]
  omega

/-- A span can be ended when there are open spans. -/
theorem ends_endSpan (hbound : t.config.maxSpans = bound) (hpos : 0 < bound) (span : TraceSpan)
    (status error : String) (hopen : t.stack ≠ []) :
    Ends bound t (t.endSpan span status error) [span.tokens] := by
  rw [endSpan, if_neg hopen]
  let popped : Tracer := { t with stack := t.stack.eraseP fun s => s.spanId = span.spanId }
  have hpush := ends_push (t := popped) hbound hpos { span with status, error }
  exact ⟨hpush.config, hpush.tokens⟩

/-- The span at the top of the stack is closed when it is ended. -/
theorem stack_endSpan {span span' : TraceSpan} {rest : List TraceSpan} (status error : String)
    (hstack : t.stack = span' :: rest) (hid : span'.spanId = span.spanId) :
    (t.endSpan span status error).stack = rest := by
  rw [endSpan, if_neg (by rw [hstack]; exact List.cons_ne_nil _ _), hstack]
  show (span' :: rest).eraseP (fun s => decide (s.spanId = span.spanId)) = rest
  rw [List.eraseP_cons, decide_eq_true hid, cond_true]

/-- The span of a call is not open when the call is over. -/
theorem stack_traceLlmCall (provider : String) (call : LlmCall) :
    (t.traceLlmCall provider call).stack = t.stack :=
  stack_endSpan (t := (t.startSpan _ _ _).2) _ _ rfl rfl

/-- A call of an LLM adds one span to the history, with its tokens. -/
theorem ends_traceLlmCall (hbound : t.config.maxSpans = bound) (hpos : 0 < bound)
    (provider : String) (call : LlmCall) :
    Ends bound t (t.traceLlmCall provider call) [call.tokens] := by
  have htokens : (t.startSpan ("llm." ++ provider) "llm" call.attributes).1.tokens = call.tokens :=
    attribute_tokens call _ rfl
  have hends := ends_endSpan (t := (t.startSpan ("llm." ++ provider) "llm" call.attributes).2)
    hbound hpos (t.startSpan ("llm." ++ provider) "llm" call.attributes).1
    (if call.error ≠ "" then "error" else "ok") call.error (List.cons_ne_nil _ _)
  rw [htokens] at hends
  exact ⟨hends.config, hends.tokens⟩

end Tracer

end Noema.Tracing
