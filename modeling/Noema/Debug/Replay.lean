import Noema.Lib.JsonCut
import Noema.Lib.PyInterp
import Noema.Tracing.Tracer

/-!
# Replay of recorded calls (`debug/replay.py`)

`trace_llm_call` records the messages of a call as a JSON text. The text is cut twice: to
`max_prompt_length` when it is stored, and to 500 characters when the span leaves the tracer
(`to_dict`). `replay_trace` decodes what is left; a text that is not JSON is taken for one message
of the user.

So a replay sends the recorded messages, or one message with the beginning of a JSON text. That a
text which was cut is never valid JSON of another list is a fact about JSON (`Lib.JsonCut`): a
proper prefix of a text that begins with a bracket does not parse.

- `keptText`, `Whole`: what the tracer gives out of the text of the messages, and that this is all
  of it. A negative bound counts from the end, as slices do, and always cuts (`whole_iff`).
- `messagesOf_keptText`: what is decoded of it.
- `callOf_recorded`: what a replay without overrides sends for a recorded call.
- **`sends_iff`**: a replay of the trace sends the recorded messages if and only if the span is
  still in the history, and the text of its messages was not cut, or the call is one message of the
  user that the tracer would give out of its own text (`SelfDescribing`).
- `not_sends_letters`, `letters_cut`: a message of many letters comes back as the broken text of its
  list.
-/

namespace Noema.Debug

open Noema.Lib PyJson

/-! ## The tracer (`tracing/tracer.py`) -/

/-- `TraceConfig`: what is recorded, and how much of it. -/
structure TraceConfig where
  tracePrompts : Bool := true
  traceResponses : Bool := true
  maxPromptLength : Int := 2000
  maxResponseLength : Int := 2000
  maxSpans : Int := 10000

/-- An event of a span. -/
structure SpanEvent where
  name : String
  attributes : List (String × String)

/-- `TraceSpan`. A value that is no text stands as `str` shows it, which is how it leaves the
tracer. -/
structure TraceSpan where
  spanId : Nat
  parentId : Option Nat
  traceId : String
  name : String
  kind : String
  attributes : List (String × String)
  events : List SpanEvent := []
  status : String := "ok"
  error : String := ""

/-- `xs[:n]`: a negative bound counts from the end. -/
def firstItems {α : Type} (n : Int) (xs : List α) : List α :=
  if 0 ≤ n then xs.take n.toNat else xs.take (xs.length - (-n).toNat)

/-- `s[:n]`. -/
def sliceTo (n : Int) (s : String) : String := String.ofList (firstItems n s.toList)

/-- `to_dict` (tracer.py:57). The dict has the fields of the span. -/
def TraceSpan.toDict (span : TraceSpan) : TraceSpan :=
  { span with
    attributes := span.attributes.map fun (k, v) => (k, sliceTo 500 v)
    events := Tracing.sliceLast 10 span.events
    error := if span.error ≠ "" then sliceTo 500 span.error else "" }

/-- A `Tracer`. The stack is listed from its top; `created` counts the spans, whose ids are
unique. -/
structure Tracer where
  config : TraceConfig
  traceId : String
  spans : List TraceSpan
  stack : List TraceSpan
  created : Nat

/-- `LLMMessage` -/
structure LLMMessage where
  role : String
  content : String
  deriving DecidableEq, Repr

/-- `m.model_dump()` -/
def LLMMessage.dump (m : LLMMessage) : PyVal FloatText :=
  .dict [("role", .str m.role), ("content", .str m.content)]

/-- `json.dumps(messages)` -/
def dumpMessages (messages : List LLMMessage) : List Char :=
  dumps true (.list (messages.map LLMMessage.dump) : PyVal FloatText)

/-- What `trace_llm_call` is called with. -/
structure LlmCall where
  provider : String
  model : String
  messages : List LLMMessage
  response : String
  tokensUsed : Int
  /-- `str(round(latency_ms, 1))` -/
  latency : String
  error : String := ""
  tokensInput : Option Int := none
  tokensOutput : Option Int := none

namespace Tracer

section Record

variable (redact : String → String)

/-- The attributes of the span of a call. -/
def callAttributes (config : TraceConfig) (call : LlmCall) : List (String × String) :=
  [("llm.provider", call.provider), ("llm.model", call.model),
    ("llm.tokens", toString call.tokensUsed), ("llm.latency_ms", call.latency)] ++
  (call.tokensInput.toList.map fun n => ("llm.tokens_input", toString n)) ++
  (call.tokensOutput.toList.map fun n => ("llm.tokens_output", toString n)) ++
  (if config.tracePrompts then
    [("llm.prompt",
      sliceTo config.maxPromptLength (redact (String.ofList (dumpMessages call.messages))))]
  else []) ++
  (if config.traceResponses ∧ call.error = "" then
    [("llm.response", sliceTo config.maxResponseLength (redact call.response))]
  else [])

/-- `start_span` (tracer.py:182). -/
def startSpan (t : Tracer) (name kind : String) (attributes : List (String × String)) :
    TraceSpan × Tracer :=
  let span : TraceSpan :=
    { spanId := t.created, parentId := t.stack.head?.map TraceSpan.spanId, traceId := t.traceId,
      name, kind, attributes }
  (span, { t with stack := span :: t.stack, created := t.created + 1 })

/-- The history with one more span, cut to its bound. -/
def push (t : Tracer) (span : TraceSpan) : Tracer :=
  let spans := t.spans ++ [span]
  { t with
    spans := if t.config.maxSpans < spans.length then
        Tracing.sliceLast t.config.maxSpans spans
      else spans }

/-- `end_span` (tracer.py:205) with a span. Without open spans nothing happens. -/
def endSpan (t : Tracer) (span : TraceSpan) (status error : String) : Tracer :=
  if t.stack.isEmpty then t
  else
    { t with stack := t.stack.eraseP fun s => s.spanId = span.spanId }.push
      { span with status, error }

/-- `trace_llm_call` (tracer.py:234). The span that is returned is the one that has ended. -/
def traceLlmCall (t : Tracer) (call : LlmCall) : TraceSpan × Tracer :=
  let (span, t) := t.startSpan ("llm." ++ call.provider) "llm" (callAttributes redact t.config call)
  let status := if call.error ≠ "" then "error" else "ok"
  ({ span with status, error := call.error }, t.endSpan span status call.error)

end Record

/-- `get_trace` (tracer.py:269). -/
def getTrace (t : Tracer) : List TraceSpan := t.spans.map TraceSpan.toDict

end Tracer

/-! ## The replay -/

/-- `overrides` -/
structure Overrides where
  provider : Option String := none
  model : Option String := none
  temperature : Option ℚ := none
  maxTokens : Option Int := none

/-- A call of `complete`, on the provider that `create_llm_provider(provider, model)` makes. -/
structure ProviderCall where
  provider : String
  model : String
  messages : List LLMMessage
  temperature : ℚ
  maxTokens : Int

/-- A call, and the span that it was made for. -/
structure Sent where
  span : TraceSpan
  call : ProviderCall

/-- `ReplayStepDiff` -/
structure ReplayStepDiff where
  stepName : String
  originalPreview : String
  newPreview : String
  identical : Bool

/-- `ReplayResult` -/
structure ReplayResult where
  traceId : String
  originalSteps : Nat := 0
  newSteps : Nat := 0
  diffs : List ReplayStepDiff := []
  error : String := ""

/-- `attrs.get(key, "")` -/
def TraceSpan.attribute (span : TraceSpan) (key : String) : String :=
  (span.attributes.lookup key).getD ""

/-- The messages of a recorded text: of its JSON value, or else one message of the user. -/
def messagesData (raw : String) : PyVal FloatText :=
  match loads raw.toList with
  | some data => data
  | none => .list [.dict [("role", .str "user"), ("content", .str raw)]]

/-- `LLMMessage(role=m.get("role", "user"), content=m.get("content", ""))` -/
def messageOf (m : PyVal FloatText) : Except PyExc LLMMessage := do
  let role ← m.getKey "role" (.str "user")
  let content ← m.getKey "content" (.str "")
  return ⟨← role.asStr, ← content.asStr⟩

/-- `messages` -/
def messagesOf (raw : String) : Except PyExc (List LLMMessage) := do
  let items ← (messagesData raw).iter
  items.mapM messageOf

/-- The call for a span. -/
def callOf (overrides : Overrides) (span : TraceSpan) : Except PyExc ProviderCall := do
  let messages ← messagesOf (span.attribute "llm.prompt")
  return {
    provider := overrides.provider.getD (span.attribute "llm.provider")
    model := overrides.model.getD (span.attribute "llm.model")
    messages
    temperature := overrides.temperature.getD (3 / 10)
    maxTokens := overrides.maxTokens.getD 2048 }

/-- `f"[ERROR: {e}]"` -/
def errorPreview (e : PyExc) : String := "[ERROR: " ++ e.msg ++ "]"

/-- The difference between the recorded answer and a new one. -/
def stepDiff (span : TraceSpan) (newPreview : String) : ReplayStepDiff :=
  let original := span.attribute "llm.response"
  let originalPreview := if original ≠ "" then sliceTo 200 original else "(no response)"
  { stepName := span.name, originalPreview, newPreview, identical := originalPreview == newPreview }

/-- What a replay has done. -/
structure Progress where
  diffs : List ReplayStepDiff := []
  sent : List Sent := []

section Replay

/- The content of an answer may depend on all calls before it. -/
variable (complete : List Sent → ProviderCall → Except PyExc String) (overrides : Overrides)

/-- The turn of the loop for a span. -/
def replaySpan (p : Progress) (span : TraceSpan) : Progress :=
  match callOf overrides span with
  | .error e => { p with diffs := p.diffs ++ [stepDiff span (errorPreview e)] }
  | .ok call =>
    let newPreview := match complete p.sent call with
      | .ok content => sliceTo 200 content
      | .error e => errorPreview e
    { diffs := p.diffs ++ [stepDiff span newPreview], sent := p.sent ++ [⟨span, call⟩] }

/-- The spans of the trace with this id carry it as a key or as an attribute. -/
def ofTrace (traceId : String) (span : TraceSpan) : Bool :=
  span.traceId = traceId ∨ span.attributes.lookup "trace_id" = some traceId

/-- `llm_spans` -/
def llmSpans (t : Tracer) (traceId : String) : List TraceSpan :=
  let llmSpans := t.getTrace.filter fun s => s.kind = "llm"
  if traceId = "" then llmSpans else llmSpans.filter (ofTrace traceId)

/-- `replay_trace` (replay.py:44), with the calls that it makes. -/
def replayTrace (t : Tracer) (traceId : String) : ReplayResult × List Sent :=
  let spans := llmSpans t traceId
  if t.getTrace.isEmpty then ({ traceId, error := "No trace data available" }, [])
  else if traceId ≠ "" ∧ spans.isEmpty then
    ({ traceId, error := "No LLM spans found for trace " ++ traceId }, [])
  else
    let p := spans.foldl (replaySpan complete overrides) {}
    ({ traceId, originalSteps := spans.length, newSteps := p.diffs.length, diffs := p.diffs },
      p.sent)

end Replay

/-! ## What is left of a recorded text -/

/-- How many of the first `n` characters of a text the tracer gives out. -/
def TraceConfig.kept (config : TraceConfig) (n : Nat) : Nat :=
  min 500 (if 0 ≤ config.maxPromptLength then config.maxPromptLength.toNat
    else n - (-config.maxPromptLength).toNat)

/-- The text of the messages is in both bounds. -/
def Whole (config : TraceConfig) (messages : List LLMMessage) : Prop :=
  (dumpMessages messages).length ≤ 500 ∧
    ((dumpMessages messages).length : Int) ≤ config.maxPromptLength

/-- What the tracer gives out of the text of the messages. -/
def keptText (config : TraceConfig) (messages : List LLMMessage) : List Char :=
  (dumpMessages messages).take (config.kept (dumpMessages messages).length)

theorem firstItems_eq_take {α : Type} (n : Int) (xs : List α) :
    firstItems n xs = xs.take (if 0 ≤ n then n.toNat else xs.length - (-n).toNat) := by
  rw [firstItems]
  split_ifs
  · rfl
  · rfl

theorem sliceTo_sliceTo (config : TraceConfig) (cs : List Char) :
    sliceTo 500 (sliceTo config.maxPromptLength (String.ofList cs)) =
      String.ofList (cs.take (config.kept cs.length)) := by
  rw [sliceTo, sliceTo, String.toList_ofList, String.toList_ofList, firstItems_eq_take,
    firstItems_eq_take, List.take_take]
  rfl

theorem dumpMessages_ne_nil (messages : List LLMMessage) : dumpMessages messages ≠ [] := by
  cases messages with
  | nil => exact List.cons_ne_nil _ _
  | cons m messages => exact List.cons_ne_nil _ _

/-- A negative bound always cuts the text. -/
theorem whole_iff (config : TraceConfig) (messages : List LLMMessage) :
    Whole config messages ↔
      (dumpMessages messages).length ≤ config.kept (dumpMessages messages).length := by
  have hpos := List.length_pos_of_ne_nil (dumpMessages_ne_nil messages)
  rw [Whole, TraceConfig.kept]
  split_ifs
  all_goals omega

theorem keptText_of_whole {config : TraceConfig} {messages : List LLMMessage}
    (h : Whole config messages) : keptText config messages = dumpMessages messages :=
  List.take_of_length_le ((whole_iff config messages).mp h)

/-! ## What is decoded -/

theorem wfItems_dump (messages : List LLMMessage) : wfItems (messages.map LLMMessage.dump) := by
  induction messages with
  | nil => trivial
  | cons m messages ih =>
    refine ⟨⟨?_, trivial, trivial, trivial⟩, ih⟩
    simp

theorem wf_messages (messages : List LLMMessage) :
    (PyVal.list (messages.map LLMMessage.dump)).WF := by
  rw [PyVal.WF]
  exact wfItems_dump messages

theorem plainItems_dump (messages : List LLMMessage) :
    plainItems (messages.map LLMMessage.dump) = messages.map LLMMessage.dump := by
  induction messages with
  | nil => rfl
  | cons m messages ih =>
    rw [List.map_cons, plainItems, ih]
    rfl

theorem messageOf_dump (m : LLMMessage) : messageOf m.dump = .ok m := by
  simp [messageOf, LLMMessage.dump, PyVal.getKey, getOr, PyVal.asStr, List.lookup, bind,
    Except.bind, pure, Except.pure]

theorem mapM_messageOf_dump (messages : List LLMMessage) :
    (messages.map LLMMessage.dump).mapM messageOf = .ok messages := by
  induction messages with
  | nil => rfl
  | cons m messages ih =>
    rw [List.map_cons, List.mapM_cons, messageOf_dump, ih]
    rfl

/-- The decoder reads what was recorded. -/
theorem messagesOf_dumpMessages (messages : List LLMMessage) :
    messagesOf (String.ofList (dumpMessages messages)) = .ok messages := by
  have hloads : (loads (dumpMessages messages) : Option (PyVal FloatText)) =
      some (.list (messages.map LLMMessage.dump)) := by
    rw [dumpMessages, loads_dumps true (wf_messages messages), PyVal.plain, plainItems_dump]
  rw [messagesOf, messagesData, String.toList_ofList, hloads]
  exact mapM_messageOf_dump messages

/-- A text that was cut is taken for a message of the user. -/
theorem messagesOf_cut {messages : List LLMMessage} {front back : List Char}
    (hcut : dumpMessages messages = front ++ back) (hback : back ≠ []) :
    messagesOf (String.ofList front) = .ok [⟨"user", String.ofList front⟩] := by
  have hloads : (loads front : Option (PyVal FloatText)) = none :=
    loads_cut true (wf_messages messages) trivial hcut hback
  rw [messagesOf, messagesData, String.toList_ofList, hloads]
  exact mapM_messageOf_dump [⟨"user", String.ofList front⟩]

/-- What is decoded of the text of the messages. -/
theorem messagesOf_keptText (config : TraceConfig) (messages : List LLMMessage)
    [Decidable (Whole config messages)] :
    messagesOf (String.ofList (keptText config messages)) =
      .ok (if Whole config messages then messages
        else [⟨"user", String.ofList (keptText config messages)⟩]) := by
  split_ifs with h
  · rw [keptText_of_whole h, messagesOf_dumpMessages]
  · rw [whole_iff, not_le] at h
    refine messagesOf_cut (List.take_append_drop _ _).symm fun hnil => ?_
    have hlength := List.length_eq_zero_iff.mpr hnil
    rw [List.length_drop] at hlength
    omega

/-! ## What is sent -/

section Sent

variable (complete : List Sent → ProviderCall → Except PyExc String) (overrides : Overrides)

theorem mem_sent_foldl (spans : List TraceSpan) (p : Progress) (s : Sent) :
    s ∈ (spans.foldl (replaySpan complete overrides) p).sent ↔
      s ∈ p.sent ∨ (s.span ∈ spans ∧ callOf overrides s.span = .ok s.call) := by
  induction spans generalizing p with
  | nil => simp
  | cons span spans ih =>
    rw [List.foldl_cons, ih, replaySpan]
    cases hcall : callOf overrides span with
    | error e =>
      have hne : s.span = span → callOf overrides s.span ≠ .ok s.call := by
        intro hs hok
        rw [hs, hcall] at hok
        cases hok
      dsimp only
      grind
    | ok call =>
      obtain ⟨span', call'⟩ := s
      have hone : (span' = span ∧ call' = call) ↔
          span' = span ∧ callOf overrides span' = .ok call' := by
        refine and_congr_right fun hs => ?_
        rw [hs, hcall, Except.ok.injEq]
        exact eq_comm
      simp only [List.mem_append, Sent.mk.injEq, List.mem_cons, hone]
      grind

theorem mem_llmSpans (t : Tracer) (traceId : String) (span : TraceSpan) :
    span ∈ llmSpans t traceId ↔ span ∈ t.getTrace ∧ span.kind = "llm" ∧
      (traceId = "" ∨ ofTrace traceId span = true) := by
  rw [llmSpans]
  split_ifs with hid
  · simp [hid]
  · simp [hid, and_comm]

/-- A replay makes a call for each of its spans that has messages. -/
theorem mem_replayTrace (t : Tracer) (traceId : String) (s : Sent) :
    s ∈ (replayTrace complete overrides t traceId).2 ↔
      s.span ∈ llmSpans t traceId ∧ callOf overrides s.span = .ok s.call := by
  rw [replayTrace]
  dsimp only
  split_ifs with htrace hspans
  · have hnot : s.span ∉ llmSpans t traceId := by
      rw [mem_llmSpans, List.isEmpty_iff.mp htrace]
      simp
    simp [hnot]
  · simp [List.isEmpty_iff.mp hspans.2]
  · rw [mem_sent_foldl]
    simp

end Sent

/-! ## The result -/

section Recorded

variable {redact : String → String} {t : Tracer} {call : LlmCall}
  (hprompts : t.config.tracePrompts = true)
  (hredact : redact (String.ofList (dumpMessages call.messages)) =
    String.ofList (dumpMessages call.messages))

include hprompts hredact

/-- The prompt of a span that has left the tracer, when the redactor changes nothing. -/
theorem attribute_prompt :
    (t.traceLlmCall redact call).1.toDict.attribute "llm.prompt" =
      String.ofList (keptText t.config call.messages) := by
  have hlookup : (Tracer.callAttributes redact t.config call).lookup "llm.prompt" =
      some (sliceTo t.config.maxPromptLength (String.ofList (dumpMessages call.messages))) := by
    rw [Tracer.callAttributes, if_pos hprompts, hredact]
    cases call.tokensInput
    all_goals cases call.tokensOutput
    all_goals simp [List.lookup]
  rw [TraceSpan.attribute]
  show (((Tracer.callAttributes redact t.config call).map fun p => (p.1, sliceTo 500 p.2)).lookup
    "llm.prompt").getD "" = _
  rw [lookup_mapValues, hlookup, Option.map_some, Option.getD_some, sliceTo_sliceTo]
  rfl

/-- What a replay without overrides sends for a recorded call. -/
theorem callOf_recorded [Decidable (Whole t.config call.messages)] :
    (callOf {} (t.traceLlmCall redact call).1.toDict).map ProviderCall.messages =
      .ok (if Whole t.config call.messages then call.messages
        else [⟨"user", String.ofList (keptText t.config call.messages)⟩]) := by
  rw [callOf, attribute_prompt hprompts hredact, messagesOf_keptText]
  rfl

end Recorded

/-- The messages of all calls for a span are these, and there is such a call. -/
def Sends (sent : List Sent) (span : TraceSpan) (messages : List LLMMessage) : Prop :=
  (∃ s ∈ sent, s.span = span) ∧ ∀ s ∈ sent, s.span = span → s.call.messages = messages

/-- One message of the user, which is what the tracer gives out of its own text. -/
def SelfDescribing (config : TraceConfig) (messages : List LLMMessage) : Prop :=
  messages = [⟨"user", String.ofList (keptText config messages)⟩]

/-- A replay makes one call for a span, and its messages are those of the span. -/
theorem sends_of_callOf {complete : List Sent → ProviderCall → Except PyExc String}
    {overrides : Overrides} {t : Tracer} {traceId : String} {span : TraceSpan}
    {messages expected : List LLMMessage}
    (hcall : (callOf overrides span).map ProviderCall.messages = .ok messages) :
    Sends (replayTrace complete overrides t traceId).2 span expected ↔
      span ∈ llmSpans t traceId ∧ messages = expected := by
  obtain ⟨call, hok, rfl⟩ : ∃ call, callOf overrides span = .ok call ∧ call.messages = messages := by
    cases hok : callOf overrides span with
    | error e =>
      rw [hok] at hcall
      cases hcall
    | ok call =>
      rw [hok] at hcall
      exact ⟨call, rfl, Except.ok.inj hcall⟩
  constructor
  · rintro ⟨⟨s, hs, rfl⟩, hall⟩
    have hmem := ((mem_replayTrace complete overrides t traceId s).mp hs).1
    exact ⟨hmem, hall ⟨s.span, call⟩ ((mem_replayTrace ..).mpr ⟨hmem, hok⟩) rfl⟩
  · rintro ⟨hmem, rfl⟩
    refine ⟨⟨⟨span, call⟩, (mem_replayTrace ..).mpr ⟨hmem, hok⟩, rfl⟩, ?_⟩
    rintro s hs rfl
    have hs := ((mem_replayTrace complete overrides t traceId s).mp hs).2
    rw [Except.ok.inj (hok.symm.trans hs)]

/-- The span of a call is one of those that a replay of its trace is about. -/
theorem mem_llmSpans_recorded (redact : String → String) (t t' : Tracer) (call : LlmCall)
    {traceId : String} (hid : traceId = "" ∨ traceId = t.traceId) :
    (t.traceLlmCall redact call).1.toDict ∈ llmSpans t' traceId ↔
      (t.traceLlmCall redact call).1.toDict ∈ t'.getTrace := by
  rw [mem_llmSpans]
  refine and_iff_left ⟨rfl, hid.imp_right ?_⟩
  rintro rfl
  exact decide_eq_true (.inl rfl)

theorem mem_sliceLast {α : Type} {n : Int} (h : 0 ≤ n) (xs : List α) (x : α) :
    x ∈ Tracing.sliceLast n (xs ++ [x]) := by
  rw [Tracing.sliceLast]
  split_ifs with hpos
  · rw [List.drop_append_of_le_length (by rw [List.length_append, List.length_singleton]; omega)]
    exact List.mem_append_right _ (List.mem_singleton_self x)
  · obtain rfl : n = 0 := by omega
    exact List.mem_append_right _ (List.mem_singleton_self x)

/-- A call is in the trace once it is recorded, unless the bound of the history is negative. -/
theorem mem_getTrace_recorded (redact : String → String) (t : Tracer) (call : LlmCall)
    (h : 0 ≤ t.config.maxSpans) :
    (t.traceLlmCall redact call).1.toDict ∈ (t.traceLlmCall redact call).2.getTrace := by
  refine List.mem_map_of_mem ?_
  show _ ∈ (if t.config.maxSpans < ((t.spans ++ [(t.traceLlmCall redact call).1]).length : Int) then
    Tracing.sliceLast t.config.maxSpans (t.spans ++ [(t.traceLlmCall redact call).1])
    else t.spans ++ [(t.traceLlmCall redact call).1])
  split_ifs
  · exact mem_sliceLast h _ _
  · exact List.mem_append_right _ (List.mem_singleton_self _)

/-- A replay sends the recorded messages if and only if the span is still there and their text was
not cut, or is one message of the user that says the same. The call may have any messages, and the
tracer any bounds and any other spans. -/
theorem sends_iff (redact : String → String)
    (complete : List Sent → ProviderCall → Except PyExc String) (t t' : Tracer) (call : LlmCall)
    (traceId : String) (hprompts : t.config.tracePrompts = true)
    (hredact : redact (String.ofList (dumpMessages call.messages)) =
      String.ofList (dumpMessages call.messages))
    (hid : traceId = "" ∨ traceId = t.traceId) :
    Sends (replayTrace complete {} t' traceId).2 (t.traceLlmCall redact call).1.toDict
        call.messages ↔
      (t.traceLlmCall redact call).1.toDict ∈ t'.getTrace ∧
        (Whole t.config call.messages ∨ SelfDescribing t.config call.messages) := by
  classical
  rw [sends_of_callOf (callOf_recorded hprompts hredact), mem_llmSpans_recorded redact t t' call hid]
  refine and_congr_right fun _ => ?_
  rw [SelfDescribing]
  split_ifs with h
  · simp [h]
  · simp [h, eq_comm]

/-- The length of the text of one message of the user. -/
theorem length_dumpMessages_user (content : String) :
    (dumpMessages [⟨"user", content⟩]).length =
      33 + (content.toList.flatMap (escapeChar true)).length := by
  have hrole : (dumpsStr true "role").length = 6 := by decide
  have hcontent : (dumpsStr true "content").length = 9 := by decide
  have huser : (dumpsStr true "user").length = 6 := by decide
  simp only [dumpMessages, LLMMessage.dump, List.map_cons, List.map_nil, dumps, dumpsItems,
    dumpsPairs, List.length_cons, List.length_append, List.length_nil, hrole, hcontent, huser]
  rw [dumpsStr, List.length_append, List.length_cons, List.length_singleton]
  omega

/-- A tracer that has recorded nothing. -/
def freshTracer : Tracer := ⟨{}, "trace", [], [], 0⟩

/-- A call with one message of the user. -/
def userCall (content : String) : LlmCall :=
  { provider := "openai", model := "gpt-4o", messages := [⟨"user", content⟩], response := "yes",
    tokensUsed := 1, latency := "0.5" }

theorem length_letters (n : Nat) :
    (dumpMessages (userCall (String.ofList (List.replicate n 'a'))).messages).length = 33 + n := by
  have hletter : escapeChar true 'a' = ['a'] := by decide
  rw [userCall, length_dumpMessages_user, String.toList_ofList, List.flatMap_replicate, hletter]
  simp

theorem sends_iff_hello :
    Sends (replayTrace (fun _ _ => .ok "yes") {} (freshTracer.traceLlmCall id (userCall "hello")).2
      "trace").2 (freshTracer.traceLlmCall id (userCall "hello")).1.toDict [⟨"user", "hello"⟩] := by
  have hlength : (dumpMessages [⟨"user", "hello"⟩]).length = 38 := by
    rw [length_dumpMessages_user]
    decide
  refine (sends_iff id (fun _ _ => .ok "yes") freshTracer _ (userCall "hello") "trace" rfl rfl
    (.inr rfl)).mpr ⟨mem_getTrace_recorded id freshTracer _ (by decide), .inl ⟨?_, ?_⟩⟩
  · exact hlength.trans_le (by decide)
  · exact (congrArg Nat.cast hlength).trans_le (by decide)

/-- A message of many letters comes back as the broken text of its list. -/
theorem not_sends_letters {n : Nat} (hn : 468 ≤ n) :
    ¬ Sends (replayTrace (fun _ _ => .ok "yes") {}
      (freshTracer.traceLlmCall id (userCall (String.ofList (List.replicate n 'a')))).2 "trace").2
      (freshTracer.traceLlmCall id (userCall (String.ofList (List.replicate n 'a')))).1.toDict
      [⟨"user", String.ofList (List.replicate n 'a')⟩] := by
  classical
  have hlong : ¬ Whole freshTracer.config
      (userCall (String.ofList (List.replicate n 'a'))).messages := by
    rintro ⟨hshort, -⟩
    rw [length_letters] at hshort
    omega
  rw [sends_of_callOf (callOf_recorded rfl rfl), if_neg hlong]
  rintro ⟨-, hsame⟩
  have htext := congrArg String.toList (congrArg LLMMessage.content (List.cons.inj hsame).1)
  rw [String.toList_ofList, String.toList_ofList] at htext
  obtain ⟨k, rfl⟩ := Nat.exists_eq_add_of_le' hn
  rw [List.replicate_succ] at htext
  cases htext

/-- One of 500 letters does. -/
theorem letters_cut :
    ¬ Sends (replayTrace (fun _ _ => .ok "yes") {}
      (freshTracer.traceLlmCall id (userCall (String.ofList (List.replicate 500 'a')))).2 "trace").2
      (freshTracer.traceLlmCall id (userCall (String.ofList (List.replicate 500 'a')))).1.toDict
      [⟨"user", String.ofList (List.replicate 500 'a')⟩] :=
  not_sends_letters (by decide)

end Noema.Debug
