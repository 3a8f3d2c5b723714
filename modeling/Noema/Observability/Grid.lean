import Noema.Lib.PyNumber
import Noema.Lib.PyText

/-!
# The grid dashboard (`observability/grid.py`)

`snapshot` makes one row for each heartbeat record, from its metrics endpoint, and adds the rows up.
A failure of the endpoint is in its row. The fields of the record and the values of the samples are
converted to integers where nothing catches an exception (grid.py:221), and an exception in one view
is one of the whole snapshot.

- `parseExpositionLines`, `parseExposition`: the samples of an endpoint, with or without
  `prometheus_client`.
- `foldRequests`, `foldSamples`: the numbers of a row. `foldRequests_of_ok` says what is counted
  when all samples are numbers that can be truncated.
- `viewOf`, `toDict`: a view, and its row. `toDict_ok_iff`: only the rate of errors can fail there.
- `CountsOk`, `NodeOk`: the condition on a record and the answer of its endpoint: the fields are
  integers, and so are the counts.
- **`snapshot_iff`**: there is a snapshot with one row for each record, in their order, and with the
  totals of the rows, if and only if all nodes are ok.
- `badNode_spoils`: a heartbeat in the ISO format takes the whole grid down.
-/

namespace Noema.Observability

open Noema.Lib PyJson

/-- Arithmetic of floats, for the dashboard. -/
class GridFloat (F : Type) extends PyNumber F where
  add : F → F → F
  /-- `f / g`, where `g` is not 0. -/
  div : F → F → F
  /-- `i / j`, where `j` is not 0, which may overflow. -/
  divInt : Int → Int → Except PyExc F
  /-- `round(f, digits)` -/
  round : F → Nat → F
  /-- `sum` of floats -/
  sum : List F → F

variable {F : Type} [GridFloat F]

/-! ## The exposition format -/

/-- A sample, with the last value of each label first. -/
structure Sample (F : Type) where
  name : String
  labels : List (String × String)
  value : F

/-- `samples.get(name, [])` -/
def samplesOf (samples : List (Sample F)) (name : String) : List (Sample F) :=
  samples.filter fun s => s.name = name

/-- `text.split('",')`, from a position inside a chunk whose beginning, reversed, is `cur`. -/
def splitChunks (cur : List Char) : List Char → List (List Char)
  | [] => [cur.reverse]
  | '"' :: ',' :: cs => cur.reverse :: splitChunks [] cs
  | c :: cs => splitChunks (c :: cur) cs

/-- `text.strip('"')` -/
def stripQuotes (text : List Char) : List Char :=
  ((text.dropWhile (· = '"')).reverse.dropWhile (· = '"')).reverse

/-- The labels of `key="value",...`. -/
def parseLabels (blob : List Char) : List (String × String) :=
  (splitChunks [] blob).foldl (fun labels chunk =>
    if '=' ∈ chunk then
      let (key, raw) := partitionAt '=' chunk
      (String.ofList (strip key), String.ofList (stripQuotes (strip raw))) :: labels
    else labels) []

/-- A line of `_parse_exposition_lines` (grid.py:84), if it is a sample. -/
def parseLine (line : List Char) : Option (Sample F) :=
  let line := strip line
  if line.head? = some '#' then none
  else
    match splitWords line with
    | name :: token :: _ =>
      let (name, labels) :=
        if '{' ∈ name ∧ name.getLast? = some '}' then
          let (name, blob) := partitionAt '{' name
          (name, parseLabels blob.dropLast)
        else (name, [])
      (PyInterp.ofStr token).map fun value => ⟨String.ofList name, labels, value⟩
    | _ => none

/-- `_parse_exposition_lines`. -/
def parseExpositionLines (text : String) : List (Sample F) :=
  (splitLinesFrom [] text.toList).filterMap parseLine

/-- The parser of `prometheus_client`, if it is installed. -/
abbrev PrometheusParser (F : Type) := Option (String → Except PyExc (List (Sample F)))

/-- `parse_exposition` (grid.py:58). -/
def parseExposition (parser : PrometheusParser F) (text : String) : List (Sample F) :=
  match parser with
  | some parse =>
    match parse text with
    | .ok samples => samples
    | .error _ => parseExpositionLines text
  | none => parseExpositionLines text

/-! ## Rows -/

/-- A heartbeat record. -/
abbrev HeartbeatRecord := List (String × String)

/-- What the endpoint of a node answers, and after how many milliseconds, rounded. -/
structure Scrape (F : Type) where
  answer : Except PyExc String
  ms : F

/-- `NodeView`. -/
structure NodeView (F : Type) where
  nodeId : String
  address : String
  metricsPort : Int
  draining : Bool
  lastHeartbeat : Int
  reachable : Bool
  error : String
  httpRequests : Int
  httpErrors : Int
  llmTokens : F
  llmCalls : F
  llmLatencySum : F
  scrapeMs : F

/-- A row of the snapshot. -/
structure GridRow (F : Type) where
  nodeId : String
  address : String
  metricsPort : Int
  metricsUrl : String
  draining : Bool
  lastHeartbeat : Int
  reachable : Bool
  error : String
  httpRequests : Int
  httpErrors : Int
  errorRate : F
  llmTokens : F
  llmCalls : F
  llmLatencyAvgMs : F
  scrapeMs : F

/-- `http://address:port/metrics` -/
def metricsUrl (address : String) (port : Int) : String :=
  "http://" ++ address ++ ":" ++ toString port ++ "/metrics"

namespace NodeView

variable (view : NodeView F)

/-- `error_rate`. -/
def errorRate : Except PyExc F :=
  if view.httpRequests ≠ 0 then do
    let rate ← GridFloat.divInt view.httpErrors view.httpRequests
    return GridFloat.round rate 4
  else .ok zeroFloat

/-- `llm_latency_avg_ms`. -/
def llmLatencyAvgMs : F :=
  if (PyVal.float view.llmCalls).truthy then
    GridFloat.round (PyInterp.mul (GridFloat.div view.llmLatencySum view.llmCalls)
      (PyFloat.ofText ['1', '0', '0', '0', '.', '0'])) 1
  else zeroFloat

/-- `to_dict`. -/
def toDict : Except PyExc (GridRow F) := do
  let errorRate ← view.errorRate
  return {
    nodeId := view.nodeId, address := view.address, metricsPort := view.metricsPort
    metricsUrl := if view.metricsPort ≠ 0 then Observability.metricsUrl view.address view.metricsPort else ""
    draining := view.draining, lastHeartbeat := view.lastHeartbeat, reachable := view.reachable
    error := view.error, httpRequests := view.httpRequests, httpErrors := view.httpErrors
    errorRate, llmTokens := view.llmTokens, llmCalls := view.llmCalls
    llmLatencyAvgMs := view.llmLatencyAvgMs, scrapeMs := view.scrapeMs }

end NodeView

/-- The request has failed: `status.startswith(("4", "5"))`. -/
def Sample.isError (sample : Sample F) : Bool :=
  let status := (sample.labels.lookup "status").getD ""
  startsWith status "4" || startsWith status "5"

/-- The first loop of `_fold_samples`. -/
def foldRequests (view : NodeView F) (samples : List (Sample F)) : Except PyExc (NodeView F) :=
  samples.foldlM (fun view sample => do
    let n ← PyNumber.truncate sample.value
    return {
      view with
      httpRequests := view.httpRequests + n
      httpErrors := if sample.isError then view.httpErrors + n else view.httpErrors }) view

/-- The other loops add up the values of some samples. -/
def addValues (samples : List (Sample F)) (name : String) (start : F) : F :=
  (samplesOf samples name).foldl (fun f sample => GridFloat.add f sample.value) start

/-- `_fold_samples` (grid.py:243). -/
def foldSamples (view : NodeView F) (samples : List (Sample F)) : Except PyExc (NodeView F) := do
  let view ← foldRequests view (samplesOf samples "noema_http_requests_total")
  return {
    view with
    llmTokens := addValues samples "noema_llm_tokens_total" view.llmTokens
    llmCalls := addValues samples "noema_llm_request_duration_seconds_count" view.llmCalls
    llmLatencySum := addValues samples "noema_llm_request_duration_seconds_sum" view.llmLatencySum }

/-- `int(node.get(key, "0") or 0)` -/
def intField (F : Type) [GridFloat F] (node : HeartbeatRecord) (key : String) : Except PyExc Int :=
  let text := (node.lookup key).getD "0"
  if text = "" then .ok 0 else (PyVal.str text : PyVal F).pyInt

/-- The part of `_view` before the endpoint is called (grid.py:219). -/
def newView (node : HeartbeatRecord) : Except PyExc (NodeView F) := do
  let lastHeartbeat ← intField F node "last_heartbeat"
  let metricsPort ← intField F node "metrics_port"
  return {
    nodeId := (node.lookup "node_id").getD "", address := (node.lookup "hostname").getD ""
    metricsPort, draining := node.lookup "draining" = some "1", lastHeartbeat
    reachable := false, error := "", httpRequests := 0, httpErrors := 0, llmTokens := zeroFloat
    llmCalls := zeroFloat, llmLatencySum := zeroFloat, scrapeMs := zeroFloat }

/-- `_view`. -/
def viewOf (parser : PrometheusParser F) (node : HeartbeatRecord) (scrape : Scrape F) :
    Except PyExc (NodeView F) := do
  let view ← newView node
  if view.address = "" ∨ view.metricsPort = 0 then
    return { view with error := "no metrics endpoint advertised" }
  else
    match scrape.answer with
    | .error e => return { view with error := e.typeName ++ ": " ++ e.msg, scrapeMs := scrape.ms }
    | .ok text =>
      foldSamples { view with scrapeMs := scrape.ms, reachable := true } (parseExposition parser text)

/-! ## Snapshots -/

/-- The totals of a snapshot. The sum of no floats is an integer. -/
structure GridTotals (F : Type) where
  nodesTotal : Nat
  nodesReachable : Nat
  nodesDraining : Nat
  httpRequests : Int
  httpErrors : Int
  llmTokens : PyVal F
  llmCalls : PyVal F

/-- A snapshot. -/
structure GridSnapshot (F : Type) where
  generatedAt : F
  nodes : List (GridRow F)
  totals : GridTotals F

/-- `sum(...)` of floats. -/
def sumFloats (fs : List F) : PyVal F :=
  match fs with
  | [] => .int 0
  | fs => .float (GridFloat.sum fs)

/-- `snapshot` (grid.py:188), with the answer of the endpoint of each node. The views are made at
the same time, each on its own; when some of them raise, one of the exceptions is raised. -/
def snapshot (parser : PrometheusParser F) (now : F) (nodes : List (HeartbeatRecord × Scrape F)) :
    Except PyExc (GridSnapshot F) := do
  let views ← nodes.mapM fun node => viewOf parser node.1 node.2
  let rows ← views.mapM NodeView.toDict
  let reachable := views.filter NodeView.reachable
  return {
    generatedAt := now
    nodes := rows
    totals := {
      nodesTotal := views.length
      nodesReachable := reachable.length
      nodesDraining := (views.filter NodeView.draining).length
      httpRequests := (reachable.map NodeView.httpRequests).sum
      httpErrors := (reachable.map NodeView.httpErrors).sum
      llmTokens := sumFloats (reachable.map NodeView.llmTokens)
      llmCalls := sumFloats (reachable.map NodeView.llmCalls) } }

/-! ## Nodes that can be shown -/

/-- The row of a node. -/
def rowOf (parser : PrometheusParser F) (node : HeartbeatRecord) (scrape : Scrape F) :
    Except PyExc (GridRow F) := do
  let view ← viewOf parser node scrape
  view.toDict

/-- The number of requests of a sample, if it is a number. -/
def countOf (sample : Sample F) : Int := (PyNumber.truncate sample.value).toOption.getD 0

/-- The requests of some samples. -/
def requestsOf (samples : List (Sample F)) : Int := (samples.map countOf).sum

/-- The samples of the requests can be counted, and the rate of errors is a float. -/
structure CountsOk (samples : List (Sample F)) : Prop where
  finite : ∀ sample ∈ samples, ∃ n, PyNumber.truncate sample.value = .ok n
  rate : requestsOf samples ≠ 0 →
    ∃ f : F, GridFloat.divInt (requestsOf (samples.filter Sample.isError)) (requestsOf samples) = .ok f

/-- The condition on a record and the answer of its endpoint. -/
structure NodeOk (parser : PrometheusParser F) (node : HeartbeatRecord) (scrape : Scrape F) :
    Prop where
  lastHeartbeat : ∃ n, intField F node "last_heartbeat" = .ok n
  metricsPort : ∃ n, intField F node "metrics_port" = .ok n
  samples : ∀ text, scrape.answer = .ok text → (node.lookup "hostname").getD "" ≠ "" →
    intField F node "metrics_port" ≠ .ok 0 →
    CountsOk (samplesOf (parseExposition parser text) "noema_http_requests_total")

/-- What a snapshot shows: the rows of the nodes in their order, and the totals of the rows. -/
structure Shows (parser : PrometheusParser F) (nodes : List (HeartbeatRecord × Scrape F))
    (snap : GridSnapshot F) : Prop where
  rows : List.Forall₂ (fun node row => rowOf parser node.1 node.2 = .ok row) nodes snap.nodes
  nodesTotal : snap.totals.nodesTotal = nodes.length
  nodesReachable : snap.totals.nodesReachable = (snap.nodes.filter GridRow.reachable).length
  nodesDraining : snap.totals.nodesDraining = (snap.nodes.filter GridRow.draining).length
  httpRequests : snap.totals.httpRequests =
    ((snap.nodes.filter GridRow.reachable).map GridRow.httpRequests).sum
  httpErrors : snap.totals.httpErrors =
    ((snap.nodes.filter GridRow.reachable).map GridRow.httpErrors).sum
  llmTokens : snap.totals.llmTokens =
    sumFloats ((snap.nodes.filter GridRow.reachable).map GridRow.llmTokens)
  llmCalls : snap.totals.llmCalls =
    sumFloats ((snap.nodes.filter GridRow.reachable).map GridRow.llmCalls)

/-! ## Rows -/

section Rows

/-- A view with more requests and errors. -/
def NodeView.count (view : NodeView F) (requests errors : Int) : NodeView F :=
  { view with
    httpRequests := view.httpRequests + requests, httpErrors := view.httpErrors + errors }

omit [GridFloat F] in
theorem NodeView.count_count (view : NodeView F) (i j i' j' : Int) :
    (view.count i j).count i' j' = view.count (i + i') (j + j') := by
  simp only [count, add_assoc]

theorem requestsOf_cons (sample : Sample F) (samples : List (Sample F)) :
    requestsOf (sample :: samples) = countOf sample + requestsOf samples := List.sum_cons

/-- The requests are counted one by one. -/
theorem foldRequests_of_ok {samples : List (Sample F)}
    (h : ∀ sample ∈ samples, ∃ n, PyNumber.truncate sample.value = .ok n) (view : NodeView F) :
    foldRequests view samples =
      .ok (view.count (requestsOf samples) (requestsOf (samples.filter Sample.isError))) := by
  induction samples generalizing view with
  | nil => exact congrArg Except.ok (by simp [NodeView.count, requestsOf])
  | cons sample samples ih =>
    obtain ⟨⟨n, hn⟩, hsamples⟩ := List.forall_mem_cons.mp h
    have hcount : countOf sample = n := by rw [countOf, hn]; rfl
    have hstep : foldRequests view (sample :: samples) =
        foldRequests (view.count n (if sample.isError then n else 0)) samples := by
      rw [foldRequests, List.foldlM_cons, hn]
      show foldRequests _ samples = _
      congr 1
      rw [NodeView.count]
      split
      · rfl
      · rw [add_zero]
    rw [hstep, ih hsamples, NodeView.count_count, requestsOf_cons, hcount]
    by_cases herror : sample.isError = true
    · rw [if_pos herror, List.filter_cons_of_pos herror, requestsOf_cons, hcount]
    · rw [if_neg herror, List.filter_cons_of_neg herror, zero_add]

/-- A sample that is not a number breaks the loop off. -/
theorem truncate_of_foldRequests {samples : List (Sample F)} {view view' : NodeView F}
    (h : foldRequests view samples = .ok view') :
    ∀ sample ∈ samples, ∃ n, PyNumber.truncate sample.value = .ok n := by
  induction samples generalizing view with
  | nil => exact fun _ h => by cases h
  | cons sample samples ih =>
    rw [foldRequests, List.foldlM_cons] at h
    obtain ⟨next, hnext, h⟩ := bind_eq_ok h
    obtain ⟨n, hn, -⟩ := bind_eq_ok hnext
    exact List.forall_mem_cons.mpr ⟨⟨n, hn⟩, ih h⟩

/-- Only the rate of errors can fail when a view is shown. -/
theorem toDict_ok_iff (view : NodeView F) :
    (∃ row, view.toDict = .ok row) ↔ (view.httpRequests ≠ 0 →
      ∃ f : F, GridFloat.divInt view.httpErrors view.httpRequests = .ok f) := by
  constructor
  · rintro ⟨row, hrow⟩ hne
    obtain ⟨rate, hrate, -⟩ := bind_eq_ok hrow
    rw [NodeView.errorRate, if_pos hne] at hrate
    obtain ⟨f, hf, -⟩ := bind_eq_ok hrate
    exact ⟨f, hf⟩
  · intro h
    rw [NodeView.toDict, NodeView.errorRate]
    split
    next hne =>
      obtain ⟨f, hf⟩ := h hne
      rw [hf]
      exact ⟨_, rfl⟩
    next => exact ⟨_, rfl⟩

theorem newView_ok {node : HeartbeatRecord} {view : NodeView F} (h : newView node = .ok view) :
    intField F node "last_heartbeat" = .ok view.lastHeartbeat ∧
      intField F node "metrics_port" = .ok view.metricsPort ∧
      view.address = (node.lookup "hostname").getD "" ∧ view.httpRequests = 0 ∧
      view.httpErrors = 0 := by
  obtain ⟨lastHeartbeat, hlast, h⟩ := bind_eq_ok h
  obtain ⟨metricsPort, hport, h⟩ := bind_eq_ok h
  cases h
  exact ⟨hlast, hport, rfl, rfl, rfl⟩

theorem newView_ok_iff (node : HeartbeatRecord) : (∃ view : NodeView F, newView node = .ok view) ↔
    (∃ n, intField F node "last_heartbeat" = .ok n) ∧
      ∃ n, intField F node "metrics_port" = .ok n := by
  constructor
  · rintro ⟨view, hview⟩
    obtain ⟨hlast, hport, -⟩ := newView_ok hview
    exact ⟨⟨_, hlast⟩, _, hport⟩
  · rintro ⟨⟨lastHeartbeat, hlast⟩, metricsPort, hport⟩
    rw [newView, hlast, hport]
    exact ⟨_, rfl⟩

/-- The samples of a node can be shown. -/
theorem foldSamples_ok_iff {view : NodeView F} (hrequests : view.httpRequests = 0)
    (herrors : view.httpErrors = 0) (samples : List (Sample F)) :
    (∃ row, (foldSamples view samples >>= NodeView.toDict) = .ok row) ↔
      CountsOk (samplesOf samples "noema_http_requests_total") := by
  let requests := samplesOf samples "noema_http_requests_total"
  have hrate {view' : NodeView F} (h : foldRequests view requests = .ok view')
      (hfinite : ∀ sample ∈ requests, ∃ n, PyNumber.truncate sample.value = .ok n) :
      (∃ row, (foldSamples view samples >>= NodeView.toDict) = .ok row) ↔
        (requestsOf requests ≠ 0 → ∃ f : F,
          GridFloat.divInt (requestsOf (requests.filter Sample.isError)) (requestsOf requests) =
            .ok f) := by
    rw [foldSamples, h]
    refine (toDict_ok_iff _).trans ?_
    rw [foldRequests_of_ok hfinite] at h
    cases h
    show (view.httpRequests + requestsOf requests ≠ 0 →
      ∃ f : F, GridFloat.divInt (view.httpErrors + _) (view.httpRequests + _) = .ok f) ↔ _
    rw [hrequests, herrors, zero_add, zero_add]
  constructor
  · rintro ⟨row, h⟩
    obtain ⟨view', hfold, -⟩ := bind_eq_ok h
    obtain ⟨view'', hview, -⟩ := bind_eq_ok hfold
    have hfinite := truncate_of_foldRequests hview
    exact ⟨hfinite, (hrate hview hfinite).mp ⟨row, h⟩⟩
  · rintro ⟨hfinite, hdiv⟩
    exact (hrate (foldRequests_of_ok hfinite view) hfinite).mpr hdiv

/-- Without requests there is no rate of errors. -/
theorem toDict_ok {view : NodeView F} (h : view.httpRequests = 0) : ∃ row, view.toDict = .ok row :=
  (toDict_ok_iff view).mpr fun hne => absurd h hne

theorem rowOf_ok_iff (parser : PrometheusParser F) (node : HeartbeatRecord) (scrape : Scrape F) :
    (∃ row, rowOf parser node scrape = .ok row) ↔ NodeOk parser node scrape := by
  by_cases hnew : ∃ view : NodeView F, newView node = .ok view
  swap
  · refine iff_of_false ?_ fun h => hnew ((newView_ok_iff node).mpr ⟨h.lastHeartbeat, h.metricsPort⟩)
    rintro ⟨row, h⟩
    obtain ⟨view, hview, -⟩ := bind_eq_ok h
    obtain ⟨start, hstart, -⟩ := bind_eq_ok hview
    exact hnew ⟨start, hstart⟩
  obtain ⟨view, hview⟩ := hnew
  obtain ⟨hlast, hport, haddress, hrequests, herrors⟩ := newView_ok hview
  -- what the fields ask for is met, so the samples are what is left
  have hnode : NodeOk parser node scrape ↔ ∀ text, scrape.answer = .ok text → view.address ≠ "" →
      view.metricsPort ≠ 0 →
      CountsOk (samplesOf (parseExposition parser text) "noema_http_requests_total") := by
    constructor
    · intro h text htext hne hne'
      refine h.samples text htext (haddress ▸ hne) fun hzero => hne' ?_
      exact Except.ok.inj (hport.symm.trans hzero)
    · refine fun h => ⟨⟨_, hlast⟩, ⟨_, hport⟩, fun text htext hne hne' => ?_⟩
      exact h text htext (haddress ▸ hne) fun hzero => hne' (hzero ▸ hport)
  rw [hnode, rowOf, viewOf, hview]
  show (∃ row, (ite _ _ _ >>= NodeView.toDict) = .ok row) ↔ _
  by_cases hnone : view.address = "" ∨ view.metricsPort = 0
  · rw [if_pos hnone]
    refine iff_of_true (toDict_ok hrequests) fun _ _ hne hne' => ?_
    exact absurd hnone (not_or.mpr ⟨hne, hne'⟩)
  rw [if_neg hnone]
  obtain ⟨hne, hne'⟩ := not_or.mp hnone
  -- an endpoint that fails has its error in the row
  cases hanswer : scrape.answer with
  | error e => exact iff_of_true (toDict_ok hrequests) nofun
  | ok text =>
    refine (foldSamples_ok_iff ?_ ?_ _).trans ?_
    · exact hrequests
    · exact herrors
    · exact ⟨fun h _ heq _ _ => Except.ok.inj heq ▸ h, fun h => h text rfl hne hne'⟩

end Rows

/-! ## Snapshots -/

section Snapshots

/-- A comprehension of which no item raises does not raise. -/
theorem mapM_of_forall {α β : Type} {f : α → Except PyExc β} {xs : List α}
    (h : ∀ x ∈ xs, ∃ y, f x = .ok y) : ∃ ys, xs.mapM f = .ok ys := by
  induction xs with
  | nil => exact ⟨[], rfl⟩
  | cons x xs ih =>
    obtain ⟨⟨y, hy⟩, hxs⟩ := List.forall_mem_cons.mp h
    obtain ⟨ys, hys⟩ := ih hxs
    exact ⟨y :: ys, by rw [List.mapM_cons, hy, hys]; rfl⟩

/-- What is the same of two lists, item by item, is the same of their filtered items. -/
theorem map_filter_eq {α β γ : Type} {R : α → β → Prop} {xs : List α} {ys : List β} {p : α → Bool}
    {q : β → Bool} {f : α → γ} {g : β → γ} (h : List.Forall₂ R xs ys)
    (hp : ∀ x y, R x y → p x = q y) (hf : ∀ x y, R x y → f x = g y) :
    (xs.filter p).map f = (ys.filter q).map g := by
  induction h with
  | nil => rfl
  | @cons x y xs ys hxy _ ih =>
    by_cases hq : q y = true
    · rw [List.filter_cons_of_pos ((hp x y hxy).trans hq), List.filter_cons_of_pos hq, List.map_cons,
        List.map_cons, hf x y hxy, ih]
    · rw [List.filter_cons_of_neg (hp x y hxy ▸ hq), List.filter_cons_of_neg hq, ih]

/-- The row of a view has its numbers. -/
theorem toDict_fields {view : NodeView F} {row : GridRow F} (h : view.toDict = .ok row) :
    view.reachable = row.reachable ∧ view.draining = row.draining ∧
      view.httpRequests = row.httpRequests ∧ view.httpErrors = row.httpErrors ∧
      view.llmTokens = row.llmTokens ∧ view.llmCalls = row.llmCalls := by
  obtain ⟨rate, -, h⟩ := bind_eq_ok h
  cases h
  exact ⟨rfl, rfl, rfl, rfl, rfl, rfl⟩

/-- The rows are those of the views. -/
theorem rows_of_views {parser : PrometheusParser F} {nodes : List (HeartbeatRecord × Scrape F)}
    {views : List (NodeView F)} {rows : List (GridRow F)}
    (hviews : List.Forall₂ (fun node view => viewOf parser node.1 node.2 = .ok view) nodes views)
    (hrows : List.Forall₂ (fun view row => view.toDict = .ok row) views rows) :
    List.Forall₂ (fun node row => rowOf parser node.1 node.2 = .ok row) nodes rows := by
  induction hviews generalizing rows with
  | nil =>
    cases hrows
    exact .nil
  | cons hview _ ih =>
    obtain ⟨hrow, hrows⟩ | ⟨hrow, hrows⟩ := hrows
    refine .cons ?_ (ih hrows)
    rw [rowOf, hview]
    exact hrow

/-- A snapshot that does not raise shows what it should. -/
theorem shows_of_ok {parser : PrometheusParser F} {now : F}
    {nodes : List (HeartbeatRecord × Scrape F)} {snap : GridSnapshot F}
    (h : snapshot parser now nodes = .ok snap) : Shows parser nodes snap := by
  obtain ⟨views, hviews, h⟩ := bind_eq_ok h
  obtain ⟨rows, hrows, h⟩ := bind_eq_ok h
  cases h
  have hviews := mapM_eq_ok hviews
  have hrows := mapM_eq_ok hrows
  -- the totals are taken from the views, which have the fields of their rows
  have hmap {γ : Type} {f : NodeView F → γ} {g : GridRow F → γ}
      (hf : ∀ view row, NodeView.toDict view = .ok row → f view = g row) :
      (views.filter NodeView.reachable).map f = (rows.filter GridRow.reachable).map g :=
    map_filter_eq hrows (fun _ _ h => (toDict_fields h).1) hf
  have hlength (p : NodeView F → Bool) (q : GridRow F → Bool)
      (hp : ∀ view row, NodeView.toDict view = .ok row → p view = q row) :
      (views.filter p).length = (rows.filter q).length := by
    rw [← List.length_map (fun _ => ()), map_filter_eq (g := fun _ => ()) hrows hp fun _ _ _ => rfl,
      List.length_map]
  exact {
    rows := rows_of_views hviews hrows
    nodesTotal := hviews.length_eq.symm
    nodesReachable := hlength _ _ fun _ _ h => (toDict_fields h).1
    nodesDraining := hlength _ _ fun _ _ h => (toDict_fields h).2.1
    httpRequests := congrArg List.sum (hmap fun _ _ h => (toDict_fields h).2.2.1)
    httpErrors := congrArg List.sum (hmap fun _ _ h => (toDict_fields h).2.2.2.1)
    llmTokens := congrArg sumFloats (hmap fun _ _ h => (toDict_fields h).2.2.2.2.1)
    llmCalls := congrArg sumFloats (hmap fun _ _ h => (toDict_fields h).2.2.2.2.2) }

/-- A snapshot shows every node if and only if all of them are ok. Otherwise it raises: the views
are made together, and an exception of one of them is one of the whole snapshot. The condition is
about each record and the answer of its endpoint, node by node. -/
theorem snapshot_iff (parser : PrometheusParser F) (now : F)
    (nodes : List (HeartbeatRecord × Scrape F)) :
    (∃ snap, snapshot parser now nodes = .ok snap ∧ Shows parser nodes snap) ↔
      ∀ node ∈ nodes, NodeOk parser node.1 node.2 := by
  constructor
  · rintro ⟨snap, -, hshows⟩ node hnode
    obtain ⟨row, -, hrow⟩ := exists_mem_of_forall₂ hshows.rows hnode
    exact (rowOf_ok_iff parser node.1 node.2).mp ⟨row, hrow⟩
  · intro h
    have hok {node : HeartbeatRecord × Scrape F} (hnode : node ∈ nodes) :=
      (rowOf_ok_iff parser node.1 node.2).mpr (h node hnode)
    -- all views can be made, and then all rows, in the order of the records
    obtain ⟨views, hviews⟩ : ∃ views, nodes.mapM (fun node => viewOf parser node.1 node.2) =
        .ok views := mapM_of_forall fun node hnode => by
      obtain ⟨row, hrow⟩ := hok hnode
      obtain ⟨view, hview, -⟩ := bind_eq_ok hrow
      exact ⟨view, hview⟩
    obtain ⟨rows, hrows⟩ := mapM_of_forall (f := NodeView.toDict) fun view hview => by
      obtain ⟨node, hnode, hof⟩ := exists_mem_of_forall₂ (mapM_eq_ok hviews).flip hview
      obtain ⟨row, hrow⟩ := hok hnode
      rw [rowOf, hof] at hrow
      exact ⟨row, hrow⟩
    have hsnap : ∃ snap, snapshot parser now nodes = .ok snap := by
      rw [snapshot, hviews]
      show ∃ snap, (views.mapM NodeView.toDict >>= _) = .ok snap
      rw [hrows]
      exact ⟨_, rfl⟩
    obtain ⟨snap, hsnap⟩ := hsnap
    exact ⟨snap, hsnap, shows_of_ok hsnap⟩

/-! ## Nodes that spoil the grid -/

/-- The sum of two literals. -/
def addDecimals (f g : FloatText) : FloatText :=
  match f.decimal, g.decimal with
  | some (m, e), some (m', e') =>
    let e₀ := min e e'
    .ofDecimal (m * 10 ^ (e - e₀).toNat + m' * 10 ^ (e' - e₀).toNat) e₀
  | _, _ => PyFloat.ofText nanText

/-- Sums are exact, quotients have 20 digits after the point. -/
instance : GridFloat FloatText where
  add := addDecimals
  div f g :=
    match f.finite, g.finite with
    | some p, some q => .ofDecimal ⌊p / q * 10 ^ 20⌋ (-20)
    | _, _ => PyFloat.ofText nanText
  divInt i j :=
    if |(i / j : ℚ)| < 2 ^ 1024 then .ok (.ofDecimal ⌊(i / j : ℚ) * 10 ^ 20⌋ (-20))
    else .error (.overflowError "integer division result too large for a float")
  round f digits :=
    match f.finite with
    | some q => .ofDecimal ⌊q * 10 ^ digits + 1 / 2⌋ (-digits)
    | none => f
  sum fs := fs.foldl addDecimals zeroFloat

/-- A node whose last heartbeat is not an integer. -/
def datedNode : HeartbeatRecord × Scrape FloatText :=
  ([("node_id", "a"), ("last_heartbeat", "2026-09-25T10:05:00Z")], ⟨.ok "", zeroFloat⟩)

/-- A node that exports a counter that is not a number. -/
def nanNode : HeartbeatRecord × Scrape FloatText :=
  ([("node_id", "b"), ("hostname", "host"), ("metrics_port", "9091")],
    ⟨.ok "noema_http_requests_total NaN\n", zeroFloat⟩)

/-- A node without an endpoint. -/
def silentNode : HeartbeatRecord × Scrape FloatText := ([("node_id", "c")], ⟨.ok "", zeroFloat⟩)

/-- Either of the first two nodes spoils the snapshot for the third one. -/
theorem badNode_spoils :
    (snapshot none zeroFloat [silentNode]).toOption.isSome ∧
    (¬ ∃ snap, snapshot none zeroFloat [silentNode, datedNode] = .ok snap ∧
      Shows none [silentNode, datedNode] snap) ∧
    ¬ ∃ snap, snapshot none zeroFloat [silentNode, nanNode] = .ok snap ∧
      Shows none [silentNode, nanNode] snap := by
  refine ⟨by decide +kernel, ?_, ?_⟩
  · rintro ⟨snap, hsnap, -⟩
    have hraises : (snapshot none zeroFloat [silentNode, datedNode]).toOption.isSome = false := by
      decide +kernel
    rw [hsnap] at hraises
    cases hraises
  · rintro ⟨snap, hsnap, -⟩
    have hraises : (snapshot none zeroFloat [silentNode, nanNode]).toOption.isSome = false := by
      decide +kernel
    rw [hsnap] at hraises
    cases hraises

end Snapshots

end Noema.Observability
