import Noema.Billing.Quotas

/-!
# Cost attribution (`billing/cost_tracker.py`)

`CostTracker.record` keeps a record of a call, adds its cost to the counters of the day and of the
month of its tenant, in Redis and in memory, and inserts a row into the database. Each of these may
fail without the others: a Redis command that raises ends the Redis part, and the server may or may
not have applied it (`Reply`). Costs are exact fractions, and the counters in Redis are whole
numbers of 1/10000 USD.

- `tenant_of_key`: the tenant can be read off the key of a counter. The parts of a key are joined by
  colons, and a tenant id may contain colons itself; the date at the end has none, so the last colon
  decides (`append_cons_inj_of_last`).
- `dayKey_inj`, `monthKey_inj`, `dayKey_ne_monthKey`: the keys of two tenants are different,
  whatever the tenants are called, and no key of a day is one of a month.
- **`sameFor_record`**: a record changes nothing of another tenant, in none of the five places,
  however its commands end.
-/

namespace Noema.Billing

open Noema.Lib

/-- The prices of a model for a million tokens, in USD. -/
structure Price where
  input : ℚ
  output : ℚ

/-- `PRICING`. -/
def pricing : List (String × Price) :=
  [("gpt-4o-mini", ⟨0.15, 0.60⟩), ("gpt-4o", ⟨2.50, 10.00⟩),
    ("claude-sonnet-4-5-20250929", ⟨3.00, 15.00⟩), ("claude-sonnet-4-20250514", ⟨3.00, 15.00⟩),
    ("o3", ⟨10.00, 40.00⟩), ("fallback", ⟨0.0, 0.0⟩)]

/-- `DEFAULT_PRICING`. -/
def defaultPricing : Price := ⟨2.50, 10.00⟩

/-- `calculate_cost` (cost_tracker.py:44). -/
def calculateCost (model : String) (inputTokens outputTokens : Int) : ℚ :=
  let price := (pricing.lookup model).getD defaultPricing
  (inputTokens * price.input + outputTokens * price.output) / 1000000

/-- `CostRecord`. -/
structure CostRecord (T : Type) where
  tenantId : String
  taskId : String
  provider : String
  model : String
  inputTokens : Int
  outputTokens : Int
  costUsd : ℚ
  timestamp : T
  stepName : String

/-- A day of the calendar. -/
structure Date where
  year : Nat
  month : Nat
  day : Nat

/-- A number with leading zeros. -/
def padded (width n : Nat) : List Char := (Nat.toDigits 10 n).leftpad width '0'

/-- `time.strftime("%Y%m%d")`. -/
def Date.dayText (d : Date) : List Char := padded 4 d.year ++ padded 2 d.month ++ padded 2 d.day

/-- `time.strftime("%Y%m")`. -/
def Date.monthText (d : Date) : List Char := padded 4 d.year ++ padded 2 d.month

/-- `_day_key` (cost_tracker.py:117). -/
def dayKey (tenantId : String) (d : Date) : String :=
  "cost:d:" ++ tenantId ++ ":" ++ String.ofList d.dayText

/-- `_month_key` (cost_tracker.py:121). -/
def monthKey (tenantId : String) (d : Date) : String :=
  "cost:m:" ++ tenantId ++ ":" ++ String.ofList d.monthText

/-- A `CostTracker` with the counters of its Redis and the rows of its database. -/
structure CostTracker (T : Type) where
  records : List (CostRecord T)
  daily : String → Option ℚ
  monthly : String → Option ℚ
  counters : String → Int
  rows : List (CostRecord T)

/-- How the Redis commands of a record end, and whether its row is inserted. -/
structure RecordReplies where
  dayIncr : Reply
  dayExpire : Reply
  monthIncr : Reply
  monthExpire : Reply
  row : Bool

/-- The services that a tracker has. -/
structure CostBackends where
  redis : Bool
  db : Bool

namespace CostTracker

variable {T : Type}

/-- A new tracker on an empty Redis and an empty database. -/
def new : CostTracker T := ⟨[], fun _ => none, fun _ => none, fun _ => 0, []⟩

/-- `INCRBY`, if the server applied it. -/
def incrBy (counters : String → Int) (key : String) (n : Int) (reply : Reply) : String → Int :=
  if reply.applied then Function.update counters key (counters key + n) else counters

/-- The counters after the Redis commands of a record: the first that raises is the last. -/
def writeRedis (counters : String → Int) (dayKey monthKey : String) (n : Int)
    (replies : RecordReplies) : String → Int :=
  let counters := incrBy counters dayKey n replies.dayIncr
  if replies.dayIncr.raises ∨ replies.dayExpire.raises then counters
  else incrBy counters monthKey n replies.monthIncr

/-- `costs[key] = costs.get(key, 0) + cost`. -/
def addCost (costs : String → Option ℚ) (key : String) (cost : ℚ) : String → Option ℚ :=
  Function.update costs key (some ((costs key).getD 0 + cost))

/-- The record of a call: negative numbers of tokens count as zero. -/
def recordOf (tenantId taskId provider model : String) (inputTokens outputTokens : Int)
    (stepName : String) (now : T) : CostRecord T :=
  let inputTokens := max inputTokens 0
  let outputTokens := max outputTokens 0
  { tenantId, taskId, provider, model, inputTokens, outputTokens,
    costUsd := calculateCost model inputTokens outputTokens, timestamp := now, stepName }

/-- `record` (cost_tracker.py:124), for a record. -/
def record (backends : CostBackends) (c : CostTracker T) (r : CostRecord T) (date : Date)
    (replies : RecordReplies) : CostTracker T :=
  let dayKey := dayKey r.tenantId date
  let monthKey := monthKey r.tenantId date
  { records := c.records ++ [r]
    daily := addCost c.daily dayKey r.costUsd
    monthly := addCost c.monthly monthKey r.costUsd
    -- `int(cost * 10000)`
    counters :=
      if backends.redis then writeRedis c.counters dayKey monthKey ⌊r.costUsd * 10000⌋ replies
      else c.counters
    rows := if backends.db ∧ replies.row then c.rows ++ [r] else c.rows }

end CostTracker

/-! ## The keys of a tenant -/

/-- Two texts that are split at the last occurrence of a letter. -/
theorem append_cons_inj_of_last {α : Type} {c : α} {xs xs' ys ys' : List α} (hys : c ∉ ys)
    (hys' : c ∉ ys') (h : xs ++ c :: ys = xs' ++ c :: ys') : xs = xs' ∧ ys = ys' := by
  rcases List.append_eq_append_iff.mp h with ⟨zs, hxs, hzs⟩ | ⟨zs, hxs, hzs⟩
  · cases zs with
    | nil => exact ⟨by simpa using hxs.symm, (List.cons.inj hzs).2⟩
    | cons z zs => exact absurd (by simp [(List.cons.inj hzs).2]) hys
  · cases zs with
    | nil => exact ⟨by simpa using hxs, (List.cons.inj hzs).2.symm⟩
    | cons z zs => exact absurd (by simp [(List.cons.inj hzs).2]) hys'

theorem colon_notMem_padded (width n : Nat) : ':' ∉ padded width n := by
  intro hmem
  rw [padded, List.leftpad, List.mem_append] at hmem
  rcases hmem with hmem | hmem
  · exact absurd (List.eq_of_mem_replicate hmem) (by decide)
  · exact absurd (Nat.isDigit_of_mem_toDigits (by decide) (by decide) hmem) (by decide)

theorem colon_notMem_dayText (d : Date) : ':' ∉ d.dayText := by
  simp [Date.dayText, colon_notMem_padded]

theorem colon_notMem_monthText (d : Date) : ':' ∉ d.monthText := by
  simp [Date.monthText, colon_notMem_padded]

/-- The tenant can be read off a key. -/
theorem tenant_of_key {prefixText tenantId tenantId' : String} {date date' : List Char}
    (hdate : ':' ∉ date) (hdate' : ':' ∉ date')
    (h : prefixText ++ tenantId ++ ":" ++ String.ofList date =
      prefixText ++ tenantId' ++ ":" ++ String.ofList date') : tenantId = tenantId' := by
  have hchars := congrArg String.toList h
  simp only [String.toList_append, String.toList_ofList, List.append_assoc] at hchars
  have hrest := List.append_cancel_left hchars
  exact String.toList_injective (append_cons_inj_of_last hdate hdate' hrest).1

theorem dayKey_inj {tenantId tenantId' : String} {d d' : Date}
    (h : dayKey tenantId d = dayKey tenantId' d') : tenantId = tenantId' :=
  tenant_of_key (colon_notMem_dayText d) (colon_notMem_dayText d') h

theorem monthKey_inj {tenantId tenantId' : String} {d d' : Date}
    (h : monthKey tenantId d = monthKey tenantId' d') : tenantId = tenantId' :=
  tenant_of_key (colon_notMem_monthText d) (colon_notMem_monthText d') h

theorem dayKey_ne_monthKey (tenantId tenantId' : String) (d d' : Date) :
    dayKey tenantId d ≠ monthKey tenantId' d' := by
  intro h
  have hchars := congrArg String.toList h
  simp [dayKey, monthKey, String.toList_append] at hchars

/-! ## What a record changes -/

namespace CostTracker

variable {T : Type}

/-- The records of a tenant. -/
def recordsOf (records : List (CostRecord T)) (tenantId : String) : List (CostRecord T) :=
  records.filter fun r => r.tenantId = tenantId

/-- Two trackers agree on all that belongs to a tenant. -/
structure SameFor (tenantId : String) (c c' : CostTracker T) : Prop where
  records : recordsOf c'.records tenantId = recordsOf c.records tenantId
  rows : recordsOf c'.rows tenantId = recordsOf c.rows tenantId
  daily : ∀ d, c'.daily (dayKey tenantId d) = c.daily (dayKey tenantId d)
  monthly : ∀ d, c'.monthly (monthKey tenantId d) = c.monthly (monthKey tenantId d)
  dayCounters : ∀ d, c'.counters (dayKey tenantId d) = c.counters (dayKey tenantId d)
  monthCounters : ∀ d, c'.counters (monthKey tenantId d) = c.counters (monthKey tenantId d)

variable {tenantId : String} {c c' c'' : CostTracker T}

theorem SameFor.refl (tenantId : String) (c : CostTracker T) : SameFor tenantId c c :=
  ⟨rfl, rfl, fun _ => rfl, fun _ => rfl, fun _ => rfl, fun _ => rfl⟩

theorem recordsOf_append {r : CostRecord T} (records : List (CostRecord T))
    (hne : r.tenantId ≠ tenantId) :
    recordsOf (records ++ [r]) tenantId = recordsOf records tenantId := by
  have hother : recordsOf [r] tenantId = [] := by simp [recordsOf, hne]
  rw [recordsOf, List.filter_append, ← recordsOf, ← recordsOf, hother, List.append_nil]

theorem incrBy_of_ne {counters : String → Int} {key key' : String} (n : Int) (reply : Reply)
    (hne : key' ≠ key) : incrBy counters key n reply key' = counters key' := by
  rw [incrBy]
  split
  · exact Function.update_of_ne hne _ _
  · rfl

/-- The commands of a record change two counters. -/
theorem writeRedis_of_ne {counters : String → Int} {key dayKey monthKey : String} (n : Int)
    (replies : RecordReplies) (hday : key ≠ dayKey) (hmonth : key ≠ monthKey) :
    writeRedis counters dayKey monthKey n replies key = counters key := by
  rw [writeRedis]
  split
  · exact incrBy_of_ne _ _ hday
  · rw [incrBy_of_ne _ _ hmonth, incrBy_of_ne _ _ hday]

/-- A record changes nothing that belongs to another tenant. -/
theorem sameFor_record (backends : CostBackends) {r : CostRecord T} (date : Date)
    (replies : RecordReplies) (hne : r.tenantId ≠ tenantId) :
    SameFor tenantId c (c.record backends r date replies) := by
  have hday (d : Date) : dayKey tenantId d ≠ dayKey r.tenantId date := fun h =>
    hne (dayKey_inj h).symm
  have hmonth (d : Date) : monthKey tenantId d ≠ monthKey r.tenantId date := fun h =>
    hne (monthKey_inj h).symm
  constructor
  case records => exact recordsOf_append _ hne
  case rows =>
    show recordsOf (ite _ _ _) _ = _
    split
    · exact recordsOf_append _ hne
    · rfl
  -- The counters in memory are under the keys of the tenant, and so are those in Redis.
  case daily => exact fun d => Function.update_of_ne (hday d) _ _
  case monthly => exact fun d => Function.update_of_ne (hmonth d) _ _
  case dayCounters =>
    intro d
    show (ite _ _ _ : String → Int) _ = _
    split
    · exact writeRedis_of_ne _ _ (hday d) (dayKey_ne_monthKey _ _ _ _)
    · rfl
  case monthCounters =>
    intro d
    show (ite _ _ _ : String → Int) _ = _
    split
    · exact writeRedis_of_ne _ _ (dayKey_ne_monthKey _ _ _ _).symm (hmonth d)
    · rfl

end CostTracker

end Noema.Billing
