import Noema.Billing.CostTracker

/-!
# The cost of the month (`QuotaManager._get_monthly_cost`)

`getMonthlyCost` reads, without PostgreSQL, the counter that `CostTracker.record` writes for the
month of a tenant. The two sides do not quite agree on what the counter means. A record adds whole
1/10000 USD and cuts off the rest, under the month of the host's own calendar (`time.strftime`),
while the reader asks for the month in UTC.

- `RecordCall.booked`, `RecordCall.lost`: what a call adds to the counter of a month, and what it
  fails to add: the part that is cut off, or all of its cost when it is booked in another month. The
  two add up to the cost.
- `recordAll_eq`: the counter after any sequence of calls is the sum of what was booked.
- **`monthlyCost_iff`**: the cost that is read is right to 1/10000 USD if and only if what the calls
  lose adds up to less than that.
- `monthlyCost_wrong`: two small calls, each of which is cut to nothing, and one call on the last
  evening of a month.

Calendars are arbitrary functions from times to dates, since nothing about time zones is needed.
-/

namespace Noema.Billing

open Noema.Lib

variable {T : Type}

/-- The dates of a time, on the host (`time.strftime`) and in UTC (`datetime.now(UTC)`). -/
structure Calendar (T : Type) where
  localDate : T → Date
  utcDate : T → Date

/-- A call of `record`. -/
structure RecordCall (T : Type) where
  tenantId : String
  taskId : String := ""
  provider : String := ""
  model : String
  inputTokens : Int
  outputTokens : Int
  stepName : String := ""
  now : T

/-- The record of a call. -/
def RecordCall.entry (call : RecordCall T) : CostRecord T :=
  CostTracker.recordOf call.tenantId call.taskId call.provider call.model call.inputTokens
    call.outputTokens call.stepName call.now

/-- `_get_monthly_cost` (quotas.py:173). With PostgreSQL, `pg` is what it answers, if it does not
raise. A counter that is not there is zero, as is the cost that is returned for it. -/
def getMonthlyCost (pg : Option (Option ℚ)) (hasRedis : Bool) (counters : String → Int)
    (get : Reply) (tenantId : String) (utcNow : Date) : ℚ :=
  match pg with
  | some (some total) => total
  | _ =>
    if hasRedis ∧ ¬ get.raises then counters (monthKey tenantId utcNow) / 10000
    else 0

/-- The tracker after calls, with Redis and without a database. -/
def CostTracker.recordAll (cal : Calendar T) (calls : List (RecordCall T)) : CostTracker T :=
  calls.foldl (fun c call =>
    c.record ⟨true, false⟩ call.entry (cal.localDate call.now) ⟨.ok, .ok, .ok, .ok, true⟩) .new

/-! ## What a call adds to the counter of a month -/

theorem monthKey_eq_iff {tenantId tenantId' : String} {d d' : Date} :
    monthKey tenantId d = monthKey tenantId' d' ↔
      tenantId = tenantId' ∧ d.monthText = d'.monthText := by
  constructor
  · intro h
    have htenant := monthKey_inj h
    subst htenant
    have hchars := congrArg String.toList h
    simp only [monthKey, String.toList_append, String.toList_ofList] at hchars
    exact ⟨rfl, List.append_cancel_left hchars⟩
  · rintro ⟨rfl, hmonth⟩
    rw [monthKey, monthKey, hmonth]

variable (cal : Calendar T) (utcNow : Date)

/-- The call is booked in the month. -/
def RecordCall.InMonth (call : RecordCall T) : Prop :=
  (cal.localDate call.now).monthText = utcNow.monthText

instance (call : RecordCall T) : Decidable (call.InMonth cal utcNow) :=
  inferInstanceAs (Decidable (_ = _))

/-- What a call adds to the counter of a month, in 1/10000 USD. -/
def RecordCall.booked (call : RecordCall T) : Int :=
  if call.InMonth cal utcNow then ⌊call.entry.costUsd * 10000⌋ else 0

/-- What the counter of a month does not show of the cost of a call, in 1/10000 USD: the part that
is cut off, or all of it when it is booked in another month. -/
def RecordCall.lost (call : RecordCall T) : ℚ :=
  if call.InMonth cal utcNow then Int.fract (call.entry.costUsd * 10000)
  else call.entry.costUsd * 10000

variable {cal utcNow}

theorem RecordCall.booked_add_lost (call : RecordCall T) :
    (call.booked cal utcNow : ℚ) + call.lost cal utcNow = call.entry.costUsd * 10000 := by
  rw [booked, lost]
  split
  · exact Int.floor_add_fract _
  · rw [Int.cast_zero, zero_add]

theorem calculateCost_nonneg (model : String) {inputTokens outputTokens : Int}
    (hinput : 0 ≤ inputTokens) (houtput : 0 ≤ outputTokens) :
    0 ≤ calculateCost model inputTokens outputTokens := by
  have hprice : ∀ p ∈ pricing, 0 ≤ p.2.input ∧ 0 ≤ p.2.output := by
    rw [pricing]
    simp only [List.forall_mem_cons]
    norm_num
  obtain ⟨hin, hout⟩ : 0 ≤ ((pricing.lookup model).getD defaultPricing).input ∧
      0 ≤ ((pricing.lookup model).getD defaultPricing).output := by
    rcases hlookup : pricing.lookup model with _ | price
    · norm_num [defaultPricing]
    · obtain ⟨before, after, hsplit, -⟩ := List.lookup_eq_some_iff.mp hlookup
      exact hprice (model, price) (by simp [hsplit])
  rw [calculateCost]
  positivity

theorem RecordCall.lost_nonneg (call : RecordCall T) : 0 ≤ call.lost cal utcNow := by
  rw [lost]
  split
  · exact Int.fract_nonneg _
  · have hcost : 0 ≤ call.entry.costUsd :=
      calculateCost_nonneg call.model (le_max_right _ 0) (le_max_right _ 0)
    positivity

/-- The commands of a record, when all are answered. -/
theorem writeRedis_ok (counters : String → Int) (dayKey monthKey : String) (n : Int) (row : Bool) :
    CostTracker.writeRedis counters dayKey monthKey n ⟨.ok, .ok, .ok, .ok, row⟩ =
      CostTracker.incrBy (CostTracker.incrBy counters dayKey n .ok) monthKey n .ok := by
  simp [CostTracker.writeRedis, Reply.raises]

theorem incrBy_ok (counters : String → Int) (key key' : String) (n : Int) :
    CostTracker.incrBy counters key n .ok key' = counters key' + if key' = key then n else 0 := by
  have happlied : Reply.ok.applied = true := rfl
  rw [CostTracker.incrBy, if_pos happlied, Function.update_apply]
  split
  · next hkey => rw [hkey]
  · rw [add_zero]

/-- A record adds to the counter of its month what is booked. -/
theorem counters_record (c : CostTracker T) (call : RecordCall T) (tenantId : String) :
    (c.record ⟨true, false⟩ call.entry (cal.localDate call.now) ⟨.ok, .ok, .ok, .ok, true⟩).counters
        (monthKey tenantId utcNow) =
      c.counters (monthKey tenantId utcNow) +
        if call.tenantId = tenantId then call.booked cal utcNow else 0 := by
  have hday := dayKey_ne_monthKey call.tenantId tenantId (cal.localDate call.now) utcNow
  have htenant : call.entry.tenantId = call.tenantId := rfl
  rw [CostTracker.record, if_pos rfl, htenant, writeRedis_ok]
  dsimp only
  rw [incrBy_ok, incrBy_ok, if_neg hday.symm, add_zero]
  congr 1
  by_cases htenant : call.tenantId = tenantId
  · by_cases hmonth : call.InMonth cal utcNow
    · rw [if_pos (monthKey_eq_iff.mpr ⟨htenant.symm, Eq.symm hmonth⟩), if_pos htenant, RecordCall.booked, if_pos hmonth]
    · have hkey : monthKey tenantId utcNow ≠ monthKey call.tenantId (cal.localDate call.now) :=
        fun h => hmonth (Eq.symm (monthKey_eq_iff.mp h).2)
      rw [if_neg hkey, if_pos htenant, RecordCall.booked, if_neg hmonth]
  · have hkey : monthKey tenantId utcNow ≠ monthKey call.tenantId (cal.localDate call.now) :=
      fun h => htenant (monthKey_eq_iff.mp h).1.symm
    rw [if_neg hkey, if_neg htenant]

/-! ## All calls -/

/-- The calls of a tenant. -/
def callsOf (calls : List (RecordCall T)) (tenantId : String) : List (RecordCall T) :=
  calls.filter fun call => call.tenantId = tenantId

/-- The counter of a month after calls, and the records. -/
theorem recordAll_eq (calls : List (RecordCall T)) (tenantId : String) :
    (CostTracker.recordAll cal calls).counters (monthKey tenantId utcNow) =
        ((callsOf calls tenantId).map (RecordCall.booked cal utcNow)).sum ∧
      (CostTracker.recordAll cal calls).records = calls.map RecordCall.entry := by
  induction calls using List.reverseRecOn with
  | nil => exact ⟨rfl, rfl⟩
  | append_singleton calls call ih =>
    obtain ⟨hcounters, hrecords⟩ := ih
    rw [CostTracker.recordAll, List.foldl_append] at *
    refine ⟨?_, ?_⟩
    · rw [List.foldl_cons, List.foldl_nil, counters_record, hcounters, callsOf, callsOf,
        List.filter_append, List.map_append, List.sum_append]
      by_cases htenant : call.tenantId = tenantId
      · simp [htenant]
      · simp [htenant]
    · rw [List.map_append, ← hrecords]
      rfl

theorem sum_booked_add_lost (calls : List (RecordCall T)) :
    ((calls.map (RecordCall.booked cal utcNow)).sum : ℚ) +
        (calls.map (RecordCall.lost cal utcNow)).sum =
      (calls.map fun call => call.entry.costUsd).sum * 10000 := by
  induction calls with
  | nil => simp
  | cons call calls ih =>
    have hcall := @RecordCall.booked_add_lost T cal utcNow call
    simp only [List.map_cons, List.sum_cons, Int.cast_add]
    linarith

/-- The cost of the month that is read from Redis after calls is right to 1/10000 USD if and only if
what it does not show of the costs of the tenant's calls adds up to less than that. The calls are of
any tenants, models and times. -/
theorem monthlyCost_iff (cal : Calendar T) (calls : List (RecordCall T)) (tenantId : String)
    (now : T) :
    |getMonthlyCost none true (CostTracker.recordAll cal calls).counters .ok tenantId
          (cal.utcDate now) -
        ((CostTracker.recordsOf (CostTracker.recordAll cal calls).records tenantId).map
          CostRecord.costUsd).sum| < 1 / 10000 ↔
      ((callsOf calls tenantId).map (RecordCall.lost cal (cal.utcDate now))).sum < 1 := by
  obtain ⟨hcounters, hrecords⟩ := @recordAll_eq T cal (cal.utcDate now) calls tenantId
  have hcosts : (CostTracker.recordsOf (CostTracker.recordAll cal calls).records tenantId).map
      CostRecord.costUsd = (callsOf calls tenantId).map fun call => call.entry.costUsd := by
    rw [hrecords, CostTracker.recordsOf, List.filter_map, List.map_map]
    rfl
  have hlost : 0 ≤ ((callsOf calls tenantId).map (RecordCall.lost cal (cal.utcDate now))).sum :=
    List.sum_nonneg (List.forall_mem_map.mpr fun call _ => call.lost_nonneg)
  have hsum := @sum_booked_add_lost T cal (cal.utcDate now) (callsOf calls tenantId)
  have hread : getMonthlyCost none true (CostTracker.recordAll cal calls).counters .ok tenantId
      (cal.utcDate now) = (CostTracker.recordAll cal calls).counters
        (monthKey tenantId (cal.utcDate now)) / 10000 := by
    simp [getMonthlyCost, Reply.raises]
  -- What was booked is the cost less what was lost, and nothing that is lost is negative.
  rw [hread, hcounters, hcosts, abs_sub_comm, abs_of_nonneg (by linarith)]
  constructor
  · intro h
    linarith
  · intro h
    linarith

/-- Two calls that cost 0.00009 USD each. -/
def smallCalls : List (RecordCall Int) :=
  [{ tenantId := "acme", model := "gpt-4o-mini", inputTokens := 600, outputTokens := 0, now := 0 },
    { tenantId := "acme", model := "gpt-4o-mini", inputTokens := 600, outputTokens := 0, now := 0 }]

/-- A call that costs a dollar. -/
def largeCall : RecordCall Int :=
  { tenantId := "acme", model := "gpt-4o", inputTokens := 400000, outputTokens := 0, now := 0 }

/-- The cost that is read is wrong after two small calls on a host in UTC, and after one call on the
last evening of a month on a host west of it. -/
theorem monthlyCost_wrong :
    ¬ |getMonthlyCost none true
          (CostTracker.recordAll ⟨fun _ => ⟨2026, 1, 15⟩, fun _ => ⟨2026, 1, 15⟩⟩ smallCalls).counters
          .ok "acme" ⟨2026, 1, 15⟩ -
        ((CostTracker.recordsOf (CostTracker.recordAll ⟨fun _ => ⟨2026, 1, 15⟩,
          fun _ => ⟨2026, 1, 15⟩⟩ smallCalls).records "acme").map CostRecord.costUsd).sum| <
        1 / 10000 ∧
      ¬ |getMonthlyCost none true
            (CostTracker.recordAll ⟨fun _ => ⟨2026, 1, 31⟩, fun _ => ⟨2026, 2, 1⟩⟩
              [largeCall]).counters .ok "acme" ⟨2026, 2, 1⟩ -
          ((CostTracker.recordsOf (CostTracker.recordAll ⟨fun _ => ⟨2026, 1, 31⟩,
            fun _ => ⟨2026, 2, 1⟩⟩ [largeCall]).records "acme").map CostRecord.costUsd).sum| <
          1 / 10000 := by
  decide +kernel

end Noema.Billing
