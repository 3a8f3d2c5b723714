import Noema.Resilience.CircuitBreaker

/-!
# Runs of the circuit breaker

Every step is made of four parts: the clock advances, `state` is read, a call is started, a call
ends. `read_cases`, `start_cases` and `breakerStep_finish` say what each of them does; the
invariants are preserved part by part (`invariant_of_parts`). Three results come from it.

- **`notWedged_iff`**: whenever the breaker rejects calls in `HALF_OPEN`, a probe is in flight, as
  long as no last probe is cancelled or raises `CircuitBreakerError`, either of which keeps its slot
  taken. `Stuck.forever` says that a breaker without a probe whose slots are all taken never admits
  a call again, and `abandoned_wedged` reaches one.
- **`disciplined`**: no call is started before the recovery timeout is over, the counter of a closed
  circuit is below the threshold, and a `HALF_OPEN` period starts no more calls than it may.
- **`onlyProbesClose_iff`**: a probe closes the circuit, as long as no call from before the period
  returns in it. `closedLate_not_onlyProbesClose`: a call that was admitted before the circuit
  opened closes it.

Times are of any linear order with an addition, so the results hold for every clock that does not go
back.
-/

namespace Noema.Resilience

open Noema.Lib System CircuitBreaker

section Steps

variable {T : Type} {cfg : BreakerConfig T} {s s' : BreakerState T}

/-! ## The parts of a step -/

/-- A call is rejected, or started in the state that the circuit is in. -/
theorem start_cases (cfg : BreakerConfig T) (s : BreakerState T) :
    (s.start cfg = s ∧ (s.breaker.state = .open ∨
      s.breaker.state = .halfOpen ∧ cfg.halfOpenMax ≤ s.breaker.halfOpenCalls)) ∨
    (s.breaker.state = .closed ∧ s.start cfg = { s with
      calls := ⟨s.nextId, .closed, s.periods⟩ :: s.calls
      nextId := s.nextId + 1
      record := .started ⟨s.nextId, .closed, s.periods⟩ s.now :: s.record }) ∨
    (s.breaker.state = .halfOpen ∧ s.breaker.halfOpenCalls < cfg.halfOpenMax ∧
      s.start cfg = { s with
        breaker := { s.breaker with halfOpenCalls := s.breaker.halfOpenCalls + 1 }
        calls := ⟨s.nextId, .halfOpen, s.periods⟩ :: s.calls
        nextId := s.nextId + 1
        record := .started ⟨s.nextId, .halfOpen, s.periods⟩ s.now :: s.record }) := by
  rcases hstate : s.breaker.state with _ | _ | _
  · refine .inr (.inl ⟨rfl, ?_⟩)
    simp only [BreakerState.start, admission, hstate]
  · refine .inl ⟨?_, .inl rfl⟩
    simp only [BreakerState.start, admission, hstate]
  · by_cases hfull : cfg.halfOpenMax ≤ s.breaker.halfOpenCalls
    · refine .inl ⟨?_, .inr ⟨rfl, hfull⟩⟩
      simp only [BreakerState.start, admission, hstate, if_pos hfull]
    · refine .inr (.inr ⟨rfl, not_le.mp hfull, ?_⟩)
      simp only [BreakerState.start, admission, hstate, if_neg hfull]

theorem state_onFailure (cfg : BreakerConfig T) (now : T) (breaker : CircuitBreaker T) :
    (breaker.onFailure cfg now).state ≠ .halfOpen := by
  rw [onFailure]
  dsimp only
  split
  · decide
  · split
    · decide
    · assumption

theorem state_onSuccess (breaker : CircuitBreaker T) : breaker.onSuccess.state ≠ .halfOpen := by
  rw [onSuccess]
  dsimp only
  split
  · decide
  · assumption

variable [AddCommGroup T] [LinearOrder T]

theorem isDue_iff {now : T} {breaker : CircuitBreaker T} :
    breaker.isDue cfg now = true ↔
      breaker.state = .open ∧ cfg.recoveryTimeout ≤ now - breaker.lastFailureTime := by
  simp [isDue]

theorem read_cases (cfg : BreakerConfig T) (s : BreakerState T) :
    (s.breaker.isDue cfg s.now = true ∧
      s.read cfg = { s with
        breaker := { s.breaker with state := .halfOpen, halfOpenCalls := 0 }
        periods := s.periods + 1
        periodStart := s.nextId }) ∨
    (s.breaker.isDue cfg s.now = false ∧ s.read cfg = s) := by
  rcases hdue : s.breaker.isDue cfg s.now with _ | _
  · exact .inr ⟨rfl, by rw [BreakerState.read, if_neg (by simp [hdue])]⟩
  · exact .inl ⟨rfl, by rw [BreakerState.read, if_pos hdue, readState, if_pos hdue]⟩

theorem breakerStep_finish {id : Nat} {ending : Ending}
    (h : breakerStep cfg s (.finish id ending) = some s') :
    ∃ call ∈ s.calls, call.id = id ∧ s' = s.finish cfg call ending := by
  obtain ⟨call, hfind, rfl⟩ := Option.map_eq_some_iff.mp h
  exact ⟨call, List.mem_of_find?_eq_some hfind, by simpa using List.find?_some hfind, rfl⟩

/-- A property that every part of a step preserves is an invariant. -/
theorem invariant_of_parts {P : BreakerState T → Prop}
    (htick : ∀ s time, s.now ≤ time → P s → P { s with now := time })
    (hread : ∀ s, P s → P (s.read cfg)) (hstart : ∀ s, P s → P (s.start cfg))
    (hfinish : ∀ s, ∀ call ∈ s.calls, ∀ ending, P s → P (s.finish cfg call ending))
    (s : BreakerState T) (e : BreakerEvent T) (s' : BreakerState T) (hs : P s)
    (h : (breakerSystem cfg).step s e = some s') : P s' := by
  cases e with
  | tick time =>
    obtain ⟨hle, h⟩ := Option.ite_none_right_eq_some.mp h
    cases h
    exact htick s time hle hs
  | readState =>
    cases h
    exact hread s hs
  | execute =>
    cases h
    exact hstart _ (hread s hs)
  | finish id ending =>
    obtain ⟨call, hcall, -, rfl⟩ := breakerStep_finish h
    exact hfinish s call hcall ending hs

/-! ## Wedged breakers -/

/-- The breaker is not wedged: when it rejects calls in `HALF_OPEN`, a probe is in flight. -/
def NotWedged (cfg : BreakerConfig T) (s : BreakerState T) : Prop :=
  s.breaker.state = .halfOpen → cfg.halfOpenMax ≤ s.breaker.halfOpenCalls →
    ∃ call ∈ s.calls, call.admitted = .halfOpen

/-- No probe is in flight but the call. -/
def LastProbe (s : BreakerState T) (id : Nat) : Prop :=
  ∀ call ∈ s.calls, call.admitted = .halfOpen → call.id = id

/-- The step leaves a probe in flight: a `HALF_OPEN` period begins only if it admits a call, and
while all slots are taken the last probe is not cancelled and does not raise
`CircuitBreakerError`. -/
def LeavesProbe (cfg : BreakerConfig T) (s : BreakerState T) : BreakerEvent T → Prop
  | .tick _ => True
  | .readState | .execute => s.breaker.isDue cfg s.now = true → 0 < cfg.halfOpenMax
  | .finish _ .returned | .finish _ .raised => True
  | .finish id .raisedBreakerError | .finish id .cancelled =>
    ¬ (s.breaker.state = .halfOpen ∧ cfg.halfOpenMax ≤ s.breaker.halfOpenCalls ∧ LastProbe s id)

/-- There are probes only if a period admits them. -/
def ProbesAdmitted (cfg : BreakerConfig T) (s : BreakerState T) : Prop :=
  ∀ call ∈ s.calls, call.admitted = .halfOpen → 0 < cfg.halfOpenMax

theorem probesAdmitted_step (s : BreakerState T) (e : BreakerEvent T) (s' : BreakerState T)
    (hs : ProbesAdmitted cfg s) (h : (breakerSystem cfg).step s e = some s') :
    ProbesAdmitted cfg s' := by
  refine invariant_of_parts (fun s time _ hs => hs) ?_ ?_ ?_ s e s' hs h
  · intro s hs
    rcases read_cases cfg s with ⟨-, heq⟩ | ⟨-, heq⟩
    · rw [heq]
      exact hs
    · rw [heq]
      exact hs
  · intro s hs
    rcases start_cases cfg s with ⟨heq, -⟩ | ⟨-, heq⟩ | ⟨-, hfree, heq⟩
    · rw [heq]
      exact hs
    · rw [heq]
      exact List.forall_mem_cons.mpr ⟨(fun hc => by cases hc), hs⟩
    · rw [heq]
      exact List.forall_mem_cons.mpr ⟨fun _ => by omega, hs⟩
  · intro s call _ ending hs c hc
    exact hs c (List.mem_of_mem_filter hc)

theorem notWedged_read (hprobes : ProbesAdmitted cfg s) (hs : NotWedged cfg s) :
    NotWedged cfg (s.read cfg) ↔ (s.breaker.isDue cfg s.now = true → 0 < cfg.halfOpenMax) := by
  rcases read_cases cfg s with ⟨hdue, heq⟩ | ⟨hdue, heq⟩
  · rw [heq, imp_iff_right hdue]
    constructor
    · intro hs'
      by_contra hmax
      obtain ⟨call, hcall, hadmitted⟩ := hs' rfl (by simpa using hmax)
      exact hmax (hprobes call hcall hadmitted)
    · intro hmax _ hfull
      exact absurd hfull (by simpa using hmax)
  · rw [heq, hdue]
    exact iff_of_true hs fun h => by cases h

omit [AddCommGroup T] [LinearOrder T] in
theorem notWedged_start (s : BreakerState T) : NotWedged cfg (s.start cfg) ↔ NotWedged cfg s := by
  rcases start_cases cfg s with ⟨heq, -⟩ | ⟨hstate, heq⟩ | ⟨-, hfree, heq⟩
  · rw [heq]
  · rw [heq]
    refine iff_of_true (fun h => ?_) fun h => ?_
    · rw [hstate] at h
      cases h
    · rw [hstate] at h
      cases h
  · rw [heq]
    refine iff_of_true (fun _ _ => ⟨_, List.mem_cons_self, rfl⟩) ?_
    intro _ hfull
    omega

omit [AddCommGroup T] [LinearOrder T] in
/-- A call that ends without a verdict. -/
theorem notWedged_finish {call : BreakerCall} {ending : Ending}
    (hbreaker : s.breaker.conclude cfg s.now ending = s.breaker) :
    NotWedged cfg (s.finish cfg call ending) ↔
      ¬ (s.breaker.state = .halfOpen ∧ cfg.halfOpenMax ≤ s.breaker.halfOpenCalls ∧
        LastProbe s call.id) := by
  rw [NotWedged, BreakerState.finish, hbreaker]
  constructor
  · rintro hs' ⟨hstate, hfull, hlast⟩
    obtain ⟨c, hc, hadmitted⟩ := hs' hstate hfull
    obtain ⟨hmem, hne⟩ := List.mem_filter.mp hc
    exact absurd (hlast c hmem hadmitted) (by simpa using hne)
  · intro hnot hstate hfull
    have hother : ¬ LastProbe s call.id := fun hlast => hnot ⟨hstate, hfull, hlast⟩
    rw [LastProbe] at hother
    push Not at hother
    obtain ⟨c, hc, hadmitted, hne⟩ := hother
    exact ⟨c, List.mem_filter.mpr ⟨hc, by simpa using hne⟩, hadmitted⟩

theorem notWedged_step (s : BreakerState T) (e : BreakerEvent T) (s' : BreakerState T)
    (hprobes : ProbesAdmitted cfg s) (hs : NotWedged cfg s)
    (h : (breakerSystem cfg).step s e = some s') : NotWedged cfg s' ↔ LeavesProbe cfg s e := by
  cases e with
  | tick time =>
    obtain ⟨-, h⟩ := Option.ite_none_right_eq_some.mp h
    cases h
    exact iff_of_true hs trivial
  | readState =>
    cases h
    exact notWedged_read hprobes hs
  | execute =>
    cases h
    exact (notWedged_start _).trans (notWedged_read hprobes hs)
  | finish id ending =>
    obtain ⟨call, hcall, rfl, rfl⟩ := breakerStep_finish h
    cases ending with
    | returned => exact iff_of_true (fun hstate => absurd hstate (state_onSuccess _)) trivial
    | raised => exact iff_of_true (fun hstate => absurd hstate (state_onFailure _ _ _)) trivial
    | raisedBreakerError => exact notWedged_finish rfl
    | cancelled => exact notWedged_finish rfl

/-- **Wedged breakers.** In every state of a run the breaker is not wedged if and only if every
step of the run leaves a probe in flight. -/
theorem notWedged_iff (cfg : BreakerConfig T) (steps : List (BreakerState T × BreakerEvent T))
    (s : BreakerState T) (run : (breakerSystem cfg).Run steps s) :
    Always (NotWedged cfg) steps s ↔ Meets (LeavesProbe cfg) steps := by
  refine run.always_iff (fun call hcall => by cases hcall) probesAdmitted_step ?_ notWedged_step
  intro hstate
  cases hstate

/-- The breaker is wedged, and no call is in flight that could end. -/
structure Stuck (cfg : BreakerConfig T) (s : BreakerState T) : Prop where
  halfOpen : s.breaker.state = .halfOpen
  full : cfg.halfOpenMax ≤ s.breaker.halfOpenCalls
  alone : s.calls = []

/-- A stuck breaker stays stuck, and starts no call. -/
theorem Stuck.step {e : BreakerEvent T} (hs : Stuck cfg s)
    (h : (breakerSystem cfg).step s e = some s') : Stuck cfg s' ∧ s'.record = s.record := by
  have hread : s.read cfg = s := by
    rcases read_cases cfg s with ⟨hdue, -⟩ | ⟨-, heq⟩
    · rw [isDue_iff, hs.halfOpen] at hdue
      cases hdue.1
    · exact heq
  -- the places of the probes are taken, so the call is refused
  have hstart : s.start cfg = s := by
    rcases start_cases cfg s with ⟨heq, -⟩ | ⟨hclosed, -⟩ | ⟨-, hfree, -⟩
    · exact heq
    · rw [hs.halfOpen] at hclosed
      cases hclosed
    · exact absurd hs.full (not_le.mpr hfree)
  cases e with
  | tick time =>
    obtain ⟨-, h⟩ := Option.ite_none_right_eq_some.mp h
    cases h
    exact ⟨⟨hs.halfOpen, hs.full, hs.alone⟩, rfl⟩
  | readState =>
    cases h
    rw [hread]
    exact ⟨hs, rfl⟩
  | execute =>
    cases h
    rw [hread, hstart]
    exact ⟨hs, rfl⟩
  | finish id ending =>
    -- no call is in flight that could end
    obtain ⟨call, hcall, -, -⟩ := breakerStep_finish h
    rw [hs.alone] at hcall
    cases hcall

/-- A stuck breaker rejects all calls from then on. -/
theorem Stuck.forever {es : List (BreakerEvent T)} (hs : Stuck cfg s)
    (h : (breakerSystem cfg).exec s es = some s') : Stuck cfg s' ∧ s'.record = s.record := by
  refine exec_invariant (P := fun s' => Stuck cfg s' ∧ s'.record = s.record) ?_ ⟨hs, rfl⟩ h
  rintro s₁ e s₂ ⟨hs₁, hrecord⟩ hstep
  obtain ⟨hs₂, hsame⟩ := hs₁.step hstep
  exact ⟨hs₂, hsame.trans hrecord⟩

/-- A breaker that opens at the first failure, for one second. -/
def hasty : BreakerConfig Int := ⟨1, 1, 1⟩

/-- A call fails, and the probe that follows is cancelled. -/
def abandonedProbe : List (BreakerEvent Int) :=
  [.execute, .finish 0 .raised, .tick 1, .execute, .finish 1 .cancelled]

/-- The state after that. -/
def abandoned : BreakerState Int where
  breaker := ⟨.halfOpen, 1, 0, 0, 1⟩
  now := 1
  calls := []
  nextId := 2
  periods := 1
  periodStart := 1
  record := [.started ⟨1, .halfOpen, 1⟩ 1, .failed 0 .open, .started ⟨0, .closed, 0⟩ 0]

theorem reachable_abandoned : (breakerSystem hasty).Reachable abandoned :=
  reachable_of_exec abandonedProbe (by decide +kernel)

theorem abandoned_forever : ∃ s, (breakerSystem hasty).exec abandoned [.tick 60, .execute] = some s ∧
    s.record = abandoned.record :=
  have h : (breakerSystem hasty).exec abandoned [.tick 60, .execute] = some { abandoned with now := 60 } := by
    decide +kernel
  ⟨_, h, (Stuck.forever ⟨rfl, by decide, rfl⟩ h).2⟩

theorem abandoned_notWedged_iff : ∃ steps, (breakerSystem hasty).Run steps abandoned ∧
    (Always (NotWedged hasty) steps abandoned ↔ Meets (LeavesProbe hasty) steps) := by
  obtain ⟨steps, run⟩ := reachable_abandoned
  exact ⟨steps, run, notWedged_iff hasty steps abandoned run⟩

/-- After the cancelled probe the breaker is wedged. -/
theorem abandoned_wedged :
    ∃ s, (breakerSystem hasty).Reachable s ∧ ¬ NotWedged hasty s := by
  refine ⟨abandoned, reachable_abandoned, fun h => ?_⟩
  obtain ⟨call, hcall, -⟩ := h rfl (by decide)
  cases hcall

/-! ## Admission -/

/-- The time of the last failure on record that left the circuit open. -/
def lastOpenFailure : List (BreakerEntry T) → Option T
  | [] => none
  | .failed time .open :: _ => some time
  | _ :: record => lastOpenFailure record

/-- No call on record was started while less than the timeout had passed since the last failure
before it that left the circuit open. -/
def Paced (timeout : T) : List (BreakerEntry T) → Prop
  | [] => True
  | .started _ time :: record =>
    (∀ opened ∈ lastOpenFailure record, timeout ≤ time - opened) ∧ Paced timeout record
  | _ :: record => Paced timeout record

/-- The number of calls that were started in a `HALF_OPEN` period. -/
def probesIn (period : Nat) (record : List (BreakerEntry T)) : Nat :=
  record.countP fun entry =>
    match entry with
    | .started call _ => call.admitted = .halfOpen && call.period = period
    | _ => false

omit [AddCommGroup T] [LinearOrder T] in
@[simp] theorem probesIn_failed (period : Nat) (time : T) (left : CircuitState)
    (record : List (BreakerEntry T)) :
    probesIn period (.failed time left :: record) = probesIn period record := by
  simp [probesIn]

omit [AddCommGroup T] [LinearOrder T] in
@[simp] theorem probesIn_closed (period : Nat) (call : BreakerCall) (ended : Nat)
    (record : List (BreakerEntry T)) :
    probesIn period (.closed call ended :: record) = probesIn period record := by
  simp [probesIn]

/-- What admission promises. -/
structure Disciplined (cfg : BreakerConfig T) (s : BreakerState T) : Prop where
  paced : Paced cfg.recoveryTimeout s.record
  below : s.breaker.state = .closed → s.breaker.failureCount < cfg.failureThreshold
  probes : ∀ period, probesIn period s.record ≤ cfg.halfOpenMax.toNat

/-- What keeps the promises: an open circuit waits from its last failure, and a `HALF_OPEN`
period counts its calls. -/
structure AdmissionInv (cfg : BreakerConfig T) (s : BreakerState T) : Prop extends
    Disciplined cfg s where
  waits : ∀ opened ∈ lastOpenFailure s.record,
    (s.breaker.state = .open ∧ s.breaker.lastFailureTime = opened) ∨
      cfg.recoveryTimeout ≤ s.now - opened
  counts : s.breaker.state = .halfOpen → probesIn s.periods s.record = s.breaker.halfOpenCalls
  later : ∀ period, s.periods < period → probesIn period s.record = 0

theorem admissionInv_init (hthreshold : 1 ≤ cfg.failureThreshold) :
    AdmissionInv cfg (breakerSystem cfg).init where
  paced := trivial
  below _ := by
    show ((0 : Nat) : Int) < cfg.failureThreshold
    omega
  probes _ := Nat.zero_le _
  waits opened h := by cases h
  counts h := by cases h
  later _ _ := rfl

theorem AdmissionInv.tick [IsOrderedAddMonoid T] {time : T} (hs : AdmissionInv cfg s)
    (hle : s.now ≤ time) : AdmissionInv cfg { s with now := time } :=
  { hs with
    waits := fun opened h => by
      rcases hs.waits opened h with hopen | hover
      · exact .inl hopen
      · exact .inr (hover.trans (sub_le_sub_right hle opened)) }

theorem AdmissionInv.read (hs : AdmissionInv cfg s) : AdmissionInv cfg (s.read cfg) := by
  rcases read_cases cfg s with ⟨hdue, heq⟩ | ⟨-, heq⟩
  · obtain ⟨hopen, hover⟩ := isDue_iff.mp hdue
    rw [heq]
    refine { paced := hs.paced, below := fun h => (by cases h), probes := hs.probes,
             waits := fun opened h => ?_, counts := fun _ => hs.later _ (Nat.lt_succ_self _),
             later := fun period h => hs.later period (Nat.lt_of_succ_lt h) }
    rcases hs.waits opened h with ⟨-, rfl⟩ | hover'
    · exact .inr hover
    · exact .inr hover'
  · rw [heq]
    exact hs

/-- A call that is started, with its effect on the record. -/
theorem AdmissionInv.paced_started (hs : AdmissionInv cfg s) (hstate : s.breaker.state ≠ .open)
    (call : BreakerCall) : Paced cfg.recoveryTimeout (.started call s.now :: s.record) := by
  refine ⟨fun opened h => ?_, hs.paced⟩
  rcases hs.waits opened h with ⟨hopen, -⟩ | hover
  · exact absurd hopen hstate
  · exact hover

theorem AdmissionInv.start (hs : AdmissionInv cfg s) : AdmissionInv cfg (s.start cfg) := by
  rcases start_cases cfg s with ⟨heq, -⟩ | ⟨hstate, heq⟩ | ⟨hstate, hfree, heq⟩
  · rw [heq]
    exact hs
  · have hpaced := hs.paced_started (by rw [hstate]; decide) ⟨s.nextId, .closed, s.periods⟩
    rw [heq]
    exact { hs with paced := hpaced }
  · have hpaced := hs.paced_started (by rw [hstate]; decide) ⟨s.nextId, .halfOpen, s.periods⟩
    -- the probe that starts is counted, in the period and in the record alike
    have hcounts := hs.counts hstate
    have hcons : ∀ period, probesIn period
        (.started ⟨s.nextId, .halfOpen, s.periods⟩ s.now :: s.record) =
          probesIn period s.record + if s.periods = period then 1 else 0 := by
      intro period
      rw [probesIn, List.countP_cons]
      by_cases h : s.periods = period <;> simp [h, probesIn]
    rw [heq]
    refine { paced := hpaced, below := fun h => ?_, probes := fun period => ?_,
             waits := hs.waits, counts := fun _ => ?_, later := fun period h => ?_ }
    · rw [hstate] at h
      cases h
    · rw [hcons]
      split
      next h =>
        rw [← h, hcounts]
        omega
      next h => exact hs.probes period
    · rw [hcons, if_pos rfl, hcounts]
    · have h' : s.periods < period := h
      rw [hcons, if_neg (by omega), hs.later period h']

theorem AdmissionInv.succeed (hthreshold : 1 ≤ cfg.failureThreshold) (hs : AdmissionInv cfg s)
    (call : BreakerCall) : AdmissionInv cfg (s.finish cfg call .returned) := by
  have hbelow : ((0 : Nat) : Int) < cfg.failureThreshold := by omega
  -- a success closes a half-open circuit, and else only resets the counter
  by_cases hstate : s.breaker.state = .halfOpen
  · have heq : s.finish cfg call .returned = { s with
        breaker := { s.breaker with
          failureCount := 0, successCount := s.breaker.successCount + 1, state := .closed }
        calls := s.calls.filter (·.id ≠ call.id)
        record := .closed call s.periods :: s.record } := by
      simp [BreakerState.finish, conclude, onSuccess, entryOf, hstate]
    rw [heq]
    refine { paced := hs.paced, below := fun _ => hbelow, probes := fun period => ?_,
             waits := fun opened h => ?_, counts := fun h => (by cases h),
             later := fun period h => ?_ }
    · rw [probesIn_closed]
      exact hs.probes period
    · rcases hs.waits opened h with ⟨hopen, -⟩ | hover
      · rw [hstate] at hopen
        cases hopen
      · exact .inr hover
    · rw [probesIn_closed]
      exact hs.later period h
  · have heq : s.finish cfg call .returned = { s with
        breaker := { s.breaker with
          failureCount := 0, successCount := s.breaker.successCount + 1 }
        calls := s.calls.filter (·.id ≠ call.id) } := by
      simp [BreakerState.finish, conclude, onSuccess, entryOf, hstate]
    rw [heq]
    exact { hs with below := fun _ => hbelow }

theorem AdmissionInv.fail (hs : AdmissionInv cfg s) (call : BreakerCall) :
    AdmissionInv cfg (s.finish cfg call .raised) := by
  have hstate' : (s.finish cfg call .raised).breaker.state = (s.breaker.onFailure cfg s.now).state :=
    rfl
  have hrecord : (s.finish cfg call .raised).record =
      .failed s.now (s.breaker.onFailure cfg s.now).state :: s.record := rfl
  -- A failure that leaves the circuit closed found it closed, with a counter below the threshold.
  have hclosed : (s.breaker.onFailure cfg s.now).state = .closed →
      s.breaker.state = .closed ∧ (s.breaker.failureCount : Int) + 1 < cfg.failureThreshold := by
    intro h
    rw [onFailure] at h
    dsimp only at h
    split at h
    · cases h
    · split at h
      · cases h
      next hcount => exact ⟨h, by omega⟩
  refine { paced := ?_, below := fun h => ?_, probes := fun period => ?_,
           waits := fun opened h => ?_, counts := fun h => absurd h (state_onFailure _ _ _),
           later := fun period h => ?_ }
  · rw [hrecord]
    exact hs.paced
  · exact_mod_cast (hclosed h).2
  · rw [hrecord, probesIn_failed]
    exact hs.probes period
  · rw [hrecord] at h
    rcases hleft : (s.breaker.onFailure cfg s.now).state with _ | _ | _
    · rw [hleft] at h
      rcases hs.waits opened h with ⟨hopen, -⟩ | hover
      · rw [(hclosed hleft).1] at hopen
        cases hopen
      · exact .inr hover
    · rw [hleft] at h
      cases h
      exact .inl ⟨hstate'.trans hleft, rfl⟩
    · exact absurd hleft (state_onFailure _ _ _)
  · rw [hrecord, probesIn_failed]
    exact hs.later period h

theorem AdmissionInv.finish (hthreshold : 1 ≤ cfg.failureThreshold) (hs : AdmissionInv cfg s)
    (call : BreakerCall) (ending : Ending) : AdmissionInv cfg (s.finish cfg call ending) := by
  cases ending with
  | returned => exact hs.succeed hthreshold call
  | raised => exact hs.fail call
  | raisedBreakerError => exact { hs with }
  | cancelled => exact { hs with }

/-- **Admission discipline.** In every reachable state of a breaker with a positive threshold:
calls wait for the recovery timeout, a closed circuit counts fewer failures than the threshold,
and no `HALF_OPEN` period has started more calls than it may. -/
theorem disciplined [IsOrderedAddMonoid T] (cfg : BreakerConfig T)
    (hthreshold : 1 ≤ cfg.failureThreshold) (s : BreakerState T)
    (h : (breakerSystem cfg).Reachable s) : Disciplined cfg s := by
  have hinv : AdmissionInv cfg s := by
    refine h.invariant (admissionInv_init hthreshold) ?_
    refine invariant_of_parts (fun s time hle hs => hs.tick hle) (fun s hs => hs.read)
      (fun s hs => hs.start) fun s call _ ending hs => hs.finish hthreshold call ending
  exact hinv.toDisciplined

theorem abandoned_disciplined : Disciplined hasty abandoned :=
  disciplined hasty (by decide) abandoned reachable_abandoned

/-! ## Closing the circuit -/

/-- Every call that has closed the circuit was admitted in the period that it ended. -/
def OnlyProbesClose (s : BreakerState T) : Prop :=
  ∀ call period, .closed call period ∈ s.record → call.admitted = .halfOpen ∧ call.period = period

/-- A call that returns in a `HALF_OPEN` period was started after the period began. -/
def NoLateSuccess (s : BreakerState T) : BreakerEvent T → Prop
  | .finish id .returned => s.breaker.state = .halfOpen → s.periodStart ≤ id
  | _ => True

/-- The calls that were started since a `HALF_OPEN` period began, are its probes. -/
structure ProbesInv (s : BreakerState T) : Prop where
  ids : ∀ call ∈ s.calls, call.id < s.nextId
  periods : ∀ call ∈ s.calls, call.period ≤ s.periods
  begun : s.periodStart ≤ s.nextId
  probes : s.breaker.state = .halfOpen → ∀ call ∈ s.calls,
    (s.periodStart ≤ call.id ↔ call.admitted = .halfOpen ∧ call.period = s.periods)

theorem ProbesInv.read (hs : ProbesInv s) : ProbesInv (s.read cfg) := by
  rcases read_cases cfg s with ⟨-, heq⟩ | ⟨-, heq⟩
  · rw [heq]
    refine { ids := hs.ids, periods := fun call h => (hs.periods call h).trans (Nat.le_succ _),
             begun := le_rfl, probes := fun _ call h => ?_ }
    refine iff_of_false (not_le.mpr (hs.ids call h)) ?_
    rintro ⟨-, hperiod⟩
    have hle := hs.periods call h
    have hperiod' : call.period = s.periods + 1 := hperiod
    omega
  · rw [heq]
    exact hs

omit [AddCommGroup T] [LinearOrder T] in
theorem ProbesInv.start (hs : ProbesInv s) : ProbesInv (s.start cfg) := by
  have hids : ∀ call ∈ s.calls, call.id < s.nextId + 1 :=
    fun call h => Nat.lt_succ_of_lt (hs.ids call h)
  rcases start_cases cfg s with ⟨heq, -⟩ | ⟨hstate, heq⟩ | ⟨hstate, -, heq⟩
  · rw [heq]
    exact hs
  · rw [heq]
    refine { ids := List.forall_mem_cons.mpr ⟨Nat.lt_succ_self _, hids⟩,
             periods := List.forall_mem_cons.mpr ⟨le_rfl, hs.periods⟩,
             begun := hs.begun.trans (Nat.le_succ _), probes := fun h => ?_ }
    rw [hstate] at h
    cases h
  · rw [heq]
    exact { ids := List.forall_mem_cons.mpr ⟨Nat.lt_succ_self _, hids⟩,
            periods := List.forall_mem_cons.mpr ⟨le_rfl, hs.periods⟩,
            begun := hs.begun.trans (Nat.le_succ _),
            probes := fun _ => List.forall_mem_cons.mpr
              ⟨iff_of_true hs.begun ⟨rfl, rfl⟩, hs.probes hstate⟩ }

omit [AddCommGroup T] [LinearOrder T] in
theorem ProbesInv.finish (hs : ProbesInv s) (call : BreakerCall) (ending : Ending) :
    ProbesInv (s.finish cfg call ending) := by
  have hstate : (s.breaker.conclude cfg s.now ending).state = .halfOpen →
      s.breaker.state = .halfOpen := by
    cases ending with
    | returned => exact fun h => absurd h (state_onSuccess _)
    | raised => exact fun h => absurd h (state_onFailure _ _ _)
    | raisedBreakerError => exact id
    | cancelled => exact id
  exact { ids := fun c h => hs.ids c (List.mem_of_mem_filter h),
          periods := fun c h => hs.periods c (List.mem_of_mem_filter h),
          begun := hs.begun,
          probes := fun h c hc => hs.probes (hstate h) c (List.mem_of_mem_filter hc) }

theorem probesInv_step (s : BreakerState T) (e : BreakerEvent T) (s' : BreakerState T)
    (hs : ProbesInv s) (h : (breakerSystem cfg).step s e = some s') : ProbesInv s' :=
  invariant_of_parts (fun _ _ _ hs => { hs with }) (fun _ hs => hs.read) (fun _ hs => hs.start)
    (fun _ call _ ending hs => hs.finish call ending) s e s' hs h

theorem onlyProbesClose_step (s : BreakerState T) (e : BreakerEvent T) (s' : BreakerState T)
    (hinv : ProbesInv s) (hs : OnlyProbesClose s) (h : (breakerSystem cfg).step s e = some s') :
    OnlyProbesClose s' ↔ NoLateSuccess s e := by
  have hread : ∀ s : BreakerState T, (s.read cfg).record = s.record := by
    intro s
    rcases read_cases cfg s with ⟨-, heq⟩ | ⟨-, heq⟩
    · rw [heq]
    · rw [heq]
  have hstart : ∀ s : BreakerState T, OnlyProbesClose s → OnlyProbesClose (s.start cfg) := by
    intro s hs call period hmem
    rcases start_cases cfg s with ⟨heq, -⟩ | ⟨-, heq⟩ | ⟨-, -, heq⟩
    · rw [heq] at hmem
      exact hs call period hmem
    · rw [heq] at hmem
      exact hs call period ((List.mem_cons.mp hmem).resolve_left fun h => by cases h)
    · rw [heq] at hmem
      exact hs call period ((List.mem_cons.mp hmem).resolve_left fun h => by cases h)
  cases e with
  | tick time =>
    obtain ⟨-, h⟩ := Option.ite_none_right_eq_some.mp h
    cases h
    exact iff_of_true hs trivial
  | readState =>
    cases h
    refine iff_of_true ?_ trivial
    rw [OnlyProbesClose, hread]
    exact hs
  | execute =>
    cases h
    refine iff_of_true (hstart _ ?_) trivial
    rw [OnlyProbesClose, hread]
    exact hs
  | finish id ending =>
    obtain ⟨call, hcall, rfl, rfl⟩ := breakerStep_finish h
    cases ending with
    | returned =>
      -- only a success in the half-open state closes the circuit
      by_cases hstate : s.breaker.state = .halfOpen
      · have hrecord : (s.finish cfg call .returned).record = .closed call s.periods :: s.record := by
          simp [BreakerState.finish, entryOf, hstate]
        show OnlyProbesClose _ ↔ (s.breaker.state = .halfOpen → s.periodStart ≤ call.id)
        -- the call that closes it is a probe if and only if it started in this half-open period
        rw [imp_iff_right hstate, hinv.probes hstate call hcall, OnlyProbesClose, hrecord]
        constructor
        · intro hall
          exact hall call s.periods List.mem_cons_self
        · rintro hprobe c period hmem
          rcases List.mem_cons.mp hmem with heq | hmem
          · cases heq
            exact hprobe
          · exact hs c period hmem
      · refine iff_of_true ?_ fun h => absurd h hstate
        have hrecord : (s.finish cfg call .returned).record = s.record := by
          simp [BreakerState.finish, entryOf, hstate]
        rw [OnlyProbesClose, hrecord]
        exact hs
    | raised =>
      refine iff_of_true (fun c period hmem => ?_) trivial
      exact hs c period ((List.mem_cons.mp hmem).resolve_left fun h => by cases h)
    | raisedBreakerError => exact iff_of_true hs trivial
    | cancelled => exact iff_of_true hs trivial

/-- **Closing the circuit.** All along a run every transition from `HALF_OPEN` to `CLOSED` is by
a call of the period that it ends, if and only if no call from before a `HALF_OPEN` period
returns in it. -/
theorem onlyProbesClose_iff (cfg : BreakerConfig T)
    (steps : List (BreakerState T × BreakerEvent T)) (s : BreakerState T)
    (run : (breakerSystem cfg).Run steps s) :
    Always OnlyProbesClose steps s ↔ Meets NoLateSuccess steps := by
  refine run.always_iff (I := ProbesInv) ?_ probesInv_step (fun call period h => by cases h)
    onlyProbesClose_step
  exact { ids := fun call h => (by cases h), periods := fun call h => (by cases h),
          begun := le_rfl, probes := fun h => by cases h }

/-- One of two calls fails, and the other one returns after the recovery timeout. -/
def lateSuccess : List (BreakerEvent Int) :=
  [.execute, .execute, .finish 1 .raised, .tick 1, .readState, .finish 0 .returned]

/-- The state after that. -/
def closedLate : BreakerState Int where
  breaker := ⟨.closed, 0, 1, 0, 0⟩
  now := 1
  calls := []
  nextId := 2
  periods := 1
  periodStart := 2
  record := [.closed ⟨0, .closed, 0⟩ 1, .failed 0 .open, .started ⟨1, .closed, 0⟩ 0,
    .started ⟨0, .closed, 0⟩ 0]

theorem reachable_closedLate : (breakerSystem hasty).Reachable closedLate :=
  reachable_of_exec lateSuccess (by decide +kernel)

theorem closedLate_onlyProbesClose_iff : ∃ steps, (breakerSystem hasty).Run steps closedLate ∧
    (Always OnlyProbesClose steps closedLate ↔ Meets NoLateSuccess steps) := by
  obtain ⟨steps, run⟩ := reachable_closedLate
  exact ⟨steps, run, onlyProbesClose_iff hasty steps closedLate run⟩

/-- The call that was admitted before the circuit opened closes it. -/
theorem closedLate_not_onlyProbesClose :
    ∃ s, (breakerSystem hasty).Reachable s ∧ ¬ OnlyProbesClose s := by
  refine ⟨closedLate, reachable_closedLate, fun h => ?_⟩
  cases (h ⟨0, .closed, 0⟩ 1 List.mem_cons_self).1

end Steps

end Noema.Resilience
