import Noema.Federation.Router

/-!
# Runs of the federation router

A delegation leaves through one of six exits, and each of them is `finish`: one entry for the ledger
and one result. `RouterInv` says what that keeps true of all delegations at once: a delegation that
is done has a result for its own sub-task (`Faithful`), and the entries that the ledger was given
are, up to order, those of the results.

- `step_cases`: which part of a `delegate` a step runs, and of which delegation. The invariant is
  derived from it by `RouterInv.move` and `RouterInv.finish`, and nothing later unfolds a step.
- `remaining_step`, `step_of_remaining`: every step takes a delegation closer to its end, and a
  delegation that is not at its end can take one. So a run cannot go on for ever, and a run that is
  stuck is over.
- `mapM_result_iff`, `eq_map_done`: the results in the order of the sub-tasks, when all have one.
- **`executes`**: on responses with readable numbers, a run raises nothing, comes to an end, returns
  one result for every sub-task, and has given the ledger one entry for every result.
- `not_oneResultEach`: without sub-tasks there is a result for the title, and a cost that is no
  number is raised.
-/

namespace Noema.Federation

open Noema.Lib PyJson Noema.Billing System

variable {F : Type}

/-! ## Results -/

/-- A result that `delegate` may return for a sub-task. -/
structure Faithful (job : Job) (index : Nat) (result : DelegationResult F) : Prop where
  id : result.subtaskId = job.subtaskId index
  description : job.descriptions[index]? = some result.description
  status : result.status = .delegated ∨ result.status = .local ∨ result.status = .failed
  peer : result.peer ≠ "" ↔ result.status = .delegated

theorem address_ne_empty (peer : PeerNode) : peer.address ≠ "" := by
  intro h
  have hlen := congrArg String.length h
  rw [PeerNode.address, String.length_append, String.length_append] at hlen
  have hcolon : ":".length = 1 := rfl
  have hempty : "".length = 0 := rfl
  omega

theorem mem_addresses_ne_empty {router : FederationRouter} {address : String}
    (h : address ∈ router.addresses) : address ≠ "" := by
  rw [FederationRouter.addresses, List.mem_eraseDups] at h
  obtain ⟨peer, -, rfl⟩ := List.mem_map.mp h
  exact address_ne_empty peer

theorem description_result {job : Job} {index : Nat} (hindex : index < job.descriptions.length) :
    job.descriptions[index]? = some (job.result index : DelegationResult F).description := by
  rw [Job.result, List.getD_eq_getElem?_getD, List.getElem?_eq_getElem hindex]
  rfl

/-- The results of the delegations, when all have one. -/
theorem mapM_result_iff {ds : List (Delegation F)} {results : List (DelegationResult F)} :
    ds.mapM Delegation.result? = some results ↔ ds = results.map .done := by
  induction ds generalizing results with
  | nil =>
    rw [List.mapM_nil]
    constructor
    · intro h
      cases h
      rfl
    · intro h
      rw [List.map_eq_nil_iff.mp h.symm]
      rfl
  | cons d ds ih =>
    rw [List.mapM_cons]
    constructor
    · intro h
      obtain ⟨r, hr, h⟩ := Option.bind_eq_some_iff.mp h
      obtain ⟨rs, hrs, h⟩ := Option.bind_eq_some_iff.mp h
      cases h
      cases d with
      -- `mapM` is done only when every delegation has its result
      | done result =>
        cases hr
        rw [ih.mp hrs, List.map_cons]
      | _ => cases hr
    · intro h
      cases results with
      | nil => cases h
      | cons r rs =>
        rw [List.map_cons, List.cons.injEq] at h
        rw [h.1, ih.mpr h.2]
        rfl

/-- What `execute` returns has lost and duplicated nothing. -/
structure Complete (job : Job) (summary : Summary F) : Prop where
  length : summary.subtasks.length = job.descriptions.length
  each : ∀ i result, summary.subtasks[i]? = some result → Faithful job i result
  total : summary.total = job.descriptions.length
  counts : summary.delegated + summary.local + summary.failed = summary.total

theorem counts_of_status {results : List (DelegationResult F)}
    (h : ∀ r ∈ results, r.status = .delegated ∨ r.status = .local ∨ r.status = .failed) :
    (results.countP fun r => r.status = .delegated) + (results.countP fun r => r.status = .local) +
      (results.countP fun r => r.status = .failed) = results.length := by
  induction results with
  | nil => rfl
  | cons r results ih =>
    obtain ⟨hr, hrest⟩ := List.forall_mem_cons.mp h
    have hcount := ih hrest
    rw [List.countP_cons, List.countP_cons, List.countP_cons, List.length_cons]
    rcases hr with hr | hr | hr
    · simp only [hr, reduceCtorEq, decide_true, decide_false, if_true, Bool.false_eq_true, if_false]
      omega
    · simp only [hr, reduceCtorEq, decide_true, decide_false, if_true, Bool.false_eq_true, if_false]
      omega
    · simp only [hr, reduceCtorEq, decide_true, decide_false, if_true, Bool.false_eq_true, if_false]
      omega

/-- Delegations that all have a result. -/
theorem eq_map_done {ds : List (Delegation F)} (h : ∀ d ∈ ds, ∃ result, d = .done result) :
    ds = (ds.filterMap Delegation.result?).map .done := by
  induction ds with
  | nil => rfl
  | cons d ds ih =>
    obtain ⟨⟨result, rfl⟩, hrest⟩ := List.forall_mem_cons.mp h
    rw [List.filterMap_cons_some (f := Delegation.result?) rfl, List.map_cons, ← ih hrest]

/-- The awaits that are left to a delegation, its start included. -/
def Delegation.remaining : Delegation F → Nat
  | .waiting => 3
  | .delegating _ => 2
  | .runningLocal _ => 1
  | .done _ => 0
  | .raised _ => 0

/-- The awaits that are left to all of them. -/
def FederationState.remaining (s : FederationState F) : Nat :=
  (s.delegations.map Delegation.remaining).sum

/-- What holds of a delegation with an index. -/
def Sound (job : Job) (index : Nat) : Delegation F → Prop
  | .delegating address => address ≠ ""
  | .done result => Faithful job index result
  | .raised _ => False
  | _ => True

/-! ## One element of a list -/

section Set

variable {α β : Type} {l : List α} {i : Nat} {x y : α}

theorem filterMap_set_perm {f : α → Option β} {b : β} (hx : l[i]? = some x) (hfx : f x = none)
    (hfy : f y = some b) : ((l.set i y).filterMap f).Perm (b :: l.filterMap f) := by
  induction l generalizing i with
  | nil => cases hx
  | cons a l ih =>
    cases i with
    | zero =>
      cases hx
      rw [List.set_cons_zero, List.filterMap_cons_some hfy, List.filterMap_cons_none hfx]
    | succ i =>
      rw [List.set_cons_succ]
      rcases hfa : f a with _ | c
      · rw [List.filterMap_cons_none hfa, List.filterMap_cons_none hfa]
        exact ih hx
      · rw [List.filterMap_cons_some hfa, List.filterMap_cons_some hfa]
        exact ((ih hx).cons c).trans (.swap b c _)

theorem filterMap_set_none {f : α → Option β} (hx : l[i]? = some x) (hfx : f x = none)
    (hfy : f y = none) : (l.set i y).filterMap f = l.filterMap f := by
  induction l generalizing i with
  | nil => cases hx
  | cons a l ih =>
    cases i with
    | zero =>
      cases hx
      rw [List.set_cons_zero, List.filterMap_cons_none hfy, List.filterMap_cons_none hfx]
    | succ i =>
      rw [List.set_cons_succ, List.filterMap_cons, List.filterMap_cons, ih hx]

theorem sum_map_set_lt {f : α → Nat} (hx : l[i]? = some x) (h : f y < f x) :
    ((l.set i y).map f).sum < (l.map f).sum := by
  induction l generalizing i with
  | nil => cases hx
  | cons a l ih =>
    cases i with
    | zero =>
      cases hx
      simpa using h
    | succ i =>
      rw [List.set_cons_succ, List.map_cons, List.map_cons, List.sum_cons, List.sum_cons]
      exact Nat.add_lt_add_left (ih hx) _

end Set

/-! ## Steps -/

variable [PyNumber F]

/-- The fields of a response that the ledger reads as numbers are numbers, or missing. -/
def Numeric (response : Response F) : Prop :=
  (∃ i, (tokenField response "tokens_input").pyInt = .ok i) ∧
    (∃ i, (tokenField response "tokens_output").pyInt = .ok i) ∧
      ∃ cost, (costField response).pyFloat = .ok cost

/-- The responses in a step are numeric. -/
def NumericStep (_ : FederationState F) : FederationEvent F → Prop
  | .executorEnds _ (.returned response _) => Numeric response
  | .localEnds _ (.ok response) => Numeric response
  | _ => True

instance decidableNumeric (response : Response F) : Decidable (Numeric response) :=
  inferInstanceAs (Decidable ((∃ i, (tokenField response "tokens_input").pyInt = .ok i) ∧
    (∃ i, (tokenField response "tokens_output").pyInt = .ok i) ∧
      ∃ cost, (costField response).pyFloat = .ok cost))

instance decidableNumericStep (s : FederationState F) (e : FederationEvent F) :
    Decidable (NumericStep s e) :=
  match e with
  | .executorEnds _ (.returned response _) => decidableNumeric response
  | .localEnds _ (.ok response) => decidableNumeric response
  | .executorEnds _ (.circuitOpen _) => instDecidableTrue
  | .executorEnds _ .timedOut => instDecidableTrue
  | .executorEnds _ (.raised _) => instDecidableTrue
  | .localEnds _ (.error _) => instDecidableTrue
  | .start _ _ => instDecidableTrue

theorem entryOf_ok (nodeId : String) {result : DelegationResult F} (h : Numeric result.response) :
    ∃ entry, entryOf nodeId result = .ok entry := by
  obtain ⟨⟨i, hi⟩, ⟨j, hj⟩, cost, hcost⟩ := h
  rw [entryOf, hi, hj, hcost]
  exact ⟨_, rfl⟩

theorem numeric_nil : Numeric ([] : Response F) := by
  have htoken : ∀ key, (tokenField ([] : Response F) key).pyInt = .ok 0 := fun _ => rfl
  refine ⟨⟨0, htoken _⟩, ⟨0, htoken _⟩, zeroFloat, ?_⟩
  show ((PyVal.float zeroFloat : PyVal F).pyOr (.float zeroFloat)).pyFloat = _
  rw [PyVal.pyOr, ite_self]
  rfl

/-- Nothing was lost so far: every delegation is sound, and the ledger was given the entries of
the results. -/
structure RouterInv (router : FederationRouter) (job : Job) (s : FederationState F) : Prop where
  length : s.delegations.length = job.descriptions.length
  sound : ∀ i d, s.delegations[i]? = some d → Sound job i d
  received : s.ledger.isSome → (s.received.map Except.ok).Perm
    ((s.delegations.filterMap Delegation.result?).map (entryOf router.nodeId))

section Step

variable {router : FederationRouter} {job : Job} {s s' : FederationState F} {index : Nat}
  {d : Delegation F}

theorem RouterInv.lt (hs : RouterInv router job s) (hd : s.delegations[index]? = some d) :
    index < job.descriptions.length := by
  rw [← hs.length]
  exact (List.getElem?_eq_some_iff.mp hd).1

/-- A delegation moves on without a result. -/
theorem RouterInv.move (hs : RouterInv router job s) (hd : s.delegations[index]? = some d)
    (hnone : d.result? = none) {robin : Nat} {d' : Delegation F} (hsound : Sound job index d')
    (hnone' : d'.result? = none) :
    RouterInv router job { s with robin, delegations := s.delegations.set index d' } := by
  refine { length := (List.length_set).trans hs.length, sound := fun i d hi => ?_,
           received := fun hledger => ?_ }
  · rw [List.getElem?_set] at hi
    split at hi
    next heq =>
      split at hi
      · cases hi
        exact heq ▸ hsound
      · cases hi
    next => exact hs.sound i d hi
  · show (s.received.map Except.ok).Perm
      (((s.delegations.set index d').filterMap Delegation.result?).map (entryOf router.nodeId))
    rw [filterMap_set_none hd hnone hnone']
    exact hs.received hledger

/-- A delegation ends with a result. -/
theorem RouterInv.finish (hs : RouterInv router job s) (hd : s.delegations[index]? = some d)
    (hnone : d.result? = none) {result : DelegationResult F} (hresult : Faithful job index result)
    (hnumeric : Numeric result.response) : RouterInv router job (s.finish router index result) := by
  have hsound : ∀ i d, (s.delegations.set index (.done result))[i]? = some d → Sound job i d := by
    intro i d hi
    rw [List.getElem?_set] at hi
    split at hi
    next heq =>
      split at hi
      · cases hi
        exact heq ▸ hresult
      · cases hi
    next => exact hs.sound i d hi
  have hlength : (s.delegations.set index (.done result)).length = job.descriptions.length :=
    (List.length_set).trans hs.length
  obtain ⟨entry, hentry⟩ := entryOf_ok router.nodeId hnumeric
  rw [FederationState.finish]
  -- without a ledger there is nothing to enter
  rcases hledger : s.ledger with _ | ledger
  · refine { length := hlength, sound := hsound, received := fun h => ?_ }
    cases h
  · simp only [hentry]
    refine { length := hlength, sound := hsound, received := fun _ => ?_ }
    show ((s.received ++ [entry]).map Except.ok).Perm
      (((s.delegations.set index (.done result)).filterMap Delegation.result?).map
        (entryOf router.nodeId))
    have hperm := (filterMap_set_perm (f := Delegation.result?) (y := .done result) hd hnone
      rfl).map (entryOf router.nodeId)
    rw [List.map_cons, hentry] at hperm
    rw [List.map_append]
    refine (List.perm_append_singleton (Except.ok entry) _).trans (List.Perm.trans ?_ hperm.symm)
    exact (hs.received (by rw [hledger]; rfl)).cons _

theorem RouterInv.runLocal (hs : RouterInv router job s) (hd : s.delegations[index]? = some d)
    (hnone : d.result? = none) (reason : String) :
    RouterInv router job (s.runLocal router job index reason) := by
  rw [FederationState.runLocal]
  split
  · exact hs.move hd hnone trivial rfl
  · refine hs.finish hd hnone ?_ numeric_nil
    exact { id := rfl, description := description_result (F := F) (hs.lt hd), status := .inr (.inr rfl),
            peer := iff_of_false (fun h => h rfl) (fun h => by cases h) }

theorem RouterInv.start (hs : RouterInv router job s) (hd : s.delegations[index]? = some d)
    (hnone : d.result? = none) (isOpen : String → Bool) :
    RouterInv router job (s.start router job index isOpen) := by
  rw [FederationState.start]
  split
  · exact hs.runLocal hd hnone _
  next address haddress =>
    have hmem := List.mem_of_mem_filter (List.mem_of_getElem? haddress)
    exact hs.move hd hnone (mem_addresses_ne_empty hmem) rfl

theorem RouterInv.executorEnds (hs : RouterInv router job s) {address : String}
    (hd : s.delegations[index]? = some (.delegating address)) (ending : ExecutorEnd F)
    (hnumeric : NumericStep s (.executorEnds index ending)) :
    RouterInv router job (s.executorEnds router job index address ending) := by
  have haddress : address ≠ "" := hs.sound index _ hd
  cases ending with
  | returned response attempts =>
    refine hs.finish hd rfl ?_ hnumeric
    exact { id := rfl, description := description_result (F := F) (hs.lt hd), status := .inl rfl,
            peer := iff_of_true haddress rfl }
  | circuitOpen msg => exact hs.runLocal hd rfl _
  | timedOut => exact hs.runLocal hd rfl _
  | raised e => exact hs.runLocal hd rfl _

theorem RouterInv.localEnds (hs : RouterInv router job s) {reason : String}
    (hd : s.delegations[index]? = some (.runningLocal reason))
    (ending : Except PyExc (Response F)) (hnumeric : NumericStep s (.localEnds index ending)) :
    RouterInv router job (s.localEnds router job index reason ending) := by
  cases ending with
  | ok response =>
    refine hs.finish hd rfl ?_ hnumeric
    exact { id := rfl, description := description_result (F := F) (hs.lt hd), status := .inr (.inl rfl),
            peer := iff_of_false (fun h => h rfl) (fun h => by cases h) }
  | error e =>
    refine hs.finish hd rfl ?_ numeric_nil
    exact { id := rfl, description := description_result (F := F) (hs.lt hd), status := .inr (.inr rfl),
            peer := iff_of_false (fun h => h rfl) (fun h => by cases h) }

/-- A step is one of three, each of a delegation that waits for it. -/
theorem step_cases {e : FederationEvent F} (h : federationStep router job s e = some s') :
    (∃ index isOpen, e = .start index isOpen ∧ s.delegations[index]? = some .waiting ∧
      s' = s.start router job index isOpen) ∨
    (∃ index address ending, e = .executorEnds index ending ∧
      s.delegations[index]? = some (.delegating address) ∧
      s' = s.executorEnds router job index address ending) ∨
    (∃ index reason ending, e = .localEnds index ending ∧
      s.delegations[index]? = some (.runningLocal reason) ∧
      s' = s.localEnds router job index reason ending) := by
  -- A start, the end of an executor, and the end of the local executor.
  cases e with
  | start index isOpen =>
    rw [federationStep] at h
    split at h
    next hd =>
      cases h
      exact .inl ⟨index, isOpen, rfl, hd, rfl⟩
    next => cases h
  | executorEnds index ending =>
    rw [federationStep] at h
    split at h
    next address hd =>
      cases h
      exact .inr (.inl ⟨index, address, ending, rfl, hd, rfl⟩)
    next => cases h
  | localEnds index ending =>
    rw [federationStep] at h
    split at h
    next reason hd =>
      cases h
      exact .inr (.inr ⟨index, reason, ending, rfl, hd, rfl⟩)
    next => cases h

theorem routerInv_step (s : FederationState F) (e : FederationEvent F) (s' : FederationState F)
    (hs : RouterInv router job s) (hnumeric : NumericStep s e)
    (h : federationStep router job s e = some s') : RouterInv router job s' := by
  rcases step_cases h with ⟨index, isOpen, rfl, hd, rfl⟩ | ⟨index, address, ending, rfl, hd, rfl⟩ |
    ⟨index, reason, ending, rfl, hd, rfl⟩
  · exact hs.start hd rfl isOpen
  · exact hs.executorEnds hd ending hnumeric
  · exact hs.localEnds hd ending hnumeric

/-! ## The way to the end -/

theorem remaining_finish (hd : s.delegations[index]? = some d) (hpos : 0 < d.remaining)
    (result : DelegationResult F) : (s.finish router index result).remaining < s.remaining := by
  rw [FederationState.finish]
  split
  · exact sum_map_set_lt hd hpos
  · split
    · exact sum_map_set_lt hd hpos
    · exact sum_map_set_lt hd hpos

theorem remaining_runLocal (hd : s.delegations[index]? = some d) (hpos : 1 < d.remaining)
    (reason : String) : (s.runLocal router job index reason).remaining < s.remaining := by
  rw [FederationState.runLocal]
  split
  · exact sum_map_set_lt hd hpos
  · exact remaining_finish hd (Nat.zero_lt_of_lt hpos) _

/-- Every step takes a delegation closer to its end. -/
theorem remaining_step {e : FederationEvent F} (h : federationStep router job s e = some s') :
    s'.remaining < s.remaining := by
  rcases step_cases h with ⟨index, isOpen, rfl, hd, rfl⟩ | ⟨index, address, ending, rfl, hd, rfl⟩ |
    ⟨index, reason, ending, rfl, hd, rfl⟩
  · rw [FederationState.start]
    split
    · exact remaining_runLocal hd (Nat.lt_add_of_pos_left (Nat.zero_lt_succ _)) _
    · exact sum_map_set_lt hd (Nat.lt_succ_self _)
  · cases ending with
    | returned response attempts => exact remaining_finish hd (Nat.zero_lt_succ _) _
    | circuitOpen msg => exact remaining_runLocal hd (Nat.lt_add_of_pos_left (Nat.zero_lt_succ _)) _
    | timedOut => exact remaining_runLocal hd (Nat.lt_add_of_pos_left (Nat.zero_lt_succ _)) _
    | raised e => exact remaining_runLocal hd (Nat.lt_add_of_pos_left (Nat.zero_lt_succ _)) _
  · cases ending with
    | ok response => exact remaining_finish hd (Nat.zero_lt_succ _) _
    | error e => exact remaining_finish hd (Nat.zero_lt_succ _) _

/-- A delegation that is not at its end can take a step. -/
theorem step_of_remaining (hd : s.delegations[index]? = some d) (hpos : 0 < d.remaining) :
    ∃ e s', NumericStep s e ∧ federationStep router job s e = some s' := by
  cases d with
  | waiting => exact ⟨.start index fun _ => false, _, trivial, by rw [federationStep, hd]⟩
  | delegating address =>
    exact ⟨.executorEnds index .timedOut, _, trivial, by rw [federationStep, hd]⟩
  | runningLocal reason =>
    exact ⟨.localEnds index (.error (.runtimeError "")), _, trivial, by rw [federationStep, hd]⟩
  | done result => exact absurd hpos (Nat.lt_irrefl 0)
  | raised e => exact absurd hpos (Nat.lt_irrefl 0)

end Step

/-! ## The outcome -/

section Outcome

variable {router : FederationRouter} {job : Job} {s : FederationState F}

/-- A run of `execute`, up to a state of it. -/
structure Executes (router : FederationRouter) (job : Job) (s : FederationState F) : Prop where
  /-- `execute` raises nothing. -/
  noException : ∀ e, s.outcome job ≠ some (.error e)
  /-- It goes on until it returns, and there is an end to that. -/
  goesOn : s.outcome job = none → ∃ e s', NumericStep s e ∧ federationStep router job s e = some s'
  ends : ∀ e s', federationStep router job s e = some s' → s'.remaining < s.remaining
  /-- What it returns is complete, and the ledger has one entry for each result. -/
  complete : ∀ summary, s.outcome job = some (.ok summary) → Complete job summary
  entries : ∀ summary, s.outcome job = some (.ok summary) → s.ledger.isSome →
    (s.received.map Except.ok).Perm (summary.subtasks.map (entryOf router.nodeId))

theorem RouterInv.no_exception (hs : RouterInv router job s) :
    s.delegations.findSome? Delegation.exception? = none := by
  rw [List.findSome?_eq_none_iff]
  intro d hd
  obtain ⟨i, hi⟩ := List.getElem?_of_mem hd
  have hsound := hs.sound i d hi
  cases d with
  | raised e => exact absurd hsound id
  | _ => rfl

theorem RouterInv.outcome (hs : RouterInv router job s) : s.outcome job =
    (s.delegations.mapM Delegation.result?).map fun results => .ok (summaryOf job results) := by
  rw [FederationState.outcome, hs.no_exception]

theorem RouterInv.complete (hs : RouterInv router job s) {results : List (DelegationResult F)}
    (hresults : s.delegations = results.map .done) : Complete job (summaryOf job results) := by
  have hlength : results.length = job.descriptions.length := by
    rw [← hs.length, hresults, List.length_map]
  have heach : ∀ i result, results[i]? = some result → Faithful job i result := by
    intro i result hi
    have hd : s.delegations[i]? = some (.done result) := by
      rw [hresults, List.getElem?_map, hi]
      rfl
    exact hs.sound i _ hd
  refine { length := hlength, each := heach, total := hlength, counts := ?_ }
  refine counts_of_status ?_
  intro r hr
  obtain ⟨i, hi⟩ := List.getElem?_of_mem hr
  exact (heach i r hi).status

theorem RouterInv.goesOn (hs : RouterInv router job s)
    (hnone : s.delegations.mapM Delegation.result? = none) :
    ∃ e s', NumericStep s e ∧ federationStep router job s e = some s' := by
  by_contra hstuck
  have hdone : ∀ d ∈ s.delegations, ∃ result, d = .done result := by
    intro d hd
    obtain ⟨i, hi⟩ := List.getElem?_of_mem hd
    cases d with
    | done result => exact ⟨result, rfl⟩
    | raised e => exact absurd (hs.sound i _ hi) id
    | _ => exact absurd (step_of_remaining hi (Nat.zero_lt_succ _)) hstuck
  rw [mapM_result_iff.mpr (eq_map_done hdone)] at hnone
  cases hnone

/-- **Federated execution.** On responses with readable numbers, a run of `execute` raises
nothing, comes to an end, returns one result for every sub-task, and has given the ledger one
entry for every result. -/
theorem executes (router : FederationRouter) (job : Job) (robin : Nat)
    (ledger : Option (ContributionLedger F))
    (steps : List (FederationState F × FederationEvent F)) (s : FederationState F)
    (run : (federationSystem router job robin ledger).Run steps s)
    (hnumeric : Meets NumericStep steps) : Executes router job s := by
  have hinit : RouterInv router job (federationSystem router job robin ledger).init := by
    refine { length := List.length_map .., sound := fun i d hi => ?_, received := fun _ => ?_ }
    · obtain ⟨desc, -, rfl⟩ := List.mem_map.mp (List.mem_of_getElem? hi)
      trivial
    · have hnone : (job.descriptions.map fun _ => (.waiting : Delegation F)).filterMap
          Delegation.result? = [] := by
        rw [List.filterMap_map]
        exact List.filterMap_eq_nil_iff.mpr fun _ _ => rfl
      show (List.map Except.ok []).Perm _
      rw [show (federationSystem router job robin ledger).init.delegations.filterMap
        Delegation.result? = [] from hnone]
      exact .refl []
  obtain ⟨hs, -⟩ := run.always_of_meets hinit routerInv_step hnumeric
  have houtcome := hs.outcome
  -- the outcome is that of the `gather`, which is over when every delegation is
  refine { noException := fun e h => ?_, goesOn := fun h => ?_, ends := fun e s' => remaining_step,
           complete := fun summary h => ?_, entries := fun summary h hledger => ?_ }
  · rw [houtcome] at h
    obtain ⟨results, -, hr⟩ := Option.map_eq_some_iff.mp h
    cases hr
  · rw [houtcome] at h
    exact hs.goesOn (Option.map_eq_none_iff.mp h)
  · rw [houtcome] at h
    obtain ⟨results, hresults, hr⟩ := Option.map_eq_some_iff.mp h
    cases hr
    exact hs.complete (mapM_result_iff.mp hresults)
  · rw [houtcome] at h
    obtain ⟨results, hresults, hr⟩ := Option.map_eq_some_iff.mp h
    cases hr
    have hreceived := hs.received hledger
    rw [mapM_result_iff.mp hresults, List.filterMap_map] at hreceived
    have hsome : results.filterMap (Delegation.result? ∘ Delegation.done) = results :=
      List.filterMap_some
    rw [hsome] at hreceived
    exact hreceived

/-- A job with one sub-task. -/
def oneTask : Job := ⟨"T", ["a"], ""⟩

/-- A job without sub-tasks. -/
def noTask : Job := ⟨"T", [], ""⟩

/-- A router without peers and without a local executor. -/
def alone : FederationRouter := ⟨[], false, "local"⟩

/-- A router with two peers and a local executor. -/
def twoPeers : FederationRouter := ⟨[⟨"p", 1⟩, ⟨"q", 2⟩], true, "local"⟩

/-- A job with three sub-tasks. -/
def threeTasks : Job := ⟨"T", ["a", "b", "c"], "t"⟩

/-- The response of an executor, with a count that is missing. -/
def counted : Response FloatText := [("tokens_input", .int 12), ("cost_usd", .float zeroFloat)]

/-- The first sub-task is delegated. The second one times out at its peer, and fails locally too.
The third one finds every circuit open, and is executed locally. -/
def threeEnds : List (FederationEvent FloatText) :=
  [.start 0 fun _ => false, .start 1 fun _ => false, .start 2 fun _ => true,
    .executorEnds 1 .timedOut, .executorEnds 0 (.returned counted 1), .localEnds 2 (.ok counted),
    .localEnds 1 (.error (.runtimeError "out of memory"))]

theorem executes_threeTasks : ∃ steps s,
    (federationSystem (F := FloatText) twoPeers threeTasks 0 (some (.new 5))).Run steps s ∧
      (s.delegations.filterMap Delegation.result?).map DelegationResult.status =
        [.delegated, .failed, .local] ∧
      s.received.length = 3 ∧ Executes twoPeers threeTasks s := by
  let S := (federationSystem (F := FloatText) twoPeers threeTasks 0 (some (.new 5))).guard NumericStep
  have hend : (S.exec S.init threeEnds).map (fun s =>
      ((s.delegations.filterMap Delegation.result?).map DelegationResult.status,
        s.received.length)) = some ([.delegated, .failed, .local], 3) := by
    decide +kernel
  obtain ⟨s, hs, heq⟩ := Option.map_eq_some_iff.mp hend
  obtain ⟨hstatus, hreceived⟩ := Prod.mk.inj heq
  obtain ⟨steps, run⟩ := reachable_of_exec _ hs
  obtain ⟨run, hnumeric⟩ := run.of_guard
  exact ⟨steps, s, run, hstatus, hreceived,
    executes twoPeers threeTasks 0 (some (.new 5)) steps s run hnumeric⟩

/-- The response of a peer that has no number for its cost. -/
def noCost : Response FloatText := [("tokens_input", .int 1), ("cost_usd", .str "n/a")]

/-- Without sub-tasks there is a result for the title, and a cost that is no number is raised. -/
theorem not_oneResultEach :
    (∃ s : FederationState FloatText, (federationSystem alone noTask 0 none).Reachable s ∧
      ∃ summary, s.outcome noTask = some (.ok summary) ∧
        summary.subtasks.length ≠ noTask.subtasks.length) ∧
    ∃ s : FederationState FloatText,
      (federationSystem ⟨[⟨"p", 1⟩], false, "local"⟩ oneTask 0 (some (.new 5))).Reachable s ∧
      ∃ e, s.outcome oneTask = some (.error e) := by
  constructor
  · refine ⟨_, ⟨[(_, .start 0 fun _ => false)], .next .start rfl⟩, _, rfl, ?_⟩
    decide
  · refine ⟨_, reachable_of_exec [.start 0 fun _ => false,
      .executorEnds 0 (.returned noCost 1)] rfl, _, rfl⟩

end Outcome

end Noema.Federation
