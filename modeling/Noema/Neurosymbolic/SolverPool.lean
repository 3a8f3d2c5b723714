import Noema.Lib.Leases
import Noema.Neurosymbolic.SymbolicSound

/-!
# The solver pool (`neurosymbolic/symbolic.py`)

Calls of `verify_solution` that overlap take their solvers from one pool. A solver keeps its
assertions when it goes back, and is reset when it is taken (symbolic.py:330). A call suspends while
it waits for a solver and, with one, before it checks; it can be cancelled at both places, and the
wait for a solver can time out. The `async with` gives the solver back in every case.

- `PoolState`: the engine, with solvers that have an identity (`Lib.Leases`), and the calls with
  their phases.
- `aloneVerdict`: what a call returns when it is alone on a new engine. `alone_available` says that
  a solver that is reset is as good as a new one.
- `PoolInv`: the invariant: the ten solvers are conserved, each with one holder, and a call that
  checks has a solver with its own requirements and nothing else. It has a rule for each kind of
  step (`PoolInv.getSolver`, `PoolInv.check`, `PoolInv.finish`).
- **`poolSound_of_reachable`**: in every state of overlapping calls the solvers are conserved, and
  every verdict is the one of the call that is alone.

`twoCalls_sound` has two calls with a solver each at the same time, one of which is cancelled.
-/

namespace Noema.Neurosymbolic

open Noema.Lib PyJson Smt

variable {F : Type} [PyInterp F]

/-! ## Overlapping calls -/

/-- Where a call is: it waits for a solver, has one with its requirements, has a result but still
the solver, or is over. -/
inductive CallPhase (F : Type) where
  | waiting (graph : TaskGraph F)
  | checking (graph : TaskGraph F)
  | leaving (result : Except PyExc Verdict)
  | over (result : Except PyExc Verdict)

/-- A call of `verify_solution`. -/
structure PoolCall (F : Type) where
  solution : Solution F
  graph : Option (TaskGraph F)
  phase : CallPhase F

/-- The engine, with solvers that have an identity, and the calls. -/
structure PoolState (F : Type) where
  initialized : Bool
  degraded : Bool
  leases : Leases Nat Nat
  solvers : Nat → Solver
  calls : Nat → Option (PoolCall F)

/-- What happens. A call can be cancelled wherever it waits, and the wait for a solver can time
out. -/
inductive PoolEvent (F : Type) where
  | initEngine
  | verify (call : Nat) (solution : Solution F) (graph : Option (TaskGraph F))
  | getSolver (call : Nat)
  | exhausted (call : Nat)
  | check (call : Nat)
  | leave (call : Nat)
  | cancel (call : Nat)

/-- The error of `_get_solver` when the wait times out. -/
def poolExhausted : Except PyExc Verdict :=
  .error (.custom "SymbolicVerificationError" "Solver pool exhausted")

/-- The exception of a call that is cancelled. -/
def callCancelled : Except PyExc Verdict := .error (.custom "CancelledError" "")

/-- The handlers of `verify_solution`. -/
def handledError : PyExc → Except PyExc Verdict
  | .custom "SymbolicVerificationError" msg => .error (.custom "SymbolicVerificationError" msg)
  | e => .ok (false, ["verification_error: " ++ e.msg])

/-- What `verify_solution` makes of the result of its body. -/
def handled : Except PyExc Verdict → Except PyExc Verdict
  | .error e => handledError e
  | .ok verdict => .ok verdict

/-- A solver that is reset, with the requirements of a graph. -/
def loaded (graph : TaskGraph F) (solver : Solver) : Solver :=
  (graph.requirements.map Constraint.expression).foldl Solver.add solver.reset

/-- The body of `verify_solution` after the requirements have been added. -/
def verifyLoaded (u : Unicode) (z3 : Z3 F) (timeouts : Timeouts) (solution : Solution F)
    (graph : TaskGraph F) : PyM Solver Verdict :=
  if graph.requirements.isEmpty && graph.constraints.isEmpty then return (true, [])
  else if timeouts.verification then return (false, ["verification_timeout"])
  else checkSolution u z3 solution graph

namespace PoolState

variable (s : PoolState F)

/-- A call goes on. -/
def put (id : Nat) (call : PoolCall F) : PoolState F :=
  { s with calls := Function.update s.calls id (some call) }

/-- The solvers that there are. -/
def solverIds : List Nat := if s.initialized && !s.degraded then List.range 10 else []

/-- A call gives its solver back, and is over. -/
def finish (id : Nat) (call : PoolCall F) (result : Except PyExc Verdict) : PoolState F :=
  { s.put id { call with phase := .over result } with leases := s.leases.give id }

end PoolState

/-- Calls of one engine. The import of z3 always ends in the same way. A time limit that is not
positive has `expired`; no other one stops a check, which does not suspend. The pool has room for
ten solvers, so `put` does not wait. -/
def poolSystem (u : Unicode) (z3 : Z3 F) (imp : Z3Import) (expired : Bool) :
    System (PoolState F) (PoolEvent F) where
  init := ⟨false, false, .new [], fun _ => ⟨[], []⟩, fun _ => none⟩
  step s e :=
    match e with
    | .initEngine =>
      if s.initialized then some s
      else
        match imp with
        -- another exception of the import leaves `initialize`, and the flag is not set
        | .broken _ => some s
        | .unavailable => some { s with degraded := true, initialized := true }
        | .available =>
          let leases := { s.leases with free := s.leases.free ++ List.range 10 }
          some { s with leases, solvers := fun _ => ⟨[], []⟩, degraded := false, initialized := true }
    | .verify id solution graph =>
      if (s.calls id).isSome then none
      else
        match graph with
        -- without a graph, or without z3, the call returns at once
        | none =>
          some (s.put id ⟨solution, graph, .over (.ok (false, ["task_graph_not_initialized"]))⟩)
        | some g =>
          if s.degraded then
            let verdict := (false, ["symbolic_engine_unavailable_z3_not_installed"])
            some (s.put id ⟨solution, graph, .over (.ok verdict)⟩)
          else some (s.put id ⟨solution, graph, .waiting g⟩)
    | .getSolver id =>
      (s.calls id).bind fun call =>
        match call.phase with
        | .waiting graph =>
          (s.leases.take id).map fun (k, leases) =>
            { s.put id { call with phase := .checking graph } with
              leases, solvers := Function.update s.solvers k (loaded graph (s.solvers k)) }
        | _ => none
    | .exhausted id =>
      (s.calls id).bind fun call =>
        match call.phase with
        | .waiting _ => some (s.put id { call with phase := .over poolExhausted })
        | _ => none
    | .check id =>
      (s.calls id).bind fun call =>
        match call.phase with
        | .checking graph =>
          (s.leases.held id).map fun k =>
            -- from here to the end of the body nothing is awaited
            let (result, solver) :=
              verifyLoaded u z3 ⟨false, expired⟩ call.solution graph (s.solvers k)
            { s.put id { call with phase := .leaving (handled result) } with
              solvers := Function.update s.solvers k solver }
        | _ => none
    | .leave id =>
      (s.calls id).bind fun call =>
        match call.phase with
        | .leaving result => some (s.finish id call result)
        | _ => none
    | .cancel id =>
      (s.calls id).bind fun call =>
        match call.phase with
        | .over _ => none
        | _ => some (s.finish id call callCancelled)

section Sound

variable (u : Unicode) (z3 : Z3 F) (imp : Z3Import) (expired : Bool) (maxConstraints : Int)

/-- What a call returns when it is alone on a new engine. -/
def aloneVerdict (call : PoolCall F) : Except PyExc Verdict :=
  (verifySolution u z3 ⟨false, expired⟩ call.solution call.graph
    (initializeEngine imp (Engine.new maxConstraints)).2).1

/-- The solvers in the pool and those of the calls are the same ones, each of them once, and every
result is the one of the call alone, but for an exhausted pool and for calls that are cancelled. -/
structure PoolSound (s : PoolState F) : Prop where
  conserved : s.leases.Conserves s.solverIds
  results : ∀ id, ∀ call ∈ s.calls id, ∀ result, call.phase = .over result →
    result = poolExhausted ∨ result = callCancelled ∨
      result = aloneVerdict u z3 imp expired maxConstraints call

/-! ## The call alone -/

variable {u z3 imp expired maxConstraints}

theorem alone_none {call : PoolCall F} (hgraph : call.graph = none) :
    aloneVerdict u z3 imp expired maxConstraints call =
      .ok (false, ["task_graph_not_initialized"]) := by
  rw [aloneVerdict, hgraph]
  rfl

theorem alone_unavailable {call : PoolCall F} {graph : TaskGraph F} (hgraph : call.graph = some graph) :
    aloneVerdict u z3 .unavailable expired maxConstraints call =
      .ok (false, ["symbolic_engine_unavailable_z3_not_installed"]) := by
  rw [aloneVerdict, hgraph]
  rfl

omit [PyInterp F] in
/-- A pool with a solver gives it to the body. -/
theorem withSolver_fst {engine : Engine} {solver : Solver} {rest : List Solver} {α : Type}
    {verification : Bool} {body : PyM Solver α} (hpool : engine.solverPool = solver :: rest) :
    (withSolver ⟨false, verification⟩ body engine).1 = (body solver.reset).1 := by
  rw [withSolver, hpool]
  rfl

omit [PyInterp F] in
theorem tryCatch_fst {σ α : Type} (x : PyM σ α) (h : PyExc → PyM σ α) (s : σ) :
    (PyM.tryCatch x h s).1 = match (x s).1 with
      | .ok a => .ok a
      | .error e => (h e (x s).2).1 := by
  rw [PyM.tryCatch]
  rcases x s with ⟨_ | _, _⟩ <;> rfl

/-- A solver that is reset is as good as a new one. -/
theorem alone_available (call : PoolCall F) {graph : TaskGraph F} (hgraph : call.graph = some graph)
    (solver : Solver) :
    aloneVerdict u z3 .available expired maxConstraints call =
      handled (verifyLoaded u z3 ⟨false, expired⟩ call.solution graph (loaded graph solver)).1 := by
  have hbody : verifyWith u z3 ⟨false, expired⟩ call.solution graph (Solver.reset ⟨[], []⟩) =
      verifyLoaded u z3 ⟨false, expired⟩ call.solution graph (loaded graph solver) := rfl
  rw [aloneVerdict, hgraph, ← hbody]
  show (PyM.tryCatch (withSolver _ _) _ _).1 = _
  rw [tryCatch_fst, withSolver_fst rfl]
  cases (verifyWith u z3 ⟨false, expired⟩ call.solution graph (Solver.reset ⟨[], []⟩)).1 with
  | ok verdict => rfl
  | error e =>
    dsimp only
    rw [handled]
    split
    next => rfl
    next hother =>
      rw [handledError]
      · rfl
      · exact hother

/-! ## The invariant -/

variable (u z3 imp expired maxConstraints)

/-- What holds of a call with its solver, if it has one. -/
def PoolCall.Ok (call : PoolCall F) (held : Option Nat) (solvers : Nat → Solver) : Prop :=
  match call.phase with
  | .waiting graph => call.graph = some graph ∧ held = none
  | .checking graph =>
    call.graph = some graph ∧ ∀ k ∈ held, ∃ solver, solvers k = loaded graph solver
  | .leaving result => result = aloneVerdict u z3 imp expired maxConstraints call
  | .over result => held = none ∧ (result = poolExhausted ∨ result = callCancelled ∨
      result = aloneVerdict u z3 imp expired maxConstraints call)

/-- The invariant. -/
structure PoolInv (s : PoolState F) : Prop where
  conserved : s.leases.Conserves s.solverIds
  available : s.initialized = true → s.degraded = false → imp = .available
  unavailable : s.degraded = true → imp = .unavailable
  absent : ∀ id, s.calls id = none → s.leases.held id = none
  calls : ∀ id, ∀ call ∈ s.calls id,
    call.Ok u z3 imp expired maxConstraints (s.leases.held id) s.solvers

variable {u z3 imp expired maxConstraints} {s s' : PoolState F} {id : Nat} {call : PoolCall F}

theorem PoolInv.sound (h : PoolInv u z3 imp expired maxConstraints s) :
    PoolSound u z3 imp expired maxConstraints s where
  conserved := h.conserved
  results id call hcall result hphase := by
    have hok := h.calls id call hcall
    rw [PoolCall.Ok, hphase] at hok
    exact hok.2

/-- A call goes on, and leaves the others their solvers. -/
theorem PoolInv.put (h : PoolInv u z3 imp expired maxConstraints s) {leases : Leases Nat Nat}
    {solvers : Nat → Solver} (hconserved : leases.Conserves s.solverIds)
    (hheld : ∀ id' ≠ id, leases.held id' = s.leases.held id')
    (hsolvers : ∀ id' ≠ id, ∀ k ∈ s.leases.held id', solvers k = s.solvers k)
    (hcall : call.Ok u z3 imp expired maxConstraints (leases.held id) solvers) :
    PoolInv u z3 imp expired maxConstraints { s.put id call with leases, solvers } where
  conserved := hconserved
  available := h.available
  unavailable := h.unavailable
  absent id' hnone := by
    by_cases hid : id' = id
    · rw [hid] at hnone
      cases (Function.update_self (f := s.calls) ..).symm.trans hnone
    · exact (hheld id' hid).trans (h.absent id' ((Function.update_of_ne hid ..).symm.trans hnone))
  calls id' call' hmem := by
    rcases mem_update hmem with ⟨hid, hnew⟩ | ⟨hid, hold⟩
    · cases hnew
      rw [hid]
      exact hcall
    · have hok := h.calls id' call' hold
      show call'.Ok u z3 imp expired maxConstraints (leases.held id') solvers
      rw [hheld id' hid]
      -- the other calls hold what they held, and their solvers are the same
      unfold PoolCall.Ok at hok ⊢
      split
      next graph hphase =>
        rw [hphase] at hok
        exact hok
      next graph hphase =>
        rw [hphase] at hok
        refine ⟨hok.1, fun k hk => ?_⟩
        rw [hsolvers id' hid k hk]
        exact hok.2 k hk
      next result hphase =>
        rw [hphase] at hok
        exact hok
      next result hphase =>
        rw [hphase] at hok
        exact hok

/-- A call starts or goes on with the solver that it has, if any. -/
theorem PoolInv.putPhase (h : PoolInv u z3 imp expired maxConstraints s)
    (hcall : call.Ok u z3 imp expired maxConstraints (s.leases.held id) s.solvers) :
    PoolInv u z3 imp expired maxConstraints (s.put id call) :=
  h.put h.conserved (fun _ _ => rfl) (fun _ _ _ _ => rfl) hcall

/-- A call takes a solver, and adds its requirements to it. -/
theorem PoolInv.getSolver (h : PoolInv u z3 imp expired maxConstraints s)
    (hcall : s.calls id = some call) {graph : TaskGraph F} (hphase : call.phase = .waiting graph)
    {k : Nat} {leases : Leases Nat Nat} (htake : s.leases.take id = some (k, leases)) :
    PoolInv u z3 imp expired maxConstraints
      { s.put id { call with phase := .checking graph } with
        leases, solvers := Function.update s.solvers k (loaded graph (s.solvers k)) } := by
  have hok := h.calls id call hcall
  rw [PoolCall.Ok, hphase] at hok
  obtain ⟨hgraph, hnone⟩ := hok
  obtain ⟨free, hfree, rfl⟩ := Leases.take_eq_some htake
  refine h.put (h.conserved.take hnone htake) (fun id' hid => Function.update_of_ne hid ..)
    (fun id' _ k' hk' => Function.update_of_ne ?_ ..) ⟨hgraph, fun k' hk' => ?_⟩
  · rintro rfl
    exact h.conserved.apart id' k' hk' (hfree ▸ List.mem_cons_self)
  · cases (Function.update_self (f := s.leases.held) ..).symm.trans hk'
    exact ⟨_, Function.update_self ..⟩

/-- There are solvers only when z3 is available. -/
theorem PoolInv.available_of_held (h : PoolInv u z3 imp expired maxConstraints s) {k : Nat}
    (hheld : s.leases.held id = some k) : imp = .available := by
  have hmem := (h.conserved.all k).mpr (.inr ⟨id, hheld⟩)
  unfold PoolState.solverIds at hmem
  split at hmem
  next hready =>
    rw [Bool.and_eq_true, Bool.not_eq_true'] at hready
    exact h.available hready.1 hready.2
  next => cases hmem

/-- A call checks with its own solver. -/
theorem PoolInv.check (h : PoolInv u z3 imp expired maxConstraints s)
    (hcall : s.calls id = some call) {graph : TaskGraph F} (hphase : call.phase = .checking graph)
    {k : Nat} (hheld : s.leases.held id = some k) (solver : Solver) :
    PoolInv u z3 imp expired maxConstraints
      { s.put id { call with phase := .leaving (handled
          (verifyLoaded u z3 ⟨false, expired⟩ call.solution graph (s.solvers k)).1) } with
        solvers := Function.update s.solvers k solver } := by
  have hok := h.calls id call hcall
  rw [PoolCall.Ok, hphase] at hok
  obtain ⟨hgraph, hloaded⟩ := hok
  obtain ⟨old, hsolver⟩ := hloaded k hheld
  refine h.put h.conserved (fun _ _ => rfl) (fun id' hid k' hk' => Function.update_of_ne ?_ ..) ?_
  · rintro rfl
    exact hid (h.conserved.unique id' id k' hk' hheld)
  · obtain rfl := h.available_of_held hheld
    rw [hsolver]
    exact (alone_available call hgraph old).symm

/-- A call gives its solver back. -/
theorem PoolInv.finish (h : PoolInv u z3 imp expired maxConstraints s) {result : Except PyExc Verdict}
    (hresult : result = poolExhausted ∨ result = callCancelled ∨
      result = aloneVerdict u z3 imp expired maxConstraints call) :
    PoolInv u z3 imp expired maxConstraints (s.finish id call result) :=
  h.put (h.conserved.give id) (fun _ hid => Leases.held_give_of_ne hid) (fun _ _ _ _ => rfl)
    ⟨Leases.held_give_self id, hresult⟩

/-- The solvers are made. -/
theorem PoolInv.initEngine (h : PoolInv u z3 .available expired maxConstraints s)
    (hinit : s.initialized = false) :
    PoolInv u z3 .available expired maxConstraints
      { s with
        leases := { s.leases with free := s.leases.free ++ List.range 10 }
        solvers := fun _ => ⟨[], []⟩
        degraded := false, initialized := true } := by
  -- there were no solvers at all before the engine was initialized
  have hnone (k : Nat) : ¬ (k ∈ s.leases.free ∨ ∃ id, k ∈ s.leases.held id) := by
    rw [← h.conserved.all, PoolState.solverIds, hinit]
    exact List.not_mem_nil
  have hheld (id : Nat) : s.leases.held id = none :=
    Option.eq_none_iff_forall_not_mem.mpr fun k hk => hnone k (.inr ⟨id, hk⟩)
  have hfree : s.leases.free = [] :=
    List.eq_nil_iff_forall_not_mem.mpr fun k hk => hnone k (.inl hk)
  refine ⟨?_, fun _ _ => rfl, nofun, h.absent, fun id call hcall => ?_⟩
  · refine ⟨?_, fun id k hk => ?_, fun id _ k hk => ?_, fun k => ?_⟩
    · rw [hfree]
      exact List.nodup_range
    · rw [hheld] at hk
      cases hk
    · rw [hheld] at hk
      cases hk
    · show k ∈ List.range 10 ↔ k ∈ s.leases.free ++ List.range 10 ∨ _
      rw [hfree, List.nil_append]
      exact (or_iff_left fun ⟨id, hk⟩ => hnone k (.inr ⟨id, hk⟩)).symm
  · have hok := h.calls id call hcall
    rw [hheld] at hok
    show call.Ok u z3 _ expired maxConstraints (s.leases.held id) _
    rw [hheld]
    unfold PoolCall.Ok at hok ⊢
    split
    all_goals
      next hphase =>
        rw [hphase] at hok
        first
          | exact hok
          | exact ⟨hok.1, fun k hk => by cases hk⟩

theorem poolInv_step {e : PoolEvent F} (h : PoolInv u z3 imp expired maxConstraints s)
    (hstep : (poolSystem u z3 imp expired).step s e = some s') :
    PoolInv u z3 imp expired maxConstraints s' := by
  cases e with
  | initEngine =>
    simp only [poolSystem] at hstep
    split at hstep
    · cases hstep
      exact h
    next hinit =>
      have hinit : s.initialized = false := Bool.eq_false_iff.mpr hinit
      split at hstep
      · cases hstep
        exact h
      · cases hstep
        refine ⟨?_, nofun, fun _ => rfl, h.absent, h.calls⟩
        have hconserved := h.conserved
        rw [PoolState.solverIds, hinit] at hconserved
        exact hconserved
      · cases hstep
        exact h.initEngine hinit
  | verify id solution graph =>
    obtain ⟨hnone, hstep⟩ := Option.ite_none_left_eq_some.mp hstep
    -- a call that starts has no solver yet; without a graph or without z3 it has its result at once
    have hheld := h.absent id (Option.not_isSome_iff_eq_none.mp hnone)
    split at hstep
    next =>
      cases hstep
      exact h.putPhase ⟨hheld, .inr (.inr (alone_none rfl).symm)⟩
    next g =>
      split at hstep
      next hdegraded =>
        cases hstep
        obtain rfl := h.unavailable hdegraded
        exact h.putPhase ⟨hheld, .inr (.inr (alone_unavailable rfl).symm)⟩
      next =>
        cases hstep
        exact h.putPhase ⟨rfl, hheld⟩
  | getSolver id =>
    obtain ⟨call, hcall, hstep⟩ := Option.bind_eq_some_iff.mp hstep
    split at hstep
    next graph hphase =>
      obtain ⟨⟨k, leases⟩, htake, rfl⟩ := Option.map_eq_some_iff.mp hstep
      exact h.getSolver hcall hphase htake
    next => cases hstep
  | exhausted id =>
    obtain ⟨call, hcall, hstep⟩ := Option.bind_eq_some_iff.mp hstep
    split at hstep
    next graph hphase =>
      cases hstep
      have hok := h.calls id call hcall
      rw [PoolCall.Ok, hphase] at hok
      -- the wait times out: the call has its error, and still no solver
      exact h.putPhase ⟨hok.2, .inl rfl⟩
    next => cases hstep
  | check id =>
    obtain ⟨call, hcall, hstep⟩ := Option.bind_eq_some_iff.mp hstep
    split at hstep
    next graph hphase =>
      obtain ⟨k, hheld, rfl⟩ := Option.map_eq_some_iff.mp hstep
      exact h.check hcall hphase hheld _
    next => cases hstep
  | leave id =>
    obtain ⟨call, hcall, hstep⟩ := Option.bind_eq_some_iff.mp hstep
    split at hstep
    next result hphase =>
      cases hstep
      have hok := h.calls id call hcall
      rw [PoolCall.Ok, hphase] at hok
      exact h.finish (.inr (.inr hok))
    next => cases hstep
  | cancel id =>
    obtain ⟨call, hcall, hstep⟩ := Option.bind_eq_some_iff.mp hstep
    split at hstep
    next => cases hstep
    next =>
      cases hstep
      exact h.finish (.inr (.inl rfl))

/-- In every state of overlapping calls the solvers are conserved, and every result is the one of
the call alone. That is, once the engine is initialized there are ten solvers, each in the pool or
with one call, and neither cancellations nor waits that time out lose one of them. -/
theorem poolSound_of_reachable (h : (poolSystem u z3 imp expired).Reachable s) :
    PoolSound u z3 imp expired maxConstraints s := by
  have hinv : PoolInv u z3 imp expired maxConstraints s := by
    refine h.invariant ?_ fun _ _ _ => poolInv_step
    exact ⟨Leases.conserves_new List.nodup_nil, nofun, nofun, fun _ _ => rfl, fun _ _ h => by cases h⟩
  exact hinv.sound

/-- The numbers up to 5, for `y`. -/
def boundGraph : TaskGraph FloatText :=
  ⟨[⟨"y", .and [.le ⟨"y", .int⟩ 5], ⟨"y", .int⟩⟩], [], .list [], [("y", ⟨"y", .int⟩)]⟩

/-- Two calls that have solvers at the same time, of which one is cancelled. -/
def twoCalls : List (PoolEvent FloatText) :=
  [.initEngine, .verify 0 mixedSolution (some boundGraph), .verify 1 mixedSolution (some boundGraph),
    .getSolver 0, .getSolver 1, .check 1, .check 0, .leave 0, .cancel 1]

theorem twoCalls_sound : ∃ s, (poolSystem .ascii Z3.exact .available false).Reachable s ∧
    s.leases.free = [2, 3, 4, 5, 6, 7, 8, 9, 0, 1] ∧
    PoolSound .ascii Z3.exact .available false 1000 s :=
  have hreachable := System.reachable_of_exec (S := poolSystem .ascii Z3.exact .available false)
    twoCalls rfl
  ⟨_, hreachable, rfl, poolSound_of_reachable hreachable⟩

end Sound

end Noema.Neurosymbolic
