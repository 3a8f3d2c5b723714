import Noema.Lib.System
import Noema.Experiments.Artifacts

/-!
# The process environment of the experiments (`experiments/runner.py`)

`run_experiment` copies `os.environ`, applies the settings of the experiment to it under a lock,
runs the matrix, and restores the environment when the matrix has ended. The copy is made before the
lock is acquired, key by key, so that another call may change the environment meanwhile. What is
restored is only that the variables that are not in the copy are removed: the loop walks over a copy
that it makes itself and compares `os.environ` with that, so no value ever differs (runner.py:418).

- `envSystem`: calls in the threads of a process, one event for each thing that can be interleaved
  with others. The matrix of a call may set and remove variables, and end with its records or with
  an exception.
- `Intact`: the invariant: when no call has the lock the environment is that of before, and
  otherwise what its phase says (`RunPhase.Holds`); copies that were made are copies of it.
- `holds_restoreVariable`: one turn of the loop that restores. Variables that were there before are
  kept, the others are gone once the loop has visited them.
- `Untouched`: the condition on a step. A copy is made of the environment as it was before the first
  call, and when a matrix ends, the variables that were there before have their values.
- **`restored_of_untouched`**: in the runs whose steps meet it, the environment is as before
  whenever all calls have ended.
- `settings_stay`: a setting that changes a variable of the caller, and two calls that overlap.
-/

namespace Noema.Experiments

open Noema.Lib PyJson

/-- `os.environ`, or a copy of it. -/
abbrev Environ := AList fun _ : String => String

/-- The variable that `_apply_settings` sets. -/
def enabledKey : String := "NOEMA_NEUROSYMBOLIC__ENABLED"

/-- Where a call of `run_experiment` is: it copies the keys one by one, waits for the lock, applies
its settings, runs its matrix, or restores the keys one by one. -/
inductive RunPhase where
  | preparing
  | copying (keys : List String) (saved : Environ)
  | waiting (saved : Environ)
  | locked (saved : Environ)
  | running (saved : Environ)
  | restoring (saved : Environ) (rest : List (Σ _ : String, String))

/-- A call with its `cfg.get("settings", {})`. -/
structure ExperimentCall (F : Type) where
  settings : PyVal F
  phase : RunPhase

/-- The environment of the process, `_ENV_LOCK`, and the calls in flight. -/
structure EnvRuns (F : Type) where
  environ : Environ
  lock : Option Nat
  calls : Nat → Option (ExperimentCall F)

/-- What happens. The matrix of a call may set and remove variables, and it ends with its records or
with an exception. A call may fail before it has the lock. -/
inductive EnvEvent (F : Type) where
  | start (call : Nat) (settings : PyVal F)
  | fail (call : Nat)
  | listKeys (call : Nat)
  | readKey (call : Nat)
  | acquire (call : Nat)
  | applySettings (call : Nat)
  | setVariable (call : Nat) (key value : String)
  | removeVariable (call : Nat) (key : String)
  | endMatrix (call : Nat)
  | restoreKey (call : Nat)
  | release (call : Nat)

/-- The rest of `os.environ.copy()`. -/
def RunPhase.copied (keys : List String) (saved : Environ) : RunPhase :=
  if keys = [] then .waiting saved else .copying keys saved

/-- `_restore_environment`, for a variable and its value in the copy of the loop
(runner.py:418). -/
def restoreVariable (saved environ : Environ) (item : Σ _ : String, String) : Environ :=
  if item.1 ∉ saved then environ.erase item.1
  else if environ.lookup item.1 ≠ some item.2 then environ.insert item.1 item.2
  else environ

section Runs

variable {F : Type} [PyBuiltins F]

/-- `_apply_settings` (runner.py:256). With anything but a mapping it raises. -/
def applySettings (settings : PyVal F) (environ : Environ) : Option Environ :=
  match settings with
  | .dict settings =>
    let enabled := if (field settings "neurosymbolic").truthy then "true" else "false"
    some (environ.insert enabledKey enabled)
  | _ => none

namespace EnvRuns

variable (s : EnvRuns F)

/-- A call goes on, or is over. -/
def put (id : Nat) (call : Option (ExperimentCall F)) : EnvRuns F :=
  { s with calls := Function.update s.calls id call }

/-- The call goes on to a phase, with this environment. -/
def goOn (id : Nat) (call : ExperimentCall F) (environ : Environ) (phase : RunPhase) : EnvRuns F :=
  { s.put id (some { call with phase }) with environ }

/-- What a call does next, if the event is that of its phase. -/
def callStep (id : Nat) (call : ExperimentCall F) : EnvEvent F → Option (EnvRuns F)
  | .start .. => none
  | .fail _ =>
    match call.phase with
    | .preparing | .copying .. | .waiting _ => some (s.put id none)
    | .locked _ | .running _ | .restoring .. => none
  | .listKeys _ =>
    match call.phase with
    | .preparing => some (s.goOn id call s.environ (.copied s.environ.keys ∅))
    | _ => none
  | .readKey _ =>
    match call.phase with
    | .copying (key :: keys) saved =>
      match s.environ.lookup key with
      | some value => some (s.goOn id call s.environ (.copied keys (saved.insert key value)))
      -- `KeyError`
      | none => some (s.put id none)
    | _ => none
  | .acquire _ =>
    match call.phase, s.lock with
    | .waiting saved, none => some { s.goOn id call s.environ (.locked saved) with lock := some id }
    | _, _ => none
  | .applySettings _ =>
    match call.phase with
    | .locked saved =>
      match applySettings call.settings s.environ with
      | some environ => some (s.goOn id call environ (.running saved))
      | none => some (s.goOn id call s.environ (.restoring saved s.environ.entries))
    | _ => none
  | .setVariable _ key value =>
    match call.phase with
    | .running saved => some (s.goOn id call (s.environ.insert key value) (.running saved))
    | _ => none
  | .removeVariable _ key =>
    match call.phase with
    | .running saved => some (s.goOn id call (s.environ.erase key) (.running saved))
    | _ => none
  | .endMatrix _ =>
    match call.phase with
    | .running saved => some (s.goOn id call s.environ (.restoring saved s.environ.entries))
    | _ => none
  | .restoreKey _ =>
    match call.phase with
    | .restoring saved (item :: rest) =>
      some (s.goOn id call (restoreVariable saved s.environ item) (.restoring saved rest))
    | _ => none
  | .release _ =>
    match call.phase with
    | .restoring _ [] => some { s.put id none with lock := none }
    | _ => none

end EnvRuns

/-- The call of an event. -/
def EnvEvent.call : EnvEvent F → Nat
  | .start call _ | .fail call | .listKeys call | .readKey call | .acquire call
  | .applySettings call | .setVariable call .. | .removeVariable call _ | .endMatrix call
  | .restoreKey call | .release call => call

/-- Calls of `run_experiment` in the threads of a process. -/
def envSystem (environ : Environ) : System (EnvRuns F) (EnvEvent F) where
  init := ⟨environ, none, fun _ => none⟩
  step s e :=
    match s.calls e.call with
    | some call => s.callStep e.call call e
    | none =>
      match e with
      | .start id settings => some (s.put id (some ⟨settings, .preparing⟩))
      | _ => none

/-- The two environments have the same variables with the same values. -/
def SameEnviron (environ environ' : Environ) : Prop :=
  ∀ key, environ.lookup key = environ'.lookup key

/-- When all calls have ended, the environment is what it was. -/
def EnvRestored (before : Environ) (s : EnvRuns F) : Prop :=
  (∀ id, s.calls id = none) → SameEnviron s.environ before

/-- The condition on a step. A copy is made of the environment as it was before the first call, and
when a matrix ends, the variables that were there before have their values. -/
def Untouched (before : Environ) (s : EnvRuns F) : EnvEvent F → Prop
  | .listKeys _ => ∀ key, key ∈ s.environ ↔ key ∈ before
  | .readKey id => ∀ call ∈ s.calls id, ∀ key keys saved, call.phase = .copying (key :: keys) saved →
      s.environ.lookup key = before.lookup key
  | .endMatrix _ => ∀ key ∈ before, s.environ.lookup key = before.lookup key
  | .start .. | .fail _ | .acquire _ | .applySettings _ | .setVariable .. | .removeVariable ..
  | .restoreKey _ | .release _ => True

/-! ## The invariant -/

/-- What the call of a phase has copied. The keys of the environment were listed when it had the
same ones as before. -/
def RunPhase.Saved (before : Environ) : RunPhase → Prop
  | .preparing => True
  | .copying keys saved => ∀ key ∉ keys, saved.lookup key = before.lookup key
  | .waiting saved | .locked saved | .running saved | .restoring saved _ =>
    SameEnviron saved before

/-- What the environment is when the call of a phase has the lock. The loop that restores it has
still to visit every variable that was not there before. -/
def RunPhase.Holds (before environ : Environ) : RunPhase → Prop
  | .preparing | .copying .. | .waiting _ => False
  | .locked _ => SameEnviron environ before
  | .running _ => True
  | .restoring _ rest =>
    (∀ key ∈ before, environ.lookup key = before.lookup key) ∧
      (∀ item ∈ rest, item.1 ∈ before → before.lookup item.1 = some item.2) ∧
      ∀ key ∉ before, key ∉ rest.map Sigma.fst → environ.lookup key = none

/-- The phase is one of a call that has the lock. -/
def RunPhase.isLocked : RunPhase → Bool
  | .preparing | .copying .. | .waiting _ => false
  | .locked _ | .running _ | .restoring .. => true

/-- The invariant. -/
structure Intact (before : Environ) (s : EnvRuns F) : Prop where
  saved : ∀ id, ∀ call ∈ s.calls id, call.phase.Saved before
  locked : ∀ id, ∀ call ∈ s.calls id, call.phase.isLocked → s.lock = some id
  free : s.lock = none → SameEnviron s.environ before
  held : ∀ id, s.lock = some id → ∃ call ∈ s.calls id, call.phase.Holds before s.environ

section Steps

omit [PyBuiltins F]

variable {before : Environ} {s s' : EnvRuns F} {id : Nat} {call : ExperimentCall F}

theorem RunPhase.Holds.isLocked {environ : Environ} {phase : RunPhase}
    (h : phase.Holds before environ) : phase.isLocked := by
  cases phase with
  | preparing => cases h
  | copying => cases h
  | waiting => cases h
  | locked => rfl
  | running => rfl
  | restoring => rfl

/-- A call that does not have the lock starts, goes on without it, or ends. -/
theorem Intact.put (h : Intact before s) (hcall : ∀ call ∈ s.calls id, call.phase.isLocked = false)
    {new : Option (ExperimentCall F)}
    (hnew : ∀ call ∈ new, call.phase.Saved before ∧ call.phase.isLocked = false) :
    Intact before (s.put id new) where
  saved id' call hmem := by
    rcases mem_update hmem with ⟨-, hmem⟩ | ⟨-, hmem⟩
    · exact (hnew call hmem).1
    · exact h.saved id' call hmem
  locked id' call hmem hlocked := by
    rcases mem_update hmem with ⟨-, hmem⟩ | ⟨-, hmem⟩
    · rw [(hnew call hmem).2] at hlocked
      cases hlocked
    · exact h.locked id' call hmem hlocked
  free := h.free
  held id' hlock := by
    obtain ⟨call, hmem, hholds⟩ := h.held id' hlock
    have hne : id' ≠ id := by
      rintro rfl
      have hfree := hcall call hmem
      rw [hholds.isLocked] at hfree
      cases hfree
    exact ⟨call, (Function.update_of_ne hne ..).trans hmem, hholds⟩

/-- The call that has the lock is the only one. -/
theorem Intact.holds (h : Intact before s) (hcall : s.calls id = some call)
    (hlocked : call.phase.isLocked) :
    s.lock = some id ∧ call.phase.Saved before ∧ call.phase.Holds before s.environ := by
  have hlock := h.locked id call hcall hlocked
  obtain ⟨call', hmem, hholds⟩ := h.held id hlock
  cases Option.mem_unique hmem hcall
  exact ⟨hlock, h.saved id call hcall, hholds⟩

/-- The call that has the lock goes on. -/
theorem Intact.goOn (h : Intact before s) (hlock : s.lock = some id) {environ : Environ}
    {phase : RunPhase} (hsaved : phase.Saved before) (hholds : phase.Holds before environ) :
    Intact before (s.goOn id call environ phase) where
  saved id' call' hmem := by
    rcases mem_update hmem with ⟨-, hmem⟩ | ⟨-, hmem⟩
    · cases hmem
      exact hsaved
    · exact h.saved id' call' hmem
  locked id' call' hmem hlocked := by
    rcases mem_update hmem with ⟨hid, -⟩ | ⟨-, hmem⟩
    · rw [hid]
      exact hlock
    · exact h.locked id' call' hmem hlocked
  free hnone := by
    have hnone : s.lock = none := hnone
    rw [hlock] at hnone
    cases hnone
  held id' hlock' := by
    have hlock' : s.lock = some id' := hlock'
    cases hlock.symm.trans hlock'
    exact ⟨_, Function.update_self .., hholds⟩

/-- A call acquires the lock. -/
theorem Intact.acquire (h : Intact before s) (hcall : s.calls id = some call)
    {saved : Environ} (hphase : call.phase = .waiting saved) (hlock : s.lock = none) :
    Intact before { s.goOn id call s.environ (.locked saved) with lock := some id } where
  saved id' call' hmem := by
    rcases mem_update hmem with ⟨-, hmem⟩ | ⟨-, hmem⟩
    · cases hmem
      have hsaved := h.saved id call hcall
      rw [hphase] at hsaved
      exact hsaved
    · exact h.saved id' call' hmem
  locked id' call' hmem hlocked := by
    rcases mem_update hmem with ⟨hid, -⟩ | ⟨-, hmem⟩
    · rw [hid]
    · have hlock' := h.locked id' call' hmem hlocked
      rw [hlock] at hlock'
      cases hlock'
  free hnone := by cases hnone
  held id' hlock' := by
    cases hlock'
    exact ⟨_, Function.update_self .., h.free hlock⟩

/-- A call has restored the environment, and releases the lock. -/
theorem Intact.release (h : Intact before s) (hcall : s.calls id = some call)
    {saved : Environ} (hphase : call.phase = .restoring saved []) :
    Intact before { s.put id none with lock := none } := by
  obtain ⟨hlock, -, hholds⟩ := h.holds hcall (hphase ▸ rfl)
  rw [hphase] at hholds
  obtain ⟨hkept, -, hremoved⟩ := hholds
  refine ⟨fun id' call' hmem => ?_, fun id' call' hmem hlocked => ?_, fun _ key => ?_, nofun⟩
  · rcases mem_update hmem with ⟨-, hmem⟩ | ⟨-, hmem⟩
    · cases hmem
    · exact h.saved id' call' hmem
  · rcases mem_update hmem with ⟨-, hmem⟩ | ⟨hne, hmem⟩
    · cases hmem
    · exact absurd (Option.some.inj ((h.locked id' call' hmem hlocked).symm.trans hlock)) hne
  · by_cases hkey : key ∈ before
    · exact hkept key hkey
    · exact (hremoved key hkey List.not_mem_nil).trans (AList.lookup_eq_none.mpr hkey).symm

/-! ## Copying and restoring -/

omit s s' id call in
theorem saved_copied {keys : List String} {saved : Environ}
    (h : ∀ key ∉ keys, saved.lookup key = before.lookup key) :
    (RunPhase.copied keys saved).Saved before ∧ (RunPhase.copied keys saved).isLocked = false := by
  unfold RunPhase.copied
  split
  next hkeys =>
    subst hkeys
    exact ⟨fun key => h key List.not_mem_nil, rfl⟩
  next => exact ⟨h, rfl⟩

/-- The copy reads a variable. -/
theorem saved_readKey {key value : String} {keys : List String} {saved : Environ}
    (hsaved : (RunPhase.copying (key :: keys) saved).Saved before)
    (hvalue : some value = before.lookup key) :
    (RunPhase.copied keys (saved.insert key value)).Saved before ∧
      (RunPhase.copied keys (saved.insert key value)).isLocked = false := by
  refine saved_copied fun key' hkey' => ?_
  by_cases heq : key' = key
  · rw [heq, AList.lookup_insert, hvalue]
  · rw [AList.lookup_insert_ne heq]
    exact hsaved key' (List.not_mem_cons_of_ne_of_not_mem heq hkey')

/-- The loop that restores the environment starts. -/
theorem holds_restoring {environ saved : Environ}
    (h : ∀ key ∈ before, environ.lookup key = before.lookup key) :
    (RunPhase.restoring saved environ.entries).Holds before environ := by
  refine ⟨h, fun item hitem hkey => ?_, fun key _ hkey => ?_⟩
  · rw [← h item.1 hkey]
    exact AList.mem_lookup_iff.mpr hitem
  · exact AList.lookup_eq_none.mpr hkey

/-- The loop visits a variable. -/
theorem holds_restoreVariable {environ saved : Environ} {item : Σ _ : String, String}
    {rest : List (Σ _ : String, String)} (hsaved : SameEnviron saved before)
    (h : (RunPhase.restoring saved (item :: rest)).Holds before environ) :
    (RunPhase.restoring saved rest).Holds before (restoreVariable saved environ item) := by
  obtain ⟨hkept, hvalues, hremoved⟩ := h
  have hmem : item.1 ∈ saved ↔ item.1 ∈ before := by
    rw [← AList.lookup_isSome, hsaved, AList.lookup_isSome]
  refine ⟨fun key hkey => ?_, fun item' hitem' => hvalues item' (List.mem_cons_of_mem _ hitem'),
    fun key hkey hrest => ?_⟩
  · unfold restoreVariable
    split
    next hnew =>
      have hne : key ≠ item.1 := fun heq => hnew (hmem.mpr (heq ▸ hkey))
      rw [AList.lookup_erase_ne hne]
      exact hkept key hkey
    next =>
      split
      next =>
        -- A variable that was not there before is removed when the loop comes to it; until then it
        -- is still to come.
        by_cases heq : key = item.1
        · rw [heq, AList.lookup_insert, hvalues item List.mem_cons_self (heq ▸ hkey)]
        · rw [AList.lookup_insert_ne heq]
          exact hkept key hkey
      next => exact hkept key hkey
  · unfold restoreVariable
    by_cases heq : key = item.1
    · rw [if_pos (by rwa [hmem, ← heq]), heq]
      exact AList.lookup_erase _ _
    · have hnone : environ.lookup key = none := by
        refine hremoved key hkey ?_
        rw [List.map_cons, List.mem_cons, not_or]
        exact ⟨heq, hrest⟩
      split
      · rwa [AList.lookup_erase_ne heq]
      · split
        · rwa [AList.lookup_insert_ne heq]
        · exact hnone

end Steps

/-- A step of a call keeps the invariant under the condition. -/
theorem intact_callStep {before : Environ} {s s' : EnvRuns F} {call : ExperimentCall F}
    {e : EnvEvent F} (h : Intact before s) (hcall : s.calls e.call = some call)
    (hmeet : Untouched before s e) (hstep : s.callStep e.call call e = some s') :
    Intact before s' := by
  have hsaved := h.saved _ call hcall
  have hfree (hphase : call.phase.isLocked = false) :
      ∀ call ∈ s.calls e.call, call.phase.isLocked = false := fun call' hmem => by
    cases Option.mem_unique hmem hcall
    exact hphase
  -- One case for each event; its phase says what is known of the environment and of the copy.
  cases e with
  | start id settings => cases hstep
  | fail id =>
    simp only [EnvRuns.callStep] at hstep
    split at hstep
    all_goals cases hstep
    all_goals
      refine h.put (hfree ?_) fun _ hnew => by cases hnew
      simp only [*, RunPhase.isLocked]
  | listKeys id =>
    simp only [EnvRuns.callStep] at hstep
    split at hstep
    next hphase =>
      cases hstep
      refine h.put (hfree (hphase ▸ rfl)) fun _ hnew => ?_
      cases hnew
      refine saved_copied fun key hkey => ?_
      exact (AList.lookup_eq_none.mpr ((hmeet key).not.mp hkey)).symm
    next => cases hstep
  | readKey id =>
    simp only [EnvRuns.callStep] at hstep
    split at hstep
    next key keys saved hphase =>
      have hnotLocked := hfree (hphase ▸ rfl)
      split at hstep
      next value hvalue =>
        cases hstep
        refine h.put hnotLocked fun _ hnew => ?_
        cases hnew
        rw [hphase] at hsaved
        exact saved_readKey hsaved (hvalue.symm.trans (hmeet call hcall key keys saved hphase))
      next =>
        cases hstep
        exact h.put hnotLocked fun _ hnew => by cases hnew
    next => cases hstep
  | acquire id =>
    simp only [EnvRuns.callStep] at hstep
    split at hstep
    next saved hphase hlock =>
      cases hstep
      exact h.acquire hcall hphase hlock
    next => cases hstep
  | applySettings id =>
    simp only [EnvRuns.callStep] at hstep
    split at hstep
    next saved hphase =>
      obtain ⟨hlock, -, hholds⟩ := h.holds hcall (hphase ▸ rfl)
      rw [hphase] at hsaved hholds
      split at hstep
      next environ _ =>
        cases hstep
        exact h.goOn hlock hsaved trivial
      next =>
        cases hstep
        exact h.goOn hlock hsaved (holds_restoring fun key _ => hholds key)
    next => cases hstep
  | setVariable id key value =>
    simp only [EnvRuns.callStep] at hstep
    split at hstep
    next saved hphase =>
      cases hstep
      rw [hphase] at hsaved
      exact h.goOn (h.holds hcall (hphase ▸ rfl)).1 hsaved trivial
    next => cases hstep
  | removeVariable id key =>
    simp only [EnvRuns.callStep] at hstep
    split at hstep
    next saved hphase =>
      cases hstep
      rw [hphase] at hsaved
      exact h.goOn (h.holds hcall (hphase ▸ rfl)).1 hsaved trivial
    next => cases hstep
  | endMatrix id =>
    simp only [EnvRuns.callStep] at hstep
    split at hstep
    next saved hphase =>
      cases hstep
      rw [hphase] at hsaved
      exact h.goOn (h.holds hcall (hphase ▸ rfl)).1 hsaved (holds_restoring hmeet)
    next => cases hstep
  | restoreKey id =>
    simp only [EnvRuns.callStep] at hstep
    split at hstep
    next saved item rest hphase =>
      cases hstep
      obtain ⟨hlock, -, hholds⟩ := h.holds hcall (hphase ▸ rfl)
      rw [hphase] at hsaved hholds
      exact h.goOn hlock hsaved (holds_restoreVariable hsaved hholds)
    next => cases hstep
  | release id =>
    simp only [EnvRuns.callStep] at hstep
    split at hstep
    next saved hphase =>
      cases hstep
      exact h.release hcall hphase
    next => cases hstep

theorem intact_step {before : Environ} {s s' : EnvRuns F} {e : EnvEvent F} (h : Intact before s)
    (hmeet : Untouched before s e) (hstep : (envSystem before).step s e = some s') :
    Intact before s' := by
  cases hcall : s.calls e.call with
  | some call =>
    simp only [envSystem, hcall] at hstep
    exact intact_callStep h hcall hmeet hstep
  | none =>
    simp only [envSystem, hcall] at hstep
    split at hstep
    next id settings =>
      cases hstep
      have hcall : s.calls id = none := hcall
      refine h.put (fun call hmem => ?_) fun call hnew => ?_
      · rw [hcall] at hmem
        cases hmem
      · cases hnew
        exact ⟨trivial, rfl⟩
    next => cases hstep

/-- In a run whose copies are made of the untouched environment, and whose matrices only add
variables to it, the environment is what it was whenever all calls have ended. -/
theorem restored_of_untouched (before : Environ) {steps : List (EnvRuns F × EnvEvent F)}
    {s : EnvRuns F} (run : (envSystem before).Run steps s)
    (h : System.Meets (Untouched before) steps) : System.Always (EnvRestored before) steps s := by
  have hintact : System.Always (Intact before) steps s := by
    refine run.always_of_meets ?_ (fun s e s' hs hmeet => intact_step hs hmeet) h
    exact ⟨fun _ _ h => (by cases h), fun _ _ h => (by cases h), fun _ _ => rfl, fun _ h => by cases h⟩
  refine hintact.imp fun s hs hended => hs.free ?_
  by_contra hlock
  obtain ⟨id, hlock⟩ := Option.ne_none_iff_exists'.mp hlock
  obtain ⟨call, hmem, -⟩ := hs.held id hlock
  rw [hended] at hmem
  cases hmem

/-- The environment with another variable. -/
def pathEnviron : Environ := .singleton "PATH" "/bin"

/-- A call without settings whose matrix sets a variable. -/
def plainCall : List (EnvEvent FloatText) :=
  [.start 0 (.dict []), .listKeys 0, .readKey 0, .acquire 0, .applySettings 0,
    .setVariable 0 "CACHE" "on", .endMatrix 0, .restoreKey 0, .restoreKey 0, .restoreKey 0, .release 0]

/-- It leaves the environment as it was. -/
theorem plainCall_restores : ∃ steps, ∃ s : EnvRuns FloatText,
    steps.map Prod.snd = plainCall.reverse ∧ (∀ id, s.calls id = none) ∧
      System.Always (EnvRestored pathEnviron) steps s := by
  have run := System.Run.start (S := envSystem (F := FloatText) pathEnviron)
  have run := run.next (e := .start 0 (.dict [])) rfl
  have run := run.next (e := .listKeys 0) rfl
  have run := run.next (e := .readKey 0) rfl
  have run := run.next (e := .acquire 0) rfl
  have run := run.next (e := .applySettings 0) rfl
  have run := run.next (e := .setVariable 0 "CACHE" "on") rfl
  have run := run.next (e := .endMatrix 0) rfl
  have run := run.next (e := .restoreKey 0) rfl
  have run := run.next (e := .restoreKey 0) rfl
  have run := run.next (e := .restoreKey 0) rfl
  have run := run.next (e := .release 0) rfl
  refine ⟨_, _, rfl, fun id => ?_, restored_of_untouched pathEnviron run fun p hp => ?_⟩
  · cases id with
    | zero => rfl
    | succ id => rfl
  · fin_cases hp
    all_goals try trivial
    · intro key hkey
      rw [AList.mem_keys, pathEnviron, AList.keys_singleton, List.mem_singleton] at hkey
      subst hkey
      decide +kernel
    · exact fun _ _ _ _ _ _ => rfl
    · exact fun _ => Iff.rfl

/-- An experiment without the neurosymbolic engine, in a process that has it enabled. -/
def disablingCall : List (EnvEvent FloatText) :=
  [.start 0 (.dict []), .listKeys 0, .readKey 0, .acquire 0, .applySettings 0, .endMatrix 0,
    .restoreKey 0, .release 0]

/-- A second call that copies the environment while the first one has changed it. -/
def overlappingCalls : List (EnvEvent FloatText) :=
  [.start 0 (.dict []), .listKeys 0, .acquire 0, .applySettings 0, .start 1 (.dict []), .listKeys 1,
    .readKey 1, .endMatrix 0, .restoreKey 0, .release 0, .acquire 1, .applySettings 1, .endMatrix 1,
    .restoreKey 1, .release 1]

/-- After the first run the engine stays disabled, and after the second one the variable stays
set. -/
theorem settings_stay :
    (∃ s, (envSystem (.singleton enabledKey "true")).Reachable s ∧
      ¬ EnvRestored (F := FloatText) (.singleton enabledKey "true") s) ∧
    ∃ s, (envSystem ∅).Reachable s ∧ ¬ EnvRestored (F := FloatText) ∅ s := by
  constructor
  · refine ⟨_, System.reachable_of_exec disablingCall rfl, fun h => ?_⟩
    have hkey := h (fun id => ?_) enabledKey
    · revert hkey
      decide +kernel
    · cases id with
      | zero => rfl
      | succ id => rfl
  · refine ⟨_, System.reachable_of_exec overlappingCalls rfl, fun h => ?_⟩
    have hkey := h (fun id => ?_) enabledKey
    · revert hkey
      decide +kernel
    · match id with
      | 0 => rfl
      | 1 => rfl
      | id + 2 => rfl

end Runs

end Noema.Experiments
