import Noema.Api.RateLimit

/-!
# The Redis limiter (`api/rate_limit.py`)

`_RedisSlidingWindowCounter.allow` is a sequence of Redis commands on the sorted set of a key: trim,
count, and then either look up the oldest member or add one and set the expiry
(rate_limit.py:144-183). Each command is atomic, but there is no transaction around them. The calls
of all workers run over one set, and the commands of different calls interleave in any way
(`redisSystem`).

A member is the clock reading of its call with the id of an object of its worker, and the reading is
also its score. Two calls with the same reading and the same id have the same member, and `ZADD`
then replaces one by the other.

- `RedisPc`: the command that a call executes next. A call that has counted carries the number of
  calls allowed so far, which is bookkeeping of the model.
- `Undisturbed`: the condition on a step. A call that counts finds as many members as calls of its
  window have been allowed, and between the count of a call and its `ZADD` no other call is allowed.
- **`withinLimit_of_undisturbed`**: the limit holds in every run whose steps are undisturbed.
- `racing_not_withinLimit`: two calls that count before either adds are both allowed, where one may
  be.

The invariant `RedisInv` says of a call that is about to add: there was room when it counted, and
there still is, unless someone else was allowed since (`AddInv`).
-/

namespace Noema.Api

open Noema.Lib System

section Redis

variable {T : Type} [Ring T] [LinearOrder T] [FloorRing T]

/-- A member `f"{now}:{id(key)}"`, with the score `now`. -/
structure Member (T : Type) where
  now : T
  objectId : Nat
  deriving DecidableEq, Repr

/-- The sorted set of a key with the time at which it expires. -/
structure SortedSet (T : Type) where
  members : List (Member T)
  expiresAt : Option T
  deriving DecidableEq, Repr

/-- The set as a command finds it: a key that has expired is gone. -/
def SortedSet.live (set : SortedSet T) (time : T) : SortedSet T :=
  if set.expiresAt.any (· ≤ time) then ⟨[], none⟩ else set

/-- `ZREMRANGEBYSCORE key 0 limit`: an empty set is deleted. -/
def SortedSet.trim (set : SortedSet T) (limit : T) : SortedSet T :=
  let members := set.members.filter fun m => !(0 ≤ m.now && m.now ≤ limit)
  if members = [] then ⟨[], none⟩ else { set with members }

/-- `ZADD key {member: score}`. -/
def SortedSet.add (set : SortedSet T) (m : Member T) : SortedSet T :=
  if m ∈ set.members then set else { set with members := m :: set.members }

/-- `EXPIRE key seconds`, which does nothing for a missing key. -/
def SortedSet.expire (set : SortedSet T) (time : T) : SortedSet T :=
  if set.members = [] then set else { set with expiresAt := some time }

/-- What a call does next. `seen` is the number of calls that had been allowed when it counted. -/
inductive RedisPc where
  | trim
  | count
  | oldest
  | add (current seen : Nat)
  | expire
  deriving DecidableEq, Repr

/-- A call of `allow`, with its clock reading. -/
structure RedisCall (T : Type) where
  now : T
  objectId : Nat
  pc : RedisPc
  deriving DecidableEq, Repr

/-- Redis and the calls of all workers, with the answers so far. A call is answered by its last
command that may change the answer: what follows `ZADD` cannot. -/
structure RedisState (T : Type) where
  set : SortedSet T
  time : T
  calls : Nat → Option (RedisCall T)
  answers : List (T × Decision)

/-- The clock shows a time, a worker calls `allow`, or a call executes its next command. -/
inductive RedisEvent (T : Type) where
  | tick (time : T)
  | call (id objectId : Nat)
  | command (id : Nat)

/-- The clock readings of the calls that were allowed. -/
def allowedTimes (answers : List (T × Decision)) : List T :=
  (answers.filter fun a => a.2.allowed).map Prod.fst

variable (cfg : WindowConfig)

/-- The factor of `config.window_seconds * 2`, under one name in every definition. -/
local instance atLeastTwo_two : Nat.AtLeastTwo 2 := inferInstance

/-- The next command of a call (rate_limit.py:149). -/
def RedisState.command (s : RedisState T) (id : Nat) (c : RedisCall T) : RedisState T :=
  let set := s.set.live s.time
  let goto (pc : RedisPc) := Function.update s.calls id (some { c with pc })
  let reset := pyTrunc (c.now + cfg.window)
  match c.pc with
  | .trim => { s with set := set.trim (c.now - cfg.window), calls := goto .count }
  | .count =>
    let current := set.members.length
    if cfg.maxRequests ≤ current then { s with set, calls := goto .oldest }
    else { s with set, calls := goto (.add current (allowedTimes s.answers).length) }
  | .oldest =>
    -- the set may have been emptied since the count
    let retryAfter : T :=
      match (set.members.map Member.now).min? with
      | some oldest => cfg.window - (c.now - oldest)
      | none => cfg.window
    { s with
      set
      calls := Function.update s.calls id none
      answers := (c.now, ⟨false, cfg.maxRequests, 0, reset, some (pyTrunc retryAfter + 1)⟩) ::
        s.answers }
  | .add current _ =>
    { s with
      set := set.add ⟨c.now, c.objectId⟩
      calls := goto .expire
      answers := (c.now, ⟨true, cfg.maxRequests, max 0 (cfg.maxRequests - current - 1), reset,
        none⟩) :: s.answers }
  | .expire =>
    { s with
      set := set.expire (s.time + cfg.window * 2)
      calls := Function.update s.calls id none }

/-- A step of the workers and Redis. -/
def redisStep (s : RedisState T) : RedisEvent T → Option (RedisState T)
  | .tick time => if s.time ≤ time then some { s with time } else none
  | .call id objectId =>
    if s.calls id = none then
      some { s with calls := Function.update s.calls id (some ⟨s.time, objectId, .trim⟩) }
    else none
  | .command id => (s.calls id).map (s.command cfg id)

/-- Workers that start with an empty set at a time. -/
def redisSystem (start : T) : System (RedisState T) (RedisEvent T) where
  init := ⟨⟨[], none⟩, start, fun _ => none, []⟩
  step := redisStep cfg

/-! ## The limit -/

/-- No window has more allowed calls than it may. -/
def WithinLimit (s : RedisState T) : Prop :=
  Limited (cfg.window : T) cfg.maxRequests.toNat (allowedTimes s.answers)

/-- A step does not disturb a call: when the call counts, all allowed calls of its window are in
the set, and when it adds its member, no call has been allowed since it counted. -/
def Undisturbed (s : RedisState T) : RedisEvent T → Prop
  | .tick _ | .call _ _ => True
  | .command id =>
    match s.calls id with
    | some ⟨now, _, .count⟩ => (recent (cfg.window : T) now (allowedTimes s.answers)).length ≤
        (s.set.live s.time).members.length
    | some ⟨_, _, .add _ seen⟩ => seen = (allowedTimes s.answers).length
    | _ => True

instance (s : RedisState T) (e : RedisEvent T) : Decidable (Undisturbed cfg s e) := by
  unfold Undisturbed
  split
  · infer_instance
  · infer_instance
  · split <;> infer_instance

variable {cfg} {s s' : RedisState T}

/-- What a call that is to add its member has counted: there was room, and there still is, unless
another call was allowed since. -/
structure AddInv (cfg : WindowConfig) (s : RedisState T) (c : RedisCall T) (current seen : Nat) :
    Prop where
  room : current < cfg.maxRequests
  past : seen ≤ (allowedTimes s.answers).length
  counted : seen = (allowedTimes s.answers).length →
    (recent (cfg.window : T) c.now (allowedTimes s.answers)).length ≤ current

/-- The limit holds, and the calls that are to add their member have counted. -/
structure RedisInv (cfg : WindowConfig) (s : RedisState T) : Prop where
  limited : WithinLimit cfg s
  adds : ∀ id c current seen, s.calls id = some c → c.pc = .add current seen →
    AddInv cfg s c current seen

omit [FloorRing T] in
/-- A step that allows no call, and brings at most one call to its `ZADD`. -/
theorem RedisInv.of_answers (hs : RedisInv cfg s)
    (hanswers : allowedTimes s'.answers = allowedTimes s.answers)
    (hcalls : ∀ id c current seen, s'.calls id = some c → c.pc = .add current seen →
      s.calls id = some c ∨ AddInv cfg s c current seen) : RedisInv cfg s' := by
  constructor
  · rw [WithinLimit, hanswers]
    exact hs.limited
  · intro id c current seen hc hpc
    have hadd : AddInv cfg s c current seen := by
      rcases hcalls id c current seen hc hpc with hold | hadd
      · exact hs.adds id c current seen hold hpc
      · exact hadd
    exact { room := hadd.room, past := hanswers ▸ hadd.past, counted := hanswers ▸ hadd.counted }

omit [Ring T] [LinearOrder T] [FloorRing T] in
/-- A call in an updated table is an old one or the new one. -/
theorem update_cases {calls : Nat → Option (RedisCall T)} {id id' : Nat} {c : RedisCall T}
    {next : Option (RedisCall T)} (h : Function.update calls id next id' = some c) :
    calls id' = some c ∨ next = some c := by
  rw [Function.update_apply] at h
  split at h
  · exact .inr h
  · exact .inl h

omit [FloorRing T] in
/-- A call goes on without being allowed. When its `ZADD` comes next, it has counted. -/
theorem RedisInv.goOn {id : Nat} {next : Option (RedisCall T)} (hs : RedisInv cfg s)
    (hanswers : allowedTimes s'.answers = allowedTimes s.answers)
    (hcalls : s'.calls = Function.update s.calls id next)
    (hnext : ∀ c current seen, next = some c → c.pc = .add current seen →
      AddInv cfg s c current seen) : RedisInv cfg s' := by
  refine hs.of_answers hanswers ?_
  intro id' c' current' seen' hc' hpc'
  rw [hcalls] at hc'
  exact (update_cases hc').imp_right fun hnew => hnext c' current' seen' hnew hpc'

section Ordered

variable [IsStrictOrderedRing T]

/-- A call that adds its member, when no other call was allowed since it counted. -/
theorem RedisInv.add {id : Nat} {c : RedisCall T} {current seen : Nat} (hs : RedisInv cfg s)
    (hc : s.calls id = some c) (hpc : c.pc = .add current seen)
    (hseen : seen = (allowedTimes s.answers).length) : RedisInv cfg (s.command cfg id c) := by
  obtain ⟨hroom, -, hcounted⟩ := hs.adds id c current seen hc hpc
  have hallowed : allowedTimes (s.command cfg id c).answers =
      c.now :: allowedTimes s.answers := by
    simp [RedisState.command, hpc, allowedTimes]
  constructor
  · rw [WithinLimit, hallowed]
    refine hs.limited.cons ?_
    have hle := hcounted hseen
    omega
  · intro id' c' current' seen' hc' hpc'
    -- A call that waits for its own `ZADD` has counted before this one was allowed, so its number
    -- of calls is out of date, and it claims nothing any more.
    rw [RedisState.command, hpc] at hc'
    rcases update_cases hc' with hold | hnew
    · obtain ⟨hroom', hpast', -⟩ := hs.adds id' c' current' seen' hold hpc'
      refine { room := hroom', past := ?_, counted := fun heq => ?_ }
      · rw [hallowed, List.length_cons]
        omega
      · rw [hallowed, List.length_cons] at heq
        omega
    · cases hnew
      cases hpc'

theorem redisInv_command {id : Nat} {c : RedisCall T} (hs : RedisInv cfg s)
    (hc : s.calls id = some c) (hundisturbed : Undisturbed cfg s (.command id)) :
    RedisInv cfg (s.command cfg id c) := by
  obtain ⟨now, objectId, pc⟩ := c
  simp only [Undisturbed, hc] at hundisturbed
  rw [RedisState.command]
  rcases pc with _ | _ | _ | ⟨current, seen⟩ | _
  · refine hs.goOn rfl rfl ?_
    rintro c current seen ⟨⟩ hpc
    cases hpc
  · dsimp only
    split
    next hfull =>
      refine hs.goOn rfl rfl ?_
      rintro c current seen ⟨⟩ hpc
      cases hpc
    -- `ZCARD` had room: what it counted is what the call was promised
    next hroom =>
      refine hs.goOn rfl rfl ?_
      rintro c current seen ⟨⟩ hpc
      cases hpc
      exact { room := not_le.mp hroom, past := le_rfl, counted := fun _ => hundisturbed }
  · exact hs.goOn rfl rfl nofun
  -- only the `ZADD` allows a call
  · exact hs.add hc rfl hundisturbed
  · exact hs.goOn rfl rfl nofun

theorem redisInv_step {start : T} (s : RedisState T) (e : RedisEvent T) (s' : RedisState T)
    (hs : RedisInv cfg s) (hundisturbed : Undisturbed cfg s e)
    (h : (redisSystem cfg start).step s e = some s') : RedisInv cfg s' := by
  cases e with
  | tick time =>
    obtain ⟨-, h⟩ := Option.ite_none_right_eq_some.mp h
    cases h
    exact hs.of_answers rfl fun _ _ _ _ hc _ => .inl hc
  | call id objectId =>
    obtain ⟨-, h⟩ := Option.ite_none_right_eq_some.mp h
    cases h
    refine hs.of_answers rfl ?_
    intro id' c current seen hc hpc
    refine (update_cases hc).imp_right ?_
    intro hnew
    cases hnew
    cases hpc
  | command id =>
    obtain ⟨c, hc, rfl⟩ := Option.map_eq_some_iff.mp h
    exact redisInv_command hs hc hundisturbed

/-- **The Redis limiter.** In every state of a run whose steps disturb no call, no window has more
allowed calls than it may. The condition is about the state before each step: what the set has when
a call counts, and whether another call is allowed between the count of a call and its `ZADD`. -/
theorem withinLimit_of_undisturbed (cfg : WindowConfig) (start : T)
    (steps : List (RedisState T × RedisEvent T)) (s : RedisState T)
    (run : (redisSystem cfg start).Run steps s) (hmeets : Meets (Undisturbed cfg) steps) :
    Always (WithinLimit cfg) steps s := by
  have hinit : RedisInv cfg (redisSystem cfg start).init :=
    ⟨limited_nil _ _, fun id c current seen hc => by cases hc⟩
  exact (run.always_of_meets hinit redisInv_step hmeets).imp fun s hs => hs.limited

/-- Two calls of different workers, one after the other. -/
def inTurn : List (RedisEvent Int) :=
  [.call 0 7, .command 0, .command 0, .command 0, .command 0, .tick 1,
    .call 1 8, .command 1, .command 1, .command 1, .command 1]

theorem inTurn_withinLimit : ∃ (steps : List (RedisState Int × RedisEvent Int)) (s : RedisState Int),
    (redisSystem ⟨1, 1⟩ 0).Run steps s ∧ allowedTimes s.answers = [1, 0] ∧
      Always (WithinLimit ⟨1, 1⟩) steps s := by
  let S := (redisSystem ⟨1, 1⟩ (0 : Int)).guard (Undisturbed ⟨1, 1⟩)
  have hanswers : (S.exec S.init inTurn).map (fun s => allowedTimes s.answers) = some [1, 0] := by
    decide +kernel
  obtain ⟨s, hs, hallowed⟩ := Option.map_eq_some_iff.mp hanswers
  obtain ⟨steps, run⟩ := reachable_of_exec _ hs
  obtain ⟨run, hmeets⟩ := run.of_guard
  exact ⟨steps, s, run, hallowed, withinLimit_of_undisturbed ⟨1, 1⟩ 0 steps s run hmeets⟩

/-- Two calls at the same time that count before either adds its member. -/
def racing : List (RedisEvent Int) :=
  [.call 0 7, .call 1 8, .command 0, .command 1, .command 0, .command 1, .command 0, .command 1,
    .command 0, .command 1]

/-- Both are allowed, where one may be. -/
theorem racing_not_withinLimit : ∃ s : RedisState Int,
    (redisSystem ⟨1, 1⟩ 0).Reachable s ∧ ¬ WithinLimit ⟨1, 1⟩ s := by
  let S := redisSystem ⟨1, 1⟩ (0 : Int)
  have hanswers : (S.exec S.init racing).map (fun s => allowedTimes s.answers) = some [0, 0] := by
    decide +kernel
  obtain ⟨s, hs, hallowed⟩ := Option.map_eq_some_iff.mp hanswers
  refine ⟨s, reachable_of_exec _ hs, fun hlimit => ?_⟩
  have hwindow := (hlimit (-1)).1
  rw [hallowed] at hwindow
  revert hwindow
  decide

end Ordered

end Redis

end Noema.Api
