import Noema.Lib.System
import Noema.Billing.Quotas

/-!
# The heartbeats of the workers (`workers/arq_worker.py`)

A beat writes the hash of a worker and then sets its expiry, with two commands. Between them the
hash of a new key has no expiry, and it never gets one if the second command does not come: it may
fail, the beat may be cancelled, and the worker may crash. A command that raises may have been
carried out all the same.

- `fleetSystem`: the workers with their calls, and the hashes in Redis, which expire as time goes
  on.
- `Expiring`: every hash has an expiry of at most `HEARTBEAT_TTL`. `Attended`: every hash has one,
  or a beat is about to set it.
- `Leaves`: the hashes stay, and the calls that are about to set an expiry are the same but for
  some. Most steps are of this kind, and `Leaves.step` deals with them at once.
- `attended_finish`: what the end of a command does, one case for each command.
- `fleet_step`: the step lemma for both invariants.
- **`expiring_iff`**: all hashes have an expiry in every state if and only if no beat writes a new
  one (`Refreshes`); and they have one, or get one, if and only if no beat breaks off with a hash
  that nobody else attends to (`BreaksOffAttended`).
- `crashedBeat_stays`: an hour after the crash of a worker its hash is still there.
-/

namespace Noema.Workers

open Noema.Lib Noema.Billing

/-! ## Redis -/

/-- A hash in Redis, with the time in milliseconds when it expires. -/
structure RedisHash where
  fields : List (String × String)
  expireAt : Option Nat

/-- `HEARTBEAT_TTL`, in seconds. -/
def heartbeatTtl : Nat := 15

/-- The hashes that are left at some time. -/
def unexpired (now : Nat) (hash : RedisHash) : Bool := hash.expireAt.all (now < ·)

/-- `HSET` with a mapping keeps the other fields and the expiry. -/
def RedisHash.set (old : Option RedisHash) (mapping : List (String × String)) : RedisHash where
  fields := mapping ++ (old.elim [] RedisHash.fields).filter fun f => (mapping.lookup f.1).isNone
  expireAt := old.bind RedisHash.expireAt

/-! ## Workers -/

/-- A `NodeHeartbeat`. `task` is the call of its loop. -/
structure NodeHeartbeat where
  nodeId : String
  hostname : String
  pid : Nat
  metricsPort : Int
  startedAt : Int
  connected : Bool
  task : Option Nat := none
  draining : Bool := false

/-- The mapping of a beat. -/
def NodeHeartbeat.mapping (worker : NodeHeartbeat) (time : Int) : List (String × String) :=
  [("node_id", worker.nodeId), ("hostname", worker.hostname), ("pid", toString worker.pid),
    ("started_at", toString worker.startedAt), ("last_heartbeat", toString time),
    ("draining", if worker.draining then "1" else "0"),
    ("metrics_port", toString worker.metricsPort)]

/-- The coroutines of a `NodeHeartbeat`. -/
inductive Method where
  | start
  | loop
  | markDraining
  | stop
  deriving DecidableEq

/-- What a call waits for: its sleep, or a command. -/
inductive Await where
  | sleep
  | hset (mapping : List (String × String))
  | expire
  | delete
  | aclose
  deriving DecidableEq

/-- A call in flight. -/
structure BeatCall where
  worker : Nat
  nodeId : String
  method : Method
  awaits : Await

/-- The workers, their calls, and the hashes in Redis under `noema:workers:` and the node id. -/
structure Fleet where
  now : Nat
  hashes : String → Option RedisHash
  workers : Nat → Option NodeHeartbeat
  calls : Nat → Option BeatCall
  created : Nat

/-- What happens. A command ends with a reply, and `crash` ends a worker with all its calls. -/
inductive FleetEvent where
  | construct (worker : Nat) (heartbeat : NodeHeartbeat)
  | tick (ms : Nat)
  | start (worker : Nat) (time : Int)
  | markDraining (worker : Nat) (time : Int)
  | stop (worker : Nat)
  | wake (call : Nat) (time : Int)
  | reply (call : Nat) (reply : Reply)
  | crash (worker : Nat)

namespace Fleet

variable (s : Fleet)

/-- A call goes on, or is over. -/
def put (id : Nat) (call : Option BeatCall) : Fleet := { s with calls := Function.update s.calls id call }

/-- A new call. -/
def spawn (call : BeatCall) : Fleet := { s.put s.created (some call) with created := s.created + 1 }

def setWorker (id : Nat) (worker : NodeHeartbeat) : Fleet :=
  { s with workers := Function.update s.workers id (some worker) }

def setHash (nodeId : String) (hash : Option RedisHash) : Fleet :=
  { s with hashes := Function.update s.hashes nodeId hash }

/-- `_beat` has returned (arq_worker.py:107). -/
def beaten (id : Nat) (call : BeatCall) : Fleet :=
  match call.method with
  | .start =>
    match s.workers call.worker with
    | some worker =>
      ((s.put id none).setWorker call.worker { worker with task := some s.created }).spawn
        { call with method := .loop, awaits := .sleep }
    | none => s.put id none
  | .loop => s.put id (some { call with awaits := .sleep })
  | .markDraining => s.put id none
  | .stop => s.put id none

/-- A command has raised. Only the loop goes on. -/
def raised (id : Nat) (call : BeatCall) : Fleet :=
  if call.method = .loop then s.put id (some { call with awaits := .sleep }) else s.put id none

/-- A command takes effect in Redis. -/
def apply (call : BeatCall) : Fleet :=
  match call.awaits with
  | .sleep => s
  | .hset mapping => s.setHash call.nodeId (some (.set (s.hashes call.nodeId) mapping))
  | .expire =>
    s.setHash call.nodeId ((s.hashes call.nodeId).map fun hash =>
      { hash with expireAt := some (s.now + 1000 * heartbeatTtl) })
  | .delete => s.setHash call.nodeId none
  | .aclose => s

/-- A command has returned. -/
def proceed (id : Nat) (call : BeatCall) : Fleet :=
  match call.awaits with
  | .sleep => s
  | .hset _ => s.put id (some { call with awaits := .expire })
  | .expire => s.beaten id call
  | .delete => s.put id (some { call with awaits := .aclose })
  | .aclose =>
    match s.workers call.worker with
    | some worker => (s.put id none).setWorker call.worker { worker with connected := false }
    | none => s.put id none

/-- A command ends. -/
def finish (id : Nat) (call : BeatCall) (reply : Reply) : Fleet :=
  let s := if reply.applied then s.apply call else s
  if reply.raises then s.raised id call else s.proceed id call

end Fleet

/-- The workers of a grid, from some hashes in Redis. -/
def fleetSystem (now : Nat) (hashes : String → Option RedisHash) : System Fleet FleetEvent where
  init := ⟨now, hashes, fun _ => none, fun _ => none, 0⟩
  step s e :=
    match e with
    | .construct id heartbeat =>
      if s.workers id = none then
        some (s.setWorker id { heartbeat with task := none, draining := false })
      else none
    | .tick ms =>
      -- Redis drops the hashes that have expired
      some { s with
        now := s.now + ms, hashes := fun nodeId => (s.hashes nodeId).filter (unexpired (s.now + ms)) }
    | .start id time =>
      (s.workers id).map fun worker =>
        let worker := { worker with connected := true }
        (s.setWorker id worker).spawn ⟨id, worker.nodeId, .start, .hset (worker.mapping time)⟩
    | .markDraining id time =>
      (s.workers id).map fun worker =>
        let worker := { worker with draining := true }
        let s := s.setWorker id worker
        if worker.connected then
          s.spawn ⟨id, worker.nodeId, .markDraining, .hset (worker.mapping time)⟩
        else s
    | .stop id =>
      (s.workers id).map fun worker =>
        -- the loop is cancelled wherever it is, also between the commands of a beat
        let cancelled := match worker.task with
          | some task => (s.put task none).setWorker id { worker with task := none }
          | none => s
        if worker.connected then cancelled.spawn ⟨id, worker.nodeId, .stop, .delete⟩ else cancelled
    | .wake id time =>
      (s.calls id).bind fun call => (s.workers call.worker).bind fun worker =>
        if call.awaits = .sleep then
          -- a beat of the loop, unless the connection has been closed in the meantime
          some (if worker.connected then
            s.put id (some { call with awaits := .hset (worker.mapping time) }) else s)
        else none
    | .reply id reply =>
      (s.calls id).bind fun call =>
        if call.awaits = .sleep then none else some (s.finish id call reply)
    | .crash id =>
      (s.workers id).map fun _ =>
        { s with
          -- nothing of the worker goes on, and its hash stays
          workers := Function.update s.workers id none
          calls := fun call => (s.calls call).filter fun c => c.worker ≠ id }

/-! ## Hashes that expire -/

namespace Fleet

variable (s : Fleet)

/-- The hash has an expiry of at most `HEARTBEAT_TTL`. -/
def Bounded (hash : RedisHash) : Prop :=
  ∃ deadline ∈ hash.expireAt, deadline ≤ s.now + 1000 * heartbeatTtl

/-- The call is about to set the expiry of a node. -/
def Expires (id : Nat) (nodeId : String) : Prop :=
  ∃ call ∈ s.calls id, call.nodeId = nodeId ∧ call.awaits = .expire

/-- Every hash has an expiry, or some other call than these is about to set it. -/
def AttendedBut (ended : Nat → Prop) : Prop :=
  ∀ nodeId, ∀ hash ∈ s.hashes nodeId, s.Bounded hash ∨ ∃ id, s.Expires id nodeId ∧ ¬ ended id

end Fleet

/-- Every hash has an expiry. -/
def Expiring (s : Fleet) : Prop := ∀ nodeId, ∀ hash ∈ s.hashes nodeId, s.Bounded hash

/-- Every hash has an expiry, or some call is about to set it. -/
def Attended (s : Fleet) : Prop := s.AttendedBut fun _ => False

/-- The condition on a step for every state of a run: a hash that is written is there already. -/
def Refreshes (s : Fleet) : FleetEvent → Prop
  | .reply id reply => ∀ call ∈ s.calls id, ∀ mapping, call.awaits = .hset mapping →
      reply.applied → (s.hashes call.nodeId).isSome
  | .construct .. | .tick _ | .start .. | .markDraining .. | .stop _ | .wake .. | .crash _ => True

/-- The condition on a step for the states between beats: when a beat breaks off, its hash has an
expiry, or another beat is about to set it. -/
def BreaksOffAttended (s : Fleet) : FleetEvent → Prop
  | .reply id reply => ∀ call ∈ s.calls id,
      (call.awaits = .expire → ¬ reply.applied → s.AttendedBut fun id' => id' = id) ∧
      ∀ mapping, call.awaits = .hset mapping → reply = .raised true →
        s.hashes call.nodeId = none → ∃ id', s.Expires id' call.nodeId
  | .stop worker => s.AttendedBut fun id => ∃ heartbeat ∈ s.workers worker, heartbeat.task = some id
  | .crash worker => s.AttendedBut fun id => ∃ call ∈ s.calls id, call.worker = worker
  | .construct .. | .tick _ | .start .. | .markDraining .. | .wake .. => True

/-! ## What becomes of the calls -/

/-- Call ids are not used again. -/
def Fresh (s : Fleet) : Prop := ∀ id, s.created ≤ id → s.calls id = none

/-- The hashes stay, and the calls that are about to set an expiry are the same, but for these. -/
structure Leaves (s s' : Fleet) (ended : Nat → Prop) : Prop where
  now : s'.now = s.now
  hashes : s'.hashes = s.hashes
  expires : ∀ id nodeId, s'.Expires id nodeId ↔ s.Expires id nodeId ∧ ¬ ended id
  fresh : Fresh s → Fresh s'

section Leaves

variable {s s' s'' : Fleet} {id : Nat} {call : BeatCall} {ended ended' : Nat → Prop}

theorem Leaves.attended_iff (h : Leaves s s' ended) : Attended s' ↔ s.AttendedBut ended := by
  have hbounded (hash : RedisHash) : s'.Bounded hash ↔ s.Bounded hash := by
    rw [Fleet.Bounded, h.now, Fleet.Bounded]
  rw [Attended, Fleet.AttendedBut, Fleet.AttendedBut, h.hashes]
  refine forall₃_congr fun nodeId hash _ => or_congr (hbounded hash) (exists_congr fun id => ?_)
  rw [h.expires, and_iff_left not_false]

theorem Leaves.trans (h : Leaves s s' ended) (h' : Leaves s' s'' ended') :
    Leaves s s'' fun id => ended id ∨ ended' id where
  now := h'.now.trans h.now
  hashes := h'.hashes.trans h.hashes
  expires id nodeId := by rw [h'.expires, h.expires, not_or, and_assoc]
  fresh hfresh := h'.fresh (h.fresh hfresh)

theorem Leaves.congr (h : Leaves s s' ended) (hended : ∀ id, ended id ↔ ended' id) :
    Leaves s s' ended' where
  now := h.now
  hashes := h.hashes
  expires id nodeId := by rw [h.expires, hended]
  fresh := h.fresh

theorem Leaves.setWorker (h : Leaves s s' ended) (id : Nat) (worker : NodeHeartbeat) :
    Leaves s (s'.setWorker id worker) ended := ⟨h.now, h.hashes, h.expires, h.fresh⟩

theorem leaves_refl (s : Fleet) : Leaves s s fun _ => False :=
  ⟨rfl, rfl, fun _ _ => (and_iff_left not_false).symm, id⟩

/-- A call goes on without being about to set an expiry. -/
theorem expires_put {call' : Option BeatCall} (h : ∀ c ∈ call', c.awaits ≠ .expire) (id' : Nat)
    (nodeId : String) :
    (s.put id call').Expires id' nodeId ↔ s.Expires id' nodeId ∧ ¬ id' = id := by
  constructor
  · rintro ⟨c, hc, hnode, hawaits⟩
    rcases mem_update hc with ⟨-, hnew⟩ | ⟨hid, hold⟩
    · exact absurd hawaits (h c hnew)
    · exact ⟨⟨c, hold, hnode, hawaits⟩, hid⟩
  · rintro ⟨⟨c, hc, hnode, hawaits⟩, hid⟩
    exact ⟨c, (Function.update_of_ne hid ..).trans hc, hnode, hawaits⟩

theorem fresh_put {call' : Option BeatCall} (hcall : s.calls id = some call) (hfresh : Fresh s) :
    Fresh (s.put id call') := by
  intro id' hid'
  have hid' : s.created ≤ id' := hid'
  by_cases hid : id' = id
  · rw [hid] at hid'
    rw [hfresh id hid'] at hcall
    cases hcall
  · exact (Function.update_of_ne hid ..).trans (hfresh id' hid')

theorem leaves_put {call' : Option BeatCall} (hcall : s.calls id = some call)
    (h : ∀ c ∈ call', c.awaits ≠ .expire) : Leaves s (s.put id call') fun id' => id' = id where
  now := rfl
  hashes := rfl
  expires := expires_put h
  fresh := fresh_put hcall

theorem leaves_spawn (hfresh : Fresh s) (h : call.awaits ≠ .expire) :
    Leaves s (s.spawn call) fun _ => False where
  now := rfl
  hashes := rfl
  expires id nodeId := by
    constructor
    · rintro ⟨c, hc, hnode, hawaits⟩
      rcases mem_update hc with ⟨-, hnew⟩ | ⟨-, hold⟩
      · cases hnew
        exact absurd hawaits h
      · exact ⟨⟨c, hold, hnode, hawaits⟩, not_false⟩
    · rintro ⟨⟨c, hc, hnode, hawaits⟩, -⟩
      have hid : id ≠ s.created := by
        rintro rfl
        rw [hfresh _ le_rfl] at hc
        cases hc
      exact ⟨c, (Function.update_of_ne hid ..).trans hc, hnode, hawaits⟩
  fresh _ id hid := by
    have hid : s.created + 1 ≤ id := hid
    exact (Function.update_of_ne (by omega) ..).trans (hfresh id (by omega))

theorem leaves_over (s : Fleet) (id : Nat) : Leaves s (s.put id none) fun id' => id' = id where
  now := rfl
  hashes := rfl
  expires := expires_put fun _ h => by cases h
  fresh hfresh id' hid' := by
    by_cases hid : id' = id
    · rw [hid]
      exact Function.update_self ..
    · exact (Function.update_of_ne hid ..).trans (hfresh id' hid')

theorem leaves_raised (hcall : s.calls id = some call) :
    Leaves s (s.raised id call) fun id' => id' = id := by
  unfold Fleet.raised
  split
  · refine leaves_put hcall fun c hc => ?_
    cases hc
    exact nofun
  · exact leaves_over s id

theorem leaves_beaten (hfresh : Fresh s) (hcall : s.calls id = some call) :
    Leaves s (s.beaten id call) fun id' => id' = id := by
  have hover := leaves_over s id
  unfold Fleet.beaten
  cases call.method with
  | start =>
    cases s.workers call.worker with
    | none => exact hover
    | some worker =>
      have hset := hover.setWorker call.worker { worker with task := some s.created }
      exact (hset.trans (leaves_spawn (hset.fresh hfresh) Await.noConfusion)).congr fun _ => or_iff_left not_false
  | loop =>
    refine leaves_put hcall fun c hc => ?_
    cases hc
    exact nofun
  | markDraining => exact hover
  | stop => exact hover

/-- A command that is not the first one of a beat has returned. -/
theorem leaves_proceed (hfresh : Fresh s) (hcall : s.calls id = some call)
    (hsleep : call.awaits ≠ .sleep) (hset : ∀ mapping, call.awaits ≠ .hset mapping) :
    Leaves s (s.proceed id call) fun id' => id' = id := by
  unfold Fleet.proceed
  cases hawaits : call.awaits with
  | sleep => exact absurd hawaits hsleep
  | hset mapping => exact absurd hawaits (hset mapping)
  | expire => exact leaves_beaten hfresh hcall
  | delete =>
    refine leaves_put hcall fun c hc => ?_
    cases hc
    exact Await.noConfusion
  | aclose =>
    cases s.workers call.worker with
    | none => exact leaves_over s id
    | some worker => exact (leaves_over s id).setWorker _ { worker with connected := false }

/-- The hashes when a command ends. -/
def Fleet.applied (s : Fleet) (call : BeatCall) (reply : Reply) : Fleet :=
  if reply.applied then s.apply call else s

/-- A command changes the hash of its node only. -/
theorem Fleet.applied_eq (s : Fleet) (call : BeatCall) (reply : Reply) :
    ∃ hashes, s.applied call reply = { s with hashes } := by
  unfold Fleet.applied Fleet.apply
  split
  · split
    · exact ⟨_, rfl⟩
    · exact ⟨_, rfl⟩
    · exact ⟨_, rfl⟩
    · exact ⟨_, rfl⟩
    · exact ⟨_, rfl⟩
  · exact ⟨_, rfl⟩

/-- A call ends, or goes on to something else than the second command of a beat. -/
theorem leaves_finish (hfresh : Fresh s) (hcall : s.calls id = some call)
    (hsleep : call.awaits ≠ .sleep) (reply : Reply)
    (hset : reply.raises ∨ ∀ mapping, call.awaits ≠ .hset mapping) :
    Leaves (s.applied call reply) (s.finish id call reply) fun id' => id' = id := by
  rw [Fleet.finish]
  show Leaves _ (if reply.raises then (s.applied call reply).raised id call else
    (s.applied call reply).proceed id call) _
  obtain ⟨hashes, heq⟩ := s.applied_eq call reply
  rw [heq]
  split
  next => exact leaves_raised hcall
  next hraises => exact leaves_proceed hfresh hcall hsleep (hset.resolve_left hraises)

/-- A key is written, and its beat goes on to the second command. -/
theorem finish_hset {mapping : List (String × String)} (hawaits : call.awaits = .hset mapping) :
    s.finish id call .ok =
      (s.setHash call.nodeId (some (.set (s.hashes call.nodeId) mapping))).put id
        (some { call with awaits := .expire }) := by
  rw [Fleet.finish]
  show (s.apply call).proceed id call = _
  rw [Fleet.apply, Fleet.proceed, hawaits]

end Leaves

/-! ## What becomes of the hashes -/

section Hashes

variable {s s' : Fleet} {id : Nat} {call : BeatCall} {ended : Nat → Prop}

/-- A hash that is written keeps its expiry. -/
theorem bounded_set {old : Option RedisHash} {mapping : List (String × String)} :
    s.Bounded (.set old mapping) ↔ ∃ hash ∈ old, s.Bounded hash := by
  cases old with
  | none => exact iff_of_false (fun ⟨_, h, _⟩ => by cases h) fun ⟨_, h, _⟩ => by cases h
  | some hash => exact ⟨fun h => ⟨hash, rfl, h⟩, fun ⟨_, h, hbounded⟩ => Option.some.inj h ▸ hbounded⟩

theorem expiring_setHash (h : Expiring s) (nodeId : String) (hash : Option RedisHash) :
    Expiring (s.setHash nodeId hash) ↔ ∀ new ∈ hash, s.Bounded new := by
  constructor
  · intro hexpiring new hnew
    exact hexpiring nodeId new ((Function.update_self ..).trans hnew)
  · intro hbounded nodeId' new hnew
    rcases mem_update hnew with ⟨-, hnew⟩ | ⟨-, hold⟩
    · exact hbounded new hnew
    · exact h nodeId' new hold

theorem attendedBut_setHash (nodeId : String) (hash : Option RedisHash) :
    (s.setHash nodeId hash).AttendedBut ended ↔
      (∀ new ∈ hash, s.Bounded new ∨ ∃ id, s.Expires id nodeId ∧ ¬ ended id) ∧
        ∀ nodeId' ≠ nodeId, ∀ old ∈ s.hashes nodeId',
          s.Bounded old ∨ ∃ id, s.Expires id nodeId' ∧ ¬ ended id := by
  constructor
  · intro h
    refine ⟨fun new hnew => h nodeId new ((Function.update_self ..).trans hnew), ?_⟩
    exact fun nodeId' hne old hold => h nodeId' old ((Function.update_of_ne hne ..).trans hold)
  · rintro ⟨hself, hothers⟩ nodeId' new hnew
    rcases mem_update hnew with ⟨heq, hnew⟩ | ⟨hne, hold⟩
    · exact heq ▸ hself new hnew
    · exact hothers nodeId' hne new hold

/-- A call that waits for something else does not count. -/
theorem attendedBut_of_ne (hcall : s.calls id = some call) (h : call.awaits ≠ .expire) :
    s.AttendedBut (fun id' => id' = id) ↔ Attended s := by
  refine forall₃_congr fun nodeId hash _ => or_congr_right (exists_congr fun id' => ?_)
  refine and_congr_right fun ⟨c, hc, _, hawaits⟩ => iff_of_true ?_ not_false
  rintro rfl
  rw [hcall] at hc
  exact h (Option.some.inj hc ▸ hawaits)

/-- The second command of a beat sets the expiry. -/
theorem bounded_expire (hash : RedisHash) :
    s.Bounded { hash with expireAt := some (s.now + 1000 * heartbeatTtl) } := ⟨_, rfl, le_rfl⟩

/-- The time goes on. -/
theorem Fleet.Bounded.tick {hash : RedisHash} (h : s.Bounded hash) (ms : Nat) :
    ∃ deadline ∈ hash.expireAt, deadline ≤ s.now + ms + 1000 * heartbeatTtl := by
  obtain ⟨deadline, hdeadline, hle⟩ := h
  exact ⟨deadline, hdeadline, by omega⟩

/-- Only the first command of a beat can leave a hash without an expiry. -/
theorem expiring_applied (h : Expiring s) (call : BeatCall) (reply : Reply) :
    Expiring (s.applied call reply) ↔ ∀ mapping, call.awaits = .hset mapping →
      reply.applied → (s.hashes call.nodeId).isSome := by
  unfold Fleet.applied
  by_cases happlied : reply.applied = true
  swap
  · rw [if_neg happlied]
    exact iff_of_true h fun _ _ happ => absurd happ happlied
  rw [if_pos happlied, Fleet.apply]
  cases hawaits : call.awaits with
  | sleep => exact iff_of_true h nofun
  | hset mapping =>
    refine (expiring_setHash h _ _).trans ?_
    constructor
    · intro hbounded _ _ _
      obtain ⟨hash, hold, -⟩ := bounded_set.mp (hbounded _ rfl)
      exact Option.isSome_of_mem hold
    · intro hsome new hnew
      obtain ⟨hash, hold⟩ := Option.isSome_iff_exists.mp (hsome mapping rfl happlied)
      cases hnew
      exact bounded_set.mpr ⟨hash, hold, h _ hash hold⟩
  | expire =>
    refine iff_of_true ((expiring_setHash h _ _).mpr fun new hnew => ?_) nofun
    obtain ⟨hash, -, rfl⟩ := Option.mem_map.mp hnew
    exact bounded_expire hash
  | delete => exact iff_of_true ((expiring_setHash h _ _).mpr fun _ hnew => by cases hnew) nofun
  | aclose => exact iff_of_true h nofun

/-- A hash is deleted. -/
theorem Attended.delete (h : Attended s) (nodeId : String) : Attended (s.setHash nodeId none) :=
  (attendedBut_setHash _ _).mpr ⟨fun _ hnew => (by cases hnew), fun nodeId' _ => h nodeId'⟩

/-- `HSET` ends. -/
theorem attended_finish_hset (hfresh : Fresh s) (h : Attended s) (hcall : s.calls id = some call)
    {mapping : List (String × String)} (hawaits : call.awaits = .hset mapping) (reply : Reply) :
    Attended (s.finish id call reply) ↔
      (reply = .raised true → s.hashes call.nodeId = none →
        ∃ id', s.Expires id' call.nodeId) := by
  have hne : call.awaits ≠ .expire := hawaits ▸ Await.noConfusion
  have hsleep : call.awaits ≠ .sleep := hawaits ▸ Await.noConfusion
  cases reply with
  | ok =>
    -- the beat goes on to its second command, so it attends to the hash that it has written
    refine iff_of_true ?_ nofun
    rw [finish_hset hawaits]
    intro nodeId hash hhash
    by_cases hnode : nodeId = call.nodeId
    · exact .inr ⟨id, ⟨_, Function.update_self .., hnode.symm, rfl⟩, not_false⟩
    · have hhash : hash ∈ s.hashes nodeId := (Function.update_of_ne hnode ..).symm.trans hhash
      refine (((attendedBut_of_ne hcall hne).mpr h) nodeId hash hhash).imp_right ?_
      rintro ⟨id', ⟨c, hc, hattends⟩, hid⟩
      exact ⟨id', ⟨c, (Function.update_of_ne hid ..).trans hc, hattends⟩, not_false⟩
  | raised applied =>
    -- the beat breaks off, and the hash may have been written or not
    rw [(leaves_finish hfresh hcall hsleep _ (.inl rfl)).attended_iff]
    cases applied with
    | false => exact iff_of_true ((attendedBut_of_ne hcall hne).mpr h) nofun
    | true =>
      show (s.apply call).AttendedBut _ ↔ _
      rw [Fleet.apply, hawaits]
      refine (attendedBut_of_ne (s := s.setHash _ _) hcall hne).trans
        ((attendedBut_setHash _ _).trans ?_)
      constructor
      · rintro ⟨hself, -⟩ - hnone
        rcases hself _ rfl with hbounded | ⟨id', hexpires, -⟩
        · obtain ⟨hash, hhash, -⟩ := bounded_set.mp hbounded
          rw [hnone] at hhash
          cases hhash
        · exact ⟨id', hexpires⟩
      · intro hnone
        refine ⟨fun new hnew => ?_, fun nodeId' _ => h nodeId'⟩
        cases hnew
        cases hold : s.hashes call.nodeId with
        | none =>
          obtain ⟨id', hexpires⟩ := hnone rfl hold
          exact .inr ⟨id', hexpires, not_false⟩
        | some hash =>
          exact (h _ hash hold).imp_left fun hbounded => bounded_set.mpr ⟨hash, rfl, hbounded⟩

/-- `EXPIRE` ends. -/
theorem attended_finish_expire (hfresh : Fresh s) (h : Attended s) (hcall : s.calls id = some call)
    (hawaits : call.awaits = .expire) (reply : Reply) :
    Attended (s.finish id call reply) ↔
      (¬ reply.applied → s.AttendedBut fun id' => id' = id) := by
  have hsleep : call.awaits ≠ .sleep := hawaits ▸ Await.noConfusion
  have hleaves := leaves_finish hfresh hcall hsleep reply (.inr fun _ => hawaits ▸ Await.noConfusion)
  rw [hleaves.attended_iff]
  unfold Fleet.applied
  by_cases happlied : reply.applied = true
  · rw [if_pos happlied, Fleet.apply, hawaits]
    refine iff_of_true ((attendedBut_setHash _ _).mpr ⟨fun new hnew => ?_, ?_⟩)
      fun hnot => absurd happlied hnot
    · obtain ⟨hash, -, rfl⟩ := Option.mem_map.mp hnew
      exact .inl (bounded_expire hash)
    · -- The call is about another node than this one.
      intro nodeId' hne old hold
      refine (h nodeId' old hold).imp_right fun ⟨id', hexpires, _⟩ => ⟨id', hexpires, ?_⟩
      rintro rfl
      obtain ⟨c, hc, hnode, -⟩ := hexpires
      rw [hcall] at hc
      cases hc
      exact hne hnode.symm
  · rw [if_neg happlied]
    exact ⟨fun h _ => h, fun h => h happlied⟩

/-- A command of a call ends. -/
theorem attended_finish (hfresh : Fresh s) (h : Attended s) (hcall : s.calls id = some call)
    (hsleep : call.awaits ≠ .sleep) (reply : Reply) :
    Attended (s.finish id call reply) ↔
      (call.awaits = .expire → ¬ reply.applied → s.AttendedBut fun id' => id' = id) ∧
      ∀ mapping, call.awaits = .hset mapping → reply = .raised true →
        s.hashes call.nodeId = none → ∃ id', s.Expires id' call.nodeId := by
  cases hawaits : call.awaits with
  | sleep => exact absurd hawaits hsleep
  | hset mapping =>
    rw [attended_finish_hset hfresh h hcall hawaits reply]
    exact ⟨fun hexpires => ⟨nofun, fun _ _ => hexpires⟩, fun hboth => hboth.2 mapping rfl⟩
  | expire =>
    rw [attended_finish_expire hfresh h hcall hawaits reply]
    exact ⟨fun hbut => ⟨fun _ => hbut, nofun⟩, fun hboth => hboth.1 rfl⟩
  | delete =>
    -- the other commands of a worker are no part of a beat
    have hne : call.awaits ≠ .expire := hawaits ▸ Await.noConfusion
    rw [(leaves_finish hfresh hcall hsleep reply (.inr fun _ => hawaits ▸ Await.noConfusion)).attended_iff]
    refine iff_of_true ?_ ⟨nofun, nofun⟩
    unfold Fleet.applied
    split
    · rw [Fleet.apply, hawaits]
      exact (attendedBut_of_ne (s := s.setHash _ _) hcall hne).mpr (h.delete _)
    · exact (attendedBut_of_ne hcall hne).mpr h
  | aclose =>
    have hne : call.awaits ≠ .expire := hawaits ▸ Await.noConfusion
    rw [(leaves_finish hfresh hcall hsleep reply (.inr fun _ => hawaits ▸ Await.noConfusion)).attended_iff]
    refine iff_of_true ?_ ⟨nofun, nofun⟩
    unfold Fleet.applied
    rw [Fleet.apply, hawaits, ite_self]
    exact (attendedBut_of_ne hcall hne).mpr h

end Hashes

/-! ## Runs -/

section Runs

variable {now : Nat} {hashes : String → Option RedisHash} {s s' : Fleet} {e : FleetEvent}

theorem Leaves.keepsExpiring_iff {ended : Nat → Prop} (h : Leaves s s' ended) :
    Expiring s' ↔ Expiring s := by
  rw [Expiring, h.hashes]
  refine forall₃_congr fun nodeId hash _ => ?_
  rw [Fleet.Bounded, h.now, Fleet.Bounded]

/-- A step that leaves the hashes as they are. -/
theorem Leaves.step {ended : Nat → Prop} (h : Leaves s s' ended) (hfresh : Fresh s)
    (hrefreshes : Refreshes s e)
    (hbreaks : Attended s → (s.AttendedBut ended ↔ BreaksOffAttended s e)) :
    Fresh s' ∧ (Expiring s → (Expiring s' ↔ Refreshes s e)) ∧
      (Attended s → (Attended s' ↔ BreaksOffAttended s e)) := by
  refine ⟨h.fresh hfresh, fun hexpiring => iff_of_true ?_ hrefreshes,
    fun hattended => h.attended_iff.trans (hbreaks hattended)⟩
  exact h.keepsExpiring_iff.mpr hexpiring

/-- A method of a worker starts with a command. -/
theorem leaves_begin (hfresh : Fresh s) (id : Nat) (worker : NodeHeartbeat) {call : BeatCall}
    (h : call.awaits ≠ .expire) : Leaves s ((s.setWorker id worker).spawn call) fun _ => False :=
  (((leaves_refl s).setWorker id worker).trans (leaves_spawn hfresh h)).congr
    fun _ => or_self_iff

/-- `stop` cancels the loop. -/
theorem leaves_stop (hfresh : Fresh s) {id : Nat} {worker : NodeHeartbeat}
    (hworker : s.workers id = some worker)
    (hstep : (fleetSystem now hashes).step s (.stop id) = some s') :
    Leaves s s' fun call => ∃ heartbeat ∈ s.workers id, heartbeat.task = some call := by
  simp only [fleetSystem, hworker] at hstep
  cases hstep
  have hcancelled : Leaves s (match worker.task with
      | some task => (s.put task none).setWorker id { worker with task := none }
      | none => s) fun call => ∃ heartbeat ∈ s.workers id, heartbeat.task = some call := by
    rw [hworker]
    cases htask : worker.task with
    | none => exact (leaves_refl s).congr fun _ => by simp [htask]
    | some task =>
      refine ((leaves_over s task).setWorker _ _).congr fun call => ?_
      simp [htask, eq_comm]
  show Leaves s (if worker.connected then _ else _) _
  split
  · exact (hcancelled.trans (leaves_spawn (hcancelled.fresh hfresh) Await.noConfusion)).congr
      fun _ => or_iff_left not_false
  · exact hcancelled

/-- A worker crashes. -/
theorem leaves_crash (s : Fleet) (id : Nat) :
    Leaves s { s with
      workers := Function.update s.workers id none
      calls := fun call => (s.calls call).filter fun c => c.worker ≠ id }
      fun call => ∃ c ∈ s.calls call, c.worker = id where
  now := rfl
  hashes := rfl
  expires call nodeId := by
    constructor
    · rintro ⟨c, hc, hattends⟩
      obtain ⟨hc, hworker⟩ := Option.mem_filter_iff.mp hc
      refine ⟨⟨c, hc, hattends⟩, ?_⟩
      rintro ⟨c', hc', hworker'⟩
      cases Option.mem_unique hc hc'
      exact of_decide_eq_true hworker hworker'
    · rintro ⟨⟨c, hc, hattends⟩, hworker⟩
      refine ⟨c, Option.mem_filter_iff.mpr ⟨hc, decide_eq_true fun heq => hworker ⟨c, hc, heq⟩⟩, hattends⟩
  fresh hfresh call hcall := by
    show (s.calls call).filter _ = none
    rw [hfresh call hcall]
    rfl

/-- Where a call goes on does not matter to the hashes. -/
theorem finish_frame (hfresh : Fresh s) {id : Nat} {call : BeatCall}
    (hcall : s.calls id = some call) (hsleep : call.awaits ≠ .sleep) (reply : Reply) :
    Fresh (s.finish id call reply) ∧
      (Expiring (s.finish id call reply) ↔ Expiring (s.applied call reply)) := by
  have hleaves (hset : reply.raises ∨ ∀ mapping, call.awaits ≠ .hset mapping) :
      Fresh (s.finish id call reply) ∧
        (Expiring (s.finish id call reply) ↔ Expiring (s.applied call reply)) := by
    have h := leaves_finish hfresh hcall hsleep reply hset
    obtain ⟨hashes, heq⟩ := s.applied_eq call reply
    refine ⟨h.fresh ?_, h.keepsExpiring_iff⟩
    rw [heq]
    exact hfresh
  cases reply with
  | raised applied => exact hleaves (.inl rfl)
  | ok =>
    cases hawaits : call.awaits with
    | hset mapping =>
      rw [finish_hset hawaits]
      refine ⟨fresh_put (s := s.setHash _ _) hcall hfresh, ?_⟩
      show _ ↔ Expiring (s.apply call)
      rw [Fleet.apply, hawaits]
      rfl
    | sleep => exact absurd hawaits hsleep
    | expire => exact hleaves (.inr fun _ => hawaits ▸ Await.noConfusion)
    | delete => exact hleaves (.inr fun _ => hawaits ▸ Await.noConfusion)
    | aclose => exact hleaves (.inr fun _ => hawaits ▸ Await.noConfusion)

/-- What a step does to the hashes. -/
theorem fleet_step (hfresh : Fresh s) (hstep : (fleetSystem now hashes).step s e = some s') :
    Fresh s' ∧ (Expiring s → (Expiring s' ↔ Refreshes s e)) ∧
      (Attended s → (Attended s' ↔ BreaksOffAttended s e)) := by
  cases e with
  | construct id heartbeat =>
    obtain ⟨-, hstep⟩ := Option.ite_none_right_eq_some.mp hstep
    cases hstep
    exact ((leaves_refl s).setWorker _ _).step hfresh trivial fun h => iff_of_true h trivial
  | tick ms =>
    cases hstep
    -- time only takes away hashes, and brings no expiry to an end that is not reached
    refine ⟨hfresh, fun h => iff_of_true ?_ trivial, fun h => iff_of_true ?_ trivial⟩
    · intro nodeId hash hhash
      exact (h nodeId hash (Option.mem_filter_iff.mp hhash).1).tick ms
    · intro nodeId hash hhash
      exact (h nodeId hash (Option.mem_filter_iff.mp hhash).1).imp_left fun hb => hb.tick ms
  | start id time =>
    obtain ⟨worker, -, rfl⟩ := Option.map_eq_some_iff.mp hstep
    exact (leaves_begin hfresh id _ Await.noConfusion).step hfresh trivial
      fun h => iff_of_true h trivial
  | markDraining id time =>
    obtain ⟨worker, -, rfl⟩ := Option.map_eq_some_iff.mp hstep
    dsimp only
    split
    · exact (leaves_begin hfresh id _ Await.noConfusion).step hfresh trivial
        fun h => iff_of_true h trivial
    · exact ((leaves_refl s).setWorker _ _).step hfresh trivial fun h => iff_of_true h trivial
  | stop id =>
    obtain ⟨worker, hworker, -⟩ := Option.map_eq_some_iff.mp hstep
    exact (leaves_stop hfresh hworker hstep).step hfresh trivial fun _ => Iff.rfl
  | wake id time =>
    obtain ⟨call, hcall, hstep⟩ := Option.bind_eq_some_iff.mp hstep
    obtain ⟨worker, -, hstep⟩ := Option.bind_eq_some_iff.mp hstep
    obtain ⟨hsleep, hstep⟩ := Option.ite_none_right_eq_some.mp hstep
    cases hstep
    split
    · refine (leaves_put hcall fun c hc => ?_).step hfresh trivial fun h => ?_
      · cases hc
        exact Await.noConfusion
      · exact iff_of_true ((attendedBut_of_ne hcall (hsleep ▸ Await.noConfusion)).mpr h) trivial
    · exact (leaves_refl s).step hfresh trivial fun h => iff_of_true h trivial
  | reply id reply =>
    obtain ⟨call, hcall, hstep⟩ := Option.bind_eq_some_iff.mp hstep
    obtain ⟨hsleep, hstep⟩ := Option.ite_none_left_eq_some.mp hstep
    cases hstep
    obtain ⟨hfresh', hexpiring⟩ := finish_frame hfresh hcall hsleep reply
    refine ⟨hfresh', fun h => ?_, fun h => ?_⟩
    · rw [hexpiring, expiring_applied h, Refreshes, hcall]
      exact ⟨fun h _ heq => Option.some.inj heq ▸ h, fun h => h call rfl⟩
    · rw [attended_finish hfresh h hcall hsleep, BreaksOffAttended, hcall]
      exact ⟨fun h _ heq => Option.some.inj heq ▸ h, fun h => h call rfl⟩
  | crash id =>
    obtain ⟨worker, -, rfl⟩ := Option.map_eq_some_iff.mp hstep
    exact (leaves_crash s id).step hfresh trivial fun _ => Iff.rfl

/-- In a run from hashes that expire: all hashes have an expiry in every state if and only if no new
one is ever written. All hashes have one, but for those of beats that are about to set it, if and
only if no beat breaks off while its hash has none, unless another one is about to set it. -/
theorem expiring_iff (hinit : Expiring (fleetSystem now hashes).init)
    {steps : List (Fleet × FleetEvent)} (run : (fleetSystem now hashes).Run steps s) :
    (System.Always Expiring steps s ↔ System.Meets Refreshes steps) ∧
      (System.Always Attended steps s ↔ System.Meets BreaksOffAttended steps) := by
  have hfresh : Fresh (fleetSystem now hashes).init := fun _ _ => rfl
  constructor
  · exact run.always_iff hfresh (fun _ _ _ h hstep => (fleet_step h hstep).1) hinit
      fun _ _ _ h hs hstep => (fleet_step h hstep).2.1 hs
  · refine run.always_iff hfresh (fun _ _ _ h hstep => (fleet_step h hstep).1) ?_
      fun _ _ _ h hs hstep => (fleet_step h hstep).2.2 hs
    exact fun nodeId hash hhash => .inl (hinit nodeId hash hhash)

/-- A worker that was there before. -/
def knownHashes : String → Option RedisHash :=
  Function.update (fun _ => none) "node" (some ⟨[("node_id", "node")], some 10000⟩)

def nodeHeartbeat : NodeHeartbeat := ⟨"node", "host", 1, 0, 100, true, none, false⟩

/-- The worker beats again, an `EXPIRE` of its loop fails, and it stops. -/
theorem knownNode_expiring : ∃ steps s, steps.map Prod.snd =
    ([.reply 2 .ok, .stop 0, .reply 1 (.raised false), .reply 1 .ok, .wake 1 105, .tick 5000,
      .reply 0 .ok, .reply 0 .ok, .start 0 100, .construct 0 nodeHeartbeat] : List FleetEvent) ∧
    System.Always Expiring steps s ∧ System.Always Attended steps s := by
  have run := System.Run.next (e := .reply 2 .ok)
    (.next (e := .stop 0)
      (.next (e := .reply 1 (.raised false))
        (.next (e := .reply 1 .ok)
          (.next (e := .wake 1 105)
            (.next (e := .tick 5000)
              (.next (e := .reply 0 .ok)
                (.next (e := .reply 0 .ok)
                  (.next (e := .start 0 100)
                    (.next (e := .construct 0 nodeHeartbeat)
                      (.start (S := fleetSystem 0 knownHashes)) rfl) rfl) rfl) rfl) rfl) rfl) rfl)
        rfl) rfl) rfl
  have hinit : Expiring (fleetSystem 0 knownHashes).init := by
    intro nodeId hash hhash
    have hhash : hash ∈ knownHashes nodeId := hhash
    rcases mem_update hhash with ⟨-, hnew⟩ | ⟨-, hold⟩
    · cases hnew
      exact ⟨10000, rfl, by decide⟩
    · cases hold
  have hexpiring := (expiring_iff hinit run).1.mpr (by
    intro p hp
    fin_cases hp <;> first | trivial | (rintro _ ⟨⟩ _ _ _; rfl))
  exact ⟨_, _, rfl, hexpiring, hexpiring.imp fun s h nodeId hash hhash => .inl (h nodeId hash hhash)⟩

/-- A worker that crashes between the commands of its first beat. -/
def crashedBeat : List FleetEvent :=
  [.construct 0 nodeHeartbeat, .start 0 100, .reply 0 .ok, .crash 0, .tick 3600000]

/-- An hour later its hash is still there, without an expiry. -/
theorem crashedBeat_stays : ∃ s, (fleetSystem 0 fun _ => none).Reachable s ∧
    (s.hashes "node").isSome ∧ ¬ Expiring s ∧ ¬ Attended s := by
  refine ⟨_, System.reachable_of_exec crashedBeat rfl, rfl, fun h => ?_, fun h => ?_⟩
  · obtain ⟨_, hdeadline, -⟩ := h "node" _ rfl
    cases hdeadline
  · rcases h "node" _ rfl with ⟨_, hdeadline, -⟩ | ⟨id, ⟨call, hcall, -⟩, -⟩
    · cases hdeadline
    · obtain ⟨hcall, hworker⟩ := Option.mem_filter_iff.mp hcall
      rcases mem_update hcall with ⟨-, hnew⟩ | ⟨hid, hold⟩
      · cases hnew
        cases hworker
      · rcases mem_update hold with ⟨hid', -⟩ | ⟨-, hold⟩
        · exact hid hid'
        · cases hold

end Runs

end Noema.Workers
