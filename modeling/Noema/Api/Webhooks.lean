import Noema.Lib.System
import Noema.Lib.LiveDict
import Noema.Lib.Json

/-!
# Webhooks (`api/webhooks.py`)

A dispatcher takes one event after another from its queue and posts it to the registrations that
subscribe to its type (webhooks.py:123-190). It iterates over the dict of the registrations with a
`for` loop, and waits for every endpoint on the way; other tasks run meanwhile and may register and
unregister. A dict that has grown or shrunk ends the iteration with a `RuntimeError`, which the loop
of the dispatcher logs. A dict in which a key was removed and another one added has the same size,
and the iteration goes on without an error.

`Lib.LiveDict` has the dict with its slots and the iterator; here the loop is a machine that stops
whenever it waits (`Dispatch`), so that a step of `webhookSystem` is one response, one registration,
or one event.

- `present`: the registrations that were there when the dispatch started and have been all along. It
  is what the statement is about, and no part of the program.
- `Progress`: what a dispatch has done when its iterator is at a position: every registration
  present is still to come, or it has been posted to, or it does not subscribe.
- `InFlight`: the same for a dispatch that waits for an endpoint, with the attempts it has made
  there.
- `KeepsIds`: the condition on a step, that no id comes or goes while an event is dispatched.
- **`delivers_of_keepsIds`**: then every event reaches all of its subscribers, and none gets more
  requests than its `retry_count`.
- `registration_ends_dispatch`: a registration that comes in while the first endpoint answers.
-/

namespace Noema.Api

open Noema.Lib
open PyJson

universe u

/-- `WebhookRegistration`. -/
structure WebhookRegistration where
  url : String
  secret : String := ""
  events : List String := ["*"]
  retryCount : Int := 3
  deriving DecidableEq, Repr

/-- `event_type in reg.events`, or `"*"` is. -/
def WebhookRegistration.subscribes (reg : WebhookRegistration) (eventType : String) : Bool :=
  "*" ∈ reg.events ∨ eventType ∈ reg.events

/-- An event of the queue. -/
structure WebhookEvent (F : Type) where
  eventType : String
  payload : PyVal F

/-- What `session.post` sends. -/
structure PostRequest where
  url : String
  data : List Char
  headers : List (String × String)
  deriving DecidableEq

/-- A request, with the registration it is for. -/
structure Post where
  webhookId : String
  reg : WebhookRegistration
  request : PostRequest
  deriving DecidableEq

/-- How a request ends. -/
inductive PostOutcome where
  | status (code : Nat)
  | timeout
  | error
  deriving DecidableEq

/-- No further attempt follows: `resp.status < 500`. -/
def PostOutcome.delivered : PostOutcome → Bool
  | .status code => code < 500
  | .timeout | .error => false

/-- `_dispatch_event`, waiting for an endpoint. The iterator over the registrations is at `pos`,
started with `used` items and has `left` to come. `present` are the registrations that have been
there from the start. -/
structure Dispatch (F : Type) where
  event : WebhookEvent F
  body : List Char
  used : Nat
  pos : Nat
  left : Nat
  webhookId : String
  reg : WebhookRegistration
  attempt : Nat
  posts : List Post
  present : List (String × WebhookRegistration)

/-- A dispatch that has ended. -/
structure Dispatched (F : Type) where
  event : WebhookEvent F
  posts : List Post
  present : List (String × WebhookRegistration)

/-- A `WebhookDispatcher` whose loop runs, and the events it is done with. -/
structure WebhookDispatcher (F : Type) where
  registrations : LiveDict String WebhookRegistration
  queue : List (WebhookEvent F)
  current : Option (Dispatch F)
  dispatched : List (Dispatched F)

section Dispatcher

variable {F : Type} [PyFloat F] (sign : String → List Char → String)

/-- The request for a registration. `sign` is the hexadecimal HMAC of SHA-256. -/
def postRequest (reg : WebhookRegistration) (body : List Char) : PostRequest where
  url := reg.url
  data := body
  headers := ("Content-Type", "application/json") ::
    if reg.secret ≠ "" then [("X-Webhook-Signature", sign reg.secret body)] else []

/-- `json.dumps(payload, ensure_ascii=False)`, unless it raises. -/
def jsonDumps (payload : PyVal F) : Option (List Char) :=
  if payload.isJson then some (dumps false payload) else none

namespace WebhookDispatcher

variable (s : WebhookDispatcher F)

/-- The dispatch is over. -/
def finish (event : WebhookEvent F) (posts : List Post)
    (present : List (String × WebhookRegistration)) : WebhookDispatcher F :=
  { s with current := none, dispatched := ⟨event, posts, present⟩ :: s.dispatched }

/-- The registrations that an event is posted to. -/
def wants (eventType : String) (item : String × WebhookRegistration) : Bool :=
  item.2.subscribes eventType ∧ 0 < item.2.retryCount

/-- The loop goes on to the next registration. It ends when there is none, and when the iterator
raises. -/
def advance (event : WebhookEvent F) (body : List Char) (used left pos : Nat) (posts : List Post)
    (present : List (String × WebhookRegistration)) : WebhookDispatcher F :=
  match s.registrations.seek (wants event.eventType) used left pos with
  | .changed | .stop => s.finish event posts present
  | .found (webhookId, reg) pos left =>
    let posts := posts ++ [⟨webhookId, reg, postRequest sign reg body⟩]
    let d := { event, body, used, pos, left, webhookId, reg, attempt := 0, posts, present }
    { s with current := some d }

/-- `_dispatch_event`, up to the first request. -/
def dispatchEvent (event : WebhookEvent F) : WebhookDispatcher F :=
  let items := s.registrations.items
  match jsonDumps event.payload with
  | none => s.finish event [] items
  | some body => s.advance sign event body items.length items.length 0 [] items

/-- `_dispatch_event`, when a request has ended. -/
def afterPost (d : Dispatch F) (outcome : PostOutcome) : WebhookDispatcher F :=
  if outcome.delivered = false ∧ (d.attempt + 1 : Int) < d.reg.retryCount then
    let posts := d.posts ++ [⟨d.webhookId, d.reg, postRequest sign d.reg d.body⟩]
    { s with current := some { d with attempt := d.attempt + 1, posts } }
  else s.advance sign d.event d.body d.used d.left d.pos d.posts d.present

/-- The registrations change: the ones that were replaced or removed are not present any more. -/
def changeRegistrations (webhookId : String)
    (registrations : LiveDict String WebhookRegistration) : WebhookDispatcher F :=
  { s with
    registrations
    current := s.current.map fun d =>
      { d with present := d.present.filter fun item => item.1 ≠ webhookId } }

end WebhookDispatcher

/-- What happens next. -/
inductive WebhookStep (F : Type) where
  | emit (event : WebhookEvent F)
  | register (webhookId : String) (registration : WebhookRegistration) (compacts : Bool)
  | unregister (webhookId : String)
  | dequeue
  | respond (outcome : PostOutcome)

/-- The dispatcher, with its loop started. -/
def webhookSystem : System (WebhookDispatcher F) (WebhookStep F) where
  init := ⟨.empty, [], none, []⟩
  step s e :=
    match e with
    | .emit event => some { s with queue := s.queue ++ [event] }
    | .register webhookId registration compacts =>
      some (s.changeRegistrations webhookId
        (s.registrations.insert webhookId registration compacts))
    | .unregister webhookId =>
      some (s.changeRegistrations webhookId (s.registrations.erase webhookId))
    | .dequeue =>
      match s.current, s.queue with
      | none, event :: queue => some ({ s with queue }.dispatchEvent sign event)
      | _, _ => none
    | .respond outcome => s.current.map fun d => s.afterPost sign d outcome

/-- No registration gets more requests than its `retry_count`. -/
def WithinRetries (posts : List Post) : Prop :=
  ∀ post ∈ posts, ((posts.filter fun p => p.webhookId = post.webhookId).length : Int) ≤
    post.reg.retryCount

/-- The request for an item of the registrations. -/
def postFor (body : List Char) (item : String × WebhookRegistration) : Post :=
  ⟨item.1, item.2, postRequest sign item.2 body⟩

/-- The event went to every subscriber that was present all along. -/
def Dispatched.Reaches (d : Dispatched F) : Prop :=
  ∃ body, jsonDumps d.event.payload = some body ∧
    ∀ item ∈ d.present, item.2.subscribes d.event.eventType = true → postFor sign body item ∈ d.posts

/-- Every event that has been dispatched reached its subscribers, and no registration got more
requests than it may. -/
structure Delivers (s : WebhookDispatcher F) : Prop where
  reaches : ∀ d ∈ s.dispatched, d.Reaches sign
  dispatched : ∀ d ∈ s.dispatched, WithinRetries d.posts
  current : ∀ d ∈ s.current, WithinRetries d.posts

/-- The condition on a step. While an event is dispatched no id is added or removed; a registration
allows one request at least, and a payload can be written as JSON. -/
def KeepsIds (s : WebhookDispatcher F) : WebhookStep F → Prop
  | .emit event => event.payload.isJson = true
  | .register webhookId registration _ =>
    0 < registration.retryCount ∧ (s.current.isSome → webhookId ∈ s.registrations.keys)
  | .unregister webhookId => s.current.isSome → webhookId ∉ s.registrations.keys
  | .dequeue | .respond _ => True

/-! ## The invariant -/

/-- What a dispatch has done when its iterator is at `pos`: a registration that has been present all
along is still to come, or has been served. -/
structure Progress (regs : LiveDict String WebhookRegistration) (eventType : String)
    (body : List Char) (pos : Nat) (posts : List Post)
    (present : List (String × WebhookRegistration)) : Prop where
  there : ∀ item ∈ present, item ∈ regs.items
  covered : ∀ item ∈ present, item.1 ∈ regs.keysFrom pos ∨
    (item.2.subscribes eventType = true → postFor sign body item ∈ posts)
  fresh : ∀ post ∈ posts, post.webhookId ∉ regs.keysFrom pos
  bounded : WithinRetries posts

/-- A dispatch that waits for an endpoint. -/
structure InFlight (regs : LiveDict String WebhookRegistration) (d : Dispatch F) : Prop where
  body : jsonDumps d.event.payload = some d.body
  used : regs.items.length = d.used
  left : (regs.itemsFrom d.pos).length = d.left
  progress : Progress sign regs d.event.eventType d.body d.pos d.posts d.present
  current : d.webhookId ∉ regs.keysFrom d.pos
  same : ∀ post ∈ d.posts, post.webhookId = d.webhookId → post.reg = d.reg
  attempts : (d.posts.filter fun p => p.webhookId = d.webhookId).length = d.attempt + 1

/-- The invariant. -/
structure Orderly (s : WebhookDispatcher F) : Prop where
  queue : ∀ event ∈ s.queue, event.payload.isJson = true
  retries : ∀ item ∈ s.registrations.items, 0 < item.2.retryCount
  current : ∀ d ∈ s.current, InFlight sign s.registrations d
  dispatched : ∀ d ∈ s.dispatched, d.Reaches sign ∧ WithinRetries d.posts

end Dispatcher

section Steps

variable {F : Type} [PyFloat F] {sign : String → List Char → String} {s s' : WebhookDispatcher F}
  {regs : LiveDict String WebhookRegistration} {event : WebhookEvent F} {body : List Char}
  {pos left : Nat} {posts : List Post} {present : List (String × WebhookRegistration)}
  {d : Dispatch F}

omit [PyFloat F] in
/-- A request more for a registration keeps to its `retry_count`, if it had fewer. -/
theorem withinRetries_concat {post : Post} (h : WithinRetries posts)
    (hsame : ∀ p ∈ posts, p.webhookId = post.webhookId → p.reg = post.reg)
    (hroom : ((posts.filter fun p => p.webhookId = post.webhookId).length + 1 : Int) ≤
      post.reg.retryCount) : WithinRetries (posts ++ [post]) := by
  intro p hp
  rw [List.filter_append, List.length_append, Nat.cast_add]
  -- Only the count of the registration that the new request is for grows.
  by_cases hid : post.webhookId = p.webhookId
  · have hlast : ([post].filter fun q => q.webhookId = p.webhookId).length = 1 := by
      simp [hid]
    have hreg : p.reg = post.reg := by
      rcases List.mem_append.mp hp with hold | hnew
      · exact hsame p hold hid.symm
      · rw [List.mem_singleton.mp hnew]
    rw [hlast, hreg, ← hid]
    exact hroom
  · have hlast : ([post].filter fun q => q.webhookId = p.webhookId) = [] :=
      List.filter_cons_of_neg (by simpa using hid)
    rcases List.mem_append.mp hp with hold | hnew
    · rw [hlast, List.length_nil, Nat.cast_zero, add_zero]
      exact h p hold
    · exact absurd (List.mem_singleton.mp hnew ▸ rfl) hid

/-- A registration that is wanted is one that subscribes, as every one allows a request. -/
theorem wants_eq_true {item : String × WebhookRegistration} {eventType : String}
    (hretries : 0 < item.2.retryCount) :
    WebhookDispatcher.wants eventType item = true ↔ item.2.subscribes eventType = true := by
  rw [WebhookDispatcher.wants, decide_eq_true_iff, and_iff_left hretries]

omit [PyFloat F] in
/-- What the loop has done before the next registration, it has done when it comes to that. -/
theorem Progress.next (h : Progress sign regs event.eventType body pos posts present)
    (hretries : ∀ item ∈ regs.items, 0 < item.2.retryCount)
    {item : String × WebhookRegistration} {pos' : Nat} {skipped : List (String × WebhookRegistration)}
    (hitems : regs.itemsFrom pos = skipped ++ item :: regs.itemsFrom pos')
    (hskipped : ∀ item' ∈ skipped, WebhookDispatcher.wants event.eventType item' = false) :
    Progress sign regs event.eventType body pos' (posts ++ [postFor sign body item]) present ∧
      item.1 ∉ regs.keysFrom pos' ∧ ∀ post ∈ posts, post.webhookId ≠ item.1 := by
  have hkeys : regs.keysFrom pos = skipped.map Prod.fst ++ item.1 :: regs.keysFrom pos' := by
    rw [LiveDict.keysFrom, hitems, List.map_append, List.map_cons]
    rfl
  have hitem : item ∈ regs.itemsFrom pos := by
    rw [hitems]
    exact List.mem_append_right _ List.mem_cons_self
  have hlater : item.1 ∉ regs.keysFrom pos' := by
    have hnodup := regs.nodup_keysFrom pos
    rw [hkeys] at hnodup
    exact (List.nodup_cons.mp (List.Nodup.of_append_right hnodup)).1
  have hnew : ∀ post ∈ posts, post.webhookId ≠ item.1 := by
    rintro post hpost heq
    exact h.fresh post hpost (heq ▸ List.mem_map_of_mem hitem)
  -- A registration that is present was skipped, or is the next one, or comes after it.
  refine ⟨⟨h.there, fun item' hitem' => ?_, fun post hpost => ?_, ?_⟩, hlater, hnew⟩
  · rcases h.covered item' hitem' with hkey | hposted
    · rw [hkeys] at hkey
      rcases List.mem_append.mp hkey with hskip | hrest
      · -- It was skipped, as it does not subscribe.
        obtain ⟨item'', hmem, heq⟩ := List.mem_map.mp hskip
        have hfrom : item'' ∈ regs.itemsFrom pos := hitems ▸ List.mem_append_left _ hmem
        have hsame : item'' = item' := regs.eq_of_fst_eq
          (LiveDict.mem_items_of_itemsFrom hfrom) (h.there item' hitem') heq
        refine .inr fun hsubscribes => ?_
        have hwanted := (wants_eq_true (hretries item' (h.there item' hitem'))).mpr hsubscribes
        cases hwanted.symm.trans (hsame ▸ hskipped item'' hmem)
      · rcases List.mem_cons.mp hrest with heq | hrest
        · have hsame : item' = item := regs.eq_of_fst_eq (h.there item' hitem')
            (LiveDict.mem_items_of_itemsFrom hitem) heq
          exact .inr fun _ => hsame ▸ List.mem_append_right _ (List.mem_singleton_self _)
        · exact .inl hrest
    · exact .inr fun hsubscribes => List.mem_append_left _ (hposted hsubscribes)
  · rcases List.mem_append.mp hpost with hold | hlast
    · intro hmem
      exact h.fresh post hold (hkeys ▸ List.mem_append_right _ (List.mem_cons_of_mem _ hmem))
    · rw [List.mem_singleton.mp hlast]
      exact hlater
  · refine withinRetries_concat h.bounded (fun p hp heq => absurd heq (hnew p hp)) ?_
    have hnone : (posts.filter fun p => p.webhookId = (postFor sign body item).webhookId) = [] :=
      List.filter_eq_nil_iff.mpr fun p hp h => hnew p hp (of_decide_eq_true h)
    have hretry := hretries item (LiveDict.mem_items_of_itemsFrom hitem)
    rw [hnone, List.length_nil, Nat.cast_zero, zero_add]
    exact hretry

/-- What the loop needs to go on to the next registration. -/
theorem orderly_advance (h : Orderly sign s) (hbody : jsonDumps event.payload = some body)
    (hleft : (s.registrations.itemsFrom pos).length = left)
    (hprogress : Progress sign s.registrations event.eventType body pos posts present) :
    Orderly sign (s.advance sign event body s.registrations.items.length left pos posts present) := by
  rw [WebhookDispatcher.advance]
  rcases s.registrations.seek_spec (WebhookDispatcher.wants event.eventType) hleft with
    ⟨hstop, hnone⟩ |
    ⟨⟨webhookId, reg⟩, pos', left', skipped, hfound, hwanted, hitems, hleft', hskipped⟩
  -- The loop has come to its end: nothing that is present is still to come.
  · rw [hstop]
    refine ⟨h.queue, h.retries, fun _ hd => (by cases hd), List.forall_mem_cons.mpr ⟨?_, h.dispatched⟩⟩
    refine ⟨⟨body, hbody, fun item hitem hsubscribes => ?_⟩, hprogress.bounded⟩
    rcases hprogress.covered item hitem with hkey | hposted
    · obtain ⟨item', hmem, heq⟩ := List.mem_map.mp hkey
      have hthere := hprogress.there item hitem
      have hsame : item' = item := s.registrations.eq_of_fst_eq
        (LiveDict.mem_items_of_itemsFrom hmem) hthere heq
      have hwanted := (wants_eq_true (h.retries item hthere)).mpr hsubscribes
      cases hwanted.symm.trans (hsame ▸ hnone item' hmem)
    · exact hposted hsubscribes
  -- It waits for the endpoint of the next registration that subscribes.
  · rw [hfound]
    obtain ⟨hnext, hlater, hnew⟩ := hprogress.next h.retries hitems hskipped
    refine ⟨h.queue, h.retries, fun d hd => ?_, h.dispatched⟩
    cases hd
    refine ⟨hbody, rfl, hleft', hnext, hlater, fun post hpost heq => ?_, ?_⟩
    · rcases List.mem_append.mp hpost with hold | hlast
      · exact absurd heq (hnew post hold)
      · rw [List.mem_singleton.mp hlast]
    · rw [List.filter_append, List.filter_eq_nil_iff.mpr fun p hp => by simpa using hnew p hp]
      simp

theorem orderly_dispatchEvent (h : Orderly sign s) (hpayload : event.payload.isJson = true)
    : Orderly sign (s.dispatchEvent sign event) := by
  have hbody : jsonDumps event.payload = some (dumps false event.payload) := if_pos hpayload
  rw [WebhookDispatcher.dispatchEvent, hbody]
  refine orderly_advance h hbody rfl ⟨fun item hitem => hitem, fun item hitem => ?_,
    fun _ hpost => (by cases hpost), fun _ hpost => (by cases hpost)⟩
  exact .inl (List.mem_map_of_mem hitem)

theorem orderly_afterPost (h : Orderly sign s) (hd : s.current = some d) (outcome : PostOutcome) :
    Orderly sign (s.afterPost sign d outcome) := by
  have hflight := h.current d hd
  rw [WebhookDispatcher.afterPost]
  -- The endpoint is asked again, by the same registration; or the loop goes on.
  split_ifs with hretry
  · refine ⟨h.queue, h.retries, fun d' hd' => ?_, h.dispatched⟩
    cases hd'
    have hposts : ∀ post ∈ d.posts ++ [postFor sign d.body (d.webhookId, d.reg)],
        post ∈ d.posts ∨ post = postFor sign d.body (d.webhookId, d.reg) := fun post hpost =>
      (List.mem_append.mp hpost).imp id List.mem_singleton.mp
    refine ⟨hflight.body, hflight.used, hflight.left, ⟨hflight.progress.there, fun item hitem => ?_,
      fun post hpost => ?_, ?_⟩, hflight.current, fun post hpost heq => ?_, ?_⟩
    · exact (hflight.progress.covered item hitem).imp id
        fun hposted hsubscribes => List.mem_append_left _ (hposted hsubscribes)
    · rcases hposts post hpost with hold | rfl
      · exact hflight.progress.fresh post hold
      · exact hflight.current
    · refine withinRetries_concat hflight.progress.bounded hflight.same ?_
      rw [hflight.attempts]
      have hroom := hretry.2
      push_cast
      omega
    · rcases hposts post hpost with hold | rfl
      · exact hflight.same post hold heq
      · rfl
    · rw [List.filter_append, List.length_append, hflight.attempts]
      simp
  · rw [← hflight.used]
    exact orderly_advance h hflight.body hflight.left hflight.progress

/-- A dispatch goes on when the registrations change but no id comes or goes. -/
theorem InFlight.change (h : InFlight sign s.registrations d) {webhookId : String}
    {regs : LiveDict String WebhookRegistration}
    (hlength : regs.items.length = s.registrations.items.length)
    (hkeys : ∀ pos, regs.keysFrom pos = s.registrations.keysFrom pos)
    (hothers : ∀ item ∈ s.registrations.items, item.1 ≠ webhookId → item ∈ regs.items) :
    InFlight sign regs
      { d with present := d.present.filter fun item => item.1 ≠ webhookId } where
  body := h.body
  used := hlength.trans h.used
  left := by
    have hleft := congrArg List.length (hkeys d.pos)
    rw [LiveDict.keysFrom, LiveDict.keysFrom, List.length_map, List.length_map] at hleft
    exact hleft.trans h.left
  progress :=
    { there := fun item hitem => by
        obtain ⟨hmem, hne⟩ := List.mem_filter.mp hitem
        exact hothers item (h.progress.there item hmem) (of_decide_eq_true hne)
      covered := fun item hitem => by
        rw [hkeys]
        exact h.progress.covered item (List.mem_of_mem_filter hitem)
      fresh := fun post hpost => by
        rw [hkeys]
        exact h.progress.fresh post hpost
      bounded := h.progress.bounded }
  current := by
    rw [hkeys]
    exact h.current
  same := h.same
  attempts := h.attempts

/-- While an event is dispatched a registration may get another value. -/
theorem orderly_register (h : Orderly sign s) {webhookId : String} {reg : WebhookRegistration}
    (hretry : 0 < reg.retryCount) (hid : s.current.isSome → webhookId ∈ s.registrations.keys)
    (compacts : Bool) : Orderly sign (s.changeRegistrations webhookId
      (s.registrations.insert webhookId reg compacts)) := by
  refine ⟨h.queue, fun item hitem => ?_, fun d' hd' => ?_, h.dispatched⟩
  · rcases LiveDict.of_mem_items_insert hitem with rfl | hold
    · exact hretry
    · exact h.retries item hold
  · obtain ⟨d, hd, rfl⟩ := Option.map_eq_some_iff.mp hd'
    have hmem := hid (Option.isSome_iff_exists.mpr ⟨d, hd⟩)
    exact (h.current d hd).change (LiveDict.length_insert hmem) (LiveDict.keysFrom_insert hmem)
      fun item hitem hne => LiveDict.mem_items_insert hitem hne hmem

/-- While an event is dispatched only an id that is not there may be removed. -/
theorem orderly_unregister (h : Orderly sign s) {webhookId : String}
    (hid : s.current.isSome → webhookId ∉ s.registrations.keys) :
    Orderly sign (s.changeRegistrations webhookId (s.registrations.erase webhookId)) := by
  refine ⟨h.queue, fun item hitem => h.retries item (LiveDict.mem_items_of_erase hitem),
    fun d' hd' => ?_, h.dispatched⟩
  obtain ⟨d, hd, rfl⟩ := Option.map_eq_some_iff.mp hd'
  have hmem := hid (Option.isSome_iff_exists.mpr ⟨d, hd⟩)
  show InFlight sign (s.registrations.erase webhookId) _
  rw [LiveDict.erase_of_notMem hmem]
  exact (h.current d hd).change rfl (fun _ => rfl) fun item hitem _ => hitem

theorem orderly_step {e : WebhookStep F} (h : Orderly sign s) (hkeeps : KeepsIds s e)
    (hstep : (webhookSystem sign).step s e = some s') : Orderly sign s' := by
  cases e with
  | emit event =>
    cases hstep
    refine ⟨fun event' hevent => ?_, h.retries, h.current, h.dispatched⟩
    rcases List.mem_append.mp hevent with hold | hnew
    · exact h.queue event' hold
    · rw [List.mem_singleton.mp hnew]
      exact hkeeps
  | register webhookId registration compacts =>
    cases hstep
    exact orderly_register h hkeeps.1 hkeeps.2 compacts
  | unregister webhookId =>
    cases hstep
    exact orderly_unregister h hkeeps
  -- An event is taken only when no other one is dispatched.
  | dequeue =>
    cases hcurrent : s.current with
    | some d =>
      simp only [webhookSystem, hcurrent] at hstep
      cases hstep
    | none =>
      cases hqueue : s.queue with
      | nil =>
        simp only [webhookSystem, hcurrent, hqueue] at hstep
        cases hstep
      | cons event queue =>
        simp only [webhookSystem, hcurrent, hqueue, Option.some.injEq] at hstep
        subst hstep
        have hevents := List.forall_mem_cons.mp (hqueue ▸ h.queue)
        refine orderly_dispatchEvent ⟨hevents.2, h.retries, fun d hd => ?_, h.dispatched⟩ hevents.1
        cases hd
  | respond outcome =>
    obtain ⟨d, hd, rfl⟩ := Option.map_eq_some_iff.mp hstep
    exact orderly_afterPost h hd outcome

theorem Orderly.delivers (h : Orderly sign s) : Delivers sign s where
  reaches d hd := (h.dispatched d hd).1
  dispatched d hd := (h.dispatched d hd).2
  current d hd := (h.current d hd).progress.bounded

/-- When no id comes or goes while an event is dispatched, every event reaches all of its
subscribers that have been present all along, with as many attempts as their `retry_count` allows.
Registrations may get other values at any time, and events and responses come in any order. -/
theorem delivers_of_keepsIds (sign : String → List Char → String)
    {steps : List (WebhookDispatcher F × WebhookStep F)} {s : WebhookDispatcher F}
    (run : (webhookSystem sign).Run steps s) (hkeeps : System.Meets KeepsIds steps) :
    System.Always (Delivers sign) steps s := by
  have horderly : System.Always (Orderly sign) steps s := by
    refine run.always_of_meets ?_ (fun s e s' h hmeet hstep => orderly_step h hmeet hstep)
      hkeeps
    exact ⟨fun _ h => (by cases h), fun _ h => (by cases h), fun _ h => (by cases h),
      fun _ h => (by cases h)⟩
  exact horderly.imp fun s h => h.delivers

/-- Two subscribers, and an event for them. -/
def twoSubscribers : List (WebhookStep FloatText) :=
  [.register "a" { url := "https://a.example" } false,
    .register "b" { url := "https://b.example" } false, .emit ⟨"task.completed", .dict []⟩, .dequeue]

/-- A dispatch to two subscribers, of which the second answers after a timeout. -/
theorem twoSubscribers_delivers : ∃ steps s,
    steps.map Prod.snd = [.respond (.status 200), .respond .timeout, .respond (.status 200)] ++
      twoSubscribers.reverse ∧
    s.dispatched.map (fun d => d.posts.map Post.webhookId) = [["a", "b", "b"]] ∧
    System.Always (Delivers (F := FloatText) fun _ _ => "") steps s := by
  have run := System.Run.next (e := WebhookStep.respond (.status 200))
    (.next (e := WebhookStep.respond .timeout)
      (.next (e := WebhookStep.respond (.status 200))
        (.next (e := WebhookStep.dequeue)
          (.next (e := WebhookStep.emit ⟨"task.completed", .dict []⟩)
            (.next (e := WebhookStep.register "b" { url := "https://b.example" } false)
              (.next (e := WebhookStep.register "a" { url := "https://a.example" } false)
                (.start (S := webhookSystem (F := FloatText) fun _ _ => "")) rfl) rfl) rfl) rfl)
        rfl) rfl) rfl
  refine ⟨_, _, rfl, ?_, delivers_of_keepsIds _ run ?_⟩
  · rfl
  · refine List.forall_mem_cons.mpr ⟨trivial, List.forall_mem_cons.mpr ⟨trivial,
      List.forall_mem_cons.mpr ⟨trivial, List.forall_mem_cons.mpr ⟨trivial,
        List.forall_mem_cons.mpr ⟨rfl, List.forall_mem_cons.mpr ⟨⟨by decide, fun h => ?_⟩,
          List.forall_mem_cons.mpr ⟨⟨by decide, fun h => ?_⟩, fun _ h => (by cases h)⟩⟩⟩⟩⟩⟩⟩
    · cases h
    · cases h

/-- A registration that comes in while the first endpoint answers ends the dispatch. -/
theorem registration_ends_dispatch : ∃ s,
    (webhookSystem (F := FloatText) fun _ _ => "").Reachable s ∧ ¬ Delivers (fun _ _ => "") s := by
  have hrun : ((webhookSystem (F := FloatText) fun _ _ => "").exec (webhookSystem fun _ _ => "").init
      (twoSubscribers ++ [.register "c" { url := "https://c.example" } false,
        .respond (.status 200)])).map (fun s => s.dispatched.map fun d =>
          (d.present, d.posts.map Post.webhookId)) =
        some [([("a", { url := "https://a.example" }), ("b", { url := "https://b.example" })],
          ["a"])] := by
    decide +kernel
  obtain ⟨s, hexec, hdispatched⟩ := Option.map_eq_some_iff.mp hrun
  refine ⟨s, System.reachable_of_exec _ hexec, fun hdelivers => ?_⟩
  obtain ⟨d, hd, heq⟩ := List.map_eq_singleton_iff.mp hdispatched
  obtain ⟨hpresent, hposts⟩ := Prod.mk.inj heq
  obtain ⟨body, -, hreaches⟩ := hdelivers.reaches d (hd ▸ List.mem_singleton_self d)
  have hpost := hreaches ("b", { url := "https://b.example" })
    (hpresent ▸ List.mem_cons_of_mem _ (List.mem_singleton_self _)) rfl
  have hid : "b" ∈ d.posts.map Post.webhookId := List.mem_map_of_mem (f := Post.webhookId) hpost
  rw [hposts] at hid
  exact absurd (List.mem_singleton.mp hid) (by decide)

end Steps

end Noema.Api
