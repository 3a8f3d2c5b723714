import Noema.Api.RateLimit

/-!
# Runs of the in-memory limiter

Is the number of calls in a window really bounded, for every window and not only for those that
start at a call? And is `Retry-After` the right time?

The lists of the limiter lose times, when a call prunes and when the cleanup drops a key, but only
times that no later call can count (`LimiterInv.tracks`). So every answer on record is a function of
the calls that were allowed before it (`Answered`), and the dict can be forgotten: the rest is about
the record alone.

- `allow_spec`: a call answers by the times of its window and adds its own time when it is allowed;
  other keys keep their times.
- `Answered.allowed_iff`: a call was allowed if and only if there was room in its window. From right
  to left this says that the limiter refuses nothing it could allow.
- `Answered.limited`: no window, wherever it starts, has more allowed calls than the limit. The last
  of the calls of such a window was allowed, and it counted the others.
- `Answered.retry`: when a call was rejected, the next call for its key is allowed if it comes no
  earlier than the rejected one was told. The oldest time that was counted has left the window by
  then.
- **`slidingWindow`**: the three together, in every state of every run.

`LimiterInv` is preserved by a call (`LimiterInv.allow`) and by a cleanup (`LimiterInv.cleanup`).
The cleanup needs no condition, as two windows are more than one.
-/

namespace Noema.Api

open Noema.Lib System

variable {T : Type}

/-! ## The record -/

/-- The times of the allowed calls for a key, the first one first. -/
def allowedFor (key : String) (record : List (Answer T)) : List T :=
  (record.reverse.filter fun a => a.key = key ∧ a.allowed = true).map Answer.time

theorem allowedFor_cons (key : String) (a : Answer T) (record : List (Answer T)) :
    allowedFor key (a :: record) =
      allowedFor key record ++ if a.key = key ∧ a.allowed = true then [a.time] else [] := by
  rw [allowedFor, List.reverse_cons, List.filter_append, List.map_append, ← allowedFor]
  congr 1
  by_cases h : a.key = key ∧ a.allowed = true
  · rw [if_pos h, List.filter_cons_of_pos (by simpa using h)]
    rfl
  · rw [if_neg h, List.filter_cons_of_neg (by simpa using h)]
    rfl

theorem mem_allowedFor {key : String} {record : List (Answer T)} {time : T}
    (h : time ∈ allowedFor key record) : ∃ a ∈ record, a.time = time := by
  obtain ⟨a, ha, rfl⟩ := List.mem_map.mp h
  exact ⟨a, List.mem_reverse.mp (List.mem_of_mem_filter ha), rfl⟩

theorem allowedFor_append {key : String} {middle record : List (Answer T)}
    (h : ∀ a ∈ middle, a.key ≠ key) : allowedFor key (middle ++ record) = allowedFor key record := by
  induction middle with
  | nil => rfl
  | cons a middle ih =>
    rw [List.cons_append, allowedFor_cons, if_neg fun hkey => h a List.mem_cons_self hkey.1,
      List.append_nil]
    exact ih fun b hb => h b (List.mem_cons_of_mem a hb)

/-! ## The lists of the limiter -/

theorem Hits.get_set (hits : Hits T) (key key' : String) (times : List T) :
    (hits.set key times).get key' = if key' = key then times else hits.get key' := by
  rw [Hits.get, Hits.set, Function.update_apply]
  split
  · rfl
  · rfl

variable [Ring T] [LinearOrder T] {cfg : WindowConfig}

theorem get_prune (now : T) (key key' : String) (hits : Hits T) :
    (prune cfg now key hits).get key' =
      if key' = key then recent (cfg.window : T) now (hits.get key) else hits.get key' := by
  rw [prune]
  by_cases hempty : hits.get key = []
  · rw [if_pos hempty, hempty, recent_nil]
    split
    next hkey => rw [hkey, hempty]
    next => rfl
  · rw [if_neg hempty]
    by_cases hkept : recent (cfg.window : T) now (hits.get key) = []
    · rw [if_pos hkept, hkept, Hits.get, Function.update_apply]
      split
      · rfl
      · rfl
    · rw [if_neg hkept, Hits.get_set]

theorem get_cleanup (cfg : WindowConfig) (now : T) (key : String) (hits : Hits T) :
    (cleanup cfg now hits).get key = hits.get key ∨
      (cleanup cfg now hits).get key = [] ∧ ∀ time ∈ hits.get key, time < now - cfg.window * 2 := by
  rw [Hits.get, cleanup, Hits.get]
  rcases hits key with _ | times
  · exact .inl rfl
  · rcases hstale : times.all fun time => time < now - cfg.window * 2 with _ | _
    · refine .inl ?_
      rw [Option.filter_some, hstale]
      rfl
    · refine .inr ⟨?_, fun time hmem => by simpa using List.all_eq_true.mp hstale time hmem⟩
      rw [Option.filter_some, hstale]
      rfl

/-! ## Answers -/

variable [FloorRing T] (cfg)

/-- Every answer on record is the one for the calls that were allowed before it, and none of them
came later. -/
def Answered : List (Answer T) → Prop
  | [] => True
  | a :: record =>
    (a.result = decisionOf cfg a.time (recent (cfg.window : T) a.time (allowedFor a.key record)) ∧
      ∀ b ∈ record, b.time ≤ a.time) ∧ Answered record

variable {cfg} {record later earlier : List (Answer T)} {a : Answer T}

theorem Answered.split (h : Answered cfg (later ++ a :: earlier)) :
    Answered cfg (a :: earlier) := by
  induction later with
  | nil => exact h
  | cons b later ih => exact ih h.2

/-- The limiter with more than zero requests always has an answer. -/
theorem decisionOf_cases (hmax : 1 ≤ cfg.maxRequests) (now : T) (times : List T) :
    (∃ oldest rest, times = oldest :: rest ∧ cfg.maxRequests ≤ times.length ∧
      decisionOf cfg now times = .ok ⟨false, cfg.maxRequests, 0, pyTrunc (now + cfg.window),
        some (pyTrunc (cfg.window - (now - oldest)) + 1)⟩) ∨
    ((times.length : Int) < cfg.maxRequests ∧ decisionOf cfg now times = .ok
      ⟨true, cfg.maxRequests, max 0 (cfg.maxRequests - times.length) - 1,
        pyTrunc (now + cfg.window), none⟩) := by
  by_cases hfull : cfg.maxRequests ≤ times.length
  · rcases times with _ | ⟨oldest, rest⟩
    · simp only [List.length_nil] at hfull
      omega
    · refine .inl ⟨oldest, rest, rfl, hfull, ?_⟩
      rw [decisionOf]
      simp only [hfull, if_true]
      rfl
  · refine .inr ⟨not_le.mp hfull, ?_⟩
    rw [decisionOf]
    simp only [hfull, if_false]
    rfl

/-- A call was allowed if and only if there was room in its window. -/
theorem Answered.allowed_iff (hmax : 1 ≤ cfg.maxRequests) (h : Answered cfg (a :: earlier)) :
    a.allowed = true ↔
      ((recent (cfg.window : T) a.time (allowedFor a.key earlier)).length : Int) <
        cfg.maxRequests := by
  have hresult := h.1.1
  rcases decisionOf_cases hmax a.time (recent (cfg.window : T) a.time (allowedFor a.key earlier))
    with ⟨oldest, rest, -, hfull, heq⟩ | ⟨hroom, heq⟩
  · rw [Answer.allowed, hresult, heq]
    exact iff_of_false (by simp) (not_lt.mpr hfull)
  · rw [Answer.allowed, hresult, heq]
    exact iff_of_true rfl hroom

theorem Answered.mem_le {key : String} {time : T} (h : Answered cfg (a :: earlier))
    (hmem : time ∈ allowedFor key earlier) : time ≤ a.time := by
  obtain ⟨b, hb, rfl⟩ := mem_allowedFor hmem
  exact h.1.2 b hb

theorem lt_pyTrunc {x : T} (h : 0 ≤ x) : x < ((pyTrunc x + 1 : Int) : T) := by
  rw [pyTrunc, if_pos h]
  push_cast
  exact Int.lt_floor_add_one x

theorem Answered.exact (hmax : 1 ≤ cfg.maxRequests) (h : Answered cfg (a :: earlier)) :
    a.allowed = true ↔ ((allowedFor a.key earlier).countP fun time =>
      a.time - cfg.window < time ∧ time ≤ a.time : Nat) < cfg.maxRequests := by
  rw [h.allowed_iff hmax, recent, ← List.countP_eq_length_filter]
  have hcount : (allowedFor a.key earlier).countP (fun time => a.time - cfg.window < time) =
      (allowedFor a.key earlier).countP fun time => a.time - cfg.window < time ∧ time ≤ a.time := by
    refine List.countP_congr ?_
    intro time hmem
    simp only [decide_eq_true_eq]
    exact (and_iff_left (h.mem_le hmem)).symm
  rw [hcount]

theorem Answered.answered (hmax : 1 ≤ cfg.maxRequests) (h : Answered cfg (a :: earlier)) :
    ∃ decision, a.result = .ok decision ∧
      (decision.allowed = false → decision.retryAfter.isSome) := by
  rw [h.1.1]
  rcases decisionOf_cases hmax a.time (recent (cfg.window : T) a.time (allowedFor a.key earlier))
    with ⟨oldest, rest, -, -, heq⟩ | ⟨-, heq⟩
  · exact ⟨_, heq, fun _ => rfl⟩
  · exact ⟨_, heq, fun hfalse => by cases hfalse⟩

/-- A call answers by the times in its window, and adds its own time if it is allowed. -/
theorem allow_spec (hmax : 1 ≤ cfg.maxRequests) (now : T) (key : String) (hits : Hits T) :
    ∃ result hits', allow cfg now key hits = (result, hits') ∧
      result = decisionOf cfg now (recent (cfg.window : T) now (hits.get key)) ∧
      ∀ key', hits'.get key' = if key' = key then
        recent (cfg.window : T) now (hits.get key) ++
          (if (⟨key, now, result⟩ : Answer T).allowed = true then [now] else [])
        else hits.get key' := by
  have htimes : (prune cfg now key hits).get key = recent (cfg.window : T) now (hits.get key) := by
    rw [get_prune, if_pos rfl]
  refine ⟨_, _, rfl, by rw [htimes], fun key' => ?_⟩
  rw [htimes]
  dsimp only
  -- There is no room, and only the pruned list is stored; or the time of the call is added to it.
  rcases decisionOf_cases hmax now (recent (cfg.window : T) now (hits.get key))
    with ⟨oldest, rest, -, hfull, heq⟩ | ⟨hroom, heq⟩
  · rw [heq, if_pos hfull, Hits.get_set, get_prune]
    split
    · exact (List.append_nil _).symm
    · rfl
  · rw [heq, if_neg (not_le.mpr hroom), Hits.get_set, get_prune]
    split
    · rfl
    · rfl

section Ordered

variable [IsStrictOrderedRing T]

/-- No window has more allowed calls for a key than it may, wherever it starts. The calls of a
window have a last one, which was allowed; when it was, the others were in its own window, which
begins no later. -/
theorem Answered.limited (hmax : 1 ≤ cfg.maxRequests) (h : Answered cfg record) (key : String) :
    Limited (cfg.window : T) cfg.maxRequests.toNat (allowedFor key record) := by
  induction record with
  | nil => exact limited_nil _ _
  | cons a record ih =>
    have hrest := ih h.2
    rw [allowedFor_cons]
    split
    next hcall =>
      obtain ⟨rfl, hallowed⟩ := hcall
      have hroom := (h.allowed_iff hmax).mp hallowed
      refine (hrest.cons (t := a.time) ?_).perm (List.perm_append_singleton _ _).symm
      omega
    next =>
      rw [List.append_nil]
      exact hrest

/-- The next call for a key after a rejected one is allowed, if it comes no earlier than that one
was told: by then the oldest time that was counted has left the window. The time is rounded down and
one is added, so it is never too early. -/
theorem Answered.retry (hmax : 1 ≤ cfg.maxRequests) {b : Answer T} {middle : List (Answer T)}
    (h : Answered cfg (a :: (middle ++ b :: earlier))) (hkey : b.key = a.key)
    (hmiddle : ∀ c ∈ middle, c.key ≠ a.key) {decision : Decision} {seconds : Int}
    (hresult : b.result = .ok decision) (hrejected : decision.allowed = false)
    (hafter : decision.retryAfter = some seconds) (hlate : b.time + seconds ≤ a.time) :
    a.allowed = true := by
  have hb : Answered cfg (b :: earlier) := h.2.split
  rw [h.allowed_iff hmax]
  -- The calls that were allowed before `a` are those before `b`.
  have hbefore : allowedFor a.key (middle ++ b :: earlier) = allowedFor b.key earlier := by
    have hnot : ¬ (b.key = a.key ∧ b.allowed = true) := by
      rintro ⟨-, hallowed⟩
      rw [Answer.allowed, hresult] at hallowed
      exact Bool.false_ne_true (hrejected.symm.trans hallowed)
    rw [allowedFor_append hmiddle, allowedFor_cons, if_neg hnot, List.append_nil, hkey]
  have hle : b.time ≤ a.time := h.1.2 b (List.mem_append_right _ List.mem_cons_self)
  have hlength := (hb.2.limited hmax b.key).length_recent (t := b.time) fun _ hmem => hb.mem_le hmem
  rcases decisionOf_cases hmax b.time (recent (cfg.window : T) b.time (allowedFor b.key earlier))
    with ⟨oldest, rest, htimes, -, heq⟩ | ⟨-, heq⟩
  · rw [hb.1.1, heq, Except.ok.injEq] at hresult
    rw [← hresult, Option.some.injEq] at hafter
    have hmem : oldest ∈ recent (cfg.window : T) b.time (allowedFor b.key earlier) := by
      rw [htimes]
      exact List.mem_cons_self
    have hpositive : 0 ≤ (cfg.window : T) - (b.time - oldest) :=
      sub_nonneg.mpr (sub_le_comm.mp (mem_recent.mp hmem).2.le)
    -- The oldest of the recent times is not recent any more.
    have hgone : oldest ≤ a.time - cfg.window := by
      have hlt := lt_pyTrunc hpositive
      rw [hafter] at hlt
      have hsum : b.time + (cfg.window - (b.time - oldest)) ≤ a.time :=
        (add_le_add_right hlt.le b.time).trans hlate
      rw [le_sub_iff_add_le]
      refine le_trans (le_of_eq ?_) hsum
      abel
    rw [hbefore, ← recent_recent hle, htimes]
    have hdrop : recent (cfg.window : T) a.time (oldest :: rest) =
        recent (cfg.window : T) a.time rest := by
      rw [recent, List.filter_cons_of_neg (by simpa using hgone), recent]
    have hshort : (recent (cfg.window : T) a.time rest).length ≤ rest.length :=
      List.length_filter_le _ _
    rw [htimes, List.length_cons] at hlength
    rw [hdrop]
    omega
  · rw [hb.1.1, heq, Except.ok.injEq] at hresult
    rw [← hresult] at hrejected
    cases hrejected

/-! ## Runs -/

/-- Between two calls the lists have lost no time that a later call could count, and every answer
is the one for the calls that were allowed before it. -/
structure LimiterInv (cfg : WindowConfig) (s : LimiterState T) : Prop where
  past : ∀ a ∈ s.record, a.time ≤ s.now
  old : ∀ key, ∀ time ∈ s.hits.get key, time ≤ s.now
  tracks : ∀ key, recent (cfg.window : T) s.now (s.hits.get key) =
    recent (cfg.window : T) s.now (allowedFor key s.record)
  answers : Answered cfg s.record

variable {s : LimiterState T}

theorem LimiterInv.tracks_later {time : T} (hs : LimiterInv cfg s) (hle : s.now ≤ time)
    (key : String) : recent (cfg.window : T) time (s.hits.get key) =
      recent (cfg.window : T) time (allowedFor key s.record) := by
  rw [← recent_recent hle, hs.tracks, recent_recent hle]

theorem LimiterInv.allow (hmax : 1 ≤ cfg.maxRequests) (hs : LimiterInv cfg s) {key : String}
    {time : T} (hle : s.now ≤ time) {result : Except PyExc Decision} {hits' : Hits T}
    (hallow : allow cfg time key s.hits = (result, hits')) :
    LimiterInv cfg ⟨hits', time, ⟨key, time, result⟩ :: s.record⟩ := by
  obtain ⟨result', hits'', heq, hresult, hhits⟩ := allow_spec hmax time key s.hits
  rw [hallow] at heq
  cases heq
  have hpast : ∀ a ∈ s.record, a.time ≤ time := fun a ha => (hs.past a ha).trans hle
  refine { past := List.forall_mem_cons.mpr ⟨le_rfl, hpast⟩, old := fun key' t ht => ?_,
           tracks := fun key' => ?_, answers := ⟨⟨?_, hpast⟩, hs.answers⟩ }
  · rw [hhits] at ht
    split at ht
    · rcases List.mem_append.mp ht with ht | ht
      · exact (hs.old key t (mem_recent.mp ht).1).trans hle
      · split at ht
        · exact (List.mem_singleton.mp ht).le
        · cases ht
    · exact (hs.old key' t ht).trans hle
  · rw [hhits, allowedFor_cons]
    -- the list of the key was pruned and may have got one hit; the others are untouched
    by_cases hkey : key' = key
    · subst hkey
      rw [if_pos rfl, recent_append, recent_append, recent_recent le_rfl, hs.tracks_later hle]
      simp
    · rw [if_neg hkey, if_neg fun h => hkey h.1.symm, List.append_nil, hs.tracks_later hle]
  · rw [hresult, hs.tracks_later hle]

theorem LimiterInv.cleanup (hs : LimiterInv cfg s) {time : T} (hle : s.now ≤ time) :
    LimiterInv cfg { s with hits := Api.cleanup cfg time s.hits, now := time } := by
  refine { past := fun a ha => (hs.past a ha).trans hle, old := fun key t ht => ?_,
           tracks := fun key => ?_, answers := hs.answers }
  · rcases get_cleanup cfg time key s.hits with heq | ⟨heq, -⟩
    · rw [heq] at ht
      exact (hs.old key t ht).trans hle
    · rw [heq] at ht
      cases ht
  · show recent _ time ((Api.cleanup cfg time s.hits).get key) = _
    rw [← hs.tracks_later hle]
    rcases get_cleanup cfg time key s.hits with heq | ⟨heq, hstale⟩
    · rw [heq]
    · -- What was dropped is not recent: it is two windows old, or the window is empty.
      rw [heq, recent_nil, recent_eq_nil fun t ht => ?_]
      rcases le_total 0 (cfg.window : T) with hpos | hneg
      · refine (hstale t ht).le.trans (sub_le_sub_left ?_ time)
        exact le_mul_of_one_le_right hpos one_le_two
      · exact ((hs.old key t ht).trans hle).trans (le_sub_self_iff time |>.mpr hneg)

theorem limiterInv_step (hmax : 1 ≤ cfg.maxRequests) {start : T} (s : LimiterState T)
    (e : LimiterEvent T) (s' : LimiterState T) (hs : LimiterInv cfg s)
    (h : (limiterSystem cfg start).step s e = some s') : LimiterInv cfg s' := by
  cases e with
  | allow key time =>
    obtain ⟨hle, h⟩ := Option.ite_none_right_eq_some.mp h
    cases h
    exact hs.allow hmax hle rfl
  | cleanup time =>
    obtain ⟨hle, h⟩ := Option.ite_none_right_eq_some.mp h
    cases h
    exact hs.cleanup hle

/-! ## What the limiter is for -/

/-- The record of a limiter with a sliding window. -/
structure SlidingWindow (cfg : WindowConfig) (record : List (Answer T)) : Prop where
  /-- A call at `t` is allowed when there is room in `(t - window, t]`. -/
  exact : ∀ (later earlier : List (Answer T)) (a : Answer T), record = later ++ a :: earlier →
    (a.allowed = true ↔ ((allowedFor a.key earlier).countP fun time =>
      a.time - cfg.window < time ∧ time ≤ a.time : Nat) < cfg.maxRequests)
  /-- No window has more allowed calls for a key than it may. -/
  limited : ∀ key, Limited (cfg.window : T) cfg.maxRequests.toNat (allowedFor key record)
  /-- Every call is answered, a rejected one with `Retry-After`. -/
  answered : ∀ a ∈ record, ∃ decision, a.result = .ok decision ∧
    (decision.allowed = false → decision.retryAfter.isSome)
  /-- The next call for the key after `Retry-After` is allowed. -/
  retry : ∀ (later middle earlier : List (Answer T)) (a b : Answer T),
    record = later ++ a :: (middle ++ b :: earlier) → b.key = a.key →
    (∀ c ∈ middle, c.key ≠ a.key) → ∀ (decision : Decision) (seconds : Int),
    b.result = .ok decision → decision.allowed = false → decision.retryAfter = some seconds →
    b.time + seconds ≤ a.time → a.allowed = true

/-- **The in-memory limiter.** After any sequence of calls and cleanups at times that do not
decrease, the record is that of a sliding window: calls are allowed exactly when there is room, no
window has too many, and `Retry-After` is kept. -/
theorem slidingWindow (cfg : WindowConfig) (hmax : 1 ≤ cfg.maxRequests) (start : T)
    (s : LimiterState T) (h : (limiterSystem cfg start).Reachable s) :
    SlidingWindow cfg s.record := by
  have hinit : LimiterInv cfg (limiterSystem cfg start).init :=
    { past := fun a ha => (by cases ha), old := fun key t ht => (by cases ht),
      tracks := fun key => rfl, answers := trivial }
  have hanswers := (h.invariant hinit (limiterInv_step hmax)).answers
  refine { exact := fun later earlier a heq => ?_, limited := hanswers.limited hmax,
           answered := fun a ha => ?_, retry := fun later middle earlier a b heq => ?_ }
  · rw [heq] at hanswers
    exact hanswers.split.exact hmax
  · obtain ⟨later, earlier, heq⟩ := List.append_of_mem ha
    rw [heq] at hanswers
    exact hanswers.split.answered hmax
  · rw [heq] at hanswers
    intro hkey hmiddle decision seconds hresult hrejected hafter hlate
    exact hanswers.split.retry hmax hkey hmiddle hresult hrejected hafter hlate

/-- Two calls within one second, of which one may be allowed, and a third one a second later. -/
theorem slidingWindow_threeCalls : ∃ s : LimiterState Int,
    (limiterSystem ⟨1, 1⟩ 0).Reachable s ∧ s.record.map Answer.allowed = [true, false, true] ∧
      SlidingWindow ⟨1, 1⟩ s.record := by
  let calls : List (LimiterEvent Int) := [.allow "k" 0, .allow "k" 0, .cleanup 1, .allow "k" 1]
  have hrun : ((limiterSystem ⟨1, 1⟩ 0).exec (limiterSystem ⟨1, 1⟩ 0).init calls).isSome :=
    by decide +kernel
  obtain ⟨s, hs⟩ := Option.isSome_iff_exists.mp hrun
  have hreachable : (limiterSystem ⟨1, 1⟩ 0).Reachable s := reachable_of_exec _ hs
  refine ⟨s, hreachable, ?_, slidingWindow ⟨1, 1⟩ (by decide) 0 s hreachable⟩
  have hmap : ((limiterSystem ⟨1, 1⟩ 0).exec (limiterSystem ⟨1, 1⟩ 0).init calls).map
      (fun s => s.record.map Answer.allowed) = some [true, false, true] := by decide +kernel
  rw [hs] at hmap
  exact Option.some.inj hmap

end Ordered

end Noema.Api
