import Noema.Lib.System
import Noema.Memory.Store

/-!
# One store: clean means stored

The calls of one store and its coroutines take turns. A save clears `_dirty` after its commit,
whatever was recorded in the meantime; `flush` clears nothing and saves nothing, since its coroutine
is never awaited.

- `CleanMeansStored`: when no save is in progress and the store is not dirty, and also right after
  `flush`, the rows are those of the lists.
- `SafeEvent`: the condition on a step. A list grows or a procedure changes only where no save in
  progress has read it yet; `flush` is called only when nothing is dirty, or when a save has
  committed and waits for the connection to close; and no save reads a context that cannot be
  serialized.
- `SaveInv`: the invariant of a save in progress: it has inserted what it has read of the lists as
  they are now, and every row of the tables that it is through with is deleted or will be
  overwritten.
- `saveStep_inv` and `saveInv_changes`: a step of the save and a change of the lists keep it;
  `saveInv_rows` says that the steps of other saves do.
- **`cleanMeansStored_of_safe`**: in a run whose steps are all safe, clean means stored. Several
  saves may be in progress at a time.
- `clean_not_stored`: what is recorded between a commit and the end of the save is clean and not
  stored.
-/

namespace Noema.Memory

open Noema.Lib Transaction PyJson

variable {F : Type}

/-- The save has not read the memory at an index of a list yet, or that the list ends there. -/
def SavePhase.Unread (kind : Kind) (i : Nat) : SavePhase F → Prop
  | .deleting _ kind' _ => kind'.index ≤ kind.index
  | .inserting _ kind' j _ _ => kind'.index < kind.index ∨ kind' = kind ∧ j < i
  | .committing _ => False
  | .closing => False
  | .files => False
  | .created => True
  | .connecting => True
  | .finished => True

/-- The memory that a save reads in its next step. -/
def PostgresMemoryStore.reads (s : PostgresMemoryStore F) : SavePhase F → Option (Entry F)
  | .deleting _ kind _ => (s.source kind none)[0]?
  | .inserting _ kind i _ old => (s.source kind old)[i + 1]?
  | _ => none

/-- The rows and the store, and whether `flush` has just returned. -/
structure StoreState (F : Type) where
  rows : List Row
  store : PostgresMemoryStore F
  flushed : Bool

section System

variable [PyFloat F]

/-- The rows are those of the lists. -/
def Stored (rows : List Row) (m : Memories F) : Prop := rows.map .ok = m.all.map Entry.row

/-- Lists that are stored, as after `_load`. -/
structure Loaded (F : Type) [PyFloat F] where
  rows : List Row
  memories : Memories F
  stored : Stored rows memories

/-- A store that was loaded from the database. -/
def storeSystem (lower : String → String) (autoSave : Bool) (loaded : Loaded F) :
    System (StoreState F) (StoreEvent F) where
  init :=
    { rows := loaded.rows
      store :=
        { memories := loaded.memories, dirty := false, autoSave, debounceHandle := false,
          hasPg := true, saves := [] }
      flushed := false }
  step s e :=
    (storeStep lower [] s.rows s.store e).map fun (rows, store) =>
      { rows, store, flushed := match e with | .flush => true | _ => false }

/-- Clean means stored: without a save in progress, and after a `flush`. -/
structure CleanMeansStored (s : StoreState F) : Prop where
  clean : s.store.dirty = false → (∀ p ∈ s.store.saves, p = .finished) → Stored s.rows s.store.memories
  flushed : s.flushed = true → Stored s.rows s.store.memories

/-- The condition on a step. A list grows, or a procedure changes, only where no save in progress
has read it already; `flush` is called when nothing is dirty, or a save has just committed; and no
save reads a context that cannot be serialized. -/
def SafeEvent (lower : String → String) (s : StoreState F) : StoreEvent F → Prop
  | .recordEpisode _ =>
    ∀ p ∈ s.store.saves, p.Unread .episodic (s.store.memories.list .episodic).length
  | .learnFact _ _ _ _ _ _ _ =>
    ∀ p ∈ s.store.saves, p.Unread .semantic (s.store.memories.list .semantic).length
  | .storeProcedure _ _ _ _ _ =>
    ∀ p ∈ s.store.saves, p.Unread .procedural (s.store.memories.list .procedural).length
  | .recordProcedureOutcome procedureName _ _ =>
    ∀ i ∈ s.store.memories.findProcedure lower procedureName,
      ∀ p ∈ s.store.saves, p.Unread .procedural i
  | .flush => s.store.dirty = false ∨ .closing ∈ s.store.saves
  | .resume i => ∀ p ∈ s.store.saves[i]?, ∀ m ∈ s.store.reads p, ∃ row, m.row = .ok row
  | .debounceFires => True
  | .save => True

/-! ### The condition can be decided -/

instance SavePhase.decidableUnread (kind : Kind) (i : Nat) (p : SavePhase F) :
    Decidable (p.Unread kind i) :=
  match p with
  | .deleting _ kind' _ => inferInstanceAs (Decidable (kind'.index ≤ kind.index))
  | .inserting _ kind' j _ _ =>
    inferInstanceAs (Decidable (kind'.index < kind.index ∨ kind' = kind ∧ j < i))
  | .committing _ => instDecidableFalse
  | .closing => instDecidableFalse
  | .files => instDecidableFalse
  | .created => instDecidableTrue
  | .connecting => instDecidableTrue
  | .finished => instDecidableTrue

/-- `conn.close()` is awaited. -/
def SavePhase.isClosing : SavePhase F → Bool
  | .closing => true
  | _ => false

omit [PyFloat F] in
theorem any_isClosing_iff {saves : List (SavePhase F)} :
    saves.any SavePhase.isClosing = true ↔ .closing ∈ saves := by
  rw [List.any_eq_true]
  constructor
  · rintro ⟨p, hp, hclosing⟩
    cases p with
    | closing => exact hp
    | _ => cases hclosing
  · exact fun hp => ⟨_, hp, rfl⟩

instance decidableClosing (saves : List (SavePhase F)) : Decidable (.closing ∈ saves) :=
  decidable_of_iff _ any_isClosing_iff

instance decidableSafeEvent (lower : String → String) (s : StoreState F) (e : StoreEvent F) :
    Decidable (SafeEvent lower s e) :=
  match e with
  | .recordEpisode _ =>
    inferInstanceAs (Decidable (∀ p ∈ s.store.saves,
      p.Unread .episodic (s.store.memories.list .episodic).length))
  | .learnFact _ _ _ _ _ _ _ =>
    inferInstanceAs (Decidable (∀ p ∈ s.store.saves,
      p.Unread .semantic (s.store.memories.list .semantic).length))
  | .storeProcedure _ _ _ _ _ =>
    inferInstanceAs (Decidable (∀ p ∈ s.store.saves,
      p.Unread .procedural (s.store.memories.list .procedural).length))
  | .recordProcedureOutcome procedureName _ _ =>
    inferInstanceAs (Decidable (∀ i ∈ s.store.memories.findProcedure lower procedureName,
      ∀ p ∈ s.store.saves, p.Unread .procedural i))
  | .flush => inferInstanceAs (Decidable (s.store.dirty = false ∨ .closing ∈ s.store.saves))
  | .resume i =>
    inferInstanceAs (Decidable (∀ p ∈ s.store.saves[i]?, ∀ m ∈ s.store.reads p,
      ∃ row, m.row = .ok row))
  | .debounceFires => instDecidableTrue
  | .save => instDecidableTrue

/-! ## What holds of the saves in progress -/

/-- The transaction has inserted the memories. -/
def Inserted (tx : Txn Row) (entries : List (Entry F)) : Prop :=
  tx.inserted.map .ok = entries.map Entry.row

/-- Of the first tables every row is deleted, or there is a memory with its key. -/
def Covered (rows : List Row) (m : Memories F) (tx : Txn Row) (n : Nat) : Prop :=
  ∀ r ∈ rows, r.key.1.index < n → r ∈ tx.deleted ∨ r.key ∈ m.all.map Entry.key

/-- A save has inserted what it has read, and will have the last word on every row. -/
def SaveInv (rows : List Row) (m : Memories F) : SavePhase F → Prop
  | .deleting tx kind snapshot =>
    Inserted tx (m.before kind) ∧ Covered rows m tx kind.index ∧
      ∀ r ∈ table rows kind, r ∈ snapshot ∨ r.key ∈ m.all.map Entry.key
  | .inserting tx kind i row old =>
    old = none ∧ Inserted tx (m.before kind ++ (m.list kind).take i) ∧
      (m.list kind)[i]?.map Entry.row = some (.ok row) ∧ Covered rows m tx (kind.index + 1)
  | .committing tx => Inserted tx m.all ∧ Covered rows m tx 3
  | .closing => Stored rows m
  | .files => False
  | .created => True
  | .connecting => True
  | .finished => True

structure StoreInv (rows : List Row) (s : PostgresMemoryStore F) : Prop where
  compatible : Compatible Row.key rows (s.saves.map SavePhase.txn)
  saves : ∀ p ∈ s.saves, SaveInv rows s.memories p
  hasPg : s.hasPg = true
  clean : s.dirty = false → Stored rows s.memories

section Kinds

variable {m : Memories F} {kind kind' : Kind} {rows : List Row} {tx : Txn Row}

omit [PyFloat F] in
theorem before_next (h : kind.next = some kind') :
    m.before kind' = m.before kind ++ m.list kind ∧ kind'.index = kind.index + 1 := by
  cases kind with
  | episodic =>
    cases h
    exact ⟨rfl, rfl⟩
  | semantic =>
    cases h
    exact ⟨rfl, rfl⟩
  | procedural => cases h

omit [PyFloat F] in
theorem all_of_last (h : kind.next = none) :
    m.all = m.before kind ++ m.list kind ∧ kind.index = 2 := by
  cases kind with
  | episodic => cases h
  | semantic => cases h
  | procedural => exact ⟨rfl, rfl⟩

omit [PyFloat F] in
theorem index_injective (h : kind.index = kind'.index) : kind = kind' := by
  cases kind <;> cases kind' <;> first | rfl | cases h

omit [PyFloat F] in
theorem index_le (kind : Kind) : kind.index ≤ 2 := by
  cases kind <;> decide

/-- The keys of the rows that are made of memories. -/
theorem Inserted.keys {entries : List (Entry F)} (h : Inserted tx entries) :
    tx.inserted.map Row.key = entries.map Entry.key := by
  unfold Inserted at h
  generalize tx.inserted = inserted at h
  induction entries generalizing inserted with
  | nil => rw [List.map_eq_nil_iff.mp h, List.map_nil, List.map_nil]
  | cons m entries ih =>
    cases inserted with
    | nil => cases h
    | cons r inserted =>
      rw [List.map_cons, List.map_cons, List.cons.injEq] at h
      rw [List.map_cons, List.map_cons, Entry.key_row h.1.symm, ih _ h.2]

/-- The commit leaves the rows of the lists, and no others. -/
theorem commit_eq_inserted {others : List (Txn Row)} (hcompatible : Compatible Row.key rows (tx :: others))
    (hinserted : Inserted tx m.all) (hcovered : Covered rows m tx 3) :
    commit rows tx = tx.inserted := by
  refine commit_eq (hcompatible.fresh tx List.mem_cons_self) fun r hr => ?_
  refine (hcovered r hr (Nat.lt_succ_of_le (index_le _))).imp_right fun hkey => ?_
  rw [← hinserted.keys] at hkey
  obtain ⟨r', hr', heq⟩ := List.mem_map.mp hkey
  exact ⟨r', hr', heq.symm⟩

end Kinds

/-! ## What a save keeps -/

section SaveSteps

variable {rows rows' : List Row} {s s' : PostgresMemoryStore F} {tx : Txn Row} {kind : Kind} {i : Nat}
  {p p' : SavePhase F} {m : Memories F} {others : List (Txn Row)}

/-- On to the next memory, or to the next table. -/
theorem saveInv_advance (hinserted : Inserted tx (s.memories.before kind ++ (s.memories.list kind).take i))
    (hcovered : Covered rows s.memories tx (kind.index + 1))
    (hreads : ∀ m ∈ (s.memories.list kind)[i]?, ∃ row, m.row = .ok row) :
    SaveInv rows s.memories (s.advance rows tx kind i none) ∧
      (s.advance rows tx kind i none).txn = tx := by
  rw [PostgresMemoryStore.advance, PostgresMemoryStore.source, Option.getD_none]
  cases hget : (s.memories.list kind)[i]? with
  | some m =>
    obtain ⟨row, hrow⟩ := hreads m hget
    simp only [hrow]
    exact ⟨⟨rfl, hinserted, by rw [hget, Option.map_some, hrow], hcovered⟩, rfl⟩
  | none =>
    rw [List.take_of_length_le (List.getElem?_eq_none_iff.mp hget)] at hinserted
    cases hnext : kind.next with
    | some kind' =>
      obtain ⟨hbefore, hindex⟩ := before_next (m := s.memories) hnext
      refine ⟨⟨hbefore ▸ hinserted, hindex ▸ hcovered, fun r hr => .inl hr⟩, rfl⟩
    | none =>
      obtain ⟨hall, hindex⟩ := all_of_last (m := s.memories) hnext
      rw [hindex] at hcovered
      exact ⟨⟨hall ▸ hinserted, hcovered⟩, rfl⟩

/-- What a step of a save does with the rows, and with `_dirty`. -/
structure SaveStep (rows rows' : List Row) (s s' : PostgresMemoryStore F) (others : List (Txn Row))
    (p' : SavePhase F) : Prop where
  own : SaveInv rows' s.memories p'
  compatible : Compatible Row.key rows' (p'.txn :: others)
  rows : rows' = rows ∨ Stored rows' s.memories
  memories : s'.memories = s.memories
  saves : s'.saves = s.saves
  hasPg : s'.hasPg = s.hasPg
  dirty : s'.dirty = s.dirty ∨ Stored rows' s.memories

theorem saveStep_inv (hcompatible : Compatible Row.key rows (p.txn :: others))
    (hinv : SaveInv rows s.memories p) (hpg : s.hasPg = true)
    (hreads : ∀ m ∈ s.reads p, ∃ row, m.row = .ok row)
    (hstep : s.saveStep others rows p = some (rows', s', p')) :
    SaveStep rows rows' s s' others p' := by
  cases p with
  | created =>
    cases hstep
    rw [if_pos hpg]
    exact ⟨trivial, hcompatible, .inl rfl, rfl, rfl, rfl, .inl rfl⟩
  | connecting =>
    cases hstep
    refine ⟨⟨rfl, ?_, fun r hr => .inl hr⟩, hcompatible, .inl rfl, rfl, rfl, rfl, .inl rfl⟩
    exact fun r _ hlt => absurd hlt (Nat.not_lt_zero _)
  | deleting tx kind snapshot =>
    obtain ⟨hinserted, hcovered, hsnapshot⟩ := hinv
    obtain ⟨-, hstep⟩ := Option.ite_none_right_eq_some.mp hstep
    cases hstep
    -- the rows of this table are deleted, as far as they are in the snapshot; the others have been
    -- overwritten
    have hcovered' : Covered rows s.memories
        { tx with deleted := tx.deleted ++ victims rows snapshot } (kind.index + 1) := by
      intro r hr hlt
      rcases Nat.lt_succ_iff_lt_or_eq.mp hlt with hlt | heq
      · exact (hcovered r hr hlt).imp_left (List.mem_append_left _)
      · have htable : r ∈ table rows kind :=
          List.mem_filter.mpr ⟨hr, decide_eq_true (index_injective heq)⟩
        refine (hsnapshot r htable).imp_left fun hsnapshot => List.mem_append_right _ ?_
        exact List.mem_filter.mpr ⟨hsnapshot, decide_eq_true hr⟩
    have hinserted' : Inserted { tx with deleted := tx.deleted ++ victims rows snapshot }
        (s.memories.before kind ++ (s.memories.list kind).take 0) := by
      rw [List.take_zero, List.append_nil]
      exact hinserted
    obtain ⟨hown, htxn⟩ := saveInv_advance hinserted' hcovered' hreads
    refine ⟨hown, ?_, .inl rfl, rfl, rfl, rfl, .inl rfl⟩
    rw [htxn]
    exact hcompatible.delete _
  | inserting tx kind i row old =>
    obtain ⟨rfl, hinserted, hrow, hcovered⟩ := hinv
    obtain ⟨hcan, hstep⟩ := Option.ite_none_right_eq_some.mp hstep
    cases hstep
    -- one more memory of the list is inserted
    have hinserted' : Inserted { tx with inserted := tx.inserted ++ [row] }
        (s.memories.before kind ++ (s.memories.list kind).take (i + 1)) := by
      obtain ⟨m, hm, hrow⟩ := Option.map_eq_some_iff.mp hrow
      unfold Inserted at hinserted ⊢
      rw [List.take_add_one, hm, Option.toList_some, ← List.append_assoc, List.map_append,
        List.map_append, hinserted, List.map_singleton, List.map_singleton, hrow]
    obtain ⟨hown, htxn⟩ := saveInv_advance hinserted' hcovered hreads
    refine ⟨hown, ?_, .inl rfl, rfl, rfl, rfl, .inl rfl⟩
    rw [htxn]
    exact hcompatible.insert hcan
  | committing tx =>
    cases hstep
    have hcompatible : Compatible Row.key rows (tx :: others) := hcompatible
    -- everything is inserted and everything else deleted, so the commit leaves just the lists
    have hstored : Stored (commit rows tx) s.memories := by
      rw [commit_eq_inserted hcompatible hinv.1 hinv.2]
      exact hinv.1
    exact ⟨hstored, hcompatible.commit, .inr hstored, rfl, rfl, rfl, .inl rfl⟩
  | closing =>
    cases hstep
    exact ⟨trivial, hcompatible, .inl rfl, rfl, rfl, rfl, .inr hinv⟩
  | files => exact hinv.elim
  | finished => cases hstep

/-- The other saves are not disturbed. -/
theorem saveInv_rows (h : rows' = rows ∨ Stored rows' m) (hinv : SaveInv rows m p) :
    SaveInv rows' m p := by
  rcases h with rfl | hstored
  · exact hinv
  · have hkeys : ∀ r ∈ rows', r.key ∈ m.all.map Entry.key := fun r hr => by
      have hinserted : Inserted { inserted := rows' } m.all := hstored
      have hkeys := hinserted.keys
      rw [← hkeys]
      exact List.mem_map_of_mem hr
    cases p with
    | deleting tx kind snapshot =>
      exact ⟨hinv.1, fun r hr _ => .inr (hkeys r hr), fun r hr => .inr (hkeys r (List.mem_of_mem_filter hr))⟩
    | inserting tx kind i row old =>
      exact ⟨hinv.1, hinv.2.1, hinv.2.2.1, fun r hr _ => .inr (hkeys r hr)⟩
    | committing tx => exact ⟨hinv.1, fun r hr _ => .inr (hkeys r hr)⟩
    | closing => exact hstored
    | files => exact hinv
    | created => trivial
    | connecting => trivial
    | finished => trivial

/-- A step of one of the saves. -/
theorem storeInv_resume (hinv : StoreInv rows s)
    (hreads : ∀ p ∈ s.saves[i]?, ∀ m ∈ s.reads p, ∃ row, m.row = .ok row)
    (hstep : s.resume [] rows i = some (rows', s')) : StoreInv rows' s' := by
  obtain ⟨p, hp, hstep⟩ := Option.bind_eq_some_iff.mp hstep
  obtain ⟨⟨rows₁, s₁, p₁⟩, hsave, hstep⟩ := Option.bind_eq_some_iff.mp hstep
  cases hstep
  obtain ⟨hi, hget⟩ := List.getElem?_eq_some_iff.mp hp
  have hmem : p ∈ s.saves := List.mem_of_getElem? hp
  rw [List.append_nil] at hsave
  -- the save that goes on is taken out of the list, and its transaction stands first
  have hcompatible : Compatible Row.key rows (p.txn :: (s.saves.eraseIdx i).map SavePhase.txn) := by
    refine hinv.compatible.perm ?_
    rw [← List.map_cons, ← hget]
    exact (List.getElem_cons_eraseIdx_perm hi).symm.map _
  have hdone := saveStep_inv hcompatible (hinv.saves p hmem) hinv.hasPg (hreads p hp) hsave
  have hset : (s₁.saves.set i p₁).Perm (p₁ :: s.saves.eraseIdx i) :=
    hdone.saves ▸ List.set_perm_cons_eraseIdx hi p₁
  refine ⟨?_, fun p' hp' => ?_, hdone.hasPg.trans hinv.hasPg, fun hdirty => ?_⟩
  · refine hdone.compatible.perm ?_
    rw [← List.map_cons]
    exact hset.symm.map _
  · show SaveInv rows' s₁.memories p'
    rw [hdone.memories]
    rcases List.mem_cons.mp (hset.mem_iff.mp hp') with rfl | hother
    · exact hdone.own
    · exact saveInv_rows hdone.rows (hinv.saves p' (List.mem_of_mem_eraseIdx hother))
  · show Stored rows' s₁.memories
    rw [hdone.memories]
    -- the rows change only with a commit, and then they are those of the lists
    rcases hdone.rows with rfl | hstored
    · rcases hdone.dirty with heq | hstored
      · exact hinv.clean (heq ▸ hdirty)
      · exact hstored
    · exact hstored

end SaveSteps

/-! ## What a change keeps -/

section Changes

variable {rows : List Row} {m m' : Memories F} {kind : Kind} {i : Nat} {p : SavePhase F}

/-- The lists change from an index of one of them on, and lose no memory. -/
structure Changes (m m' : Memories F) (kind : Kind) (i : Nat) : Prop where
  others : ∀ kind', kind' ≠ kind → m'.list kind' = m.list kind'
  start : (m'.list kind).take i = (m.list kind).take i
  keys : m.all.map Entry.key ⊆ m'.all.map Entry.key

omit [PyFloat F] in
theorem Changes.before (h : Changes m m' kind i) {kind' : Kind} (hle : kind'.index ≤ kind.index) :
    m'.before kind' = m.before kind' := by
  have hlist {kind'' : Kind} (hlt : kind''.index < kind'.index) : m'.list kind'' = m.list kind'' := by
    refine h.others kind'' ?_
    rintro rfl
    omega
  cases kind' with
  | episodic => rfl
  | semantic =>
    exact hlist (by decide : Kind.episodic.index < Kind.semantic.index)
  | procedural =>
    show _ ++ _ = _ ++ _
    rw [hlist (by decide : Kind.episodic.index < Kind.procedural.index),
      hlist (by decide : Kind.semantic.index < Kind.procedural.index)]

/-- A save that has not read what changes keeps its invariant. -/
theorem saveInv_changes (h : Changes m m' kind i) (hunread : p.Unread kind i) (hinv : SaveInv rows m p) :
    SaveInv rows m' p := by
  have hcovered {tx : Txn Row} {n : Nat} (hcovered : Covered rows m tx n) : Covered rows m' tx n :=
    fun r hr hlt => (hcovered r hr hlt).imp_right fun hkey => h.keys hkey
  cases p with
  | deleting tx kind' snapshot =>
    obtain ⟨hinserted, hcov, hsnapshot⟩ := hinv
    refine ⟨?_, hcovered hcov, fun r hr => (hsnapshot r hr).imp_right fun hkey => h.keys hkey⟩
    rw [h.before hunread]
    exact hinserted
  | inserting tx kind' j row old =>
    obtain ⟨hold, hinserted, hrow, hcov⟩ := hinv
    -- the memories that were read, with the one that waits, are in front of what changes
    have hlist : (m'.list kind').take (j + 1) = (m.list kind').take (j + 1) := by
      rcases hunread with hlt | ⟨rfl, hlt⟩
      · rw [h.others kind' (by rintro rfl; omega)]
      · have hstart := congrArg (List.take (j + 1)) h.start
        rwa [List.take_take, List.take_take, Nat.min_eq_left hlt] at hstart
    have htake : (m'.list kind').take j = (m.list kind').take j := by
      have hshort := congrArg (List.take j) hlist
      rwa [List.take_take, List.take_take, Nat.min_eq_left (Nat.le_succ j)] at hshort
    have hget : (m'.list kind')[j]? = (m.list kind')[j]? := by
      have hshort := congrArg (fun l => l[j]?) hlist
      simpa [List.getElem?_take] using hshort
    have hle : kind'.index ≤ kind.index := by
      rcases hunread with hlt | ⟨rfl, -⟩
      · exact Nat.le_of_lt hlt
      · exact Nat.le_refl _
    refine ⟨hold, ?_, hget ▸ hrow, hcovered hcov⟩
    rw [h.before hle, htake]
    exact hinserted
  | committing tx => exact hunread.elim
  | closing => exact hunread.elim
  | files => exact hunread.elim
  | created => trivial
  | connecting => trivial
  | finished => trivial

omit [PyFloat F] in
theorem mem_all {x : Entry F} : x ∈ m.all ↔ ∃ kind, x ∈ m.list kind := by
  show x ∈ m.list .episodic ++ m.list .semantic ++ m.list .procedural ↔ _
  rw [List.mem_append, List.mem_append]
  constructor
  · rintro ((hx | hx) | hx)
    · exact ⟨_, hx⟩
    · exact ⟨_, hx⟩
    · exact ⟨_, hx⟩
  · rintro ⟨_ | _ | _, hx⟩
    · exact .inl (.inl hx)
    · exact .inl (.inr hx)
    · exact .inr hx

omit [PyFloat F] in
theorem changes_of_list (hothers : ∀ kind', kind' ≠ kind → m'.list kind' = m.list kind')
    (hstart : (m'.list kind).take i = (m.list kind).take i)
    (hkeys : (m.list kind).map Entry.key ⊆ (m'.list kind).map Entry.key) : Changes m m' kind i := by
  refine ⟨hothers, hstart, fun key hkey => ?_⟩
  obtain ⟨x, hx, rfl⟩ := List.mem_map.mp hkey
  obtain ⟨kind', hx⟩ := mem_all.mp hx
  by_cases heq : kind' = kind
  · subst heq
    obtain ⟨x', hx', hkey⟩ := List.mem_map.mp (hkeys (List.mem_map_of_mem hx))
    exact List.mem_map.mpr ⟨x', mem_all.mpr ⟨kind', hx'⟩, hkey⟩
  · rw [← hothers kind' heq] at hx
    exact List.mem_map_of_mem (mem_all.mpr ⟨kind', hx⟩)

omit [PyFloat F] in
/-- A list that grows. -/
theorem changes_append {x : Entry F} (hothers : ∀ kind', kind' ≠ kind → m'.list kind' = m.list kind')
    (hlist : m'.list kind = m.list kind ++ [x]) : Changes m m' kind (m.list kind).length := by
  refine changes_of_list hothers ?_ ?_
  · rw [hlist, List.take_left, List.take_length]
  · rw [hlist, List.map_append]
    exact List.subset_append_left _ _

omit [PyFloat F] in
theorem changes_recordEpisode (m : Memories F) (ep : EpisodicMemory (List (String × PyVal F))) :
    Changes m (m.recordEpisode ep) .episodic (m.list .episodic).length := by
  refine changes_append (fun kind hne => ?_) List.map_append
  cases kind with
  | episodic => exact absurd rfl hne
  | semantic => rfl
  | procedural => rfl

omit [PyFloat F] in
theorem changes_learnFact (m : Memories F) (id topic fact : String) (confidence : ℚ) (source : String)
    (tags : List String) (now : ℚ) :
    Changes m (m.learnFact id topic fact confidence source tags now) .semantic
      (m.list .semantic).length := by
  refine changes_append (fun kind hne => ?_) List.map_append
  cases kind with
  | episodic => rfl
  | semantic => exact absurd rfl hne
  | procedural => rfl

omit [PyFloat F] in
theorem changes_storeProcedure (m : Memories F) (id procedureName : String)
    (steps prerequisites tags : List String) :
    Changes m (m.storeProcedure id procedureName steps prerequisites tags) .procedural
      (m.list .procedural).length := by
  refine changes_append (fun kind hne => ?_) List.map_append
  cases kind with
  | episodic => rfl
  | semantic => rfl
  | procedural => exact absurd rfl hne

omit [PyFloat F] in
theorem keys_recordOutcome (m : Memories F) (i : Nat) (succeeded : Bool) (duration : ℚ) :
    ((m.recordOutcome i succeeded duration).list .procedural).map Entry.key =
      (m.list .procedural).map Entry.key := by
  refine List.ext_getElem? fun j => ?_
  simp only [Memories.list, Memories.recordOutcome, List.getElem?_map, List.getElem?_modify]
  cases m.procedural[j]? with
  | none => rfl
  | some proc =>
    by_cases heq : i = j
    · simp [heq, Entry.key, ProceduralMemory.recordOutcome]
    · simp [heq]

omit [PyFloat F] in
/-- A procedure that changes. -/
theorem changes_recordOutcome (m : Memories F) (i : Nat) (succeeded : Bool) (duration : ℚ) :
    Changes m (m.recordOutcome i succeeded duration) .procedural i := by
  refine changes_of_list (fun kind' hne => ?_) ?_ ?_
  · cases kind' with
    | episodic => rfl
    | semantic => rfl
    | procedural => exact absurd rfl hne
  · show ((m.procedural.modify i _).map Entry.procedural).take i = (m.procedural.map _).take i
    rw [← List.map_take, ← List.map_take, List.take_modify, List.modify_eq_self]
    exact List.length_take_le _ _
  · rw [keys_recordOutcome]
    exact List.Subset.refl _

end Changes

/-! ## Runs -/

omit [PyFloat F] in
/-- `flush` does nothing. -/
theorem flush_eq (s : PostgresMemoryStore F) : s.flush = s := by
  rw [PostgresMemoryStore.flush]
  split_ifs <;> rfl

section Runs

variable {lower : String → String} {rows rows' : List Row} {s s' : PostgresMemoryStore F}
  {m : Memories F} {kind : Kind} {i : Nat}

/-- The lists change where no save in progress has read them. -/
theorem storeInv_change (hinv : StoreInv rows s) (hchanges : Changes s.memories m kind i)
    (hunread : ∀ p ∈ s.saves, p.Unread kind i) : StoreInv rows { s with memories := m }.markDirty where
  compatible := hinv.compatible
  saves p hp := saveInv_changes hchanges (hunread p hp) (hinv.saves p hp)
  hasPg := hinv.hasPg
  clean hdirty := by cases hdirty

/-- One more coroutine. -/
theorem storeInv_ensureFuture (hinv : StoreInv rows s) :
    StoreInv rows (PostgresMemoryStore.ensureFuture s.save) where
  compatible := by
    show Compatible Row.key rows ((s.saves ++ [SavePhase.created]).map SavePhase.txn)
    rw [List.map_append]
    exact hinv.compatible.empty.perm (List.perm_append_singleton _ _).symm
  saves p hp := by
    rcases List.mem_append.mp hp with hp | hp
    · exact hinv.saves p hp
    · cases List.mem_singleton.mp hp
      trivial
  hasPg := hinv.hasPg
  clean := hinv.clean

theorem storeInv_step {s s' : StoreState F} {e : StoreEvent F} {autoSave : Bool} {loaded : Loaded F}
    (hinv : StoreInv s.rows s.store) (hsafe : SafeEvent lower s e)
    (hstep : (storeSystem lower autoSave loaded).step s e = some s') : StoreInv s'.rows s'.store := by
  obtain ⟨⟨rows, store⟩, hstore, rfl⟩ := Option.map_eq_some_iff.mp hstep
  show StoreInv rows store
  cases e with
  | recordEpisode ep =>
    cases hstore
    exact storeInv_change hinv (changes_recordEpisode _ _) hsafe
  | learnFact id topic fact confidence source tags now =>
    cases hstore
    exact storeInv_change hinv (changes_learnFact ..) hsafe
  | storeProcedure id procedureName steps prerequisites tags =>
    cases hstore
    exact storeInv_change hinv (changes_storeProcedure ..) hsafe
  | recordProcedureOutcome procedureName succeeded duration =>
    rw [storeStep] at hstore
    split at hstore
    · next i hfound =>
      cases hstore
      exact storeInv_change hinv (changes_recordOutcome _ i succeeded duration) (hsafe i hfound)
    · cases hstore
      exact hinv
  | debounceFires =>
    obtain ⟨-, hstore⟩ := Option.ite_none_right_eq_some.mp hstore
    cases hstore
    have hcleared : StoreInv s.rows { s.store with debounceHandle := false } :=
      ⟨hinv.compatible, hinv.saves, hinv.hasPg, hinv.clean⟩
    rw [PostgresMemoryStore.debouncedSave]
    split_ifs
    · exact storeInv_ensureFuture hcleared
    · exact hcleared
  | save =>
    cases hstore
    exact storeInv_ensureFuture hinv
  | flush =>
    cases hstore
    rw [flush_eq]
    exact hinv
  | resume i => exact storeInv_resume hinv hsafe hstore

/-- In a run whose steps are all safe, clean means stored, in every state. The condition is about
the step and the state before it; `storeInv_step` is the step lemma, with the invariant that every
save in progress has inserted what it has read so far. -/
theorem cleanMeansStored_of_safe (lower : String → String) (autoSave : Bool) (loaded : Loaded F)
    {steps : List (StoreState F × StoreEvent F)} {s : StoreState F}
    (run : (storeSystem lower autoSave loaded).Run steps s)
    (hsafe : System.Meets (SafeEvent lower) steps) : System.Always CleanMeansStored steps s := by
  have halways := run.always_of_meets (C := SafeEvent lower)
    (P := fun s => StoreInv s.rows s.store ∧ (s.flushed = true → Stored s.rows s.store.memories))
    ?_ ?_ hsafe
  · exact halways.imp fun s hs => ⟨fun hdirty _ => hs.1.clean hdirty, hs.2⟩
  · have hcompatible : Compatible Row.key loaded.rows [] := ⟨fun tx htx => (by cases htx), List.Pairwise.nil⟩
    exact ⟨⟨hcompatible, fun p hp => (by cases hp), rfl, fun _ => loaded.stored⟩, fun h => by cases h⟩
  -- a step keeps the invariant, and only `flush` makes the state a flushed one
  · rintro s e s' ⟨hinv, -⟩ hsafe hstep
    refine ⟨storeInv_step hinv hsafe hstep, fun hflushed => ?_⟩
    obtain ⟨⟨rows, store⟩, hstore, rfl⟩ := Option.map_eq_some_iff.mp hstep
    cases e with
    | flush =>
      cases hstore
      have hstored : Stored s.rows s.store.memories := by
        -- nothing is dirty, or the rows of a save that closes are those of the lists
        rcases hsafe with hclean | hclosing
        · exact hinv.clean hclean
        · exact hinv.saves _ hclosing
      show Stored s.rows s.store.flush.memories
      rw [flush_eq]
      exact hstored
    | recordEpisode ep => cases hflushed
    | learnFact id topic fact confidence source tags now => cases hflushed
    | storeProcedure id procedureName steps prerequisites tags => cases hflushed
    | recordProcedureOutcome procedureName succeeded duration => cases hflushed
    | debounceFires => cases hflushed
    | save => cases hflushed
    | resume i => cases hflushed

end Runs

end System

/-- A tenant without memories. -/
def noMemories : Loaded FloatText := ⟨[], {}, rfl⟩

/-- An episode with no context. -/
def episodeOf (id : String) : EpisodicMemory (List (String × PyVal FloatText)) :=
  { id, timestamp := 0, taskDescription := "t", solutionSummary := "s", context := [] }

/-- A save to its end. It connects while a second episode is recorded, and inserts the first one
while a fact is learned; `flush` is called after its commit. -/
def recordWhileSaving : List (StoreEvent FloatText) :=
  [.recordEpisode (episodeOf "1"), .debounceFires, .resume 0, .recordEpisode (episodeOf "2"),
    .resume 0, .resume 0, .learnFact "3" "t" "f" 1 "" [] 0] ++
    List.replicate 6 (.resume 0) ++ [.flush, .resume 0]

theorem cleanMeansStored_recordWhileSaving : ∃ steps s,
    (storeSystem id true noMemories).Run steps s ∧ s.store.dirty = false ∧ s.rows.length = 3 ∧
      System.Always CleanMeansStored steps s := by
  let S := (storeSystem id true noMemories).guard (SafeEvent id)
  have hend : (S.exec S.init recordWhileSaving).map (fun s => (s.store.dirty, s.rows.length)) =
      some (false, 3) := by
    decide +kernel
  obtain ⟨s, hs, heq⟩ := Option.map_eq_some_iff.mp hend
  obtain ⟨hdirty, hlength⟩ := Prod.mk.inj heq
  obtain ⟨steps, run⟩ := System.reachable_of_exec _ hs
  obtain ⟨run, hsafe⟩ := run.of_guard
  exact ⟨steps, s, run, hdirty, hlength, cleanMeansStored_of_safe id true noMemories run hsafe⟩

/-- An episode, and `flush`. -/
def recordAndFlush : List (StoreEvent FloatText) := [.recordEpisode (episodeOf "1"), .flush]

/-- An episode, a save, and another episode after its commit. -/
def recordWhileClosing : List (StoreEvent FloatText) :=
  [.recordEpisode (episodeOf "1"), .save] ++ List.replicate 7 (.resume 0) ++
    [.recordEpisode (episodeOf "2"), .resume 0]

theorem not_stored_of_length {rows : List Row} {m : Memories FloatText} (h : rows.length ≠ m.all.length) :
    ¬ Stored rows m := by
  intro hstored
  have hlength := congrArg List.length hstored
  rw [List.length_map, List.length_map] at hlength
  exact h hlength

/-- `flush` saves nothing, and what is recorded before `_dirty` is cleared is not saved either. -/
theorem clean_not_stored :
    (∃ s, (storeSystem id true noMemories).Reachable s ∧ s.flushed = true ∧
      ¬ Stored s.rows s.store.memories) ∧
    ∃ s, (storeSystem id true noMemories).Reachable s ∧ s.store.dirty = false ∧
      (∀ p ∈ s.store.saves, p = .finished) ∧ ¬ Stored s.rows s.store.memories := by
  constructor
  · refine ⟨_, System.reachable_of_exec recordAndFlush rfl, rfl, ?_⟩
    exact not_stored_of_length (by decide +kernel)
  · refine ⟨_, System.reachable_of_exec recordWhileClosing rfl, rfl, ?_, ?_⟩
    · exact fun p hp => List.mem_singleton.mp hp
    · exact not_stored_of_length (by decide +kernel)

end Noema.Memory
