import Noema.Memory.StoreRuns

/-!
# Two stores of one tenant (`memory/store.py`, `persistence/pg_memory.py`)

Two pods load, record and save the memories of one tenant. A save deletes the rows of the tenant and
inserts the lists of its own store, so that it loses what another pod has saved since the last load.
The transactions of the pods overlap, and so do the coroutines of one pod: the steps are those of
`storeStep`, and in addition those of a load.

- `podSystem`: the rows, and two pods with their coroutines and the keys of what they have recorded
  and saved.
- `SaveKeeps`, `KeepsAll`: the condition on a step of a save: the store has connected before, the
  context that is read next can be serialized, and whatever the save deletes is in the list of its
  store. It can be decided (`keepsAll_iff`).
- `KeepInv`: the keys of what a save has deleted are among those that it has inserted, or are still
  to come. `keepStep_saveStep` has one case for each phase of a save; lists may grow and change
  meanwhile (`keepInv_of_prefix`, `keepInv_detach`).
- **`nothingLost_of_keepsAll`**: in a run whose saves keep all that they delete, everything that was
  saved is stored.
- `savedEpisode_lost`: two pods that both load before either saves.

`inTurns` is a run under the condition: each pod loads what the other one has saved before it saves.
-/

namespace Noema.Memory

open Noema.Lib Transaction PyJson

variable {F : Type}

/-! ## Loading -/

section Load

variable [PyFloat F]

/-- The context of a row. What is no JSON is an empty context, and what is no dict is no context. -/
def loadContext (text : String) : Option (List (String × PyVal F)) :=
  if text = "" then some []
  else
    match loads text.toList with
    | some (.dict context) => some context
    | some _ => none
    | none => some []

/-- `_load_episodic`, of a row. -/
def loadEpisodic : Row → Option (EpisodicMemory (List (String × PyVal F)))
  | .episodic m => (loadContext m.context).map fun context => { m with context := context }
  | _ => none

/-- `_load_semantic`, of a row. -/
def loadSemantic : Row → Option SemanticMemory
  | .semantic m => some m
  | _ => none

/-- `_load_procedural`, of a row. -/
def loadProcedural : Row → Option ProceduralMemory
  | .procedural m => some m
  | _ => none

/-- A list is replaced by what was loaded. -/
def Memories.load (m : Memories F) (rows : List Row) : Kind → Option (Memories F)
  | .episodic => (rows.mapM loadEpisodic).map fun episodic => { m with episodic := episodic }
  | .semantic => (rows.mapM loadSemantic).map fun semantic => { m with semantic := semantic }
  | .procedural => (rows.mapM loadProcedural).map fun procedural => { m with procedural := procedural }

/-- Where a coroutine of `_load` is: it waits for a `SELECT`, or has its rows. -/
inductive LoadPhase where
  | selecting (kind : Kind)
  | fetched (kind : Kind) (rows : List Row)
  | finished

/-- A save that iterates over a list goes on with it when the store gets another one. -/
def SavePhase.detach (kind : Kind) (list : List (Entry F)) : SavePhase F → SavePhase F
  | .inserting tx kind' i row none => .inserting tx kind' i row (if kind' = kind then some list else none)
  | phase => phase

/-- `self.episodic = ...`, or another list. -/
def PostgresMemoryStore.assign (s : PostgresMemoryStore F) (kind : Kind) (rows : List Row) :
    Option (PostgresMemoryStore F) :=
  (s.memories.load rows kind).map fun memories =>
    { s with memories, saves := s.saves.map (SavePhase.detach kind (s.memories.list kind)) }

/-- A step of `_load_from_pg`. -/
def loadStep (rows : List Row) (s : PostgresMemoryStore F) :
    LoadPhase → Option (PostgresMemoryStore F × LoadPhase)
  | .selecting kind => some (s, .fetched kind (table rows kind))
  | .fetched kind result =>
    (s.assign kind result).map fun s =>
      (s, match kind.next with | some kind => .selecting kind | none => .finished)
  | .finished => none

end Load

/-! ## The pods -/

/-- A store and its coroutines, with the keys of what was recorded in it, and of what it has saved.
-/
structure Pod (F : Type) where
  store : PostgresMemoryStore F
  loads : List LoadPhase
  recorded : List Key
  saved : List Key

/-- The rows of the tenant, and the two pods. -/
structure PodState (F : Type) where
  rows : List Row
  pods : Bool → Pod F

/-- What happens next in a pod. -/
inductive PodEvent (F : Type) where
  | load
  | resumeLoad (i : Nat)
  | store (e : StoreEvent F)

/-- The keys of the memories that an event records. -/
def StoreEvent.records : StoreEvent F → List Key
  | .recordEpisode ep => [(.episodic, ep.id)]
  | .learnFact id _ _ _ _ _ _ => [(.semantic, id)]
  | .storeProcedure id _ _ _ _ => [(.procedural, id)]
  | _ => []

/-- The keys of the memories that a save has written with its next step. -/
def SavePhase.writes (m : Memories F) : SavePhase F → List Key
  | .committing tx => tx.inserted.map Row.key
  | .files => m.all.map Entry.key
  | _ => []

/-- The keys of the memories that were saved when an event is over. -/
def PostgresMemoryStore.writes (s : PostgresMemoryStore F) : StoreEvent F → List Key
  | .resume i => s.saves[i]?.elim [] fun p => p.writes s.memories
  | _ => []

section System

variable [PyFloat F]

/-- A step of a pod, with the transactions of the other one. `_load` connects at first. -/
def podStep (lower : String → String) (foreign : List (Txn Row)) (rows : List Row) (pod : Pod F) :
    PodEvent F → Option (List Row × Pod F)
  | .load =>
    some (rows,
      { pod with
        -- `_load` connects before it selects
        store := { pod.store with hasPg := true }
        loads := pod.loads ++ [.selecting .episodic] })
  | .resumeLoad i => do
    let phase ← pod.loads[i]?
    let (store, phase) ← loadStep rows pod.store phase
    return (rows, { pod with store, loads := pod.loads.set i phase })
  | .store e => do
    let (rows, store) ← storeStep lower foreign rows pod.store e
    return (rows,
      { pod with
        store
        recorded := pod.recorded ++ e.records
        saved := pod.saved ++ pod.store.writes e })

/-- A pod that has read its own files. -/
def startPod (autoSave : Bool) (files : Memories F) : Pod F where
  store :=
    { memories := files, dirty := false, autoSave, debounceHandle := false, hasPg := false, saves := [] }
  loads := []
  recorded := []
  saved := []

/-- Two pods and the rows of a tenant. -/
def podSystem (lower : String → String) (rows : List Row) (autoSave : Bool → Bool)
    (files : Bool → Memories F) : System (PodState F) (Bool × PodEvent F) where
  init := ⟨rows, fun b => startPod (autoSave b) (files b)⟩
  step s e :=
    (podStep lower ((s.pods !e.1).store.saves.map SavePhase.txn) s.rows (s.pods e.1) e.2).map
      fun (rows, pod) => ⟨rows, Function.update s.pods e.1 pod⟩

/-- When all saves have completed, what was recorded in a pod, and saved by it, is stored. -/
def NothingLost (s : PodState F) : Prop :=
  (∀ b, ∀ p ∈ (s.pods b).store.saves, p = .finished) →
    ∀ b, ∀ key ∈ (s.pods b).recorded, key ∈ (s.pods b).saved → key ∈ s.rows.map Row.key

/-- The condition on a step of a save: the store has connected before, the context that is read next
can be serialized, and whatever is deleted now is in the list of the store. -/
structure SaveKeeps (rows : List Row) (s : PostgresMemoryStore F) (p : SavePhase F) : Prop where
  connected : p = .created → s.hasPg = true
  encodes : ∀ m ∈ s.reads p, ∃ row, m.row = .ok row
  keeps : ∀ tx kind snapshot, p = .deleting tx kind snapshot →
    ∀ r ∈ victims rows snapshot, r.key ∈ (s.memories.list kind).map Entry.key

/-- The condition on a step of the pods. -/
def KeepsAll (s : PodState F) (e : Bool × PodEvent F) : Prop :=
  ∀ i, e.2 = .store (.resume i) →
    ∀ p ∈ (s.pods e.1).store.saves[i]?, SaveKeeps s.rows (s.pods e.1).store p

/-! ### The condition can be decided -/

/-- What `SaveKeeps` says of a save that waits. -/
def SavePhase.Keeps (rows : List Row) (s : PostgresMemoryStore F) : SavePhase F → Prop
  | .created => s.hasPg = true
  | .deleting _ kind snapshot =>
    ∀ r ∈ victims rows snapshot, r.key ∈ (s.memories.list kind).map Entry.key
  | _ => True

omit [PyFloat F] in
theorem SavePhase.keeps_iff {rows : List Row} {s : PostgresMemoryStore F} {p : SavePhase F} :
    p.Keeps rows s ↔ (p = .created → s.hasPg = true) ∧
      ∀ tx kind snapshot, p = .deleting tx kind snapshot →
        ∀ r ∈ victims rows snapshot, r.key ∈ (s.memories.list kind).map Entry.key := by
  cases p with
  | created => simp [SavePhase.Keeps]
  | deleting tx kind snapshot => simp [SavePhase.Keeps]
  | _ => simp [SavePhase.Keeps]

instance SavePhase.decidableKeeps (rows : List Row) (s : PostgresMemoryStore F) (p : SavePhase F) :
    Decidable (p.Keeps rows s) :=
  match p with
  | .created => inferInstanceAs (Decidable (s.hasPg = true))
  | .deleting _ kind snapshot =>
    inferInstanceAs (Decidable
      (∀ r ∈ victims rows snapshot, r.key ∈ (s.memories.list kind).map Entry.key))
  | .inserting _ _ _ _ _ => instDecidableTrue
  | .committing _ => instDecidableTrue
  | .closing => instDecidableTrue
  | .files => instDecidableTrue
  | .connecting => instDecidableTrue
  | .finished => instDecidableTrue

theorem saveKeeps_iff {rows : List Row} {s : PostgresMemoryStore F} {p : SavePhase F} :
    (p.Keeps rows s ∧ ∀ m ∈ s.reads p, ∃ row, m.row = .ok row) ↔ SaveKeeps rows s p := by
  rw [SavePhase.keeps_iff]
  exact ⟨fun h => ⟨h.1.1, h.2, h.1.2⟩, fun h => ⟨⟨h.connected, h.keeps⟩, h.encodes⟩⟩

instance decidableSaveKeeps (rows : List Row) (s : PostgresMemoryStore F) (p : SavePhase F) :
    Decidable (SaveKeeps rows s p) :=
  decidable_of_iff _ saveKeeps_iff

/-- The save that an event resumes. -/
def PodEvent.resumes : PodEvent F → Option Nat
  | .store (.resume i) => some i
  | _ => none

omit [PyFloat F] in
theorem PodEvent.mem_resumes_iff {e : PodEvent F} {i : Nat} :
    i ∈ e.resumes ↔ e = .store (.resume i) := by
  cases e with
  | store e => cases e <;> simp [PodEvent.resumes]
  | load => simp [PodEvent.resumes]
  | resumeLoad j => simp [PodEvent.resumes]

theorem keepsAll_iff {s : PodState F} {e : Bool × PodEvent F} :
    (∀ i ∈ e.2.resumes, ∀ p ∈ (s.pods e.1).store.saves[i]?,
      SaveKeeps s.rows (s.pods e.1).store p) ↔ KeepsAll s e :=
  forall_congr' fun _ => imp_congr_left PodEvent.mem_resumes_iff

instance decidableKeepsAll (s : PodState F) (e : Bool × PodEvent F) : Decidable (KeepsAll s e) :=
  decidable_of_iff _ keepsAll_iff

end System

/-! ## What a save will have written -/

/-- The keys of what was deleted are inserted, or still come. -/
def KeepInv (s : PostgresMemoryStore F) : SavePhase F → Prop
  | .deleting tx _ _ => tx.deleted.map Row.key ⊆ tx.inserted.map Row.key
  | .inserting tx kind i row old =>
    ((s.source kind old).map Entry.key)[i]? = some row.key ∧
      tx.deleted.map Row.key ⊆
        tx.inserted.map Row.key ++ ((s.source kind old).map Entry.key).drop i
  | .committing tx => tx.deleted.map Row.key ⊆ tx.inserted.map Row.key
  | .files => False
  | .created => True
  | .connecting => True
  | .closing => True
  | .finished => True

/-- No save has lost, or will lose, a row; and what was saved is stored. -/
structure PodInv (rows : List Row) (pod : Pod F) : Prop where
  saves : ∀ p ∈ pod.store.saves, KeepInv pod.store p
  saved : pod.saved ⊆ rows.map Row.key

section Saves

variable {rows rows' : List Row} {s s' : PostgresMemoryStore F} {p p' : SavePhase F} {tx : Txn Row}
  {kind : Kind} {i : Nat} {old : Option (List (Entry F))} {others : List (Txn Row)}

/-- Lists that grow. -/
theorem keepInv_of_prefix
    (h : ∀ kind, (s.memories.list kind).map Entry.key <+: (s'.memories.list kind).map Entry.key)
    (hinv : KeepInv s p) : KeepInv s' p := by
  cases p with
  | inserting tx kind i row old =>
    cases old with
    | some list => exact hinv
    | none =>
      obtain ⟨new, hnew⟩ := h kind
      have hrow : ((s.memories.list kind).map Entry.key)[i]? = some row.key := hinv.1
      have hdeleted : tx.deleted.map Row.key ⊆
          tx.inserted.map Row.key ++ ((s.memories.list kind).map Entry.key).drop i := hinv.2
      show ((s'.memories.list kind).map Entry.key)[i]? = _ ∧
        _ ⊆ _ ++ ((s'.memories.list kind).map Entry.key).drop i
      obtain ⟨hlt, -⟩ := List.getElem?_eq_some_iff.mp hrow
      rw [← hnew]
      refine ⟨(List.getElem?_append_left hlt).trans hrow, List.Subset.trans hdeleted ?_⟩
      rw [List.drop_append_of_le_length (Nat.le_of_lt hlt), ← List.append_assoc]
      exact List.subset_append_left _ _
  | deleting tx kind snapshot => exact hinv
  | committing tx => exact hinv
  | files => exact hinv
  | created => trivial
  | connecting => trivial
  | closing => trivial
  | finished => trivial

variable [PyFloat F]

/-- On to the next memory, or to the next table. -/
theorem keepInv_advance
    (h : tx.deleted.map Row.key ⊆ tx.inserted.map Row.key ++ ((s.source kind old).map Entry.key).drop i)
    (hreads : ∀ m ∈ (s.source kind old)[i]?, ∃ row, m.row = .ok row) :
    KeepInv s (s.advance rows tx kind i old) := by
  rw [PostgresMemoryStore.advance]
  -- the next element of the list, or the next table, or the commit
  cases hget : (s.source kind old)[i]? with
  | some m =>
    obtain ⟨row, hrow⟩ := hreads m hget
    simp only [hrow]
    exact ⟨by rw [List.getElem?_map, hget, Option.map_some, Entry.key_row hrow], h⟩
  | none =>
    have hend : ((s.source kind old).map Entry.key).drop i = [] := by
      rw [List.drop_eq_nil_iff, List.length_map]
      exact List.getElem?_eq_none_iff.mp hget
    rw [hend, List.append_nil] at h
    cases hnext : kind.next with
    | some kind' => exact h
    | none => exact h

/-- What a step of a save does that keeps all. -/
structure KeepStep (rows rows' : List Row) (s s' : PostgresMemoryStore F) (p p' : SavePhase F) : Prop where
  own : KeepInv s p'
  rows : rows.map Row.key ⊆ rows'.map Row.key
  writes : p.writes s.memories ⊆ rows'.map Row.key
  memories : s'.memories = s.memories
  saves : s'.saves = s.saves

theorem keepStep_saveStep (hinv : KeepInv s p) (hkeeps : SaveKeeps rows s p)
    (hstep : s.saveStep others rows p = some (rows', s', p')) : KeepStep rows rows' s s' p p' := by
  have hsame := List.Subset.refl (rows.map Row.key)
  have hnone := List.nil_subset (rows.map Row.key)
  cases p with
  | created =>
    cases hstep
    rw [if_pos (hkeeps.connected rfl)]
    exact ⟨trivial, hsame, hnone, rfl, rfl⟩
  | connecting =>
    cases hstep
    exact ⟨List.Subset.refl _, hsame, hnone, rfl, rfl⟩
  | deleting tx kind snapshot =>
    obtain ⟨-, hstep⟩ := Option.ite_none_right_eq_some.mp hstep
    cases hstep
    -- what is deleted now is in the list that will be inserted: this is where the condition is used
    refine ⟨keepInv_advance ?_ hkeeps.encodes, hsame, hnone, rfl, rfl⟩
    rw [List.drop_zero, List.map_append]
    refine List.append_subset.mpr ⟨List.subset_append_of_subset_left _ hinv, ?_⟩
    refine List.subset_append_of_subset_right _ fun key hkey => ?_
    obtain ⟨r, hr, rfl⟩ := List.mem_map.mp hkey
    exact hkeeps.keeps tx kind snapshot rfl r hr
  | inserting tx kind i row old =>
    -- the row that was waited for is inserted, and the keys that come are one less
    obtain ⟨hrow, hdeleted⟩ := hinv
    obtain ⟨-, hstep⟩ := Option.ite_none_right_eq_some.mp hstep
    cases hstep
    refine ⟨keepInv_advance ?_ hkeeps.encodes, hsame, hnone, rfl, rfl⟩
    obtain ⟨hlt, hget⟩ := List.getElem?_eq_some_iff.mp hrow
    rw [List.drop_eq_getElem_cons hlt, hget] at hdeleted
    rw [List.map_append, List.append_assoc]
    exact hdeleted
  | committing tx =>
    cases hstep
    -- the commit: every key that was deleted has been inserted
    refine ⟨trivial, keys_subset_commit hinv, fun key hkey => ?_, rfl, rfl⟩
    obtain ⟨r, hr, rfl⟩ := List.mem_map.mp hkey
    exact List.mem_map_of_mem (mem_commit.mpr (.inr hr))
  | closing =>
    cases hstep
    exact ⟨trivial, hsame, hnone, rfl, rfl⟩
  | files => exact hinv.elim
  | finished => cases hstep

/-- An event that is no step of a save: the lists may grow, and a save may be created. -/
structure QuietStep (rows rows' : List Row) (s s' : PostgresMemoryStore F) : Prop where
  rows : rows' = rows
  lists : ∀ kind, (s.memories.list kind).map Entry.key <+: (s'.memories.list kind).map Entry.key
  saves : ∀ p ∈ s'.saves, p ∈ s.saves ∨ p = .created

omit [PyFloat F] in
theorem prefix_of_changes {m m' : Memories F} (h : Changes m m' kind i)
    (hkeys : (m.list kind).map Entry.key <+: (m'.list kind).map Entry.key) (kind' : Kind) :
    (m.list kind').map Entry.key <+: (m'.list kind').map Entry.key := by
  by_cases heq : kind' = kind
  · rw [heq]
    exact hkeys
  · rw [h.others kind' heq]

theorem quietStep_storeStep {lower : String → String} {foreign : List (Txn Row)} {e : StoreEvent F}
    (hquiet : ∀ i, e ≠ .resume i) (hstep : storeStep lower foreign rows s e = some (rows', s')) :
    QuietStep rows rows' s s' := by
  have hsame (kind : Kind) :
      (s.memories.list kind).map Entry.key <+: (s.memories.list kind).map Entry.key :=
    List.prefix_refl _
  have hcreated {p : SavePhase F} (hp : p ∈ s.saves ++ [.created]) : p ∈ s.saves ∨ p = .created :=
    (List.mem_append.mp hp).imp_right List.mem_singleton.mp
  cases e with
  | recordEpisode ep =>
    cases hstep
    refine ⟨rfl, prefix_of_changes (changes_recordEpisode s.memories ep) ?_, fun p hp => .inl hp⟩
    exact ⟨[(.episodic, ep.id)], by simp [Memories.list, Memories.recordEpisode, Entry.key]⟩
  | learnFact id topic fact confidence source tags now =>
    cases hstep
    refine ⟨rfl, prefix_of_changes (changes_learnFact ..) ?_, fun p hp => .inl hp⟩
    exact ⟨[(.semantic, id)], by simp [Memories.list, Memories.learnFact, Entry.key]⟩
  | storeProcedure id procedureName steps prerequisites tags =>
    cases hstep
    refine ⟨rfl, prefix_of_changes (changes_storeProcedure ..) ?_, fun p hp => .inl hp⟩
    exact ⟨[(.procedural, id)], by simp [Memories.list, Memories.storeProcedure, Entry.key]⟩
  | recordProcedureOutcome procedureName succeeded duration =>
    rw [storeStep] at hstep
    split at hstep
    · next i hfound =>
      cases hstep
      refine ⟨rfl, prefix_of_changes (changes_recordOutcome s.memories i succeeded duration) ?_,
        fun p hp => .inl hp⟩
      -- a procedure changes in its place, and its key stays
      rw [PostgresMemoryStore.markDirty_memories, keys_recordOutcome]
    · cases hstep
      exact ⟨rfl, hsame, fun p hp => .inl hp⟩
  | debounceFires =>
    obtain ⟨-, hstep⟩ := Option.ite_none_right_eq_some.mp hstep
    cases hstep
    -- the timer makes a coroutine, or does nothing when the store is clean
    rw [PostgresMemoryStore.debouncedSave]
    split_ifs
    · exact ⟨rfl, hsame, fun p hp => hcreated hp⟩
    · exact ⟨rfl, hsame, fun p hp => .inl hp⟩
  | save =>
    cases hstep
    exact ⟨rfl, hsame, fun p hp => hcreated hp⟩
  | flush =>
    cases hstep
    rw [flush_eq]
    exact ⟨rfl, hsame, fun p hp => .inl hp⟩
  | resume i => exact absurd rfl (hquiet i)

end Saves

/-! ## The steps of the pods -/

section Pods

variable [PyFloat F] {rows rows' : List Row} {s s' : PostgresMemoryStore F} {pod pod' : Pod F}
  {kind kind' : Kind} {p : SavePhase F} {lower : String → String} {foreign : List (Txn Row)}

/-- A list that is loaded leaves the others alone. -/
theorem list_load {m m' : Memories F} (h : m.load rows kind = some m') (hne : kind' ≠ kind) :
    m'.list kind' = m.list kind' := by
  cases kind with
  | episodic =>
    obtain ⟨loaded, -, rfl⟩ := Option.map_eq_some_iff.mp h
    cases kind' with
    | episodic => exact absurd rfl hne
    | semantic => rfl
    | procedural => rfl
  | semantic =>
    obtain ⟨loaded, -, rfl⟩ := Option.map_eq_some_iff.mp h
    cases kind' with
    | episodic => rfl
    | semantic => exact absurd rfl hne
    | procedural => rfl
  | procedural =>
    obtain ⟨loaded, -, rfl⟩ := Option.map_eq_some_iff.mp h
    cases kind' with
    | episodic => rfl
    | semantic => rfl
    | procedural => exact absurd rfl hne

/-- A save that is in progress keeps its list. -/
theorem keepInv_detach {m' : Memories F} (h : s.memories.load rows kind = some m')
    (hs' : s'.memories = m') (hinv : KeepInv s p) :
    KeepInv s' (p.detach kind (s.memories.list kind)) := by
  cases p with
  | inserting tx kind' i row old =>
    cases old with
    | some list => exact hinv
    | none =>
      show KeepInv s' (.inserting tx kind' i row (if kind' = kind then some (s.memories.list kind) else none))
      split_ifs with heq
      · subst heq
        exact hinv
      · have hlist := list_load h heq
        rw [← hs'] at hlist
        rw [KeepInv, PostgresMemoryStore.source, Option.getD_none, hlist]
        exact hinv
  | deleting tx kind' snapshot => exact hinv
  | committing tx => exact hinv
  | files => exact hinv
  | created => trivial
  | connecting => trivial
  | closing => trivial
  | finished => trivial

theorem podInv_assign (hinv : PodInv rows pod) (h : pod.store.assign kind rows' = some s) :
    PodInv rows { pod with store := s } := by
  obtain ⟨memories, hload, rfl⟩ := Option.map_eq_some_iff.mp h
  refine ⟨fun p' hp' => ?_, hinv.saved⟩
  obtain ⟨p, hp, rfl⟩ := List.mem_map.mp hp'
  exact keepInv_detach hload rfl (hinv.saves p hp)

/-- A store that takes a step of a save. -/
theorem podInv_resume {i : Nat} (hinv : PodInv rows pod)
    (hkeeps : ∀ p ∈ pod.store.saves[i]?, SaveKeeps rows pod.store p)
    (hstep : pod.store.resume foreign rows i = some (rows', s)) :
    PodInv rows' { pod with store := s, saved := pod.saved ++ pod.store.writes (.resume i) } ∧
      rows.map Row.key ⊆ rows'.map Row.key := by
  obtain ⟨p, hp, hstep⟩ := Option.bind_eq_some_iff.mp hstep
  obtain ⟨⟨rows₁, s₁, p₁⟩, hsave, hstep⟩ := Option.bind_eq_some_iff.mp hstep
  cases hstep
  have hdone := keepStep_saveStep (hinv.saves p (List.mem_of_getElem? hp)) (hkeeps p hp) hsave
  have hsame {p' : SavePhase F} (hp' : KeepInv pod.store p') :
      KeepInv { s₁ with saves := s₁.saves.set i p₁ } p' := by
    refine keepInv_of_prefix (fun kind => ?_) hp'
    rw [hdone.memories]
  refine ⟨⟨fun p' hp' => hsame ?_, ?_⟩, hdone.rows⟩
  · rcases List.mem_or_eq_of_mem_set hp' with hold | rfl
    · exact hinv.saves p' (hdone.saves ▸ hold)
    · exact hdone.own
  · refine List.append_subset.mpr ⟨List.Subset.trans hinv.saved hdone.rows, ?_⟩
    show (pod.store.saves[i]?.elim [] fun p => p.writes pod.store.memories) ⊆ _
    rw [hp]
    exact hdone.writes

/-- A step that keeps all. -/
theorem podInv_step {e : PodEvent F} (hinv : PodInv rows pod)
    (hkeeps : ∀ i, e = .store (.resume i) → ∀ p ∈ pod.store.saves[i]?, SaveKeeps rows pod.store p)
    (hstep : podStep lower foreign rows pod e = some (rows', pod')) :
    PodInv rows' pod' ∧ rows.map Row.key ⊆ rows'.map Row.key := by
  cases e with
  | load =>
    cases hstep
    refine ⟨⟨fun p hp => ?_, hinv.saved⟩, List.Subset.refl _⟩
    exact keepInv_of_prefix (fun kind => List.prefix_refl _) (hinv.saves p hp)
  | resumeLoad i =>
    obtain ⟨phase, -, hstep⟩ := Option.bind_eq_some_iff.mp hstep
    obtain ⟨⟨store, phase'⟩, hload, hstep⟩ := Option.bind_eq_some_iff.mp hstep
    cases hstep
    refine ⟨?_, List.Subset.refl _⟩
    -- a load assigns a list when its rows are there
    cases phase with
    | selecting kind =>
      cases hload
      exact ⟨hinv.saves, hinv.saved⟩
    | fetched kind result =>
      obtain ⟨s, hassign, hload⟩ := Option.map_eq_some_iff.mp hload
      cases hload
      have hassigned := podInv_assign hinv hassign
      exact ⟨hassigned.saves, hassigned.saved⟩
    | finished => cases hload
  | store e =>
    obtain ⟨⟨rows₁, store⟩, hstore, hstep⟩ := Option.bind_eq_some_iff.mp hstep
    cases hstep
    -- only a step of a save writes; everything else leaves the rows alone
    by_cases hresume : ∃ i, e = .resume i
    · obtain ⟨i, rfl⟩ := hresume
      obtain ⟨hdone, hrows⟩ := podInv_resume hinv (hkeeps i rfl) hstore
      exact ⟨⟨hdone.saves, hdone.saved⟩, hrows⟩
    · push Not at hresume
      have hquiet := quietStep_storeStep hresume hstore
      have hwrites : pod.store.writes e = [] := by
        cases e with
        | resume i => exact absurd rfl (hresume i)
        | recordEpisode ep => rfl
        | learnFact id topic fact confidence source tags now => rfl
        | storeProcedure id procedureName steps prerequisites tags => rfl
        | recordProcedureOutcome procedureName succeeded duration => rfl
        | debounceFires => rfl
        | save => rfl
        | flush => rfl
      obtain rfl := hquiet.rows
      refine ⟨⟨fun p hp => ?_, ?_⟩, List.Subset.refl _⟩
      · rcases hquiet.saves p hp with hold | rfl
        · exact keepInv_of_prefix hquiet.lists (hinv.saves p hold)
        · trivial
      · show pod.saved ++ pod.store.writes e ⊆ _
        rw [hwrites, List.append_nil]
        exact hinv.saved

/-- In a run whose saves keep all that they delete, nothing that was saved is lost: when no save is
in progress, the keys of what the two pods have saved are those of rows. The invariant is that what
a save has deleted is inserted again, or still to come. -/
theorem nothingLost_of_keepsAll (lower : String → String) (rows : List Row) (autoSave : Bool → Bool)
    (files : Bool → Memories F) {steps : List (PodState F × (Bool × PodEvent F))} {s : PodState F}
    (run : (podSystem lower rows autoSave files).Run steps s) (hkeeps : System.Meets KeepsAll steps) :
    System.Always NothingLost steps s := by
  have halways := run.always_of_meets (C := KeepsAll) (P := fun s => ∀ b, PodInv s.rows (s.pods b))
    ?_ ?_ hkeeps
  · exact halways.imp fun s hs _ b key _ hkey => (hs b).saved hkey
  · exact fun b => ⟨fun p hp => (by cases hp), List.nil_subset _⟩
  · rintro s ⟨b, e⟩ s' hinv hkeeps hstep b'
    obtain ⟨⟨rows₁, pod⟩, hpod, rfl⟩ := Option.map_eq_some_iff.mp hstep
    obtain ⟨hdone, hrows⟩ := podInv_step (hinv b) (fun i => hkeeps i) hpod
    by_cases heq : b' = b
    · subst heq
      show PodInv rows₁ (Function.update s.pods b' pod b')
      rw [Function.update_self]
      exact hdone
    · show PodInv rows₁ (Function.update s.pods b pod b')
      rw [Function.update_of_ne heq]
      exact ⟨(hinv b').saves, List.Subset.trans (hinv b').saved hrows⟩

end Pods

/-- Two pods of a tenant without memories. -/
def twoPods : System (PodState FloatText) (Bool × PodEvent FloatText) :=
  podSystem id [] (fun _ => true) fun _ => {}

/-- A pod loads, for the `i`th time. -/
def loadPod (b : Bool) (i : Nat) : List (Bool × PodEvent FloatText) :=
  (b, .load) :: List.replicate 6 (b, .resumeLoad i)

/-- A pod records an episode, and saves for the `i`th time, with so many awaits. -/
def recordAndSave (b : Bool) (id : String) (i awaits : Nat) : List (Bool × PodEvent FloatText) :=
  [(b, .store (.recordEpisode (episodeOf id))), (b, .store .save)] ++
    List.replicate awaits (b, .store (.resume i))

/-- Each pod loads what the other one has saved before it saves. -/
def inTurns : List (Bool × PodEvent FloatText) :=
  loadPod true 0 ++ recordAndSave true "a" 0 8 ++ loadPod false 0 ++ recordAndSave false "b" 0 9 ++
    loadPod true 1 ++ recordAndSave true "c" 1 10

theorem nothingLost_inTurns : ∃ steps s, twoPods.Run steps s ∧
    s.rows.map Row.key = [(.episodic, "a"), (.episodic, "b"), (.episodic, "c")] ∧
      System.Always NothingLost steps s := by
  let S := twoPods.guard KeepsAll
  have hend : (S.exec S.init inTurns).map (fun s => s.rows.map Row.key) =
      some [(.episodic, "a"), (.episodic, "b"), (.episodic, "c")] := by
    decide +kernel
  obtain ⟨s, hs, hrows⟩ := Option.map_eq_some_iff.mp hend
  obtain ⟨steps, run⟩ := System.reachable_of_exec _ hs
  obtain ⟨run, hkeeps⟩ := run.of_guard
  exact ⟨steps, s, run, hrows,
    nothingLost_of_keepsAll id [] (fun _ => true) (fun _ => {}) run hkeeps⟩

/-- The second pod deletes what the first one has saved. -/
theorem savedEpisode_lost :
    ∃ s, twoPods.Reachable s ∧ ¬ NothingLost s ∧ s.rows.map Row.key = [(.episodic, "b")] := by
  refine ⟨_, System.reachable_of_exec
    (loadPod true 0 ++ loadPod false 0 ++ recordAndSave true "a" 0 8 ++ recordAndSave false "b" 0 8)
    rfl,
    fun hlost => ?_, by decide +kernel⟩
  have hstored := hlost ?_ true (.episodic, "a") (by decide +kernel) (by decide +kernel)
  · revert hstored
    decide +kernel
  · intro b p hp
    cases b with
    | true => exact List.mem_singleton.mp hp
    | false => exact List.mem_singleton.mp hp

end Noema.Memory
