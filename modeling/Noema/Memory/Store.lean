import Noema.Lib.Json
import Noema.Lib.Transaction

/-!
# The memory of a tenant in PostgreSQL (`memory/store.py`, `persistence/pg_memory.py`)

A `PostgresMemoryStore` has three lists in memory and saves them into three tables: in one
transaction the rows of the tenant are deleted and the lists are inserted, one `execute` after
another. Between two of them other code runs, which may append to the lists. `storeStep` is what
happens between two awaits.

- `Memories`: the lists with `record_episode`, `learn_fact`, `store_procedure` and
  `record_procedure_outcome`, which change them without an await.
- `SavePhase`: where a coroutine of `save` is. It holds its transaction and the position in the list
  that it iterates over; a Python list iterator sees what is appended behind it.
- `advance`: from an element to the next await. The contexts are serialized here, which may raise
  (`dumpsContext`), and then the save goes on with the files.
- `markDirty`, `debouncedSave`, `flush`: the three ways to ask for a save. `flush` calls `save` and
  does not await the coroutine, so nothing of it runs.

The rows are those of one tenant in all three tables, and the transactions are those of
`Lib.Transaction`, so that a command that would have to wait for another transaction is no step. A
number is exact where the code has a float.
-/

namespace Noema.Memory

open Noema.Lib Transaction PyJson

/-! ## Memories -/

/-- `EpisodicMemory`, with its context as a dict or as a text. -/
structure EpisodicMemory (C : Type) where
  id : String
  timestamp : ℚ
  taskDescription : String
  solutionSummary : String
  techStack : String := ""
  outcome : String := "success"
  durationSeconds : ℚ := 0
  errorMessage : String := ""
  tags : List String := []
  context : C
  deriving DecidableEq

/-- `SemanticMemory`. -/
structure SemanticMemory where
  id : String
  topic : String
  fact : String
  confidence : ℚ
  source : String
  useCount : Int
  lastUsed : ℚ
  tags : List String
  deriving DecidableEq

/-- `ProceduralMemory`. -/
structure ProceduralMemory where
  id : String
  procedureName : String
  steps : List String
  successRate : ℚ
  timesApplied : Int
  timesSucceeded : Int
  avgDuration : ℚ
  prerequisites : List String
  tags : List String
  deriving DecidableEq

/-- The kinds of memory, in the order in which they are saved. -/
inductive Kind where
  | episodic
  | semantic
  | procedural
  deriving DecidableEq, Repr

namespace Kind

def index : Kind → Nat
  | episodic => 0
  | semantic => 1
  | procedural => 2

def next : Kind → Option Kind
  | episodic => some semantic
  | semantic => some procedural
  | procedural => none

end Kind

/-- A memory in one of the lists. -/
inductive Entry (F : Type) where
  | episodic (m : EpisodicMemory (List (String × PyVal F)))
  | semantic (m : SemanticMemory)
  | procedural (m : ProceduralMemory)

/-- A row of one of the tables. -/
inductive Row where
  | episodic (m : EpisodicMemory String)
  | semantic (m : SemanticMemory)
  | procedural (m : ProceduralMemory)
  deriving DecidableEq

/-- The table, and the id in it. -/
abbrev Key := Kind × String

def Row.key : Row → Key
  | .episodic m => (.episodic, m.id)
  | .semantic m => (.semantic, m.id)
  | .procedural m => (.procedural, m.id)

section Encode

variable {F : Type}

def Entry.key : Entry F → Key
  | .episodic m => (.episodic, m.id)
  | .semantic m => (.semantic, m.id)
  | .procedural m => (.procedural, m.id)

mutual
/-- There is no object in the value that `json.dumps` cannot serialize. -/
def serializable : PyVal F → Bool
  | .list xs => serializableItems xs
  | .dict kvs => serializablePairs kvs
  | .other _ => false
  | _ => true
def serializableItems : List (PyVal F) → Bool
  | [] => true
  | x :: xs => serializable x && serializableItems xs
def serializablePairs : List (String × PyVal F) → Bool
  | [] => true
  | (_, v) :: kvs => serializable v && serializablePairs kvs
end

variable [PyFloat F]

/-- `json.dumps(context)`. -/
def dumpsContext (context : List (String × PyVal F)) : Except PyExc String :=
  if serializable (.dict context) then .ok (String.ofList (dumps true (.dict context)))
  else .error (.typeError "Object is not JSON serializable")

/-- The row that is inserted for a memory. -/
def Entry.row : Entry F → Except PyExc Row
  | .episodic m => (dumpsContext m.context).map fun context => .episodic { m with context := context }
  | .semantic m => .ok (.semantic m)
  | .procedural m => .ok (.procedural m)

theorem Entry.key_row {m : Entry F} {r : Row} (h : m.row = .ok r) : r.key = m.key := by
  cases m with
  | episodic m =>
    rw [row] at h
    cases hcontext : dumpsContext m.context with
    | error e =>
      rw [hcontext] at h
      cases h
    | ok context =>
      rw [hcontext] at h
      cases h
      rfl
  | semantic m =>
    cases h
    rfl
  | procedural m =>
    cases h
    rfl

end Encode

/-! ## The lists -/

/-- `episodic`, `semantic` and `procedural`. -/
structure Memories (F : Type) where
  episodic : List (EpisodicMemory (List (String × PyVal F))) := []
  semantic : List SemanticMemory := []
  procedural : List ProceduralMemory := []

namespace Memories

variable {F : Type} (m : Memories F)

/-- The list of a kind. -/
def list : Kind → List (Entry F)
  | .episodic => m.episodic.map .episodic
  | .semantic => m.semantic.map .semantic
  | .procedural => m.procedural.map .procedural

/-- The lists that are saved before the one of a kind. -/
def before : Kind → List (Entry F)
  | .episodic => []
  | .semantic => m.list .episodic
  | .procedural => m.list .episodic ++ m.list .semantic

/-- All lists, in the order in which they are saved. -/
def all : List (Entry F) := m.before .procedural ++ m.list .procedural

/-- `record_episode`, of the memory that it makes. -/
def recordEpisode (ep : EpisodicMemory (List (String × PyVal F))) : Memories F :=
  { m with episodic := m.episodic ++ [ep] }

/-- `learn_fact`. -/
def learnFact (id topic fact : String) (confidence : ℚ) (source : String) (tags : List String)
    (now : ℚ) : Memories F :=
  let mem : SemanticMemory :=
    { id, topic, fact, confidence, source, useCount := 0, lastUsed := now, tags }
  { m with semantic := m.semantic ++ [mem] }

/-- `store_procedure`. -/
def storeProcedure (id procedureName : String) (steps prerequisites tags : List String) : Memories F :=
  let proc : ProceduralMemory :=
    { id, procedureName, steps, successRate := 1, timesApplied := 0, timesSucceeded := 0,
      avgDuration := 0, prerequisites, tags }
  { m with procedural := m.procedural ++ [proc] }

/-- `find_procedure`, its position. The names are compared in lower case. -/
def findProcedure (lower : String → String) (name : String) : Option Nat :=
  m.procedural.findIdx? fun p => lower p.procedureName = lower name

end Memories

/-- What `record_procedure_outcome` makes of a procedure. -/
def ProceduralMemory.recordOutcome (proc : ProceduralMemory) (succeeded : Bool) (duration : ℚ) :
    ProceduralMemory :=
  let timesApplied := proc.timesApplied + 1
  let timesSucceeded := if succeeded then proc.timesSucceeded + 1 else proc.timesSucceeded
  { proc with
    timesApplied, timesSucceeded
    successRate := timesSucceeded / max timesApplied 1
    avgDuration :=
      if timesApplied = 1 then duration
      else (proc.avgDuration * (timesApplied - 1) + duration) / timesApplied }

/-- `record_procedure_outcome`, at the position that `find_procedure` has found. -/
def Memories.recordOutcome {F : Type} (m : Memories F) (i : Nat) (succeeded : Bool) (duration : ℚ) :
    Memories F :=
  { m with procedural := m.procedural.modify i fun proc => proc.recordOutcome succeeded duration }

/-! ## Saving -/

/-- Where a coroutine of `save` is.

- `created`: it has not run yet.
- `connecting`: to the database, and creates the tables.
- `deleting`: it waits for a `DELETE`, which sees the rows of the snapshot.
- `inserting`: it waits for the `INSERT` of a row, which it has made of the memory at the index. It
  iterates over the list of the store, or over an older one that the store had.
- `committing`, `closing`: it waits for the commit, and for the end of the connection.
- `files`: it waits for the thread in which `MemoryStore.save` writes the files.
-/
inductive SavePhase (F : Type) where
  | created
  | connecting
  | deleting (tx : Txn Row) (kind : Kind) (snapshot : List Row)
  | inserting (tx : Txn Row) (kind : Kind) (i : Nat) (row : Row) (old : Option (List (Entry F)))
  | committing (tx : Txn Row)
  | closing
  | files
  | finished

/-- Its transaction, if one is open. -/
def SavePhase.txn {F : Type} : SavePhase F → Txn Row
  | .deleting tx _ _ => tx
  | .inserting tx _ _ _ _ => tx
  | .committing tx => tx
  | _ => {}

/-- `PostgresMemoryStore`: the lists, `_dirty`, `_auto_save`, whether `_debounce_handle` is set,
`_has_pg`, and the coroutines of `save` that run. -/
structure PostgresMemoryStore (F : Type) where
  memories : Memories F
  dirty : Bool
  autoSave : Bool
  debounceHandle : Bool
  hasPg : Bool
  saves : List (SavePhase F)

section Save

variable {F : Type}

/-- The rows of a table. -/
def table (rows : List Row) (kind : Kind) : List Row := rows.filter fun r => r.key.1 = kind

namespace PostgresMemoryStore

variable (s : PostgresMemoryStore F)

/-- `_mark_dirty`, with an event loop. -/
def markDirty : PostgresMemoryStore F :=
  { s with dirty := true, debounceHandle := s.debounceHandle || s.autoSave }

@[simp]
theorem markDirty_memories : s.markDirty.memories = s.memories := rfl

/-- `save()` makes a coroutine, and runs nothing. -/
def save : PostgresMemoryStore F × SavePhase F := (s, .created)

/-- A coroutine that runs. -/
def ensureFuture : PostgresMemoryStore F × SavePhase F → PostgresMemoryStore F
  | (s, coroutine) => { s with saves := s.saves ++ [coroutine] }

/-- `_debounced_save`. -/
def debouncedSave : PostgresMemoryStore F :=
  let s := { s with debounceHandle := false }
  if s.dirty then ensureFuture s.save else s

/-- `flush`, which does nothing with the coroutine. -/
def flush : PostgresMemoryStore F := if s.dirty then s.save.1 else s

/-- The list over which a coroutine iterates. -/
def source (kind : Kind) (old : Option (List (Entry F))) : List (Entry F) :=
  old.getD (s.memories.list kind)

variable [PyFloat F]

/-- From an element of the list to the next await: the `INSERT` of the element, or else the `DELETE`
of the next table, or else the commit. The connection is closed if the row cannot be made, and the
files are written instead. -/
def advance (rows : List Row) (tx : Txn Row) (kind : Kind) (i : Nat) (old : Option (List (Entry F))) :
    SavePhase F :=
  match (s.source kind old)[i]? with
  | some m =>
    match m.row with
    | .ok row => .inserting tx kind i row old
    | .error _ => .files
  | none =>
    match kind.next with
    | some kind => .deleting tx kind (table rows kind)
    | none => .committing tx

/-- A step of `_save_to_pg`, among the other open transactions. A command that has to wait, or would
fail, is no step. -/
def saveStep (others : List (Txn Row)) (rows : List Row) :
    SavePhase F → Option (List Row × PostgresMemoryStore F × SavePhase F)
  -- without PostgreSQL the files are written
  | .created => some (rows, s, if s.hasPg then .connecting else .files)
  | .connecting => some (rows, s, .deleting {} .episodic (table rows .episodic))
  | .deleting tx kind snapshot =>
    -- the rows that were there when the statement began, and are still there
    if CanDelete others (victims rows snapshot) then
      let tx := { tx with deleted := tx.deleted ++ victims rows snapshot }
      some (rows, s, s.advance rows tx kind 0 none)
    else none
  | .inserting tx kind i row old =>
    if CanInsert Row.key rows others tx row then
      let tx := { tx with inserted := tx.inserted ++ [row] }
      some (rows, s, s.advance rows tx kind (i + 1) old)
    else none
  | .committing tx => some (commit rows tx, s, .closing)
  -- only here, after the connection is closed, is the store clean
  | .closing => some (rows, { s with dirty := false }, .finished)
  | .files => some (rows, { s with dirty := false, debounceHandle := false }, .finished)
  | .finished => none

/-- A step of one of the coroutines, with the transactions of other stores. -/
def resume (foreign : List (Txn Row)) (rows : List Row) (i : Nat) :
    Option (List Row × PostgresMemoryStore F) := do
  let phase ← s.saves[i]?
  let (rows, s, phase) ← s.saveStep ((s.saves.eraseIdx i).map SavePhase.txn ++ foreign) rows phase
  return (rows, { s with saves := s.saves.set i phase })

end PostgresMemoryStore

/-- What happens next. -/
inductive StoreEvent (F : Type) where
  | recordEpisode (ep : EpisodicMemory (List (String × PyVal F)))
  | learnFact (id topic fact : String) (confidence : ℚ) (source : String) (tags : List String) (now : ℚ)
  | storeProcedure (id procedureName : String) (steps prerequisites tags : List String)
  | recordProcedureOutcome (procedureName : String) (succeeded : Bool) (duration : ℚ)
  | debounceFires
  | save
  | flush
  | resume (i : Nat)

/-- A step of a store, with the transactions of other stores. -/
def storeStep [PyFloat F] (lower : String → String) (foreign : List (Txn Row)) (rows : List Row)
    (s : PostgresMemoryStore F) : StoreEvent F → Option (List Row × PostgresMemoryStore F)
  | .recordEpisode ep => some (rows, { s with memories := s.memories.recordEpisode ep }.markDirty)
  | .learnFact id topic fact confidence source tags now =>
    some (rows,
      { s with memories := s.memories.learnFact id topic fact confidence source tags now }.markDirty)
  | .storeProcedure id procedureName steps prerequisites tags =>
    some (rows,
      { s with
        memories := s.memories.storeProcedure id procedureName steps prerequisites tags }.markDirty)
  | .recordProcedureOutcome procedureName succeeded duration =>
    match s.memories.findProcedure lower procedureName with
    | some i =>
      some (rows, { s with memories := s.memories.recordOutcome i succeeded duration }.markDirty)
    | none => some (rows, s)
  | .debounceFires => if s.debounceHandle then some (rows, s.debouncedSave) else none
  | .save => some (rows, PostgresMemoryStore.ensureFuture s.save)
  -- `flush` makes a coroutine of `save` and drops it
  | .flush => some (rows, s.flush)
  | .resume i => s.resume foreign rows i

end Save

end Noema.Memory
