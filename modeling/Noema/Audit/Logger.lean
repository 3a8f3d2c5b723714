import Noema.Audit.Incremental
import Noema.Lib.TextFile
import Noema.Utils.JsonUtils

/-!
# The audit logger (`audit/logger.py`)

`AuditLogger` with its two storage modes, under the source's names:

- `System`: the logger object together with what it writes to, the rows of the `audit_log` table and
  the per-tenant JSONL files of the fallback directory;
- `Io`: how the operations of one call end that the model does not compute, and the order in which
  the directory is listed. `Io.Stores` and `Io.Good` are the calls in which the file is written, and
  in which all operations succeed;
- `initializeLogger`, `log`, `getProofForTask`: the public calls, in `PyM (System F)`, so that a
  call that raises keeps the changes it made before.

The lazy initialization of the source is kept: the first `log` connects to the database, creates the
table or falls back to files, and reads the leaves of earlier loggers. So is the second fallback, in
the middle of a call, when an insert fails.

The hash, the way the database driver returns a JSONB column (`JsonbCodec`) and the floats are
parameters. The database and the file system give back what was stored. A file is its text, to which
an `OSError` in the middle of a write may have added a part of the line.

What `asdict` copies and what the encoding of the file refuses are outcomes of the call
(`WriteEnd`), since they depend on values and characters that the model does not have: locks, and
lone surrogates.
-/

namespace Noema.Audit

open Noema.Lib Noema.Utils PyJson

/-! ## Proof dicts (`merkle_proof.py`) -/

/-- The dict of `InclusionProof.to_dict`. -/
structure ProofDict where
  leafHash : String
  path : List (String × Bool)
  rootHash : String
  blockIndex : Int
  deriving DecidableEq, Repr

/-- `to_dict` (merkle_proof.py:50). -/
def InclusionProof.toDict (p : InclusionProof) : ProofDict where
  leafHash := hex p.leafHash
  path := p.path.map fun (h, d) => (hex h, d)
  rootHash := hex p.rootHash
  blockIndex := p.blockIndex

/-- `bytes.fromhex` with its exception. -/
def fromhexOrRaise (text : String) : Except PyExc Bytes :=
  match fromhex text with
  | some data => .ok data
  | none => .error (.valueError "non-hexadecimal number found in fromhex() arg")

/-- The list comprehension of `from_dict`. -/
def pathFromDict : List (String × Bool) → Except PyExc (List (Bytes × Bool))
  | [] => .ok []
  | (h, d) :: path => do
    let h ← fromhexOrRaise h
    let path ← pathFromDict path
    return (h, d) :: path

/-- `from_dict` (merkle_proof.py:59). -/
def InclusionProof.fromDict (data : ProofDict) : Except PyExc InclusionProof := do
  let leafHash ← fromhexOrRaise data.leafHash
  let path ← pathFromDict data.path
  let rootHash ← fromhexOrRaise data.rootHash
  return ⟨leafHash, path, rootHash, data.blockIndex⟩

/-! ## Tenant files -/

/-- `[A-Za-z0-9_.-]`. -/
def tenantChar (c : Char) : Bool :=
  c.isAlphanum || c == '_' || c == '.' || c == '-'

/-- `_TENANT_RE.sub("_", …)`: every maximal run of other characters becomes one
underscore. -/
def tenantSub (inRun : Bool) : List Char → List Char
  | [] => []
  | c :: cs =>
    if tenantChar c then c :: tenantSub false cs
    else if inRun then tenantSub true cs
    else '_' :: tenantSub true cs

/-- `_tenant_filename` (logger.py:21). -/
def tenantFilename (tenantId : String) : Except PyExc String :=
  let name := String.ofList (tenantSub false tenantId.toList)
  if name = "" ∨ name = "." ∨ name = ".." ∨ name.length > 100 then
    .error (.valueError "Invalid tenant_id")
  else .ok name

/-- The file of a sanitized tenant id. -/
def jsonlName (name : String) : String := name ++ ".jsonl"

/-- `name` matches the pattern `*.jsonl`. -/
def isJsonl (name : String) : Bool := ".jsonl".toList.isSuffixOf name.toList

/-! ## Events and rows -/

/-- A `datetime`: its `str()` and its `isoformat()`. -/
structure DateTime where
  str : String
  isoformat : String
  deriving DecidableEq, Repr

variable {F : Type}

/-- `AuditEvent` (logger.py:33), after `__post_init__`: `details` is a dict, so its
keys are distinct at every depth. -/
structure AuditEvent (F : Type) where
  timestamp : DateTime
  eventType : String
  tenantId : String
  userId : String
  taskId : Option String
  details : List (String × PyVal F)
  ipAddress : Option String
  userAgent : Option String
  commitment : Option String
  chainLink : Option String
  blockIndex : Option Int
  details_wf : (PyVal.dict details).WF

/-- A row of `audit_log`; `details` is the JSON text that was inserted. -/
structure AuditRow where
  timestamp : DateTime
  eventType : String
  tenantId : String
  userId : String
  taskId : Option String
  details : List Char
  ipAddress : Option String
  userAgent : Option String
  commitment : Option String
  chainLink : Option String
  blockIndex : Int

/-- `None` or a string. -/
def optStr : Option String → PyVal F
  | none => .none
  | some s => .str s

/-- The dict `_build_leaf_data` makes of an `AuditEvent`. -/
def AuditEvent.leafFields (event : AuditEvent F) : List (String × PyVal F) :=
  [("timestamp", .str event.timestamp.isoformat), ("event_type", .str event.eventType),
    ("tenant_id", .str event.tenantId), ("user_id", .str event.userId),
    ("task_id", optStr event.taskId), ("details", .dict event.details)]

/-- `_build_leaf_data` (logger.py:171) of an `AuditEvent`. -/
def buildLeafData (event : AuditEvent F) : PyVal F := .dict event.leafFields

/-- `row[key]`. -/
def getItem (row : List (String × PyVal F)) (key : String) : Except PyExc (PyVal F) :=
  match row.lookup key with
  | some v => .ok v
  | none => .error (.keyError s!"'{key}'")

/-- `v.isoformat() if hasattr(v, "isoformat") else str(v)`. -/
def isoformatOrStr [PyBuiltins F] : PyVal F → String
  | .other ⟨_, some iso⟩ => iso
  | v => v.toStr

/-- `_build_leaf_data` (logger.py:181) of a row dict. -/
def buildLeafDataRow [PyBuiltins F] (row : List (String × PyVal F)) : Except PyExc (PyVal F) := do
  let timestamp ← getItem row "timestamp"
  let eventType ← getItem row "event_type"
  let tenantId ← getItem row "tenant_id"
  let userId ← getItem row "user_id"
  let taskId := (row.lookup "task_id").getD .none
  let details := (row.lookup "details").getD .none
  return .dict [("timestamp", .str (isoformatOrStr timestamp)), ("event_type", eventType),
    ("tenant_id", tenantId), ("user_id", userId), ("task_id", taskId),
    ("details", if details.truthy then details else .dict [])]

/-- The record `_write_fallback` makes with `asdict`, fields in their order. -/
def AuditEvent.record (event : AuditEvent F) : List (String × PyVal F) :=
  [("timestamp", .str event.timestamp.isoformat), ("event_type", .str event.eventType),
    ("tenant_id", .str event.tenantId), ("user_id", .str event.userId),
    ("task_id", optStr event.taskId), ("details", .dict event.details),
    ("ip_address", optStr event.ipAddress), ("user_agent", optStr event.userAgent),
    ("commitment", optStr event.commitment), ("chain_link", optStr event.chainLink),
    ("block_index", (event.blockIndex.map PyVal.int).getD .none)]

/-- How the database driver returns a JSONB column, from the text that was inserted. -/
structure JsonbCodec (F : Type) where
  decode : List Char → PyVal F
  decode_wf : ∀ text, (decode text).WF

/-- The columns of the query of `get_proof_for_task` (logger.py:254). -/
def AuditRow.selected (jsonb : JsonbCodec F) (row : AuditRow) : List (String × PyVal F) :=
  [("block_index", .int row.blockIndex), ("details", jsonb.decode row.details),
    ("event_type", .str row.eventType),
    ("timestamp", .other ⟨row.timestamp.str, some row.timestamp.isoformat⟩),
    ("user_id", .str row.userId), ("tenant_id", .str row.tenantId),
    ("commitment", optStr row.commitment)]

/-! ## Reading JSONL records -/

variable [PyBuiltins F]

/-- The values of the lines of a file; lines that do not parse are skipped. -/
def parseLines (text : List Char) : List (PyVal F) := (contentLines text).filterMap loads

/-- The records as dicts; `r.get` raises on anything else. -/
def allDicts : List (PyVal F) → Except PyExc (List (List (String × PyVal F)))
  | [] => .ok []
  | .dict r :: rs => do
    let rs ← allDicts rs
    return r :: rs
  | v :: _ => .error (.attributeError s!"'{v.typeName}' object has no attribute 'get'")

/-- The sort key of a record: its `block_index` if that is an `int` (a `bool` is
one), else 0. -/
def blockIndexKey (r : List (String × PyVal F)) : Int :=
  match r.lookup "block_index" with
  | some (.int i) => i
  | some (.bool true) => 1
  | _ => 0

/-- `records.sort(key=…)`. -/
def sortRecords (records : List (List (String × PyVal F))) : List (List (String × PyVal F)) :=
  sortedBy blockIndexKey records

/-- The commitment of a record, if it is a non-empty string of hex digits. -/
def recordCommitment (r : List (String × PyVal F)) : Option Bytes :=
  match r.lookup "commitment" with
  | some (.str c) => if c = "" then none else fromhex c
  | _ => none

/-! ## The logger -/

/-- The attributes of `AuditLogger` that change, and whether it has a pool. -/
structure AuditLogger where
  pg : Bool
  initialized : Bool
  fileFallback : Bool
  leafHashes : List Bytes
  tree : Option IncrementalMerkleTree

/-- `AuditLogger(pg_pool, fallback_dir)` (logger.py:90). -/
def AuditLogger.new (pg : Bool) : AuditLogger := ⟨pg, false, false, [], none⟩

/-- A logger with its table and its fallback directory. -/
structure System where
  logger : AuditLogger
  rows : List AuditRow
  files : Directory

/-- How the `try` of `_write_fallback` ends. Only an `OSError` is caught, and some of
the line may have reached the file by then; anything else, such as the
`UnicodeEncodeError` of a lone surrogate, leaves the call with the file opened. -/
inductive WriteEnd where
  | written
  | osError (reached : Option (List Char))
  | raised (e : PyExc)

/-- The outcomes of the operations of one call that depend on more than the model's
state: the database, the files, and the objects in the details of the event.

- `serialize`: `serialize_to_bytes` of the leaf data, which raises for an integer
  that is too long to print or a key that JSON has not;
- `asdict`: `asdict(event)`, which copies the details and raises for an object that
  cannot be copied;
- `decode`: reading JSONL files, apart from the `OSError` of `canRead` and the
  lines that are no JSON;
- `glob`: the order in which the directory is listed. -/
structure Io where
  ddl : Bool
  fetch : Bool
  insert : Bool
  fetchrow : Bool
  mkdir : Bool
  serialize : Except PyExc Unit
  asdict : Except PyExc Unit
  decode : Except PyExc Unit
  write : WriteEnd
  canRead : String → Bool
  glob : Directory → Directory
  glob_perm : ∀ fs, (glob fs).Perm fs

/-- Every operation succeeds, serialization apart. -/
structure Io.Stores (io : Io) : Prop where
  ddl : io.ddl = true
  fetch : io.fetch = true
  insert : io.insert = true
  fetchrow : io.fetchrow = true
  mkdir : io.mkdir = true
  asdict : io.asdict = .ok ()
  decode : io.decode = .ok ()
  write : io.write = .written
  canRead : ∀ name, io.canRead name = true

/-- Every operation succeeds. -/
structure Io.Good (io : Io) : Prop extends Io.Stores io where
  serialize : io.serialize = .ok ()

/-- The exception of a failed database operation. -/
def pgError : PyExc := .osError "connection lost"

section Calls

variable (sha256 : Bytes → Bytes)

/-- `_sync_tree` (logger.py:98). -/
def syncTree : PyM System Unit := do
  let s ← PyM.get
  if s.logger.tree.map IncrementalMerkleTree.count ≠ some s.logger.leafHashes.length then do
    let tree ← PyM.lift (IncrementalMerkleTree.init sha256 s.logger.leafHashes)
    PyM.modify fun s => { s with logger := { s.logger with tree := some tree } }

/-- The list comprehension of `_load_leaf_hashes`. -/
def fromhexAll : List String → Option (List Bytes)
  | [] => some []
  | c :: cs =>
    match fromhex c, fromhexAll cs with
    | some h, some hs => some (h :: hs)
    | _, _ => none

/-- `_load_leaf_hashes` (logger.py:126): any exception leaves no leaf. -/
def loadLeafHashes (io : Io) : PyM System Unit := do
  let s ← PyM.get
  let rows := sortedBy AuditRow.blockIndex (s.rows.filter fun r => r.commitment.isSome)
  let hashes := if io.fetch then (fromhexAll (rows.filterMap AuditRow.commitment)).getD [] else []
  PyM.modify fun s => { s with logger := { s.logger with leafHashes := hashes } }

/-- The records of all tenant files, in the order of the listing. -/
def fallbackRecords (io : Io) (files : Directory) : List (PyVal F) :=
  ((io.glob files).filter fun f => isJsonl f.1 && io.canRead f.1).flatMap fun f => parseLines f.2

/-- `_load_leaf_hashes_fallback` (logger.py:136). -/
def loadLeafHashesFallback (F : Type) [PyBuiltins F] (io : Io) : PyM System Unit := do
  PyM.modify fun s => { s with logger := { s.logger with leafHashes := [] } }
  PyM.lift io.decode
  let s ← PyM.get
  let records ← PyM.lift (allDicts (fallbackRecords io s.files : List (PyVal F)))
  let hashes := (sortRecords records).filterMap recordCommitment
  PyM.modify fun s => { s with logger := { s.logger with leafHashes := hashes } }

/-- The `try` block of `initialize`. -/
def initializePg (io : Io) : PyM System Unit := do
  if io.ddl then do
    loadLeafHashes io
    syncTree sha256
    PyM.modify fun s => { s with logger := { s.logger with initialized := true } }
  else PyM.raise pgError

/-- `initialize` from where it falls back to files. -/
def initializeFallback (F : Type) [PyBuiltins F] (io : Io) : PyM System Unit := do
  PyM.modify fun s =>
    { s with logger := { s.logger with fileFallback := true, initialized := true } }
  -- the logger counts as initialized before there is a directory
  if io.mkdir then pure () else PyM.raise (.osError "cannot create directory")
  loadLeafHashesFallback F io
  syncTree sha256

/-- `initialize` (logger.py:104). -/
def initializeLogger (F : Type) [PyBuiltins F] (io : Io) : PyM System Unit := do
  let s ← PyM.get
  if s.logger.pg && !s.logger.fileFallback then
    PyM.tryCatch (initializePg sha256 io) fun _ => initializeFallback sha256 F io
  else initializeFallback sha256 F io

/-- `_get_prev_root` (logger.py:167). -/
def getPrevRoot : PyM System Bytes := do
  syncTree sha256
  let s ← PyM.get
  match s.logger.tree with
  | some tree => PyM.lift tree.root
  | none => return zeroDigest

/-- The line `_write_fallback` writes. -/
def recordLine (event : AuditEvent F) : List Char := dumps false (.dict event.record)

/-- `_write_fallback` (logger.py:238): a failed write is only logged. The copy and the
file name come before the `try`. -/
def writeFallback (io : Io) (event : AuditEvent F) : PyM System Unit := do
  PyM.lift io.asdict
  let name ← PyM.lift (tenantFilename event.tenantId)
  let append (text : List Char) : PyM System Unit :=
    PyM.modify fun s => { s with files := appendText (jsonlName name) text s.files }
  match io.write with
  | .written => append (recordLine event ++ ['\n'])
  | .osError none => return ()
  | .osError (some reached) => append reached
  | .raised e => do
    append []
    PyM.raise e

/-- The row of the `INSERT` of `log`. -/
def AuditEvent.row (event : AuditEvent F) (blockIndex : Nat) : AuditRow where
  timestamp := event.timestamp
  eventType := event.eventType
  tenantId := event.tenantId
  userId := event.userId
  taskId := event.taskId
  details := dumps true (.dict event.details)
  ipAddress := event.ipAddress
  userAgent := event.userAgent
  commitment := event.commitment
  chainLink := event.chainLink
  blockIndex := blockIndex

/-- The part of `log` after the tree is updated. `json.dumps(event.details)` has no
`default`, so it raises inside the `try`. -/
def store (io : Io) (event : AuditEvent F) (blockIndex : Nat) : PyM System Unit := do
  let s ← PyM.get
  if !s.logger.fileFallback && s.logger.pg then
    if io.insert && (PyVal.dict event.details).isJson then
      PyM.modify fun s => { s with rows := s.rows ++ [event.row blockIndex] }
    else do
      PyM.modify fun s => { s with logger := { s.logger with fileFallback := true } }
      writeFallback io event
  else writeFallback io event

/-- `str(block_index).encode("utf-8")`. -/
def indexBytes (n : Nat) : Bytes := encodeUtf8 (Nat.toDigits 10 n)

/-- The event with the three fields `log` sets. -/
def AuditEvent.committed (event : AuditEvent F) (sha256 : Bytes → Bytes) (prevRoot : Bytes)
    (blockIndex : Nat) : AuditEvent F :=
  let payloadBytes := serializeToBytes (buildLeafData event)
  { event with
    commitment := some (hex (safeHash sha256 payloadBytes))
    chainLink := some (hex (safeHash sha256 (prevRoot ++ payloadBytes ++ indexBytes blockIndex)))
    blockIndex := some blockIndex }

/-- `log` once the logger is initialized. -/
def logInitialized (io : Io) (event : AuditEvent F) : PyM System (AuditEvent F) := do
  -- the last place where an exception leaves everything as it was
  PyM.lift io.serialize
  let s ← PyM.get
  let blockIndex := s.logger.leafHashes.length
  let commitment := safeHash sha256 (serializeToBytes (buildLeafData event))
  let prevRoot ← getPrevRoot sha256
  let event := event.committed sha256 prevRoot blockIndex
  PyM.modify fun s =>
    { s with logger := { s.logger with leafHashes := s.logger.leafHashes ++ [commitment] } }
  -- the leaf is there before the tree and the store know of it
  let s ← PyM.get
  match s.logger.tree with
  | some tree => do
    let tree ← PyM.lift (tree.append sha256 commitment)
    PyM.modify fun s => { s with logger := { s.logger with tree := some tree } }
  | none => syncTree sha256
  store io event blockIndex
  return event

/-- `log` (logger.py:192); returns the event as the call leaves it. -/
def log (io : Io) (event : AuditEvent F) : PyM System (AuditEvent F) := do
  let s ← PyM.get
  if s.logger.initialized then pure () else initializeLogger sha256 F io
  logInitialized sha256 io event

/-- What `get_proof_for_task` returns: a proof dict with `leaf_data` added. -/
structure TaskProof (F : Type) extends ProofDict where
  leafData : PyVal F

/-- `ValueError` of a task that is not in the log. -/
def taskNotFound (taskId : String) : PyExc := .valueError s!"Task {taskId} not found in audit log"

/-- The test of the scan in `_get_proof_fallback`. -/
def matchesTask (tenantId taskId : String) (row : List (String × PyVal F)) : Bool :=
  match row.lookup "task_id", row.lookup "tenant_id" with
  | some (.str k), some (.str t) => k == taskId && t == tenantId
  | _, _ => false

/-- The proof for a record at an integer index: from the tree when the index is in
the log, else from the records of the tenant file. -/
def proofAt (leafData : PyVal F) (index : Int) (fileHashes : List Bytes) :
    PyM System InclusionProof := do
  let s ← PyM.get
  let n := s.logger.leafHashes.length
  if n ≠ 0 ∧ 0 ≤ index ∧ index < n then do
    syncTree sha256
    let s ← PyM.get
    match s.logger.tree with
    | some tree =>
      -- the tree of the process, when it has every leaf
      if tree.count = n then
        PyM.lift (IncrementalMerkleTree.inclusionProof sha256 serializeToBytes tree leafData index)
      else
        PyM.lift (generateInclusionProof sha256 serializeToBytes leafData index s.logger.leafHashes)
    | none =>
      PyM.lift (generateInclusionProof sha256 serializeToBytes leafData index s.logger.leafHashes)
  -- an index beyond the leaves of the process: the hashes of the file are used
  else PyM.lift (generateInclusionProof sha256 serializeToBytes leafData index fileHashes)

/-- `_get_proof_fallback` (logger.py:279). An index that is not an integer fails in
`generate_inclusion_proof`. -/
def getProofFallback (io : Io) (tenantId taskId : String) : PyM System (TaskProof F) := do
  let safeTenant ← PyM.lift (tenantFilename tenantId)
  let s ← PyM.get
  match s.files.lookup (jsonlName safeTenant) with
  | none => PyM.raise (taskNotFound taskId)
  | some text => do
    if io.canRead (jsonlName safeTenant) then pure () else PyM.raise (.osError "cannot open file")
    PyM.lift io.decode
    let rows ← PyM.lift (allDicts (parseLines text : List (PyVal F)))
    -- the last line that matches
    match (rows.filter (matchesTask tenantId taskId)).getLast? with
    | none => PyM.raise (taskNotFound taskId)
    | some target => do
      let fileHashes := (sortRecords rows).filterMap recordCommitment
      let leafData ← PyM.lift (buildLeafDataRow target)
      let proof ←
        match (target.lookup "block_index").getD (.int 0) with
        | .int i => proofAt sha256 leafData i fileHashes
        | .bool b => proofAt sha256 leafData (if b then 1 else 0) fileHashes
        | v =>
          -- the empty list is found before the index is compared
          if fileHashes = [] then
            PyM.raise (.valueError "Cannot generate proof from empty leaf list")
          else PyM.raise (.typeError s!"'<' not supported between instances of '{v.typeName}' and 'int'")
      return ⟨proof.toDict, leafData⟩

variable (jsonb : JsonbCodec F)

/-- The query of `get_proof_for_task`: the first matching row by `block_index`. -/
def selectTask (tenantId taskId : String) (rows : List AuditRow) : Option AuditRow :=
  (sortedBy AuditRow.blockIndex (rows.filter fun r =>
    r.tenantId == tenantId && r.taskId == some taskId && r.commitment.isSome)).head?

/-- The `try` block of `get_proof_for_task`. -/
def getProofPg (io : Io) (tenantId taskId : String) : PyM System (TaskProof F) := do
  if io.fetchrow then pure () else PyM.raise pgError
  let s ← PyM.get
  match selectTask tenantId taskId s.rows with
  | none => PyM.raise (taskNotFound taskId)
  | some row => do
    let leafData ← PyM.lift (buildLeafDataRow (row.selected jsonb))
    if s.logger.leafHashes = [] then loadLeafHashes io else pure ()
    syncTree sha256
    let s ← PyM.get
    match s.logger.tree with
    | none => PyM.raise (.runtimeError "Merkle tree not initialized")
    | some tree => do
      let proof ← PyM.lift
        (IncrementalMerkleTree.inclusionProof sha256 serializeToBytes tree leafData row.blockIndex)
      return ⟨proof.toDict, leafData⟩

/-- `get_proof_for_task` (logger.py:250). -/
def getProofForTask (io : Io) (tenantId taskId : String) : PyM System (TaskProof F) := do
  let s ← PyM.get
  if s.logger.fileFallback || !s.logger.pg then getProofFallback sha256 io tenantId taskId
  else
    PyM.tryCatch (getProofPg sha256 jsonb io tenantId taskId) fun e =>
      match e with
      | .valueError msg => PyM.raise (.valueError msg)
      | _ => getProofFallback sha256 io tenantId taskId

end Calls

end Noema.Audit
