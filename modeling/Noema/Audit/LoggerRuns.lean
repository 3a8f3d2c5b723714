import Noema.Audit.Commitment
import Noema.Audit.Logger

/-!
# Runs of the audit logger

The invariants of whole sequences of `log` calls, one for each storage mode:

- `FileMode evs s`: the leaf list, the tree and the directory of `s` are those of the events `evs`.
  The directory has one file per sanitized tenant id, with the lines of its events in the order of
  the calls;
- `PgMode evs s`: the same with the rows of the table.

`FileMode.log` and `PgMode.log` say what one call does: the event joins `evs`, with its position as
block index and the root before it as previous root, or the call raises and says what it left.
`fileMode_logAll` and `pgMode_logAll` fold this over a sequence of calls on a new logger
(`logAll_invariant`), where the first call also initializes it.

The way back is `initializeLogger_files`. A new logger lists the directory, parses each file line by
line, sorts the records by block index and recomputes nothing: it takes the commitment of each
record. That the records come back as they were written is the round trip of JSON texts
(`parseLines_linesText`), and that the order of the files does not matter is the sort
(`sortRecords`), as every block index occurs once.
-/

namespace Noema.Audit

open Noema.Lib Noema.Utils PyJson

variable {F : Type} [PyBuiltins F] {sha256 : Bytes → Bytes}

/-! ## The tree follows the leaf list -/

/-- The logger holds the tree of its leaf list. -/
def Synced (sha256 : Bytes → Bytes) (lg : AuditLogger) : Prop :=
  ∃ t, lg.tree = some t ∧ IncrementalMerkleTree.Holds sha256 t lg.leafHashes

/-- `_sync_tree` does nothing on a tree that is up to date. -/
theorem syncTree_of_synced {s : System} (h : Synced sha256 s.logger) :
    syncTree sha256 s = (.ok (), s) := by
  obtain ⟨t, htree, hholds⟩ := h
  have hcount : s.logger.tree.map IncrementalMerkleTree.count = some s.logger.leafHashes.length := by
    rw [htree, Option.map_some, IncrementalMerkleTree.count, hholds.real_eq]
  rw [syncTree, PyM.bind_ok (PyM.get_apply s), if_neg (not_not_intro hcount)]
  rfl

/-- `_sync_tree` builds the tree of a logger that has none. -/
theorem syncTree_of_none (sha256 : Bytes → Bytes) {s : System} (h : s.logger.tree = none) :
    ∃ t, IncrementalMerkleTree.Holds sha256 t s.logger.leafHashes ∧
      syncTree sha256 s = (.ok (), { s with logger := { s.logger with tree := some t } }) := by
  obtain ⟨t, hinit, hholds⟩ := IncrementalMerkleTree.init_holds sha256 s.logger.leafHashes
  refine ⟨t, hholds, ?_⟩
  have hcount : s.logger.tree.map IncrementalMerkleTree.count ≠ some s.logger.leafHashes.length := by
    rw [h]
    simp
  rw [syncTree, PyM.bind_ok (PyM.get_apply s), if_pos hcount, hinit]
  rfl

theorem getPrevRoot_of_synced {s : System} (h : Synced sha256 s.logger) :
    getPrevRoot sha256 s = (.ok (rootOf sha256 s.logger.leafHashes), s) := by
  have hsync := syncTree_of_synced h
  obtain ⟨t, htree, hholds⟩ := h
  rw [getPrevRoot, PyM.bind_ok hsync, PyM.bind_ok (PyM.get_apply s)]
  simp only [htree, hholds.root_eq, PyM.lift_apply]

/-! ## One `log` call -/

/-- The commitment of an event. -/
def AuditEvent.leafHash (sha256 : Bytes → Bytes) (event : AuditEvent F) : Bytes :=
  safeHash sha256 (serializeToBytes (buildLeafData event))

/-- What `log` leaves in the logger before it stores the event. -/
def AuditLogger.appended (lg : AuditLogger) (leaf : Bytes) (t : IncrementalMerkleTree) : AuditLogger :=
  { lg with leafHashes := lg.leafHashes ++ [leaf], tree := some t }

theorem log_initialized {s : System} (h : s.logger.initialized = true) (io : Io)
    (e : AuditEvent F) : log sha256 io e s = logInitialized sha256 io e s := by
  rw [log, PyM.bind_ok (PyM.get_apply s), if_pos h]

/-- An event that cannot be serialized is not logged. -/
theorem logInitialized_unserialized {io : Io} {x : PyExc} (hio : io.serialize = .error x)
    (e : AuditEvent F) (s : System) : logInitialized sha256 io e s = (.error x, s) := by
  rw [logInitialized, hio]
  rfl

/-- **One `log` call** on an initialized logger: the commitment joins the leaves and
the tree, then the event is stored. -/
theorem logInitialized_eq {s : System} (h : Synced sha256 s.logger) {io : Io}
    (hio : io.serialize = .ok ()) (e : AuditEvent F)
    {n : Nat} (hn : s.logger.leafHashes.length = n) :
    ∃ t, IncrementalMerkleTree.Holds sha256 t (s.logger.leafHashes ++ [e.leafHash sha256]) ∧
      ∀ {r : Except PyExc Unit} {s' : System},
        store io (e.committed sha256 (rootOf sha256 s.logger.leafHashes) n) n
          { s with logger := s.logger.appended (e.leafHash sha256) t } = (r, s') →
        logInitialized sha256 io e s = (r.map fun _ =>
          e.committed sha256 (rootOf sha256 s.logger.leafHashes) n, s') := by
  have hprev := getPrevRoot_of_synced h
  obtain ⟨t₀, htree, hholds⟩ := h
  obtain ⟨t, happ, hholds'⟩ := IncrementalMerkleTree.append_holds hholds (e.leafHash sha256)
  refine ⟨t, hholds', fun {r s'} hstore => ?_⟩
  subst hn
  rw [logInitialized, hio, PyM.bind_ok (PyM.lift_apply _ _), PyM.bind_ok (PyM.get_apply s),
    PyM.bind_ok hprev, PyM.bind_ok (PyM.modify_apply _ _), PyM.bind_ok (PyM.get_apply _)]
  simp only [htree]
  rw [AuditEvent.leafHash] at happ
  rw [happ, PyM.bind_ok (PyM.lift_apply _ _), PyM.bind_ok (PyM.modify_apply _ _)]
  cases r with
  | ok u => exact PyM.bind_ok hstore _
  | error x => exact PyM.bind_error hstore _

/-- In database mode an event with JSON details becomes a row. -/
theorem store_pg {s : System} (hfallback : s.logger.fileFallback = false)
    (hpg : s.logger.pg = true) {io : Io} (hio : io.Good) {e : AuditEvent F}
    (hjson : (PyVal.dict e.details).isJson = true) (n : Nat) :
    store io e n s = (.ok (), { s with rows := s.rows ++ [e.row n] }) := by
  have hmode : (!s.logger.fileFallback && s.logger.pg) = true := by simp [hfallback, hpg]
  have hok : (io.insert && (PyVal.dict e.details).isJson) = true := by simp [hio.insert, hjson]
  rw [store, PyM.bind_ok (PyM.get_apply s), if_pos hmode, if_pos hok]
  rfl

/-- In file mode an event becomes a line of its tenant's file. -/
theorem store_file {s : System} (hfallback : s.logger.fileFallback = true) {io : Io}
    (hio : io.Stores) {e : AuditEvent F} {name : String} (hname : tenantFilename e.tenantId = .ok name)
    (n : Nat) :
    store io e n s = (.ok (),
      { s with files := appendText (jsonlName name) (recordLine e ++ ['\n']) s.files }) := by
  rw [store, PyM.bind_ok (PyM.get_apply s), hfallback]
  show writeFallback io e s = _
  rw [writeFallback, hio.asdict, PyM.bind_ok (PyM.lift_apply _ _), hname,
    PyM.bind_ok (PyM.lift_apply _ _), hio.write]
  rfl

/-- In file mode a refused tenant id raises, with nothing written. -/
theorem store_refused {s : System} (hfallback : s.logger.fileFallback = true) {io : Io}
    (hio : io.Stores) {e : AuditEvent F} {x : PyExc} (hname : tenantFilename e.tenantId = .error x)
    (n : Nat) :
    store io e n s = (.error x, s) := by
  rw [store, PyM.bind_ok (PyM.get_apply s), hfallback]
  show writeFallback io e s = _
  rw [writeFallback, hio.asdict, PyM.bind_ok (PyM.lift_apply _ _), hname]
  rfl

/-! ## Records come back from their lines -/

omit [PyBuiltins F] in
theorem optStr_wf (o : Option String) : (optStr o : PyVal F).WF := by
  cases o <;> trivial

omit [PyBuiltins F] in
theorem optStr_plain (o : Option String) : (optStr o : PyVal F).plain = optStr o := by
  cases o <;> rfl

omit [PyBuiltins F] in
theorem record_wf (e : AuditEvent F) : (PyVal.dict e.record).WF := by
  refine ⟨by simp [AuditEvent.record], ?_⟩
  have hindex : ((e.blockIndex.map PyVal.int).getD .none : PyVal F).WF := by
    cases e.blockIndex <;> trivial
  exact ⟨trivial, trivial, trivial, trivial, optStr_wf _, e.details_wf, optStr_wf _, optStr_wf _,
    optStr_wf _, optStr_wf _, hindex, trivial⟩

omit [PyBuiltins F] in
theorem leafFields_wf (e : AuditEvent F) : (PyVal.dict e.leafFields).WF :=
  ⟨by simp [AuditEvent.leafFields], trivial, trivial, trivial, trivial, optStr_wf _, e.details_wf,
    trivial⟩

/-- The file text of a list of events. -/
def linesText (evs : List (AuditEvent F)) : List Char :=
  evs.flatMap fun e => recordLine e ++ ['\n']

/-- Reading a tenant file gives back the records, objects stringified. -/
theorem parseLines_linesText (evs : List (AuditEvent F)) :
    parseLines (linesText evs) = evs.map fun e => (PyVal.dict e.record).plain := by
  have hlines : linesText evs = (evs.map recordLine).flatMap (· ++ ['\n']) := by
    rw [linesText, List.flatMap_map]
  have hisLine : ∀ l ∈ evs.map recordLine, IsLine l := by
    intro l hl
    obtain ⟨e, -, rfl⟩ := List.mem_map.mp hl
    exact isLine_dict false e.record
  rw [parseLines, hlines, contentLines_flatMap hisLine, List.filterMap_map]
  refine List.filterMap_eq_map_iff_forall_eq_some.mpr ?_
  intro e _
  exact loads_dumps false (record_wf e)

omit [PyBuiltins F] in
theorem allDicts_map (rs : List (List (String × PyVal F))) :
    allDicts (rs.map PyVal.dict) = .ok rs := by
  induction rs with
  | nil => rfl
  | cons r rs ih =>
    rw [List.map_cons, allDicts, ih]
    rfl

/-- The records of a tenant file as dicts. -/
theorem allDicts_parseLines (evs : List (AuditEvent F)) :
    allDicts (parseLines (linesText evs)) = .ok (evs.map fun e => plainPairs e.record) := by
  rw [parseLines_linesText, ← allDicts_map, List.map_map]
  rfl

/-- The leaf data rebuilt from a record. -/
theorem buildLeafDataRow_record (e : AuditEvent F) :
    buildLeafDataRow (plainPairs e.record) = .ok (buildLeafData e).plain := by
  have hdetails : (if (PyVal.dict (plainPairs e.details)).truthy then
      PyVal.dict (plainPairs e.details) else .dict []) = .dict (plainPairs e.details) := by
    cases e.details <;> rfl
  simp [buildLeafDataRow, AuditEvent.record, plainPairs, PyVal.plain, optStr_plain, getItem,
    List.lookup, buildLeafData, AuditEvent.leafFields, isoformatOrStr, PyVal.toStr, hdetails]

omit [PyBuiltins F] in
theorem matchesTask_record (t k : String) (e : AuditEvent F) :
    matchesTask t k (plainPairs e.record) = (e.taskId == some k && e.tenantId == t) := by
  have htask : (plainPairs e.record).lookup "task_id" = some (optStr e.taskId) := by
    simp [AuditEvent.record, plainPairs, List.lookup, optStr_plain]
  have htenant : (plainPairs e.record).lookup "tenant_id" = some (.str e.tenantId) := by
    simp [AuditEvent.record, plainPairs, List.lookup, PyVal.plain]
  rw [matchesTask, htask, htenant]
  cases e.taskId with
  | none => rfl
  | some k' => simp [optStr]

omit [PyBuiltins F] in
theorem record_blockIndex {e : AuditEvent F} {i : Nat} (h : e.blockIndex = some (i : Int)) :
    (plainPairs e.record).lookup "block_index" = some (.int i) := by
  simp [AuditEvent.record, plainPairs, List.lookup, h, PyVal.plain]

omit [PyBuiltins F] in
theorem recordCommitment_record {e : AuditEvent F} {c : Bytes} (h : e.commitment = some (hex c))
    (hc : c ≠ []) : recordCommitment (plainPairs e.record) = some c := by
  have hlookup : (plainPairs e.record).lookup "commitment" = some (.str (hex c)) := by
    simp [AuditEvent.record, plainPairs, List.lookup, h, optStr, PyVal.plain]
  have hne : hex c ≠ "" := by
    intro hnil
    have := fromhex_hex c
    rw [hnil] at this
    exact hc (Option.some.inj this).symm
  rw [recordCommitment, hlookup]
  simp only [if_neg hne, fromhex_hex]

/-! ## Runs -/

/-- The file an event goes to in file mode; `none` when its tenant id is refused. -/
def AuditEvent.file? (e : AuditEvent F) : Option String :=
  match tenantFilename e.tenantId with
  | .ok name => some (jsonlName name)
  | .error _ => none

/-- The event as the caller made it. -/
def AuditEvent.clear (e : AuditEvent F) : AuditEvent F :=
  { e with commitment := none, chainLink := none, blockIndex := none }

/-- The events of a log carry their positions and their commitments. -/
def Numbered (sha256 : Bytes → Bytes) (evs : List (AuditEvent F)) : Prop :=
  ∀ (i : Nat) (h : i < evs.length),
    evs[i].blockIndex = some (i : Int) ∧ evs[i].commitment = some (hex (evs[i].leafHash sha256))

/-- The logger has logged `evs`, in either mode. -/
structure Logged (sha256 : Bytes → Bytes) (evs : List (AuditEvent F)) (lg : AuditLogger) : Prop where
  initialized : lg.initialized = true
  leafHashes : lg.leafHashes = evs.map (AuditEvent.leafHash sha256)
  synced : Synced sha256 lg
  numbered : Numbered sha256 evs

/-- The text of the file `name`: the lines of the events that went there. -/
def fileText (evs : List (AuditEvent F)) (name : String) : Option (List Char) :=
  match evs.filter fun e => e.file? == some name with
  | [] => none
  | es => some (linesText es)

/-- File mode: the directory holds exactly the lines of the events with an accepted
tenant id. -/
structure FileMode (sha256 : Bytes → Bytes) (evs : List (AuditEvent F)) (s : System) : Prop
    extends Logged sha256 evs s.logger where
  fallback : s.logger.fileFallback = true
  files : ∀ name, s.files.lookup name = fileText evs name
  nodup : (s.files.map Prod.fst).Nodup

/-- Database mode: the table holds exactly the events. -/
structure PgMode (sha256 : Bytes → Bytes) (evs : List (AuditEvent F)) (s : System) : Prop
    extends Logged sha256 evs s.logger where
  fallback : s.logger.fileFallback = false
  pg : s.logger.pg = true
  rows : s.rows = evs.mapIdx fun i e => e.row i

theorem numbered_nil : Numbered sha256 ([] : List (AuditEvent F)) := by
  intro i h
  cases h

theorem Numbered.concat {evs : List (AuditEvent F)} (h : Numbered sha256 evs) (e : AuditEvent F)
    (prevRoot : Bytes) : Numbered sha256 (evs ++ [e.committed sha256 prevRoot evs.length]) := by
  intro i hi
  by_cases hlt : i < evs.length
  · rw [List.getElem_append_left hlt]
    exact h i hlt
  · have heq : i = evs.length := by
      rw [List.length_append, List.length_singleton] at hi
      omega
    subst heq
    rw [List.getElem_concat_length rfl]
    exact ⟨rfl, rfl⟩

theorem Logged.concat {evs : List (AuditEvent F)} {lg : AuditLogger} (h : Logged sha256 evs lg)
    (e : AuditEvent F) (prevRoot : Bytes) {t : IncrementalMerkleTree}
    (ht : IncrementalMerkleTree.Holds sha256 t (lg.leafHashes ++ [e.leafHash sha256])) :
    Logged sha256 (evs ++ [e.committed sha256 prevRoot evs.length])
      (lg.appended (e.leafHash sha256) t) where
  initialized := h.initialized
  leafHashes := by
    rw [List.map_append, ← h.leafHashes]
    rfl
  synced := ⟨t, rfl, ht⟩
  numbered := h.numbered.concat e prevRoot

theorem fileText_concat (evs : List (AuditEvent F)) (e : AuditEvent F) (name : String) :
    fileText (evs ++ [e]) name
      = if e.file? = some name then some ((fileText evs name).getD [] ++ (recordLine e ++ ['\n']))
        else fileText evs name := by
  unfold fileText
  rw [List.filter_append]
  by_cases h : e.file? = some name
  · rw [if_pos h, List.filter_cons_of_pos (by simp [h]), List.filter_nil]
    cases evs.filter fun e => e.file? == some name with
    | nil => simp [linesText]
    | cons e' es => simp [linesText]
  · rw [if_neg h, List.filter_cons_of_neg (by simp [h]), List.filter_nil, List.append_nil]

/-- One call in file mode: the event is logged, and the call raises exactly when the
tenant id is refused. -/
theorem FileMode.log {evs : List (AuditEvent F)} {s : System} (h : FileMode sha256 evs s) {io : Io}
    (hio : io.Good) (e : AuditEvent F) :
    (log sha256 io e s).1 = (tenantFilename e.tenantId).map (fun _ =>
        e.committed sha256 (rootOf sha256 s.logger.leafHashes) evs.length) ∧
      FileMode sha256
        (evs ++ [e.committed sha256 (rootOf sha256 s.logger.leafHashes) evs.length])
        (log sha256 io e s).2 := by
  have hlen : s.logger.leafHashes.length = evs.length := by rw [h.leafHashes, List.length_map]
  obtain ⟨t, ht, hlog⟩ := logInitialized_eq h.synced hio.serialize e hlen
  rw [log_initialized h.initialized]
  generalize rootOf sha256 s.logger.leafHashes = prevRoot at *
  generalize he' : e.committed sha256 prevRoot evs.length = e' at *
  have htenant : e'.tenantId = e.tenantId := by rw [← he']; rfl
  have hlogged := h.toLogged.concat e prevRoot ht
  rw [he'] at hlogged
  have hfallback : ({ s with logger := s.logger.appended (e.leafHash sha256) t } : System).logger.fileFallback
      = true := h.fallback
  cases hname : tenantFilename e.tenantId with
  | error x =>
    rw [← htenant] at hname
    -- the tenant name is refused after the leaf was appended
    rw [hlog (store_refused hfallback hio.toStores hname evs.length)]
    refine ⟨rfl, { toLogged := hlogged, fallback := h.fallback, files := ?_, nodup := h.nodup }⟩
    intro name
    have hnone : e'.file? ≠ some name := by simp [AuditEvent.file?, hname]
    rw [fileText_concat, if_neg hnone]
    exact h.files name
  | ok name =>
    rw [← htenant] at hname
    -- the line goes to the file of the tenant, the other files stay as they are
    rw [hlog (store_file hfallback hio.toStores hname evs.length)]
    refine ⟨rfl, { toLogged := hlogged, fallback := h.fallback, files := ?_, nodup := ?_ }⟩
    · intro n
      have hfile : e'.file? = some (jsonlName name) := by simp [AuditEvent.file?, hname]
      rw [fileText_concat, hfile]
      refine (lookup_appendText _ _ _ n).trans ?_
      by_cases hn : n = jsonlName name
      · subst hn
        rw [if_pos rfl, if_pos rfl, h.files]
      · rw [if_neg hn, if_neg (fun h => hn (Option.some.inj h).symm)]
        exact h.files n
    · show ((appendText _ _ s.files).map Prod.fst).Nodup
      rw [map_fst_appendText]
      split
      · exact h.nodup
      · rename_i hnot
        rw [List.nodup_append]
        refine ⟨h.nodup, List.nodup_singleton _, fun a ha b hb hab => hnot ?_⟩
        rw [← List.mem_singleton.mp hb, ← hab]
        exact ha

/-- One call in database mode on JSON details: the event is logged and the call
returns. -/
theorem PgMode.log {evs : List (AuditEvent F)} {s : System} (h : PgMode sha256 evs s) {io : Io}
    (hio : io.Good) {e : AuditEvent F} (hjson : (PyVal.dict e.details).isJson = true) :
    (log sha256 io e s).1
        = .ok (e.committed sha256 (rootOf sha256 s.logger.leafHashes) evs.length) ∧
      PgMode sha256
        (evs ++ [e.committed sha256 (rootOf sha256 s.logger.leafHashes) evs.length])
        (log sha256 io e s).2 := by
  have hlen : s.logger.leafHashes.length = evs.length := by rw [h.leafHashes, List.length_map]
  obtain ⟨t, ht, hlog⟩ := logInitialized_eq h.synced hio.serialize e hlen
  rw [log_initialized h.initialized]
  generalize rootOf sha256 s.logger.leafHashes = prevRoot at *
  have hlogged := h.toLogged.concat e prevRoot ht
  have hdetails : (e.committed sha256 prevRoot evs.length).details = e.details := rfl
  generalize e.committed sha256 prevRoot evs.length = e' at *
  have hfallback : ({ s with logger := s.logger.appended (e.leafHash sha256) t } : System).logger.fileFallback
      = false := h.fallback
  rw [← hdetails] at hjson
  rw [hlog (store_pg hfallback h.pg hio hjson evs.length)]
  refine ⟨rfl, { toLogged := hlogged, fallback := h.fallback, pg := h.pg, rows := ?_ }⟩
  rw [List.mapIdx_concat, ← h.rows]

/-! ## From a fresh logger -/

/-- A new logger on an empty table and an empty directory. -/
def fresh (pg : Bool) : System := ⟨AuditLogger.new pg, [], []⟩

/-- The state after a sequence of `log` calls; a call that raises does not end the
sequence. -/
def logAll (sha256 : Bytes → Bytes) : List (Io × AuditEvent F) → System → System
  | [], s => s
  | (io, e) :: calls, s => logAll sha256 calls (log sha256 io e s).2

/-- The first call initializes the logger. -/
theorem log_first {s s' : System} {io : Io}
    (hinit : initializeLogger sha256 F io s = (.ok (), s')) (hs : s.logger.initialized = false)
    (e : AuditEvent F) : log sha256 io e s = logInitialized sha256 io e s' := by
  rw [log, PyM.bind_ok (PyM.get_apply s), if_neg (by simp [hs]), PyM.bind_ok hinit]

theorem log_uninitialized {s s' : System} {io : Io}
    (hinit : initializeLogger sha256 F io s = (.ok (), s')) (hs : s.logger.initialized = false)
    (hs' : s'.logger.initialized = true) (e : AuditEvent F) :
    log sha256 io e s = log sha256 io e s' := by
  rw [log_first hinit hs, log_initialized hs']

/-- `initialize` of a new logger without a pool, from the records it reads. -/
theorem initializeLogger_files (sha256 : Bytes → Bytes) {s : System} {io : Io}
    {records : List (List (String × PyVal F))}
    (hs : s.logger = AuditLogger.new false) (hio : io.Stores)
    (hrec : allDicts (fallbackRecords io s.files) = .ok records) :
    ∃ t, IncrementalMerkleTree.Holds sha256 t ((sortRecords records).filterMap recordCommitment) ∧
      initializeLogger sha256 F io s = (.ok (), { s with
        logger := ⟨false, true, true, (sortRecords records).filterMap recordCommitment, some t⟩ }) := by
  obtain ⟨logger, rows, files⟩ := s
  subst hs
  obtain ⟨t, ht, hsync⟩ := syncTree_of_none sha256 (s := ⟨⟨false, true, true,
    (sortRecords records).filterMap recordCommitment, none⟩, rows, files⟩) rfl
  refine ⟨t, ht, ?_⟩
  have hload : loadLeafHashesFallback F io ⟨⟨false, true, true, [], none⟩, rows, files⟩
      = (.ok (), ⟨⟨false, true, true, (sortRecords records).filterMap recordCommitment, none⟩,
          rows, files⟩) := by
    rw [loadLeafHashesFallback, PyM.bind_ok (PyM.modify_apply _ _), hio.decode,
      PyM.bind_ok (PyM.lift_apply _ _), PyM.bind_ok (PyM.get_apply _), hrec]
    rfl
  rw [initializeLogger, PyM.bind_ok (PyM.get_apply _)]
  show initializeFallback sha256 F io _ = _
  rw [initializeFallback, PyM.bind_ok (PyM.modify_apply _ _), if_pos hio.mkdir]
  refine (PyM.bind_ok hload _).trans ?_
  exact hsync

/-- `initialize` of a new logger with a pool on an empty table. -/
theorem initializeLogger_pg (sha256 : Bytes → Bytes) {io : Io} (hio : io.Good) :
    ∃ t, IncrementalMerkleTree.Holds sha256 t [] ∧
      initializeLogger sha256 F io (fresh true)
        = (.ok (), ⟨⟨true, true, false, [], some t⟩, [], []⟩) := by
  obtain ⟨t, ht, hsync⟩ := syncTree_of_none sha256 (s := fresh true) rfl
  refine ⟨t, ht, ?_⟩
  have hload : loadLeafHashes io (fresh true) = (.ok (), fresh true) := by
    rw [loadLeafHashes, PyM.bind_ok (PyM.get_apply _), hio.fetch]
    rfl
  have hpg : initializePg sha256 io (fresh true)
      = (.ok (), ⟨⟨true, true, false, [], some t⟩, [], []⟩) := by
    rw [initializePg, if_pos hio.ddl]
    refine (PyM.bind_ok hload _).trans ((PyM.bind_ok hsync _).trans ?_)
    rfl
  rw [initializeLogger, PyM.bind_ok (PyM.get_apply _)]
  show PyM.tryCatch (initializePg sha256 io) _ (fresh true) = _
  rw [PyM.tryCatch, hpg]

/-- A new logger without a pool is in file mode once initialized. -/
theorem fileMode_fresh (sha256 : Bytes → Bytes) {io : Io} (hio : io.Stores) :
    ∃ s, initializeLogger sha256 F io (fresh false) = (.ok (), s) ∧
      FileMode sha256 ([] : List (AuditEvent F)) s := by
  have hglob : io.glob [] = [] := List.perm_nil.mp (io.glob_perm [])
  have hrec : allDicts (fallbackRecords io (fresh false).files : List (PyVal F)) = .ok [] := by
    rw [fallbackRecords, fresh, hglob]
    rfl
  obtain ⟨t, ht, hinit⟩ := initializeLogger_files sha256 rfl hio hrec
  have hnil : (sortRecords ([] : List (List (String × PyVal F)))).filterMap recordCommitment = [] :=
    rfl
  rw [hnil] at ht hinit
  refine ⟨_, hinit, ?_⟩
  exact {
    initialized := rfl
    leafHashes := rfl
    synced := ⟨t, rfl, ht⟩
    numbered := numbered_nil
    fallback := rfl
    files := fun _ => rfl
    nodup := List.nodup_nil }

/-- A new logger with a pool is in database mode once initialized. -/
theorem pgMode_fresh (sha256 : Bytes → Bytes) {io : Io} (hio : io.Good) :
    ∃ s, initializeLogger sha256 F io (fresh true) = (.ok (), s) ∧
      PgMode sha256 ([] : List (AuditEvent F)) s := by
  obtain ⟨t, ht, hinit⟩ := initializeLogger_pg (F := F) sha256 hio
  refine ⟨_, hinit, ?_⟩
  exact {
    initialized := rfl
    leafHashes := rfl
    synced := ⟨t, rfl, ht⟩
    numbered := numbered_nil
    fallback := rfl
    pg := rfl
    rows := rfl }

/-- The events after further calls, each with the fields its call sets. -/
def commitAll (sha256 : Bytes → Bytes) : List (AuditEvent F) → List (AuditEvent F) →
    List (AuditEvent F)
  | evs, [] => evs
  | evs, e :: es => commitAll sha256
    (evs ++ [e.committed sha256 (rootOf sha256 (evs.map (AuditEvent.leafHash sha256))) evs.length]) es

/-- The events of a sequence of calls on a new logger. -/
def committedEvents (sha256 : Bytes → Bytes) (calls : List (Io × AuditEvent F)) :
    List (AuditEvent F) :=
  commitAll sha256 [] (calls.map Prod.snd)

theorem map_clear_commitAll (sha256 : Bytes → Bytes) (evs es : List (AuditEvent F)) :
    (commitAll sha256 evs es).map AuditEvent.clear
      = evs.map AuditEvent.clear ++ es.map AuditEvent.clear := by
  induction es generalizing evs with
  | nil => simp [commitAll]
  | cons e es ih =>
    rw [commitAll, ih, List.map_append, List.append_assoc]
    rfl

/-- Committing an event changes nothing the caller set. -/
theorem map_clear_committedEvents (sha256 : Bytes → Bytes) (calls : List (Io × AuditEvent F)) :
    (committedEvents sha256 calls).map AuditEvent.clear = calls.map fun c => c.2.clear := by
  rw [committedEvents, map_clear_commitAll, List.map_map]
  rfl

/-- **Invariants of runs**: what every call adds its event to, a sequence of calls adds
its events to, in order. -/
theorem logAll_invariant {P : List (AuditEvent F) → System → Prop} {calls : List (Io × AuditEvent F)}
    (hstep : ∀ c ∈ calls, ∀ evs s, P evs s →
      P (evs ++ [c.2.committed sha256 (rootOf sha256 (evs.map (AuditEvent.leafHash sha256)))
        evs.length]) (log sha256 c.1 c.2 s).2)
    {evs : List (AuditEvent F)} {s : System} (h : P evs s) :
    P (commitAll sha256 evs (calls.map Prod.snd)) (logAll sha256 calls s) := by
  induction calls generalizing evs s with
  | nil => exact h
  | cons c calls ih =>
    exact ih (fun c' hc' => hstep c' (List.mem_cons_of_mem _ hc'))
      (hstep c List.mem_cons_self evs s h)

/-- A run of a logger that its first call initializes. -/
theorem logAll_uninitialized {s s' : System} {io : Io}
    (hinit : initializeLogger sha256 F io s = (.ok (), s')) (hs : s.logger.initialized = false)
    (hs' : s'.logger.initialized = true) (e : AuditEvent F) (calls : List (Io × AuditEvent F)) :
    logAll sha256 ((io, e) :: calls) s = logAll sha256 ((io, e) :: calls) s' := by
  rw [logAll, log_uninitialized hinit hs hs', logAll]

/-- **Runs in file mode**: after a non-empty sequence of calls, the leaves, the tree
and the directory are those of its events. -/
theorem fileMode_logAll (sha256 : Bytes → Bytes) {calls : List (Io × AuditEvent F)}
    (hne : calls ≠ []) (hgood : ∀ c ∈ calls, c.1.Good) :
    FileMode sha256 (committedEvents sha256 calls) (logAll sha256 calls (fresh false)) := by
  obtain ⟨⟨io, e⟩, calls, rfl⟩ := List.exists_cons_of_ne_nil hne
  obtain ⟨s, hinit, h⟩ := fileMode_fresh (F := F) sha256 (hgood _ List.mem_cons_self : io.Good).toStores
  rw [logAll_uninitialized hinit rfl h.initialized]
  refine logAll_invariant (fun c hc evs s h => ?_) h
  have hnext := (h.log (hgood c hc) c.2).2
  rwa [h.leafHashes] at hnext

/-- **Runs in database mode**: after a non-empty sequence of calls with JSON details,
the leaves, the tree and the table are those of its events. -/
theorem pgMode_logAll (sha256 : Bytes → Bytes) {calls : List (Io × AuditEvent F)}
    (hne : calls ≠ []) (hgood : ∀ c ∈ calls, c.1.Good)
    (hjson : ∀ c ∈ calls, (PyVal.dict c.2.details).isJson = true) :
    PgMode sha256 (committedEvents sha256 calls) (logAll sha256 calls (fresh true)) := by
  obtain ⟨⟨io, e⟩, calls, rfl⟩ := List.exists_cons_of_ne_nil hne
  obtain ⟨s, hinit, h⟩ := pgMode_fresh (F := F) sha256 (hgood _ List.mem_cons_self : io.Good)
  rw [logAll_uninitialized hinit rfl h.initialized]
  refine logAll_invariant (fun c hc evs s h => ?_) h
  have hnext := (h.log (hgood c hc) (hjson c hc)).2
  rwa [h.leafHashes] at hnext

end Noema.Audit
