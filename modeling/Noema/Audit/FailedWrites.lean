import Noema.Audit.AuditTrail
import Noema.Lib.PyTriple
import Noema.Lib.System

/-!
# Failed writes of the audit logger

What a `log` call that raises leaves behind. `log` appends the commitment to the leaf list and to
the tree before it stores the record, and nothing takes the leaf back when storing raises.

- `loggerSystem`: one logger, its public calls, and other processes that write to the same table and
  the same directory at any time between two calls.
- `Sound`: the invariant of its states. Every tree was built by its class, though not always over
  the leaves of the list: `_sync_tree` keeps a tree with as many leaves as the list, whatever they
  are (`syncTree_cases`). Before initialization the tree is that of the leaves.
- `writeFallback_cases`, `store_cases`, `logInitialized_cases`, `initializeLogger_cases`: what the
  parts of a call can do, with the state in both outcomes. These are all that the result needs of
  the code.
- `Covered`: the condition on a call. The event cannot be serialized, which comes before anything is
  changed, or its record can be stored; for the first call on a logger also what initialization
  reads.
- **`failsClean_iff`**: a call that raises leaves the leaves, the tree and the records as they were
  if and only if it is covered.

A write to the fallback file can fail in several ways. An `OSError` is logged and given up, and may
leave a part of the line. What the copy of the details raises, and what encoding the line raises,
leave the call; so does a tenant id that names no file. From right to left the proof has to see the
leaf that was appended (`not_untouched_of_append`).
-/

namespace Noema.Audit

open Noema.Lib Noema.Utils PyJson

variable {F : Type} [PyBuiltins F] {sha256 : Bytes → Bytes}

/-! ## Loggers on a shared storage -/

/-- A call on the logger, or a write by another process. -/
inductive LoggerEvent (F : Type) where
  | initializing (io : Io)
  | log (io : Io) (event : AuditEvent F)
  | getProofForTask (jsonb : JsonbCodec F) (io : Io) (tenantId taskId : String)
  | others (rows : List AuditRow) (files : Directory)

/-- The state after an event, whether the call returns or raises. -/
def LoggerEvent.apply (sha256 : Bytes → Bytes) (s : System) : LoggerEvent F → System
  | .initializing io => (initializeLogger sha256 F io s).2
  | .log io event => (Noema.Audit.log sha256 io event s).2
  | .getProofForTask jsonb io tenantId taskId =>
    (Noema.Audit.getProofForTask sha256 jsonb io tenantId taskId s).2
  | .others rows files => { s with rows, files }

/-- A new logger on any storage. -/
def loggerSystem (sha256 : Bytes → Bytes) (pg : Bool) (rows : List AuditRow) (files : Directory) :
    Noema.Lib.System System (LoggerEvent F) where
  init := ⟨AuditLogger.new pg, rows, files⟩
  step s e := some (e.apply sha256 s)

/-! ## The invariant -/

/-- The tree was built by its class. -/
def Built (sha256 : Bytes → Bytes) (s : System) : Prop :=
  ∀ t, s.logger.tree = some t → ∃ hs, IncrementalMerkleTree.Holds sha256 t hs

/-- Before initialization there are no leaves, or `get_proof_for_task` has loaded them. -/
structure Sound (sha256 : Bytes → Bytes) (s : System) : Prop where
  built : Built sha256 s
  unstarted : s.logger.initialized = false →
    (s.logger.leafHashes = [] ∧ s.logger.tree = none) ∨ Synced sha256 s.logger

/-- On an initialized logger nothing else is required. -/
theorem sound_of_initialized {s : System} (h : Built sha256 s)
    (hinit : s.logger.initialized = true) : Sound sha256 s :=
  ⟨h, fun hnot => by simp [hinit] at hnot⟩

theorem built_of_synced {s : System} (h : Synced sha256 s.logger) : Built sha256 s := by
  intro t ht
  obtain ⟨t', htree, hholds⟩ := h
  rw [htree] at ht
  cases ht
  exact ⟨_, hholds⟩

/-- `_sync_tree` returns: it keeps a tree with as many leaves as the list, and else builds the
tree of the list. -/
theorem syncTree_cases (sha256 : Bytes → Bytes) (s : System) :
    (syncTree sha256 s = (.ok (), s) ∧ ∃ t, s.logger.tree = some t ∧
        t.count = s.logger.leafHashes.length) ∨
      ∃ t, IncrementalMerkleTree.Holds sha256 t s.logger.leafHashes ∧
        syncTree sha256 s = (.ok (), { s with logger := { s.logger with tree := some t } }) := by
  rw [syncTree, PyM.bind_ok (PyM.get_apply s)]
  split
  · obtain ⟨t, hinit, hholds⟩ := IncrementalMerkleTree.init_holds sha256 s.logger.leafHashes
    refine .inr ⟨t, hholds, ?_⟩
    rw [hinit]
    rfl
  · next hcount =>
    obtain ⟨t, htree, hlen⟩ := Option.map_eq_some_iff.mp (not_not.mp hcount)
    exact .inl ⟨rfl, t, htree, hlen⟩

/-- A logger with this tree ends with the tree of these leaves when it synchronizes: the tree has
another number of leaves, and so is built anew, or it is the right one. -/
def SyncsTo (sha256 : Bytes → Bytes) (tree : Option IncrementalMerkleTree) (leaves : List Bytes) :
    Prop :=
  ∀ t, tree = some t → t.count ≠ leaves.length ∨ IncrementalMerkleTree.Holds sha256 t leaves

/-- A tree of as many other leaves is kept. -/
theorem syncTree_built {s : System} (h : Built sha256 s) :
    ∃ t hs, IncrementalMerkleTree.Holds sha256 t hs ∧
      (SyncsTo sha256 s.logger.tree s.logger.leafHashes → hs = s.logger.leafHashes) ∧
      syncTree sha256 s = (.ok (), { s with logger := { s.logger with tree := some t } }) := by
  obtain ⟨hsync, t, htree, hlen⟩ | ⟨t, hholds, hsync⟩ := syncTree_cases sha256 s
  · obtain ⟨hs, hholds⟩ := h t htree
    refine ⟨t, hs, hholds, fun hsyncs => ?_, hsync.trans (by rw [← htree])⟩
    have hkept := (hsyncs t htree).resolve_left (not_not_intro hlen)
    rw [← hholds.real_eq, hkept.real_eq]
  · exact ⟨t, _, hholds, fun _ => rfl, hsync⟩

/-- `_sync_tree` restores the invariant. -/
def Syncs (sha256 : Bytes → Bytes) (s : System) : Prop :=
  ∃ s', syncTree sha256 s = (.ok (), s') ∧ Sound sha256 s'

theorem syncTree_sound {s : System} (h : Sound sha256 s) : Syncs sha256 s := by
  obtain ⟨hsync, -⟩ | ⟨t, hholds, hsync⟩ := syncTree_cases sha256 s
  · exact ⟨s, hsync, h⟩
  · have hsynced : Synced sha256 { s.logger with tree := some t } := ⟨t, rfl, hholds⟩
    exact ⟨_, hsync, ⟨built_of_synced hsynced, fun _ => .inr hsynced⟩⟩

/-- So does it after `get_proof_for_task` has loaded the leaves of a logger without any. -/
theorem loadLeafHashes_syncs (io : Io) {s : System} (h : Sound sha256 s)
    (hempty : s.logger.leafHashes = []) : Syncs sha256 (loadLeafHashes io s).2 := by
  obtain ⟨hashes, hload⟩ : ∃ hashes, (loadLeafHashes io s).2 =
      { s with logger := { s.logger with leafHashes := hashes } } := ⟨_, rfl⟩
  rw [hload]
  have hbuilt : Built sha256 { s with logger := { s.logger with leafHashes := hashes } } := h.built
  obtain ⟨hsync, t, htree, hlen⟩ | ⟨t, hholds, hsync⟩ := syncTree_cases sha256 _
  · refine ⟨_, hsync, ⟨hbuilt, fun hnot => ?_⟩⟩
    obtain ⟨-, hnone⟩ | ⟨t', htree', hholds⟩ := h.unstarted hnot
    · rw [htree] at hnone
      cases hnone
    · -- the old tree was the empty one, so there was nothing to load
      rw [htree'] at htree
      cases htree
      rw [hempty] at hholds
      rw [IncrementalMerkleTree.count, hholds.real_eq] at hlen
      have hnil : hashes = [] := List.eq_nil_of_length_eq_zero hlen.symm
      subst hnil
      exact .inr ⟨t, htree', hholds⟩
  · have hsynced : Synced sha256 { s.logger with leafHashes := hashes, tree := some t } :=
      ⟨t, rfl, hholds⟩
    exact ⟨_, hsync, ⟨built_of_synced hsynced, fun _ => .inr hsynced⟩⟩

/-! ## What the calls keep -/

open PyM in
theorem syncTree_triple {E : PyExc → System → Prop} :
    Triple (Syncs sha256) (syncTree sha256) (fun _ => Sound sha256) E := by
  rintro s ⟨s', hsync, hsound⟩
  rw [hsync]
  exact hsound

open PyM in
theorem lift_sound {α : Type} (x : Except PyExc α) :
    Triple (Sound sha256) (PyM.lift x) (fun _ => Sound sha256) fun _ => Sound sha256 :=
  .lift (fun _ _ _ hs => hs) fun _ _ _ hs => hs

open PyM in
theorem raise_sound {α : Type} (e : PyExc) :
    Triple (Sound sha256) (PyM.raise e : PyM System α) (fun _ => Sound sha256)
      fun _ => Sound sha256 :=
  .raise fun _ hs => hs

open PyM in
theorem proofAt_sound (leafData : PyVal F) (index : Int) (fileHashes : List Bytes) :
    Triple (Sound sha256) (proofAt sha256 leafData index fileHashes) (fun _ => Sound sha256)
      fun _ => Sound sha256 := by
  refine .bind (.keeps_get) fun s => ?_
  refine .ite (fun _ => ?_) fun _ => lift_sound _
  refine .bind (syncTree_triple.imp (fun _ => syncTree_sound) (fun _ _ hs => hs) fun _ _ hs => hs)
    fun _ => .bind .keeps_get fun s' => ?_
  split
  · exact .ite (fun _ => lift_sound _) fun _ => lift_sound _
  · exact lift_sound _

open PyM in
theorem getProofFallback_sound (io : Io) (tenantId taskId : String) :
    Triple (Sound sha256) (getProofFallback sha256 io tenantId taskId : PyM System (TaskProof F))
      (fun _ => Sound sha256) fun _ => Sound sha256 := by
  refine .bind (lift_sound _) fun name => .bind .keeps_get fun s => ?_
  split
  · exact raise_sound _
  · extract_lets rest
    have hrest : Triple (Sound sha256) (rest ()) (fun _ => Sound sha256) fun _ => Sound sha256 := by
      refine .bind (lift_sound _) fun _ => .bind (lift_sound _) fun rows => ?_
      split
      · exact raise_sound _
      · refine .bind (lift_sound _) fun leafData => ?_
        split
        · exact .bind (proofAt_sound _ _ _) fun _ => .keeps_pure
        · exact .bind (proofAt_sound _ _ _) fun _ => .keeps_pure
        · exact .ite (fun _ => .bind (raise_sound _) fun _ => .keeps_pure)
            fun _ => .bind (raise_sound _) fun _ => .keeps_pure
    exact .ite (fun _ => hrest) fun _ => .bind (raise_sound _) fun _ => hrest

open PyM in
theorem getProofPg_sound (jsonb : JsonbCodec F) (io : Io) (tenantId taskId : String) :
    Triple (Sound sha256) (getProofPg sha256 jsonb io tenantId taskId) (fun _ => Sound sha256)
      fun _ => Sound sha256 := by
  unfold getProofPg
  extract_lets rest
  have hrest : Triple (Sound sha256) (rest ()) (fun _ => Sound sha256) fun _ => Sound sha256 := by
    refine .bind (Q := fun a s => Sound sha256 s ∧ s = a) (.get fun s hs => ⟨hs, rfl⟩) fun a => ?_
    split
    · exact .raise fun _ hs => hs.1
    · refine .bind (Q := fun _ s => Sound sha256 s ∧ s = a)
        (.lift (fun _ _ _ hs => hs) fun _ _ _ hs => hs.1) fun leafData => ?_
      extract_lets sync
      have hafter : Triple (Syncs sha256) (sync ()) (fun _ => Sound sha256)
          fun _ => Sound sha256 := by
        refine .bind syncTree_triple fun _ => .bind .keeps_get fun s => ?_
        split
        · exact raise_sound _
        · exact .bind (lift_sound _) fun _ => .keeps_pure
      refine .ite (fun hempty => .bind (Q := fun _ => Syncs sha256) ?_ fun _ => hafter) fun _ =>
        hafter.imp (fun _ hs => syncTree_sound hs.1) (fun _ _ hs => hs) fun _ _ hs => hs
      rintro s ⟨hs, rfl⟩
      exact loadLeafHashes_syncs io hs hempty
  exact .ite (fun _ => hrest) fun _ => .bind (raise_sound _) fun _ => hrest

open PyM in
theorem getProofForTask_sound (jsonb : JsonbCodec F) (io : Io) (tenantId taskId : String) :
    Triple (Sound sha256) (getProofForTask sha256 jsonb io tenantId taskId) (fun _ => Sound sha256)
      fun _ => Sound sha256 := by
  refine .bind .keeps_get fun s => ?_
  refine .ite (fun _ => getProofFallback_sound io tenantId taskId) fun _ => ?_
  refine .tryCatch (getProofPg_sound jsonb io tenantId taskId) fun e => ?_
  split
  · exact raise_sound _
  · exact getProofFallback_sound io tenantId taskId

/-! ## Initialization -/

/-- The first call on the logger goes to the database. -/
def usesTable (io : Io) (lg : AuditLogger) : Bool := lg.pg && !lg.fileFallback && io.ddl

/-- The leaves `_load_leaf_hashes` reads. -/
def tableLeaves (io : Io) (rows : List AuditRow) : List Bytes :=
  if io.fetch then
    (fromhexAll ((sortedBy AuditRow.blockIndex (rows.filter fun r => r.commitment.isSome)).filterMap
      AuditRow.commitment)).getD []
  else []

/-- The records of the directory, or why they cannot be read. -/
def readRecords (F : Type) [PyBuiltins F] (io : Io) (files : Directory) :
    Except PyExc (List (List (String × PyVal F))) := do
  io.decode
  allDicts (fallbackRecords io files)

/-- What initialization reads from the storage. -/
def initialLeaves (F : Type) [PyBuiltins F] (io : Io) (s : System) : Except PyExc (List Bytes) :=
  if usesTable io s.logger then .ok (tableLeaves io s.rows)
  else if io.mkdir then
    (readRecords F io s.files).map fun records => (sortRecords records).filterMap recordCommitment
  else .error (.osError "cannot create directory")

theorem initializePg_eq {io : Io} {s : System} (h : Built sha256 s) (hddl : io.ddl = true) :
    ∃ t hs, IncrementalMerkleTree.Holds sha256 t hs ∧
      (SyncsTo sha256 s.logger.tree (tableLeaves io s.rows) → hs = tableLeaves io s.rows) ∧
      initializePg sha256 io s = (.ok (), { s with logger := { s.logger with
        initialized := true, leafHashes := tableLeaves io s.rows, tree := some t } }) := by
  have hload : loadLeafHashes io s = (.ok (), { s with logger := { s.logger with
      leafHashes := tableLeaves io s.rows } }) := rfl
  have hbuilt : Built sha256 { s with logger := { s.logger with
      leafHashes := tableLeaves io s.rows } } := h
  obtain ⟨t, hs, hholds, hcount, hsync⟩ := syncTree_built hbuilt
  refine ⟨t, hs, hholds, hcount, ?_⟩
  rw [initializePg, if_pos hddl, PyM.bind_ok hload, PyM.bind_ok hsync]
  rfl

/-- Loading from the directory clears the leaves first. -/
theorem loadLeafHashesFallback_eq (io : Io) (s : System) :
    loadLeafHashesFallback F io s =
      match readRecords F io s.files with
      | .ok records => (.ok (), { s with logger := { s.logger with
          leafHashes := (sortRecords records).filterMap recordCommitment } })
      | .error e => (.error e, { s with logger := { s.logger with leafHashes := [] } }) := by
  rw [loadLeafHashesFallback, PyM.bind_ok (PyM.modify_apply _ _), readRecords]
  rcases io.decode with x | _
  · rfl
  · rw [PyM.bind_ok (PyM.lift_apply _ _), PyM.bind_ok (PyM.get_apply _)]
    show (PyM.lift (allDicts (fallbackRecords io s.files : List (PyVal F))) >>= _) _ = _
    rw [ok_bind]
    cases allDicts (fallbackRecords io s.files : List (PyVal F)) <;> rfl

/-- **Initialization** replaces the leaves by what it reads and synchronizes the tree. When it
raises, it has not read anything: the leaves are as before, or gone. -/
theorem initializeLogger_cases (io : Io) {s : System} (h : Built sha256 s) :
    (∃ leaves t hs, initialLeaves F io s = .ok leaves ∧ IncrementalMerkleTree.Holds sha256 t hs ∧
        (SyncsTo sha256 s.logger.tree leaves → hs = leaves) ∧
        initializeLogger sha256 F io s = (.ok (), { s with logger := { s.logger with
          initialized := true, fileFallback := !usesTable io s.logger, leafHashes := leaves,
          tree := some t } })) ∨
      ∃ e, initialLeaves F io s = .error e ∧
        initializeLogger sha256 F io s = (.error e, { s with logger := { s.logger with
          initialized := true, fileFallback := true,
          leafHashes := if io.mkdir then [] else s.logger.leafHashes } }) := by
  by_cases htable : usesTable io s.logger = true
  · -- the database answers
    obtain ⟨hmode, hddl⟩ := Bool.and_eq_true_iff.mp htable
    have hfallback : s.logger.fileFallback = !usesTable io s.logger := by
      rw [htable]
      simpa using (Bool.and_eq_true_iff.mp hmode).2
    obtain ⟨t, hs, hholds, hcount, hpg⟩ := initializePg_eq h hddl
    refine .inl ⟨_, t, hs, if_pos htable, hholds, hcount, ?_⟩
    rw [initializeLogger, PyM.bind_ok (PyM.get_apply s), if_pos hmode, PyM.tryCatch, hpg,
      ← hfallback]
  · -- the logger falls back to files, directly or after the database has failed
    have hfiles : initializeLogger sha256 F io s = initializeFallback sha256 F io s := by
      rw [initializeLogger, PyM.bind_ok (PyM.get_apply s)]
      split
      · next hmode =>
        have hddl : ¬ io.ddl = true := fun hddl => htable (by rw [usesTable, hmode, hddl]; rfl)
        rw [PyM.tryCatch, initializePg, if_neg hddl]
        rfl
      · rfl
    rw [hfiles, Bool.not_eq_true _ |>.mp htable]
    unfold initialLeaves
    rw [if_neg htable, initializeFallback, PyM.bind_ok (PyM.modify_apply _ _)]
    by_cases hmkdir : io.mkdir = true
    · simp only [if_pos hmkdir]
      have hload := loadLeafHashesFallback_eq (F := F) io { s with logger := { s.logger with
        fileFallback := true, initialized := true } }
      cases hrecords : readRecords F io s.files with
      | error e =>
        rw [hrecords] at hload
        exact .inr ⟨e, rfl, PyM.bind_error hload _⟩
      | ok records =>
        rw [hrecords] at hload
        have hbuilt : Built sha256 { s with logger := { s.logger with
            fileFallback := true, initialized := true
            leafHashes := (sortRecords records).filterMap recordCommitment } } := h
        obtain ⟨t, hs, hholds, hcount, hsync⟩ := syncTree_built hbuilt
        exact .inl ⟨_, t, hs, rfl, hholds, hcount, (PyM.bind_ok hload _).trans hsync⟩
    · simp only [if_neg hmkdir]
      exact .inr ⟨_, rfl, rfl⟩

/-! ## One call -/

/-- The line of an event is written or given up: its details can be copied, its tenant id names a
file, and the write raises nothing but the `OSError` that is caught. -/
def Filed (io : Io) (event : AuditEvent F) : Prop :=
  io.asdict = .ok () ∧ (∃ name, tenantFilename event.tenantId = .ok name) ∧
    ∀ x, io.write ≠ .raised x

/-- The record of an event can be stored: in the table, or in the file of its tenant. -/
def Storable (table : Bool) (io : Io) (event : AuditEvent F) : Prop :=
  (table = true ∧ io.insert = true ∧ (PyVal.dict event.details).isJson = true) ∨ Filed io event

/-- The text of a file; a file that is not there has none. -/
def textOf (files : Directory) (name : String) : List Char := (files.lookup name).getD []

theorem textOf_appendText_nil (name : String) (files : Directory) :
    textOf (appendText name [] files) = textOf files := by
  funext n
  rw [textOf, textOf, lookup_appendText]
  split <;> simp

/-- `_write_fallback` raises unless the line is written or given up, and it leaves no text then. -/
theorem writeFallback_cases (io : Io) (e : AuditEvent F) (s : System) :
    (Filed io e ∧ ∃ files, writeFallback io e s = (.ok (), { s with files })) ∨
      ¬ Filed io e ∧ ∃ x files, textOf files = textOf s.files ∧
        writeFallback io e s = (.error x, { s with files }) := by
  rw [writeFallback]
  cases hcopy : io.asdict with
  | error x =>
    refine .inr ⟨fun hfiled => ?_, x, s.files, rfl, rfl⟩
    cases hcopy.symm.trans hfiled.1
  | ok _ =>
    rw [PyM.bind_ok (PyM.lift_apply _ _)]
    cases hname : tenantFilename e.tenantId with
    | error x =>
      refine .inr ⟨?_, x, s.files, rfl, rfl⟩
      rintro ⟨-, ⟨name, hok⟩, -⟩
      cases hname.symm.trans hok
    | ok name =>
      rw [PyM.bind_ok (PyM.lift_apply _ _)]
      cases hwrite : io.write with
      | written => exact .inl ⟨⟨hcopy, ⟨name, hname⟩, by simp [hwrite]⟩, _, rfl⟩
      | osError reached =>
        refine .inl ⟨⟨hcopy, ⟨name, hname⟩, by simp [hwrite]⟩, ?_⟩
        cases reached with
        | none => exact ⟨s.files, rfl⟩
        | some text => exact ⟨_, rfl⟩
      | raised x =>
        refine .inr ⟨fun hfiled => hfiled.2.2 x hwrite, x, _, ?_, rfl⟩
        -- the file was opened for nothing
        exact textOf_appendText_nil (jsonlName name) s.files

/-- **Storing** an event raises exactly when the database does not take it and its line cannot be
written. Then nothing is stored. -/
theorem store_cases (io : Io) (e : AuditEvent F) (n : Nat) (s : System) :
    (Storable (!s.logger.fileFallback && s.logger.pg) io e ∧ ∃ fallback rows files,
        store io e n s = (.ok (), { s with
          logger := { s.logger with fileFallback := fallback }, rows, files })) ∨
      (¬ Storable (!s.logger.fileFallback && s.logger.pg) io e) ∧ ∃ x fallback files,
        textOf files = textOf s.files ∧ store io e n s = (.error x, { s with
          logger := { s.logger with fileFallback := fallback }, files }) := by
  rw [store, PyM.bind_ok (PyM.get_apply s)]
  -- With the table first: an insert that fails leads to the file, in the same call.
  by_cases hmode : (!s.logger.fileFallback && s.logger.pg) = true
  · rw [if_pos hmode, hmode]
    split
    · next hok =>
      exact .inl ⟨.inl ⟨rfl, by simpa using hok⟩, s.logger.fileFallback, _, s.files, rfl⟩
    · next hrefused =>
      rw [PyM.bind_ok (PyM.modify_apply _ _)]
      obtain ⟨hfiled, files, hwrite⟩ | ⟨hnot, x, files, htext, hwrite⟩ := writeFallback_cases io e
        { s with logger := { s.logger with fileFallback := true } }
      · exact .inl ⟨.inr hfiled, true, s.rows, files, hwrite⟩
      · refine .inr ⟨?_, x, true, files, htext, hwrite⟩
        rintro (⟨-, hinsert, hjson⟩ | hfiled)
        · exact hrefused (by rw [hinsert, hjson]; rfl)
        · exact hnot hfiled
  · rw [if_neg hmode]
    obtain ⟨hfiled, files, hwrite⟩ | ⟨hnot, x, files, htext, hwrite⟩ := writeFallback_cases io e s
    · exact .inl ⟨.inr hfiled, s.logger.fileFallback, s.rows, files, hwrite⟩
    · refine .inr ⟨?_, x, s.logger.fileFallback, files, htext, hwrite⟩
      rintro (⟨htable, -⟩ | hfiled)
      · exact hmode htable
      · exact hnot hfiled

/-- **The rest of the call**, once the event is serialized: the commitment joins the leaves and the
tree, whatever storing the event does then. -/
theorem logInitialized_cases {io : Io} (hio : io.serialize = .ok ()) (e : AuditEvent F)
    {s : System} (h : Built sha256 s) :
    ∃ t hs, IncrementalMerkleTree.Holds sha256 t hs ∧
      (Synced sha256 s.logger → hs = s.logger.leafHashes ++ [e.leafHash sha256]) ∧
      ((Storable (!s.logger.fileFallback && s.logger.pg) io e ∧ ∃ e' fallback rows files,
          logInitialized sha256 io e s = (.ok e', { s with
            logger := { s.logger.appended (e.leafHash sha256) t with fileFallback := fallback }
            rows, files })) ∨
        (¬ Storable (!s.logger.fileFallback && s.logger.pg) io e) ∧ ∃ x fallback files,
          textOf files = textOf s.files ∧ logInitialized sha256 io e s = (.error x, { s with
            logger := { s.logger.appended (e.leafHash sha256) t with fileFallback := fallback }
            files })) := by
  obtain ⟨t₀, hs₀, hholds₀, -, hsync⟩ := syncTree_built h
  obtain ⟨t, happ, hholds⟩ := IncrementalMerkleTree.append_holds hholds₀ (e.leafHash sha256)
  refine ⟨t, _, hholds, fun hsynced => ?_, ?_⟩
  · -- the tree was up to date
    obtain ⟨t', htree, hholds'⟩ := hsynced
    rw [syncTree_of_synced ⟨t', htree, hholds'⟩] at hsync
    have hsame : some t' = some t₀ := by
      rw [← htree]
      exact congrArg (fun r => r.2.logger.tree) hsync
    cases hsame
    rw [← hholds₀.real_eq, hholds'.real_eq]
  · obtain ⟨s₁, hs₁⟩ : ∃ s₁ : System,
        s₁ = { s with logger := s.logger.appended (e.leafHash sha256) t } := ⟨_, rfl⟩
    obtain ⟨e', hcommitted⟩ : ∃ e', e' = e.committed sha256 (rootOf sha256 hs₀)
        s.logger.leafHashes.length := ⟨_, rfl⟩
    -- The previous root is that of the tree as it was synchronized; then the commitment joins both,
    -- and only then the record is stored.
    have hprev : getPrevRoot sha256 s = (.ok (rootOf sha256 hs₀),
        { s with logger := { s.logger with tree := some t₀ } }) := by
      rw [getPrevRoot, PyM.bind_ok hsync, PyM.bind_ok (PyM.get_apply _)]
      simp only [hholds₀.root_eq, PyM.lift_apply]
    have hrun : logInitialized sha256 io e s = (store io e' s.logger.leafHashes.length >>= fun _ =>
        pure e') s₁ := by
      rw [logInitialized, hio, PyM.bind_ok (PyM.lift_apply _ _), PyM.bind_ok (PyM.get_apply s),
        PyM.bind_ok hprev, PyM.bind_ok (PyM.modify_apply _ _), PyM.bind_ok (PyM.get_apply _),
        hcommitted, hs₁]
      dsimp only
      rw [AuditEvent.leafHash] at happ
      rw [happ, PyM.bind_ok (PyM.lift_apply _ _), PyM.bind_ok (PyM.modify_apply _ _)]
      rfl
    have hstorable : ∀ table, Storable table io e' ↔ Storable table io e := by
      intro table
      rw [hcommitted]
      exact Iff.rfl
    rw [hrun, ← hstorable]
    obtain ⟨hyes, fallback, rows, files, hstore⟩ | ⟨hno, x, fallback, files, htext, hstore⟩ :=
      store_cases io e' s.logger.leafHashes.length s₁
    · rw [hs₁] at hyes hstore ⊢
      exact .inl ⟨hyes, e', fallback, rows, files, PyM.bind_ok hstore _⟩
    · rw [hs₁] at hno htext hstore ⊢
      exact .inr ⟨hno, x, fallback, files, htext, PyM.bind_error hstore _⟩

theorem logInitialized_built (io : Io) (e : AuditEvent F) {s : System} (h : Built sha256 s) :
    Built sha256 (logInitialized sha256 io e s).2 ∧
      (logInitialized sha256 io e s).2.logger.initialized = s.logger.initialized := by
  cases hio : io.serialize with
  | error x =>
    rw [logInitialized_unserialized hio]
    exact ⟨h, rfl⟩
  | ok _ =>
    obtain ⟨t, hs, hholds, -, ⟨-, e', fallback, rows, files, hrun⟩ |
      ⟨-, x, fallback, files, -, hrun⟩⟩ := logInitialized_cases hio e h
    all_goals
      rw [hrun]
      refine ⟨fun t' ht' => ?_, rfl⟩
      cases ht'
      exact ⟨hs, hholds⟩

/-! ## Reachable loggers -/

theorem initializeLogger_sound (io : Io) {s : System} (h : Built sha256 s) :
    Sound sha256 (initializeLogger sha256 F io s).2 := by
  obtain ⟨leaves, t, hs, -, hholds, -, hinit⟩ | ⟨e, -, hinit⟩ :=
    initializeLogger_cases (F := F) io h
  · rw [hinit]
    refine sound_of_initialized (fun t' ht' => ?_) rfl
    cases ht'
    exact ⟨hs, hholds⟩
  · rw [hinit]
    exact sound_of_initialized h rfl

theorem log_sound (io : Io) (e : AuditEvent F) {s : System} (h : Sound sha256 s) :
    Sound sha256 (log sha256 io e s).2 := by
  rw [log, PyM.bind_ok (PyM.get_apply s)]
  by_cases hinit : s.logger.initialized = true
  · rw [if_pos hinit]
    obtain ⟨hbuilt, hkept⟩ := logInitialized_built io e h.built
    exact sound_of_initialized hbuilt (hkept.trans hinit)
  · rw [if_neg hinit]
    have hstart := initializeLogger_sound (F := F) io h.built
    obtain ⟨leaves, t, hs, -, hholds, -, hok⟩ | ⟨x, -, herror⟩ :=
      initializeLogger_cases (F := F) io h.built
    · rw [hok] at hstart
      rw [PyM.bind_ok hok]
      obtain ⟨hbuilt, hkept⟩ := logInitialized_built io e hstart.built
      exact sound_of_initialized hbuilt hkept
    · rw [herror] at hstart
      rw [PyM.bind_error herror]
      exact hstart

/-- Every reachable logger satisfies the invariant. -/
theorem sound_of_reachable {pg : Bool} {rows : List AuditRow} {files : Directory} {s : System}
    (h : (loggerSystem (F := F) sha256 pg rows files).Reachable s) : Sound sha256 s := by
  refine h.invariant (P := Sound sha256) ⟨fun _ ht => (by cases ht), fun _ => .inl ⟨rfl, rfl⟩⟩
    fun s event s' hs hstep => ?_
  cases hstep
  cases event with
  | initializing io => exact initializeLogger_sound io hs.built
  | log io e => exact log_sound io e hs
  | getProofForTask jsonb io tenantId taskId =>
    exact (getProofForTask_sound jsonb io tenantId taskId).final hs
  | others rows files => exact ⟨hs.built, hs.unstarted⟩

/-! ## Calls that raise -/

/-- The number of leaves and the root of the tree. A logger without a tree has the one that
`_sync_tree` would make of no leaves. -/
def AuditLogger.treeView (sha256 : Bytes → Bytes) (lg : AuditLogger) : Nat × Except PyExc Bytes :=
  match lg.tree with
  | some t => (t.count, t.root)
  | none => (0, .ok (rootOf sha256 []))

/-- The leaves, the tree and the stored records are the same. -/
structure Untouched (sha256 : Bytes → Bytes) (s s' : System) : Prop where
  leafHashes : s'.logger.leafHashes = s.logger.leafHashes
  tree : s'.logger.treeView sha256 = s.logger.treeView sha256
  rows : s'.rows = s.rows
  files : textOf s'.files = textOf s.files

/-- If the call raises, it leaves everything as it was. -/
def FailsClean (sha256 : Bytes → Bytes) (io : Io) (e : AuditEvent F) (s : System) : Prop :=
  ∀ x s', log sha256 io e s = (.error x, s') → Untouched sha256 s s'

/-- What the first call needs, which initializes the logger: initialization fails with no leaves to
lose, or it reads the leaves that the logger has and the event cannot be serialized, or the event
can be stored. A logger that has leaves before it is initialized has read them for a proof; it
cannot be told apart from one that appended the event when it held the event already. -/
def FirstCovered (sha256 : Bytes → Bytes) (io : Io) (e : AuditEvent F) (s : System) : Prop :=
  match initialLeaves F io s, io.serialize with
  | .error _, _ => io.mkdir = false ∨ s.logger.leafHashes = []
  | .ok leaves, .error _ => s.logger.leafHashes = leaves
  | .ok leaves, .ok _ => Storable (usesTable io s.logger) io e ∨
      s.logger.leafHashes = leaves ++ [e.leafHash sha256]

/-- The event cannot be serialized, which comes before anything is changed, or it can be stored. -/
def Covered (sha256 : Bytes → Bytes) (io : Io) (e : AuditEvent F) (s : System) : Prop :=
  if s.logger.initialized then
    io.serialize ≠ .ok () ∨ Storable (!s.logger.fileFallback && s.logger.pg) io e
  else FirstCovered sha256 io e s

/-- A failed append is seen in the leaves. -/
theorem not_untouched_of_append {s s' : System} {leaf : Bytes}
    (h : s'.logger.leafHashes = s.logger.leafHashes ++ [leaf]) : ¬ Untouched sha256 s s' := by
  intro hsame
  rw [hsame.leafHashes] at h
  exact absurd (List.append_right_eq_self.mp h.symm) (List.cons_ne_nil _ _)

theorem treeView_eq {lg : AuditLogger} {t : IncrementalMerkleTree} {hs : List Bytes}
    (htree : lg.tree = some t) (hholds : IncrementalMerkleTree.Holds sha256 t hs) :
    lg.treeView sha256 = (hs.length, .ok (rootOf sha256 hs)) := by
  rw [AuditLogger.treeView, htree]
  dsimp only
  rw [hholds.root_eq, IncrementalMerkleTree.count, hholds.real_eq]

/-- The tree that a logger shows before it is initialized is that of its leaves. -/
theorem treeView_unstarted {s : System} (h : Sound sha256 s)
    (hinit : s.logger.initialized = false) :
    s.logger.treeView sha256 =
      (s.logger.leafHashes.length, .ok (rootOf sha256 s.logger.leafHashes)) := by
  obtain ⟨hnil, hnone⟩ | ⟨t, htree, hholds⟩ := h.unstarted hinit
  · rw [AuditLogger.treeView, hnone, hnil]
    rfl
  · exact treeView_eq htree hholds

theorem failsClean_initialized (io : Io) (e : AuditEvent F) {s : System} (h : Built sha256 s)
    (hinit : s.logger.initialized = true) :
    FailsClean sha256 io e s ↔
      io.serialize ≠ .ok () ∨ Storable (!s.logger.fileFallback && s.logger.pg) io e := by
  rw [FailsClean, log_initialized hinit]
  cases hio : io.serialize with
  | error x =>
    refine iff_of_true (fun x' s' hx => ?_) (.inl fun hok => by cases hok)
    cases (logInitialized_unserialized hio e s).symm.trans hx
    exact ⟨rfl, rfl, rfl, rfl⟩
  | ok _ =>
    rw [or_iff_right (not_not_intro rfl)]
    obtain ⟨t, hs, -, -, ⟨hyes, e', fallback, rows, files, hrun⟩ |
      ⟨hno, x, fallback, files, -, hrun⟩⟩ := logInitialized_cases hio e h
    · refine iff_of_true (fun x s' hx => ?_) hyes
      cases hrun.symm.trans hx
    · refine iff_of_false (fun hclean => ?_) hno
      exact not_untouched_of_append rfl (hclean x _ hrun)

/-- A call that fails to initialize the logger. -/
theorem failsClean_error (io : Io) (e : AuditEvent F) {s : System} {x : PyExc}
    (hinit : ¬ s.logger.initialized = true)
    (herror : initializeLogger sha256 F io s = (.error x, { s with logger := { s.logger with
      initialized := true, fileFallback := true,
      leafHashes := if io.mkdir then [] else s.logger.leafHashes } })) :
    FailsClean sha256 io e s ↔ io.mkdir = false ∨ s.logger.leafHashes = [] := by
  rw [FailsClean, log, PyM.bind_ok (PyM.get_apply s), if_neg hinit, PyM.bind_error herror]
  constructor
  · intro hclean
    have hleft := (hclean x _ rfl).leafHashes
    dsimp only at hleft
    by_cases hmkdir : io.mkdir = true
    · rw [if_pos hmkdir] at hleft
      exact .inr hleft.symm
    · exact .inl (by simpa using hmkdir)
  · rintro hsafe x' s' hx
    cases hx
    refine ⟨?_, rfl, rfl, rfl⟩
    dsimp only
    rcases hsafe with hmkdir | hnil
    · rw [if_neg (by simp [hmkdir])]
    · rw [hnil, ite_self]

/-- The first call on a logger. -/
theorem failsClean_uninitialized (io : Io) (e : AuditEvent F) {s : System} (h : Sound sha256 s)
    (hinit : s.logger.initialized = false) :
    FailsClean sha256 io e s ↔ FirstCovered sha256 io e s := by
  have hnot : ¬ s.logger.initialized = true := by simp [hinit]
  rw [FirstCovered]
  obtain ⟨leaves, t₀, hs₀, hleaves, hholds₀, hsyncs, hok⟩ | ⟨x, hleaves, herror⟩ :=
    initializeLogger_cases (F := F) io h.built
  · have hstart := initializeLogger_sound (F := F) io h.built
    rw [hok] at hstart
    rw [hleaves, FailsClean, log_first hok hinit]
    cases hio : io.serialize with
    | error x =>
      rw [logInitialized_unserialized hio]
      constructor
      · intro hclean
        exact (hclean x _ rfl).leafHashes.symm
      · rintro hsame x' s' hx
        cases hx
        refine ⟨hsame.symm, ?_, rfl, rfl⟩
        -- the tree was that of the leaves, and it is again
        have hkept : hs₀ = leaves := hsyncs fun t ht => by
          obtain ⟨-, hnone⟩ | ⟨t', htree', hholds'⟩ := h.unstarted hinit
          · rw [hnone] at ht
            cases ht
          · cases htree'.symm.trans ht
            exact .inr (hsame ▸ hholds')
        rw [treeView_unstarted h hinit, hsame, ← hkept]
        exact treeView_eq rfl hholds₀
    | ok _ =>
      have htable : (!!usesTable io s.logger && s.logger.pg) = usesTable io s.logger := by
        simp only [usesTable, Bool.not_not]
        cases s.logger.pg <;> simp
      obtain ⟨t, hs, hholds, hsynced, hrun⟩ := logInitialized_cases hio e hstart.built
      simp only [htable] at hrun
      rcases hrun with ⟨hyes, e', fallback, rows, files, hrun⟩ |
        ⟨hno, x, fallback, files, htext, hrun⟩
      · refine iff_of_true (fun x s' hx => ?_) (.inl hyes)
        cases hrun.symm.trans hx
      · constructor
        · intro hclean
          exact .inr (hclean x _ hrun).leafHashes.symm
        · rintro (hyes | hsame) x' s' hx
          · exact absurd hyes hno
          · -- the leaves had been loaded, and the event was the last of them
            cases hrun.symm.trans hx
            have hrebuilt : hs₀ = leaves := hsyncs fun t₁ ht₁ => .inl fun heq => by
              obtain ⟨-, hnone⟩ | ⟨t', htree', hholds'⟩ := h.unstarted hinit
              · rw [hnone] at ht₁
                cases ht₁
              · cases htree'.symm.trans ht₁
                rw [IncrementalMerkleTree.count, hholds'.real_eq, hsame] at heq
                simp at heq
            have hleaf := hsynced ⟨t₀, rfl, hrebuilt ▸ hholds₀⟩
            refine ⟨hsame.symm, ?_, rfl, htext⟩
            rw [treeView_unstarted h hinit, hsame]
            exact (treeView_eq rfl hholds).trans (by rw [hleaf])
  · rw [hleaves]
    exact failsClean_error io e hnot herror

/-- An event whose tenant id is no file name. -/
def parentEvent : AuditEvent FloatText := { sampleEvent "start" with tenantId := ".." }

end Noema.Audit
