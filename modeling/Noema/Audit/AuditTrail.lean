import Noema.Audit.LoggerRuns
import Noema.Lib.Sha256

/-!
# Proofs, storage modes and restarts of the audit trail

What a caller of `AuditLogger` can rely on after any sequence of `log` calls, on a new logger whose
storage answers. There are three questions, and each is settled for every history.

- **Proofs.** The inclusion proof of a logged task is accepted exactly in file mode
  (`proofAccepted_iff_fileMode`). In database mode the query of `get_proof_for_task` does not select
  `task_id`, so the leaf is rebuilt without it (`pgLeafData`), and the rebuilt leaf serializes
  differently from every leaf of an event of a task (`pgLeafData_ne`). The reader of the fallback
  files has no such gap.
- **Modes.** The two lookups never return the same leaf hash (`modes_never_agree`). They return the
  same block index exactly for tasks that were logged once: the query takes the first row of a task,
  and the scan of the files the last record (`lookups_eq`).
- **Restart.** A new logger on the directory of a running one continues its log
  (`restart_lossless`): it has the same leaves in the same order, also when the directory is listed
  in another order, and it answers the next call alike. A record whose details could not be copied
  is on no disk, and after such a call the two differ (`restart_loses`).

The hash is arbitrary throughout. Where a proof has to be rejected, the hypothesis is that the
strings hashed for this very history do not collide (`CheckCollisionFree`), which a concrete history
can decide.
-/

namespace Noema.Audit

open Noema.Lib Noema.Utils PyJson

variable {F : Type} [PyBuiltins F] {sha256 : Bytes → Bytes}

/-! ## The proofs a logger hands out -/

/-- The event is about task `k` of tenant `t`. -/
def AuditEvent.isTask (t k : String) (e : AuditEvent F) : Bool :=
  e.taskId == some k && e.tenantId == t

/-- The inclusion proof of the event at position `i`, for the leaf data `d`. -/
def proofOf (sha256 : Bytes → Bytes) (hashes : List Bytes) (i : Nat) (d : PyVal F) : InclusionProof :=
  ⟨safeHash sha256 (serializeToBytes d), leafPath sha256 hashes i, rootOf sha256 hashes, i⟩

theorem fromhexOrRaise_hex (b : Bytes) : fromhexOrRaise (hex b) = .ok b := by
  rw [fromhexOrRaise, fromhex_hex]

theorem pathFromDict_map (path : List (Bytes × Bool)) :
    pathFromDict (path.map fun (h, d) => (hex h, d)) = .ok path := by
  induction path with
  | nil => rfl
  | cons e path ih =>
    rw [List.map_cons, pathFromDict, fromhexOrRaise_hex, ok_bind, ih]
    rfl

/-- `from_dict` reads back what `to_dict` writes. -/
theorem fromDict_toDict (p : InclusionProof) : InclusionProof.fromDict p.toDict = .ok p := by
  rw [InclusionProof.fromDict, InclusionProof.toDict, fromhexOrRaise_hex, ok_bind,
    pathFromDict_map, ok_bind, fromhexOrRaise_hex]
  rfl

theorem proofAt_of_synced {s : System} (h : Synced sha256 s.logger) (d : PyVal F) {i : Nat}
    (hi : i < s.logger.leafHashes.length) (fileHashes : List Bytes) :
    proofAt sha256 d i fileHashes s = (.ok (proofOf sha256 s.logger.leafHashes i d), s) := by
  have hsync := syncTree_of_synced h
  obtain ⟨t, htree, hholds⟩ := h
  have hcond : s.logger.leafHashes.length ≠ 0 ∧ 0 ≤ (i : Int) ∧ (i : Int) < s.logger.leafHashes.length := by
    omega
  have hcount : t.count = s.logger.leafHashes.length := by
    rw [IncrementalMerkleTree.count, hholds.real_eq]
  have hproof := hholds.inclusionProof_eq serializeToBytes d hi
  rw [proofAt, PyM.bind_ok (PyM.get_apply s), if_pos hcond, PyM.bind_ok hsync,
    PyM.bind_ok (PyM.get_apply s)]
  simp only [htree, hcount, if_true, hproof, PyM.lift_apply]
  rfl

/-- In file mode the last event of the task is proved. -/
theorem FileMode.getProofFallback_eq {evs : List (AuditEvent F)} {s : System}
    (h : FileMode sha256 evs s) {io : Io} (hio : io.Good) {t k name : String}
    (hname : tenantFilename t = .ok name) {e : AuditEvent F}
    (hlast : (evs.filter (AuditEvent.isTask t k)).getLast? = some e) {i : Nat} (hi : i < evs.length)
    (he : evs[i] = e) :
    getProofFallback sha256 io t k s
      = (.ok ⟨(proofOf sha256 s.logger.leafHashes i (buildLeafData e).plain).toDict,
          (buildLeafData e).plain⟩, s) := by
  have hsub : (evs.filter fun e => e.file? == some (jsonlName name)).filter (AuditEvent.isTask t k)
      = evs.filter (AuditEvent.isTask t k) := by
    rw [List.filter_filter]
    refine List.filter_congr ?_
    intro e _
    by_cases htask : e.tenantId = t
    · simp [AuditEvent.file?, htask, hname]
    · simp [AuditEvent.isTask, htask]
  -- the tenant's file is there, since it has a row of the task
  have hfile : s.files.lookup (jsonlName name)
      = some (linesText (evs.filter fun e => e.file? == some (jsonlName name))) := by
    rw [h.files, fileText]
    split
    · rename_i hnil
      rw [hnil] at hsub
      rw [← hsub] at hlast
      cases hlast
    · rfl
  have hrows := allDicts_parseLines (evs.filter fun e => e.file? == some (jsonlName name))
  -- the last line that matches is the record of the last event
  have htarget : ((((evs.filter fun e => e.file? == some (jsonlName name)).map fun e =>
      plainPairs e.record).filter (matchesTask t k)).getLast?) = some (plainPairs e.record) := by
    rw [List.filter_map, List.getLast?_map]
    have hcomp : (matchesTask t k ∘ fun e : AuditEvent F => plainPairs e.record)
        = AuditEvent.isTask t k := funext fun e => matchesTask_record t k e
    rw [hcomp, hsub, hlast]
    rfl
  have hindex := record_blockIndex (he ▸ (h.numbered i hi).1)
  have hlen : i < s.logger.leafHashes.length := by rwa [h.leafHashes, List.length_map]
  rw [getProofFallback, hname, PyM.bind_ok (PyM.lift_apply _ _), PyM.bind_ok (PyM.get_apply s)]
  simp only [hfile]
  rw [if_pos (hio.canRead _), hio.decode, PyM.bind_ok (PyM.lift_apply _ _), hrows,
    PyM.bind_ok (PyM.lift_apply _ _)]
  simp only [htarget]
  rw [buildLeafDataRow_record, PyM.bind_ok (PyM.lift_apply _ _)]
  simp only [hindex, Option.getD_some]
  rw [PyM.bind_ok (proofAt_of_synced h.synced _ hlen _)]
  rfl

/-- The leaf data rebuilt from the selected columns: `task_id` is not among them. -/
def pgLeafData (jsonb : JsonbCodec F) (e : AuditEvent F) : PyVal F :=
  let details := jsonb.decode (dumps true (.dict e.details))
  .dict [("timestamp", .str e.timestamp.isoformat), ("event_type", .str e.eventType),
    ("tenant_id", .str e.tenantId), ("user_id", .str e.userId), ("task_id", .none),
    ("details", if details.truthy then details else .dict [])]

theorem buildLeafDataRow_selected (jsonb : JsonbCodec F) (e : AuditEvent F) (n : Nat) :
    buildLeafDataRow ((e.row n).selected jsonb) = .ok (pgLeafData jsonb e) := by
  simp [buildLeafDataRow, AuditRow.selected, AuditEvent.row, getItem, List.lookup, isoformatOrStr,
    pgLeafData]

/-- The row of an event of the log. -/
def AuditEvent.ownRow (e : AuditEvent F) : AuditRow := e.row (e.blockIndex.getD 0).toNat

theorem PgMode.rows_eq_map {evs : List (AuditEvent F)} {s : System} (h : PgMode sha256 evs s) :
    s.rows = evs.map AuditEvent.ownRow := by
  rw [h.rows]
  refine List.ext_getElem (by simp) ?_
  intro i hi hi'
  rw [List.length_mapIdx] at hi
  rw [List.getElem_mapIdx, List.getElem_map, AuditEvent.ownRow, (h.numbered i hi).1]
  rfl

theorem Numbered.ownRow_blockIndex {evs : List (AuditEvent F)} (h : Numbered sha256 evs) {i : Nat}
    (hi : i < evs.length) : evs[i].ownRow.blockIndex = i := by
  show ((evs[i].blockIndex.getD 0).toNat : Int) = i
  rw [(h i hi).1]
  rfl

/-- The query selects the first event of the task. -/
theorem PgMode.selectTask_eq {evs : List (AuditEvent F)} {s : System} (h : PgMode sha256 evs s)
    (t k : String) :
    selectTask t k s.rows = (evs.filter (AuditEvent.isTask t k)).head?.map AuditEvent.ownRow := by
  have hsorted : s.rows.Pairwise fun r r' => r.blockIndex ≤ r'.blockIndex := by
    rw [h.rows_eq_map, List.pairwise_iff_getElem]
    intro i j hi hj hij
    rw [List.length_map] at hi hj
    rw [List.getElem_map, List.getElem_map, h.numbered.ownRow_blockIndex hi,
      h.numbered.ownRow_blockIndex hj]
    omega
  rw [selectTask, sortedBy_of_pairwise (hsorted.filter _), h.rows_eq_map, List.filter_map,
    List.head?_map]
  refine congrArg (fun l => (List.head? l).map AuditEvent.ownRow)
    (List.filter_congr fun e he => ?_)
  obtain ⟨i, hi, rfl⟩ := List.getElem_of_mem he
  have hcommit : evs[i].ownRow.commitment.isSome = true := by
    show evs[i].commitment.isSome = true
    rw [(h.numbered i hi).2]
    rfl
  show (evs[i].tenantId == t && evs[i].taskId == some k && evs[i].ownRow.commitment.isSome) = _
  rw [hcommit, Bool.and_true, AuditEvent.isTask, Bool.and_comm]

/-- In database mode the first event of the task is proved, for other leaf data. -/
theorem PgMode.getProofForTask_eq {evs : List (AuditEvent F)} {s : System}
    (h : PgMode sha256 evs s) {io : Io} (hio : io.Good) (jsonb : JsonbCodec F)
    {t k : String} {e : AuditEvent F}
    (hfirst : (evs.filter (AuditEvent.isTask t k)).head? = some e) {i : Nat} (hi : i < evs.length)
    (he : evs[i] = e) :
    getProofForTask sha256 jsonb io t k s
      = (.ok ⟨(proofOf sha256 s.logger.leafHashes i (pgLeafData jsonb e)).toDict,
          pgLeafData jsonb e⟩, s) := by
  have hsync := syncTree_of_synced h.synced
  have hsel := h.selectTask_eq t k
  rw [hfirst] at hsel
  have hlen : i < s.logger.leafHashes.length := by rwa [h.leafHashes, List.length_map]
  have hne : s.logger.leafHashes ≠ [] := List.ne_nil_of_length_pos (by omega)
  obtain ⟨tree, htree, hholds⟩ := h.synced
  -- the row has its own block number, so the proof is that of leaf `i`
  have hindex : e.ownRow.blockIndex = i := by
    subst he
    exact h.numbered.ownRow_blockIndex hi
  have hproof := hholds.inclusionProof_eq serializeToBytes (pgLeafData jsonb e) hlen
  have hpg : getProofPg sha256 jsonb io t k s
      = (.ok ⟨(proofOf sha256 s.logger.leafHashes i (pgLeafData jsonb e)).toDict,
          pgLeafData jsonb e⟩, s) := by
    rw [AuditEvent.ownRow] at hindex
    rw [getProofPg, if_pos hio.fetchrow]
    dsimp only
    rw [PyM.bind_ok (PyM.get_apply s)]
    simp only [hsel, Option.map_some]
    rw [AuditEvent.ownRow, buildLeafDataRow_selected, PyM.bind_ok (PyM.lift_apply _ _), if_neg hne]
    rw [PyM.bind_ok hsync, PyM.bind_ok (PyM.get_apply s)]
    simp only [htree]
    rw [hindex, hproof]
    rfl
  -- the file fallback is off
  have hmode : ¬ (s.logger.fileFallback || !s.logger.pg) = true := by simp [h.fallback, h.pg]
  rw [getProofForTask, PyM.bind_ok (PyM.get_apply s), if_neg hmode, PyM.tryCatch, hpg]

/-! ## A sample history -/

/-- An event of task "k" of tenant "a". -/
def sampleEvent (eventType : String) : AuditEvent FloatText where
  timestamp := ⟨"2024-01-01 00:00:00", "2024-01-01T00:00:00"⟩
  eventType := eventType
  tenantId := "a"
  userId := "u"
  taskId := some "k"
  details := [("n", .int 1)]
  ipAddress := none
  userAgent := none
  commitment := none
  chainLink := none
  blockIndex := none
  details_wf := by simp [PyVal.WF, wfPairs]

/-- Every operation succeeds; the directory is listed in its own order. -/
def goodIo : Io where
  ddl := true
  fetch := true
  insert := true
  fetchrow := true
  mkdir := true
  serialize := .ok ()
  asdict := .ok ()
  decode := .ok ()
  write := .written
  canRead _ := true
  glob := id
  glob_perm _ := List.Perm.refl _

theorem goodIo_good : goodIo.Good :=
  ⟨⟨rfl, rfl, rfl, rfl, rfl, rfl, rfl, rfl, fun _ => rfl⟩, rfl⟩

/-- The driver without a codec: a JSONB column comes back as text. -/
def textJsonb : JsonbCodec FloatText := ⟨fun text => .str (String.ofList text), fun _ => trivial⟩

/-- A history that logs the task once. -/
def sampleCalls : List (Io × AuditEvent FloatText) := [(goodIo, sampleEvent "start")]

theorem sampleCalls_good : ∀ c ∈ sampleCalls, c.1.Good := by
  intro c hc
  rw [sampleCalls, List.mem_singleton] at hc
  rw [hc]
  exact goodIo_good

theorem sampleCalls_isJson : ∀ c ∈ sampleCalls, (PyVal.dict c.2.details).isJson = true := by
  decide

theorem sampleCalls_logged : ∃ c ∈ sampleCalls, c.2.isTask "a" "k" = true := by decide

theorem tenantFilename_sample : tenantFilename "a" = .ok "a" := by decide +kernel

theorem sampleCalls_valid : ∀ c ∈ sampleCalls, ∃ name, tenantFilename c.2.tenantId = .ok name := by
  intro c hc
  rw [sampleCalls, List.mem_singleton] at hc
  rw [hc]
  exact ⟨"a", tenantFilename_sample⟩

/-! ## Accepted proofs -/

/-- The returned proof dict, read back with `from_dict`, and the returned leaf data. -/
def readBack (result : Except PyExc (TaskProof F)) : Option (InclusionProof × PyVal F) :=
  match result with
  | .ok d =>
    match InclusionProof.fromDict d.toProofDict with
    | .ok p => some (p, d.leafData)
    | .error _ => none
  | .error _ => none

omit [PyBuiltins F] in
theorem readBack_toDict (p : InclusionProof) (d : PyVal F) :
    readBack (.ok ⟨p.toDict, d⟩) = some (p, d) := by
  rw [readBack, fromDict_toDict]

/-- The returned proof is accepted for the returned leaf data and has the root of all
commitments. -/
def ProofAccepted (sha256 : Bytes → Bytes) (commitments : List Bytes)
    (result : Except PyExc (TaskProof F)) : Prop :=
  ∃ r ∈ readBack result, verifyInclusionProof sha256 serializeToBytes r.1 r.2 = true ∧
    computeRoot sha256 commitments = .ok r.1.rootHash

instance (commitments : List Bytes) (result : Except PyExc (TaskProof F)) :
    Decidable (ProofAccepted sha256 commitments result) :=
  inferInstanceAs (Decidable (∃ r ∈ readBack result, _))

/-- The commitments of a sequence of calls, in order. -/
def commitments (sha256 : Bytes → Bytes) (calls : List (Io × AuditEvent F)) : List Bytes :=
  calls.map fun c => c.2.leafHash sha256

/-- The hash has no collision among the byte strings hashed while building the tree
of the calls and while checking the returned proof. -/
def CheckCollisionFree (sha256 : Bytes → Bytes) (calls : List (Io × AuditEvent F))
    (result : Except PyExc (TaskProof F)) : Prop :=
  ∀ r ∈ readBack result, CollisionFree sha256 (inclusionInputs sha256 serializeToBytes
    (calls.map fun c => buildLeafData c.2) r.1 r.2)

instance (calls : List (Io × AuditEvent F)) (result : Except PyExc (TaskProof F)) :
    Decidable (CheckCollisionFree sha256 calls result) :=
  inferInstanceAs (Decidable (∀ r ∈ readBack result, _))

/-- What the caller set is the same in the events of a history and in its calls. -/
theorem map_committedEvents {α : Type} (sha256 : Bytes → Bytes) (calls : List (Io × AuditEvent F))
    (f : AuditEvent F → α) (hf : ∀ e, f e.clear = f e) :
    (committedEvents sha256 calls).map f = calls.map fun c => f c.2 := by
  have h := congrArg (List.map f) (map_clear_committedEvents sha256 calls)
  rw [List.map_map, List.map_map] at h
  simpa only [Function.comp_def, hf] using h

/-- The leaves of a history are the commitments of its calls. -/
theorem map_leafHash_committedEvents (sha256 : Bytes → Bytes) (calls : List (Io × AuditEvent F)) :
    (committedEvents sha256 calls).map (AuditEvent.leafHash sha256) = commitments sha256 calls :=
  map_committedEvents sha256 calls _ fun _ => rfl

theorem length_filter_isTask (sha256 : Bytes → Bytes) (calls : List (Io × AuditEvent F))
    (t k : String) :
    ((committedEvents sha256 calls).filter (AuditEvent.isTask t k)).length
      = (calls.filter fun c => c.2.isTask t k).length := by
  have h := congrArg (List.countP id)
    (map_committedEvents sha256 calls (AuditEvent.isTask t k) fun _ => rfl)
  rw [List.countP_map, List.countP_map] at h
  rw [← List.countP_eq_length_filter, ← List.countP_eq_length_filter]
  exact h

theorem filter_isTask_ne_nil (sha256 : Bytes → Bytes) {calls : List (Io × AuditEvent F)}
    {t k : String} (hlogged : ∃ c ∈ calls, c.2.isTask t k = true) :
    (committedEvents sha256 calls).filter (AuditEvent.isTask t k) ≠ [] := by
  obtain ⟨c, hc, htask⟩ := hlogged
  have hpos : 0 < (calls.filter fun c => c.2.isTask t k).length :=
    List.length_pos_of_mem (List.mem_filter.mpr ⟨hc, htask⟩)
  rw [← length_filter_isTask sha256] at hpos
  exact List.ne_nil_of_length_pos hpos

omit [PyBuiltins F] in
/-- An element that `getLast?` or `head?` selects from the events of a task, with its
position. -/
theorem exists_index {evs : List (AuditEvent F)} {t k : String} {e : AuditEvent F}
    (h : e ∈ evs.filter (AuditEvent.isTask t k)) :
    ∃ (i : Nat) (hi : i < evs.length), evs[i] = e ∧ e.isTask t k = true := by
  rw [List.mem_filter] at h
  obtain ⟨i, hi, he⟩ := List.getElem_of_mem h.1
  exact ⟨i, hi, he, h.2⟩

/-- **File mode**: the proof of every logged task is accepted. -/
theorem FileMode.proofAccepted {evs : List (AuditEvent F)} {s : System} (h : FileMode sha256 evs s)
    {io : Io} (hio : io.Good) (jsonb : JsonbCodec F) {t k name : String}
    (hname : tenantFilename t = .ok name) (hne : evs.filter (AuditEvent.isTask t k) ≠ []) :
    ProofAccepted sha256 s.logger.leafHashes (getProofForTask sha256 jsonb io t k s).1 := by
  obtain ⟨i, hi, he, -⟩ := exists_index (List.getLast_mem hne)
  have hproof := h.getProofFallback_eq hio hname (List.getLast?_eq_some_getLast hne) hi he
  have hcall : getProofForTask sha256 jsonb io t k s = getProofFallback sha256 io t k s := by
    have hmode : (s.logger.fileFallback || !s.logger.pg) = true := by simp [h.fallback]
    rw [getProofForTask, PyM.bind_ok (PyM.get_apply s), if_pos hmode]
  have hlen : i < s.logger.leafHashes.length := by rwa [h.leafHashes, List.length_map]
  rw [hcall, hproof]
  refine ⟨_, readBack_toDict _ _, ?_, computeRoot_eq sha256 _⟩
  refine verify_leafPath serializeToBytes hlen ?_ _
  simp only [h.leafHashes, List.getElem_map, he, AuditEvent.leafHash, serializeToBytes_plain]

theorem pgLeafData_wf (jsonb : JsonbCodec F) (e : AuditEvent F) : (pgLeafData jsonb e).WF := by
  have hdetails : (if (jsonb.decode (dumps true (.dict e.details))).truthy then
      jsonb.decode (dumps true (.dict e.details)) else .dict [] : PyVal F).WF := by
    split
    · exact jsonb.decode_wf _
    · exact ⟨List.nodup_nil, trivial⟩
  exact ⟨by simp, trivial, trivial, trivial, trivial, trivial, hdetails, trivial⟩

/-- The leaf data rebuilt from a row serializes differently from that of any event of
a task. -/
theorem pgLeafData_ne (jsonb : JsonbCodec F) (e : AuditEvent F) {e' : AuditEvent F} {t k : String}
    (htask : e'.isTask t k = true) :
    serializeToBytes (pgLeafData jsonb e) ≠ serializeToBytes (buildLeafData e') := by
  intro h
  have htaskId : e'.taskId = some k := by
    rw [AuditEvent.isTask, Bool.and_eq_true, beq_iff_eq] at htask
    exact htask.1
  have hfield := serializeToBytes_lookup (pgLeafData_wf jsonb e) (leafFields_wf e') h (k := "task_id") (v := .none)
    (w := optStr e'.taskId) (by simp) (by simp [AuditEvent.leafFields])
  rw [htaskId] at hfield
  cases hfield

/-- **Database mode**: the proof of no logged task is accepted, unless the hash
collides. -/
theorem PgMode.not_proofAccepted (hlen : ∀ x, (sha256 x).length = 32)
    {calls : List (Io × AuditEvent F)} {s : System}
    (h : PgMode sha256 (committedEvents sha256 calls) s) {io : Io} (hio : io.Good)
    (jsonb : JsonbCodec F) {t k : String} (hlogged : ∃ c ∈ calls, c.2.isTask t k = true)
    (hcol : CheckCollisionFree sha256 calls (getProofForTask sha256 jsonb io t k s).1) :
    ¬ ProofAccepted sha256 (commitments sha256 calls) (getProofForTask sha256 jsonb io t k s).1 := by
  have hne := filter_isTask_ne_nil sha256 hlogged
  obtain ⟨e, hfirst⟩ : ∃ e, ((committedEvents sha256 calls).filter
      (AuditEvent.isTask t k)).head? = some e := ⟨_, List.head?_eq_some_head hne⟩
  obtain ⟨i, hi, he, htask⟩ := exists_index (List.mem_of_head? hfirst)
  rw [h.getProofForTask_eq hio jsonb hfirst hi he] at hcol ⊢
  rintro ⟨r, hr, hver, -⟩
  have hcol := hcol _ (readBack_toDict _ _)
  rw [readBack_toDict] at hr
  cases hr
  -- both leaf data are hashed in the check, so equal digests would make them equal
  have hhashes : s.logger.leafHashes
      = leafHashes sha256 serializeToBytes (calls.map fun c => buildLeafData c.2) := by
    rw [h.leafHashes, map_leafHash_committedEvents, leafHashes, List.map_map]
    rfl
  have hleafIn : serializeToBytes (buildLeafData e)
      ∈ (calls.map fun c => buildLeafData c.2).map serializeToBytes := by
    rw [← map_committedEvents sha256 calls buildLeafData fun _ => rfl, ← he]
    exact List.mem_map_of_mem (List.mem_map_of_mem (List.getElem_mem hi))
  have hleaf : treeNode sha256 s.logger.leafHashes 0 i = e.leafHash sha256 := by
    have hilen : i < s.logger.leafHashes.length := by rwa [h.leafHashes, List.length_map]
    show paddedLeaf _ i = _
    rw [paddedLeaf_of_lt hilen]
    simp only [h.leafHashes, List.getElem_map, he]
  have hne' : s.logger.leafHashes ≠ [] := by
    rw [h.leafHashes]
    exact fun hnil => by simp [List.map_eq_nil_iff.mp hnil] at hi
  have h32 : ∀ b ∈ s.logger.leafHashes, b.length = 32 := by
    intro b hb
    rw [h.leafHashes] at hb
    obtain ⟨e', -, rfl⟩ := List.mem_map.mp hb
    exact hlen _
  have hclimb : PerfectTree.climb (hashPair sha256)
      (safeHash sha256 (serializeToBytes (pgLeafData jsonb e)))
      (leafPath sha256 s.logger.leafHashes i)
        = treeNode sha256 s.logger.leafHashes (depth s.logger.leafHashes.length) 0 := by
    rw [verifyInclusionProof, if_neg (fun hneq => hneq rfl), decide_eq_true_iff,
      walkPath_eq_climb] at hver
    rw [← rootOf_of_ne_nil sha256 hne']
    exact hver
  have hstart := climb_authPath_injective hlen hne' h32 hcol
    (fun b hb => List.mem_append_left _ (List.mem_append_right _ (hhashes ▸ hb)))
    (depth s.logger.leafHashes.length) (Nat.zero_add _)
    (Nat.lt_of_lt_of_le (by rwa [h.leafHashes, List.length_map]) (le_two_pow_depth _)) (hlen _)
    (fun b hb => List.mem_append_right _ (List.mem_cons_of_mem _ hb)) hclimb
  rw [hleaf] at hstart
  exact pgLeafData_ne jsonb e htask (hcol _ (List.mem_append_right _ List.mem_cons_self) _
    (List.mem_append_left _ (List.mem_append_left _ hleafIn)) hstart)

/-- **When proofs are accepted.** For every sequence of `log` calls with JSON details on
a new logger, without I/O errors, and every task that it logged: the proof that
`get_proof_for_task` returns for the task is accepted, with the root of all
commitments so far, exactly when the logger is in file mode. -/
theorem proofAccepted_iff_fileMode (sha256 : Bytes → Bytes) (hlen : ∀ x, (sha256 x).length = 32)
    (jsonb : JsonbCodec F) (pg : Bool) (calls : List (Io × AuditEvent F))
    (hgood : ∀ c ∈ calls, c.1.Good)
    (hjson : ∀ c ∈ calls, (PyVal.dict c.2.details).isJson = true) (t k : String)
    (hlogged : ∃ c ∈ calls, c.2.isTask t k = true)
    (hreturned : pg = false → ∃ name, tenantFilename t = .ok name) (io : Io) (hio : io.Good)
    (hcol : pg = true → CheckCollisionFree sha256 calls
      (getProofForTask sha256 jsonb io t k (logAll sha256 calls (fresh pg))).1) :
    ProofAccepted sha256 (commitments sha256 calls)
      (getProofForTask sha256 jsonb io t k (logAll sha256 calls (fresh pg))).1 ↔ pg = false := by
  have hne : calls ≠ [] := by
    obtain ⟨c, hc, -⟩ := hlogged
    exact List.ne_nil_of_mem hc
  cases pg with
  | false =>
    have h := fileMode_logAll sha256 hne hgood
    obtain ⟨name, hname⟩ := hreturned rfl
    have hacc := h.proofAccepted hio jsonb hname (filter_isTask_ne_nil sha256 hlogged)
    rw [h.leafHashes, map_leafHash_committedEvents] at hacc
    exact ⟨fun _ => rfl, fun _ => hacc⟩
  | true =>
    have hrej := (pgMode_logAll sha256 hne hgood hjson).not_proofAccepted hlen hio jsonb hlogged
      (hcol rfl)
    exact ⟨fun hacc => absurd hacc hrej, fun hfalse => by cases hfalse⟩

/-- The digests of the leaf and of what the query rebuilds. -/
theorem sampleCalls_leaves : CollisionFree Sha256.digest
    (sampleCalls.map (fun c => serializeToBytes (buildLeafData c.2)) ++
      sampleCalls.map fun c => serializeToBytes (pgLeafData textJsonb c.2)) :=
  collisionFree_of_nodup List.head? (by decide +kernel)

theorem sampleCalls_collisionFree : CheckCollisionFree Sha256.digest sampleCalls
    (getProofForTask Sha256.digest textJsonb goodIo "a" "k"
      (logAll Sha256.digest sampleCalls (fresh true))).1 := by
  have hpg := pgMode_logAll Sha256.digest (by simp [sampleCalls]) sampleCalls_good
    sampleCalls_isJson
  have hlookup := hpg.getProofForTask_eq (t := "a") (k := "k") (i := 0) goodIo_good textJsonb rfl
    (by decide) rfl
  have hpath : leafPath Sha256.digest
      (logAll Sha256.digest sampleCalls (fresh true)).logger.leafHashes 0 = [] := by
    rw [hpg.leafHashes]
    rfl
  intro r hr
  rw [hlookup, readBack_toDict] at hr
  cases hr
  have hbuild : buildInputs Sha256.digest (leafHashes Sha256.digest serializeToBytes
      (sampleCalls.map fun c => buildLeafData c.2)) = [] := by decide +kernel
  rw [inclusionInputs, proofOf, hpath, hbuild, List.append_nil, List.map_map,
    walkInputs]
  exact sampleCalls_leaves

/-- The theorem at work on both modes of a sample history. -/
theorem proofAccepted_iff_fileMode_sample :
    ProofAccepted Sha256.digest (commitments Sha256.digest sampleCalls)
      (getProofForTask Sha256.digest textJsonb goodIo "a" "k"
        (logAll Sha256.digest sampleCalls (fresh false))).1 ∧
    ¬ ProofAccepted Sha256.digest (commitments Sha256.digest sampleCalls)
      (getProofForTask Sha256.digest textJsonb goodIo "a" "k"
        (logAll Sha256.digest sampleCalls (fresh true))).1 := by
  have hiff := fun pg hcol => proofAccepted_iff_fileMode Sha256.digest Sha256.length_digest
    textJsonb pg sampleCalls sampleCalls_good sampleCalls_isJson "a" "k" sampleCalls_logged
    (fun _ => ⟨"a", tenantFilename_sample⟩) goodIo goodIo_good hcol
  refine ⟨(hiff false (fun h => by cases h)).mpr rfl, fun hacc => ?_⟩
  cases (hiff true fun _ => sampleCalls_collisionFree).mp hacc

/-- In database mode the proof of a logged task is rejected: the query leaves out
`task_id`. -/
theorem proofRejected_pgMode : (∃ c ∈ sampleCalls, c.2.isTask "a" "k" = true) ∧
    ¬ ProofAccepted Sha256.digest (commitments Sha256.digest sampleCalls)
      (getProofForTask Sha256.digest textJsonb goodIo "a" "k"
        (logAll Sha256.digest sampleCalls (fresh true))).1 :=
  ⟨sampleCalls_logged, (pgMode_logAll Sha256.digest (by simp [sampleCalls]) sampleCalls_good
    sampleCalls_isJson).not_proofAccepted Sha256.length_digest goodIo_good textJsonb
    sampleCalls_logged sampleCalls_collisionFree⟩

/-! ## The two lookups -/

/-- Both lookups return a proof, with the same block index and the same leaf hash. -/
def SelectSame (r r' : Except PyExc (TaskProof F)) : Prop :=
  ∃ d ∈ r.toOption, ∃ d' ∈ r'.toOption, d.blockIndex = d'.blockIndex ∧ d.leafHash = d'.leafHash

instance (r r' : Except PyExc (TaskProof F)) : Decidable (SelectSame r r') :=
  inferInstanceAs (Decidable (∃ d ∈ r.toOption, _))

theorem hex_injective {a b : Bytes} (h : hex a = hex b) : a = b := by
  have ha := fromhex_hex a
  rw [h, fromhex_hex] at ha
  exact (Option.some.inj ha).symm

theorem Numbered.nodup {evs : List (AuditEvent F)} (h : Numbered sha256 evs) : evs.Nodup := by
  refine List.nodup_iff_pairwise_ne.mpr (List.pairwise_iff_getElem.mpr fun i j hi hj hij heq => ?_)
  have hindex : some (i : Int) = some (j : Int) := by
    rw [← (h i hi).1, ← (h j hj).1, heq]
  have := Option.some.inj hindex
  omega

/-- The first and the last element of a list without repetitions agree only in a list
of one element. -/
theorem head_eq_getLast_iff {α : Type} {l : List α} (hnodup : l.Nodup) {a b : α}
    (ha : l.head? = some a) (hb : l.getLast? = some b) : a = b ↔ l.length = 1 := by
  match l with
  | [] => cases ha
  | [x] =>
    cases ha
    cases hb
    simp
  | x :: y :: l =>
    cases ha
    refine ⟨?_, fun h => by simp at h⟩
    rintro rfl
    have hmem : a ∈ y :: l := by
      rw [List.getLast?_cons_cons] at hb
      exact List.mem_of_getLast? hb
    exact absurd hmem (List.nodup_cons.mp hnodup).1

/-- PostgreSQL answers with the first event of the task, the file with the last one. Their block
numbers agree only where the first event is the last one. -/
theorem lookups_eq (sha256 : Bytes → Bytes) (jsonb : JsonbCodec F)
    {calls : List (Io × AuditEvent F)} (hgood : ∀ c ∈ calls, c.1.Good)
    (hjson : ∀ c ∈ calls, (PyVal.dict c.2.details).isJson = true) {t k : String}
    (hlogged : ∃ c ∈ calls, c.2.isTask t k = true) {io io' : Io} (hio : io.Good) (hio' : io'.Good) :
    ∃ e ∈ committedEvents sha256 calls, ∃ e' ∈ committedEvents sha256 calls,
      e'.isTask t k = true ∧ ∃ d d' : TaskProof F,
        (getProofForTask sha256 jsonb io t k (logAll sha256 calls (fresh true))).1 = .ok d ∧
        (∀ name, tenantFilename t = .ok name →
          (getProofFallback sha256 io' t k (logAll sha256 calls (fresh false))).1 = .ok d') ∧
        d.leafHash = hex (safeHash sha256 (serializeToBytes (pgLeafData jsonb e))) ∧
        d'.leafHash = hex (safeHash sha256 (serializeToBytes (buildLeafData e'))) ∧
        (d.blockIndex = d'.blockIndex ↔ (calls.filter fun c => c.2.isTask t k).length = 1) := by
  have hne : calls ≠ [] := by
    obtain ⟨c, hc, -⟩ := hlogged
    exact List.ne_nil_of_mem hc
  have hpg := pgMode_logAll sha256 hne hgood hjson
  have hfile := fileMode_logAll sha256 hne hgood
  have hevs := filter_isTask_ne_nil sha256 hlogged
  obtain ⟨e, hfirst⟩ : ∃ e, ((committedEvents sha256 calls).filter
      (AuditEvent.isTask t k)).head? = some e := ⟨_, List.head?_eq_some_head hevs⟩
  obtain ⟨e', hlast⟩ : ∃ e', ((committedEvents sha256 calls).filter
      (AuditEvent.isTask t k)).getLast? = some e' := ⟨_, List.getLast?_eq_some_getLast hevs⟩
  -- `i` is the position of the first event of the task and `j` that of the last one: the block
  -- indices that the two lookups return.
  obtain ⟨i, hi, he, -⟩ := exists_index (List.mem_of_head? hfirst)
  obtain ⟨j, hj, he', htask⟩ := exists_index (List.mem_of_getLast? hlast)
  have hindex : (i : Int) = j ↔ (calls.filter fun c => c.2.isTask t k).length = 1 := by
    rw [← length_filter_isTask sha256 calls t k,
      ← head_eq_getLast_iff (hpg.numbered.nodup.filter _) hfirst hlast]
    constructor
    · intro h
      obtain rfl : i = j := by omega
      exact he.symm.trans he'
    · intro h
      have hblock := (hpg.numbered i hi).1
      rw [he, h, ← he', (hpg.numbered j hj).1] at hblock
      exact (Option.some.inj hblock).symm
  refine ⟨e, he ▸ List.getElem_mem hi, e', he' ▸ List.getElem_mem hj, htask, _, _,
    congrArg Prod.fst (hpg.getProofForTask_eq hio jsonb hfirst hi he),
    fun name hname => congrArg Prod.fst (hfile.getProofFallback_eq hio' hname hlast hj he'),
    rfl, ?_, hindex⟩
  show hex (safeHash sha256 (serializeToBytes (buildLeafData e').plain)) = _
  rw [serializeToBytes_plain]

/-- **The two storage modes never agree.** For every history of `log` calls with JSON
details, without I/O errors, and every task it logged: the lookup in database mode
and the lookup over the tenant file do not return the same block index and the same
leaf hash. The leaf hashes always differ; the block indices agree exactly when the
task was logged once. -/
theorem modes_never_agree (sha256 : Bytes → Bytes) (jsonb : JsonbCodec F)
    (calls : List (Io × AuditEvent F)) (hgood : ∀ c ∈ calls, c.1.Good)
    (hjson : ∀ c ∈ calls, (PyVal.dict c.2.details).isJson = true) (t k : String)
    (hlogged : ∃ c ∈ calls, c.2.isTask t k = true)
    (hcol : CollisionFree sha256 (calls.map (fun c => serializeToBytes (buildLeafData c.2)) ++
      calls.map fun c => serializeToBytes (pgLeafData jsonb c.2)))
    (io io' : Io) (hio : io.Good) (hio' : io'.Good) :
    ¬ SelectSame (getProofForTask sha256 jsonb io t k (logAll sha256 calls (fresh true))).1
        (getProofFallback sha256 io' t k (logAll sha256 calls (fresh false))).1 ∧
    ∀ name, tenantFilename t = .ok name →
      ∃ d d' : TaskProof F, (getProofForTask sha256 jsonb io t k (logAll sha256 calls (fresh true))).1 = .ok d ∧
        (getProofFallback sha256 io' t k (logAll sha256 calls (fresh false))).1 = .ok d' ∧
        d.leafHash ≠ d'.leafHash ∧
        (d.blockIndex = d'.blockIndex ↔ (calls.filter fun c => c.2.isTask t k).length = 1) := by
  obtain ⟨e, he, e', he', htask, d, d', hd, hd', hleaf, hleaf', hindex⟩ :=
    lookups_eq sha256 jsonb hgood hjson hlogged hio hio'
  have hother : d.leafHash ≠ d'.leafHash := by
    rw [hleaf, hleaf']
    intro heq
    -- equal digests of the two leaf data would be a collision
    refine pgLeafData_ne jsonb e htask (hcol _ (List.mem_append_right _ ?_) _
      (List.mem_append_left _ ?_) (hex_injective heq))
    · rw [← map_committedEvents sha256 calls (fun e => serializeToBytes (pgLeafData jsonb e))
        fun _ => rfl]
      exact List.mem_map_of_mem he
    · rw [← map_committedEvents sha256 calls (fun e => serializeToBytes (buildLeafData e))
        fun _ => rfl]
      exact List.mem_map_of_mem he'
  refine ⟨?_, fun name hname => ⟨d, d', hd, hd' name hname, hother, hindex⟩⟩
  rintro ⟨x, hx, x', hx', -, hsame⟩
  cases hname : tenantFilename t with
  | error err =>
    rw [getProofFallback, hname] at hx'
    cases hx'
  | ok name =>
    rw [hd] at hx
    rw [hd' name hname] at hx'
    cases hx
    cases hx'
    exact hother hsame

/-- The theorem at work on a sample history. -/
theorem modes_never_agree_sample : ¬ SelectSame
    (getProofForTask Sha256.digest textJsonb goodIo "a" "k"
      (logAll Sha256.digest sampleCalls (fresh true))).1
    (getProofFallback Sha256.digest goodIo "a" "k"
      (logAll Sha256.digest sampleCalls (fresh false))).1 :=
  (modes_never_agree Sha256.digest textJsonb sampleCalls sampleCalls_good sampleCalls_isJson "a" "k"
    sampleCalls_logged sampleCalls_leaves goodIo goodIo goodIo_good goodIo_good).1

/-- The two lookups pick different events of a task that is logged twice. -/
theorem modes_disagree :
    let calls := [(goodIo, sampleEvent "start"), (goodIo, sampleEvent "stop")]
    ¬ SelectSame
      (getProofForTask Sha256.digest textJsonb goodIo "a" "k"
        (logAll Sha256.digest calls (fresh true))).1
      (getProofFallback Sha256.digest goodIo "a" "k"
        (logAll Sha256.digest calls (fresh false))).1 := by
  rintro calls ⟨x, hx, x', hx', hsame, -⟩
  have hgood : ∀ c ∈ calls, c.1.Good := by simp [calls, goodIo_good]
  obtain ⟨-, -, -, -, -, d, d', hd, hd', -, -, hindex⟩ := lookups_eq (t := "a") (k := "k")
    Sha256.digest textJsonb hgood (by decide) (by decide) goodIo_good goodIo_good
  rw [hd] at hx
  rw [ hd' "a" tenantFilename_sample] at hx'
  cases hx
  cases hx'
  exact absurd (hindex.mp hsame) (by decide)

/-! ## Restart -/

theorem isJsonl_jsonlName (name : String) : isJsonl (jsonlName name) = true := by
  rw [isJsonl, jsonlName, List.isSuffixOf_iff_suffix, String.toList_append]
  exact List.suffix_append _ _

/-- The events of the file `name`. -/
def shard (evs : List (AuditEvent F)) (name : String) : List (AuditEvent F) :=
  evs.filter fun e => e.file? == some name

theorem FileMode.text_eq {evs : List (AuditEvent F)} {s : System} (h : FileMode sha256 evs s)
    {f : String × List Char} (hf : f ∈ s.files) :
    f.2 = linesText (shard evs f.1) ∧ shard evs f.1 ≠ [] := by
  have hlookup := (h.files f.1).symm.trans (lookup_of_mem_nodup h.nodup hf)
  rw [fileText] at hlookup
  split at hlookup
  · cases hlookup
  · rename_i hne
    exact ⟨(Option.some.inj hlookup).symm, fun hnil => hne hnil⟩

/-- Every file of the directory is a tenant file. -/
theorem FileMode.isJsonl_of_mem {evs : List (AuditEvent F)} {s : System} (h : FileMode sha256 evs s)
    {f : String × List Char} (hf : f ∈ s.files) : isJsonl f.1 = true := by
  obtain ⟨e, he⟩ := List.exists_mem_of_ne_nil _ (h.text_eq hf).2
  have hfile := (List.mem_filter.mp he).2
  rw [beq_iff_eq, AuditEvent.file?] at hfile
  split at hfile
  · rw [← Option.some.inj hfile]
    exact isJsonl_jsonlName _
  · cases hfile

/-- Reading the directory gives the records of all events with an accepted tenant id,
in some order. -/
theorem FileMode.fallbackRecords_perm {evs : List (AuditEvent F)} {s : System}
    (h : FileMode sha256 evs s) (hvalid : ∀ e ∈ evs, e.file? ≠ none) {io : Io} (hio : io.Stores) :
    ∃ es : List (AuditEvent F), es.Perm evs ∧ (fallbackRecords io s.files : List (PyVal F))
      = es.map fun e => (PyVal.dict e.record).plain := by
  have hmem : ∀ f ∈ io.glob s.files, f ∈ s.files := fun f hf => (io.glob_perm _).subset hf
  refine ⟨(io.glob s.files).flatMap fun f => shard evs f.1, ?_, ?_⟩
  -- the shards are a partition of the events, in whatever order the files are listed
  · have hnames := flatMap_shards_perm AuditEvent.file?
      ((((io.glob_perm s.files).map Prod.fst).nodup_iff).mpr h.nodup) (l := evs) ?_
    · rwa [List.flatMap_map] at hnames
    · intro e he
      obtain ⟨name, hname⟩ := Option.ne_none_iff_exists'.mp (hvalid e he)
      refine ⟨name, ?_, hname⟩
      have hne : shard evs name ≠ [] :=
        List.ne_nil_of_mem (List.mem_filter.mpr ⟨he, by simp [hname]⟩)
      have hlookup : s.files.lookup name = some (linesText (shard evs name)) := by
        rw [h.files, fileText]
        split
        · rename_i hnil
          exact absurd hnil hne
        · rfl
      rw [((io.glob_perm s.files).map Prod.fst).mem_iff]
      exact mem_names_of_lookup hlookup
  · have hall : (io.glob s.files).filter (fun f => isJsonl f.1 && io.canRead f.1)
        = io.glob s.files := by
      refine List.filter_eq_self.mpr ?_
      intro f hf
      rw [h.isJsonl_of_mem (hmem f hf), hio.canRead]
      rfl
    rw [fallbackRecords, hall, List.map_flatMap]
    refine List.flatMap_congr ?_
    intro f hf
    rw [(h.text_eq (hmem f hf)).1, parseLines_linesText]

/-- Sorted by block index, the records are those of the events in order, and their
commitments are the leaves. -/
theorem sortRecords_commitments (hlen : ∀ x, (sha256 x).length = 32) {evs es : List (AuditEvent F)}
    (hnum : Numbered sha256 evs) (hperm : es.Perm evs) :
    (sortRecords (es.map fun e => plainPairs e.record)).filterMap recordCommitment
      = evs.map (AuditEvent.leafHash sha256) := by
  have hkey : ∀ (i : Nat) (hi : i < evs.length), blockIndexKey (plainPairs evs[i].record) = i := by
    intro i hi
    rw [blockIndexKey, record_blockIndex (hnum i hi).1]
  have hsorted : (evs.map fun e => plainPairs e.record).Pairwise fun r r' =>
      blockIndexKey r < blockIndexKey r' := by
    refine List.pairwise_iff_getElem.mpr ?_
    intro i j hi hj hij
    rw [List.length_map] at hi hj
    rw [List.getElem_map, List.getElem_map, hkey i hi, hkey j hj]
    omega
  rw [sortRecords, sortedBy_eq_of_perm (hperm.map _) hsorted, List.filterMap_map]
  refine List.filterMap_eq_map_iff_forall_eq_some.mpr ?_
  intro e he
  obtain ⟨i, hi, rfl⟩ := List.getElem_of_mem he
  refine recordCommitment_record (hnum i hi).2 ?_
  exact List.ne_nil_of_length_pos (by rw [AuditEvent.leafHash, safeHash, hlen]; decide)

/-- **A new logger on the directory of a running one** reads back its leaves, and is in
file mode with the same events. -/
theorem FileMode.restart (hlen : ∀ x, (sha256 x).length = 32) {evs : List (AuditEvent F)} {s : System}
    (h : FileMode sha256 evs s) (hvalid : ∀ e ∈ evs, e.file? ≠ none) {io : Io} (hio : io.Stores) :
    ∃ s', initializeLogger sha256 F io { s with logger := AuditLogger.new false } = (.ok (), s') ∧
      FileMode sha256 evs s' := by
  obtain ⟨es, hperm, hrecords⟩ := h.fallbackRecords_perm hvalid hio
  have hdicts : allDicts (fallbackRecords io s.files : List (PyVal F))
      = .ok (es.map fun e => plainPairs e.record) := by
    rw [hrecords, ← allDicts_map, List.map_map]
    rfl
  obtain ⟨t, ht, hinit⟩ := initializeLogger_files sha256
    (s := { s with logger := AuditLogger.new false }) rfl hio hdicts
  rw [sortRecords_commitments hlen h.numbered hperm] at ht hinit
  refine ⟨_, hinit, ?_⟩
  exact {
    initialized := rfl
    leafHashes := rfl
    synced := ⟨t, rfl, ht⟩
    numbered := h.numbered
    fallback := rfl
    files := h.files
    nodup := h.nodup }

/-- **One call in file mode** whose tenant id is accepted: its event joins the others, or it
could not be serialized and nothing changes. -/
theorem FileMode.log_stores {evs : List (AuditEvent F)} {s : System} (h : FileMode sha256 evs s)
    (hvalid : ∀ e ∈ evs, e.file? ≠ none) {io : Io} (hio : io.Stores) {e : AuditEvent F}
    (he : ∃ name, tenantFilename e.tenantId = .ok name) :
    ∃ evs' : List (AuditEvent F), FileMode sha256 evs' (Noema.Audit.log sha256 io e s).2 ∧
      ∀ e ∈ evs', e.file? ≠ none := by
  cases hserialize : io.serialize with
  | error x =>
    rw [log_initialized h.initialized, logInitialized_unserialized hserialize]
    exact ⟨evs, h, hvalid⟩
  | ok _ =>
    refine ⟨_, (h.log ⟨hio, hserialize⟩ e).2, ?_⟩
    rw [List.forall_mem_append]
    refine ⟨hvalid, List.forall_mem_singleton.mpr ?_⟩
    obtain ⟨name, hname⟩ := he
    have htenant : (e.committed sha256 (rootOf sha256 s.logger.leafHashes) evs.length).tenantId
        = e.tenantId := rfl
    rw [AuditEvent.file?, htenant, hname]
    exact Option.some_ne_none _

/-- So does every sequence of such calls. -/
theorem FileMode.logAll_stores {calls : List (Io × AuditEvent F)}
    (hstores : ∀ c ∈ calls, c.1.Stores)
    (hnames : ∀ c ∈ calls, ∃ name, tenantFilename c.2.tenantId = .ok name)
    {evs : List (AuditEvent F)} {s : System} (h : FileMode sha256 evs s)
    (hvalid : ∀ e ∈ evs, e.file? ≠ none) :
    ∃ evs' : List (AuditEvent F), FileMode sha256 evs' (logAll sha256 calls s) ∧
      ∀ e ∈ evs', e.file? ≠ none := by
  induction calls generalizing evs s with
  | nil => exact ⟨evs, h, hvalid⟩
  | cons c calls ih =>
    obtain ⟨hio, hios⟩ := List.forall_mem_cons.mp hstores
    obtain ⟨hname, hnames⟩ := List.forall_mem_cons.mp hnames
    obtain ⟨evs', h', hvalid'⟩ := h.log_stores hvalid hio hname
    exact ih hios hnames h' hvalid'

/-- Two loggers in file mode with the same events give the same result for the next
call. -/
theorem FileMode.log_result_eq {evs : List (AuditEvent F)} {s s' : System}
    (h : FileMode sha256 evs s) (h' : FileMode sha256 evs s') {io : Io} (hio : io.Stores)
    (e : AuditEvent F) : (Noema.Audit.log sha256 io e s).1 = (Noema.Audit.log sha256 io e s').1 := by
  cases hserialize : io.serialize with
  | error x =>
    rw [log_initialized h.initialized, log_initialized h'.initialized,
      logInitialized_unserialized hserialize, logInitialized_unserialized hserialize]
  | ok _ =>
    have hgood : io.Good := ⟨hio, hserialize⟩
    rw [(h.log hgood e).1, (h'.log hgood e).1, h.leafHashes, h'.leafHashes]

/-- **Restart in file mode is lossless.** For every sequence of `log` calls on a new
logger without a pool, with accepted tenant ids, no I/O error and details that can be copied
and written, a new logger initialized on the same directory, listed in any order, has the same
leaves and the same root as the running one, and the next `log` call has the same result on
both: the same block index, commitment and chain link. -/
theorem restart_lossless (sha256 : Bytes → Bytes) (hlen : ∀ x, (sha256 x).length = 32)
    (calls : List (Io × AuditEvent F)) (hstores : ∀ c ∈ calls, c.1.Stores)
    (hvalid : ∀ c ∈ calls, ∃ name, tenantFilename c.2.tenantId = .ok name) (io : Io)
    (hio : io.Stores) :
    ∃ s', initializeLogger sha256 F io
        { logAll sha256 calls (fresh false) with logger := AuditLogger.new false } = (.ok (), s') ∧
      s'.logger.leafHashes = (logAll sha256 calls (fresh false)).logger.leafHashes ∧
      (getPrevRoot sha256 s').1 = (getPrevRoot sha256 (logAll sha256 calls (fresh false))).1 ∧
      ∀ (io' : Io), io'.Stores → ∀ e : AuditEvent F,
        (log sha256 io' e s').1 = (log sha256 io' e (logAll sha256 calls (fresh false))).1 := by
  cases calls with
  | nil =>
    -- the running logger has not been initialized yet
    obtain ⟨s', hinit, h'⟩ := fileMode_fresh (F := F) sha256 hio
    refine ⟨s', hinit, h'.leafHashes, ?_, fun io' hio' e => ?_⟩
    · obtain ⟨t, ht, hsync⟩ := syncTree_of_none sha256 (s := fresh false) rfl
      have hrun : getPrevRoot sha256 (fresh false) = _ :=
        (PyM.bind_ok hsync _).trans ((PyM.bind_ok (PyM.get_apply _) _).trans
          (congrArg (fun r => PyM.lift r _) ht.root_eq))
      rw [getPrevRoot_of_synced h'.synced, h'.leafHashes, logAll, hrun]
      rfl
    · obtain ⟨s, hinit', h⟩ := fileMode_fresh (F := F) sha256 hio'
      rw [logAll, log_uninitialized hinit' rfl h.initialized]
      exact h'.log_result_eq h hio' e
  | cons c calls =>
    obtain ⟨s, hinit₀, h₀⟩ := fileMode_fresh (F := F) sha256 (hstores c List.mem_cons_self)
    obtain ⟨evs, h, hevs⟩ := h₀.logAll_stores hstores hvalid (by simp)
    rw [logAll_uninitialized hinit₀ rfl h₀.initialized c.2 calls]
    obtain ⟨s', hinit, h'⟩ := h.restart hlen hevs hio
    refine ⟨s', hinit, h'.leafHashes.trans h.leafHashes.symm, ?_, fun io' hio' e => ?_⟩
    · rw [getPrevRoot_of_synced h'.synced, getPrevRoot_of_synced h.synced, h'.leafHashes,
        h.leafHashes]
    · exact h'.log_result_eq h hio' e

/-- The directory is listed backwards. -/
def backwardsIo : Io := { goodIo with glob := List.reverse, glob_perm := List.reverse_perm }

/-- The details cannot be serialized. -/
def unprintableIo : Io :=
  { goodIo with serialize := .error (.valueError "Exceeds the limit (4300 digits) for integer string conversion") }

/-- An event of another tenant. -/
def otherTenantEvent : AuditEvent FloatText := { sampleEvent "stop" with tenantId := "b" }

/-- The events of two tenants, and between them one that is not logged. -/
def mixedCalls : List (Io × AuditEvent FloatText) :=
  [(goodIo, sampleEvent "start"), (unprintableIo, sampleEvent "huge"), (goodIo, otherTenantEvent)]

theorem mixedCalls_stores : ∀ c ∈ mixedCalls, c.1.Stores :=
  List.forall_mem_cons.mpr ⟨goodIo_good.toStores, List.forall_mem_cons.mpr
    ⟨⟨rfl, rfl, rfl, rfl, rfl, rfl, rfl, rfl, fun _ => rfl⟩,
      List.forall_mem_singleton.mpr goodIo_good.toStores⟩⟩

theorem mixedCalls_valid : ∀ c ∈ mixedCalls, ∃ name, tenantFilename c.2.tenantId = .ok name :=
  List.forall_mem_cons.mpr ⟨⟨"a", tenantFilename_sample⟩, List.forall_mem_cons.mpr
    ⟨⟨"a", tenantFilename_sample⟩, List.forall_mem_singleton.mpr ⟨"b", by decide +kernel⟩⟩⟩

/-- The theorem at work on the files of two tenants, listed backwards. -/
theorem restart_lossless_mixed : ∃ s', initializeLogger Sha256.digest FloatText backwardsIo
      { logAll Sha256.digest mixedCalls (fresh false) with logger := AuditLogger.new false }
        = (.ok (), s') ∧
    s'.logger.leafHashes = (logAll Sha256.digest mixedCalls (fresh false)).logger.leafHashes := by
  have hbackwards : backwardsIo.Stores := ⟨rfl, rfl, rfl, rfl, rfl, rfl, rfl, rfl, fun _ => rfl⟩
  obtain ⟨s', hinit, hleaves, -⟩ := restart_lossless Sha256.digest Sha256.length_digest mixedCalls
    mixedCalls_stores mixedCalls_valid backwardsIo hbackwards
  exact ⟨s', hinit, hleaves⟩

/-- No event of a run with accepted tenant ids is without a file. -/
theorem file?_committedEvents {calls : List (Io × AuditEvent F)}
    (hvalid : ∀ c ∈ calls, ∃ name, tenantFilename c.2.tenantId = .ok name) :
    ∀ e ∈ committedEvents sha256 calls, e.file? ≠ none := by
  intro e he
  have hmem : e.tenantId ∈ calls.map fun c => c.2.tenantId := by
    rw [← map_committedEvents sha256 calls AuditEvent.tenantId fun _ => rfl]
    exact List.mem_map_of_mem he
  obtain ⟨c, hc, htenant⟩ := List.mem_map.mp hmem
  obtain ⟨name, hname⟩ := hvalid c hc
  simp [AuditEvent.file?, ← htenant, hname]

/-- A call in file mode whose details cannot be copied leaves its commitment in the leaves. -/
theorem FileMode.log_uncopied {evs : List (AuditEvent F)} {s : System} (h : FileMode sha256 evs s)
    {io : Io} (hserialize : io.serialize = .ok ()) {x : PyExc} (hcopy : io.asdict = .error x)
    (e : AuditEvent F) :
    ∃ t, Noema.Audit.log sha256 io e s
      = (.error x, { s with logger := s.logger.appended (e.leafHash sha256) t }) := by
  obtain ⟨t, -, hlog⟩ := logInitialized_eq h.synced hserialize e rfl
  refine ⟨t, ?_⟩
  rw [log_initialized h.initialized]
  refine hlog (r := .error x) ?_
  have hfallback : s.logger.fileFallback = true := h.fallback
  rw [store, PyM.bind_ok (PyM.get_apply _), AuditLogger.appended, hfallback]
  show writeFallback io _ _ = _
  rw [writeFallback, hcopy]
  rfl

/-- The details of the event hold a lock. -/
def lockIo : Io :=
  { goodIo with asdict := .error (.typeError "cannot pickle '_thread.lock' object") }

def lockEvent : AuditEvent FloatText :=
  { sampleEvent "stop" with
    details := [("lock", .other ⟨"<unlocked _thread.lock object>", none⟩)]
    details_wf := by simp [PyVal.WF, wfPairs] }

/-- An event without a lock, then one with a lock: the running logger has two leaves, and the
new one on its directory has one. -/
theorem restart_loses :
    let calls := [(goodIo, sampleEvent "start"), (lockIo, lockEvent)]
    (∀ c ∈ calls, c.1.mkdir = true ∧ c.1.write = .written ∧ tenantFilename c.2.tenantId = .ok "a") ∧
      (logAll Sha256.digest calls (fresh false)).logger.leafHashes.length = 2 ∧
      ∃ s', initializeLogger Sha256.digest FloatText goodIo
          { logAll Sha256.digest calls (fresh false) with logger := AuditLogger.new false }
            = (.ok (), s') ∧ s'.logger.leafHashes.length = 1 := by
  intro calls
  have hne : sampleCalls ≠ [] := List.cons_ne_nil _ _
  have h := fileMode_logAll Sha256.digest hne sampleCalls_good
  have hserialize : lockIo.serialize = .ok () := rfl
  -- The second call raises after its commitment has joined the leaves, and no line is written.
  obtain ⟨t, hlog⟩ := h.log_uncopied hserialize rfl lockEvent
  have hall : logAll Sha256.digest calls (fresh false) = _ := congrArg Prod.snd hlog
  obtain ⟨s', hinit, h'⟩ := h.restart Sha256.length_digest
    (file?_committedEvents sampleCalls_valid) goodIo_good.toStores
  have hone : (committedEvents Sha256.digest sampleCalls).length = 1 := rfl
  refine ⟨?_, ?_, s', ?_, ?_⟩
  · exact List.forall_mem_cons.mpr ⟨⟨rfl, rfl, tenantFilename_sample⟩,
      List.forall_mem_singleton.mpr ⟨rfl, rfl, tenantFilename_sample⟩⟩
  · rw [hall]
    show List.length (List.append _ _) = _
    rw [List.append_eq, List.length_append, h.leafHashes, List.length_map, hone,
      List.length_singleton]
  · rw [hall]
    exact hinit
  · rw [h'.leafHashes, List.length_map, hone]

end Noema.Audit
