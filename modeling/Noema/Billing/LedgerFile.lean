import Noema.Billing.Ledger
import Noema.Lib.JsonLimits
import Noema.Lib.JsonText
import Noema.Lib.System

/-!
# The file of the contribution ledger (`billing/ledger.py`)

`record` appends a line to the file for each entry, and `load` puts the entries of the file in the
place of those in memory. `load` skips the lines that raise `JSONDecodeError`; of all other lines it
makes an entry, which raises `TypeError` if they are not entries; and it does not cut the list to
its bound. `record` catches an `OSError` of the file, and nothing that encoding the line raises.

Two limits of the interpreter are part of the behaviour (`Lib.JsonLimits`): integers of more than
4300 digits, and nesting that is too deep for the stack, where `depth` is what the call leaves of
it. They raise errors that are no `JSONDecodeError`, so `load` passes them on. A lone surrogate is
read and kept in memory, and is refused by the file when it is written.

- `loadLines_ok`, `loadLines_error`: what `load` does with lines. Either each is skipped or an entry
  (`LineOk`), and the list is the entries in order; or some line is neither, and the call raises.
- `loadFile_record`: an entry that is recorded is loaded again, after any lines that `load` accepts.
- **`ledger_iff`**: the entries in memory are always the last ones, and no call raises, if and only
  if every line that is recorded can be encoded, and every file that is loaded is UTF-8, holds JSON
  on no line but the entries, and holds no more entries than memory may.

The file may be edited by somebody else between two calls, to anything (`LedgerCall.edit`); the
property and the condition are both about each call. The proof is one step in both directions,
folded by `System.Run.always_iff`.
-/

namespace Noema.Billing

open Noema.Lib PyJson

variable {F : Type}

/-! ## Entries -/

/-- What the factories of `LedgerEntry` give. -/
structure Fresh (F : Type) where
  entryId : String
  timestamp : F

/-- An entry in memory: its fields, in the order of the class. -/
abbrev EntryFields (F : Type) := List (String × PyVal F)

/-- The names of the fields. -/
def entryFieldNames : List String :=
  ["entry_id", "timestamp", "node_id", "task_id", "subtask_id", "kind", "provider", "model",
    "input_tokens", "output_tokens", "total_tokens", "cost_usd", "peer", "artifact_ref", "meta"]

section Entries

variable [PyFloat F]

/-- The fields and their defaults. -/
def entryDefaults (fresh : Fresh F) : EntryFields F :=
  [("entry_id", .str fresh.entryId), ("timestamp", .float fresh.timestamp), ("node_id", .str ""),
    ("task_id", .str ""), ("subtask_id", .str ""), ("kind", .str "solution"), ("provider", .str ""),
    ("model", .str ""), ("input_tokens", .int 0), ("output_tokens", .int 0),
    ("total_tokens", .int 0), ("cost_usd", .float zeroFloat), ("peer", .str ""),
    ("artifact_ref", .str ""), ("meta", .dict [])]

/-- The entry with some fields given. -/
def makeEntry (fresh : Fresh F) (kvs : List (String × PyVal F)) : EntryFields F :=
  (entryDefaults fresh).map fun p => (p.1, (kvs.lookup p.1).getD p.2)

/-- `LedgerEntry(**data)`. -/
def entryOfData (fresh : Fresh F) : PyVal F → Except PyExc (EntryFields F)
  | .dict kvs =>
    match kvs.find? fun kv => kv.1 ∉ entryFieldNames with
    | none => .ok (makeEntry fresh kvs)
    | some kv => .error (.typeError ("LedgerEntry.__init__() got an unexpected keyword argument '" ++
        kv.1 ++ "'"))
  | v => .error (.typeError ("noema.billing.ledger.LedgerEntry() argument after ** must be a " ++
      "mapping, not " ++ v.typeName))

/-- `to_dict` of an entry that `record` makes. -/
def LedgerEntry.toDict (fresh : Fresh F) (e : LedgerEntry F) : EntryFields F :=
  [("entry_id", .str fresh.entryId), ("timestamp", .float fresh.timestamp),
    ("node_id", .str e.nodeId), ("task_id", .str e.taskId), ("subtask_id", .str e.subtaskId),
    ("kind", .str e.kind), ("provider", .str e.provider), ("model", .str e.model),
    ("input_tokens", .int e.inputTokens), ("output_tokens", .int e.outputTokens),
    ("total_tokens", .int e.totalTokens), ("cost_usd", .float e.costUsd), ("peer", .str e.peer),
    ("artifact_ref", .str e.artifactRef), ("meta", .dict e.meta)]

/-! ## Loading -/

/-- The loop of `load` over the lines that are not blank. `depth` is how much nesting the stack of
the call leaves to `json.loads`. -/
def loadLines (fresh : Nat → Fresh F) (depth : Nat) :
    List (List Char) → List (EntryFields F) → Except PyExc Unit × List (EntryFields F)
  | [], entries => (.ok (), entries)
  | line :: lines, entries =>
    match (loadsLimited depth line : Except PyExc (Option (PyVal F))) with
    -- not a `JSONDecodeError`
    | .error e => (.error e, entries)
    | .ok none => loadLines fresh depth lines entries
    | .ok (some data) =>
      match entryOfData (fresh entries.length) data with
      | .ok entry => loadLines fresh depth lines (entries ++ [entry])
      | .error e => (.error e, entries)

/-- The bytes of a file, or that it cannot be opened for reading. -/
inductive FileContent where
  | text (chars : List Char)
  | notUtf8
  | unreadable

/-- `load` (ledger.py:165): how it ends, and the entries after it. Of a file that is not UTF-8,
`given` are the lines that the reader gives before it raises. -/
def loadFile (fresh : Nat → Fresh F) (depth : Nat) (given : List (List Char)) :
    Option FileContent → Except PyExc Unit × List (EntryFields F)
  | none => (.ok (), [])
  | some (.text chars) => loadLines fresh depth (contentLines chars) []
  | some .unreadable => (.error (.osError "Permission denied"), [])
  | some .notUtf8 =>
    match loadLines fresh depth given [] with
    | (.ok _, entries) => (.error (.custom "UnicodeDecodeError" "invalid start byte"), entries)
    | (.error e, entries) => (.error e, entries)

/-- The data of a line that is an entry. -/
def entryData (depth : Nat) (line : List Char) : Option (List (String × PyVal F)) :=
  match (loadsLimited depth line : Except PyExc (Option (PyVal F))) with
  | .ok (some (.dict kvs)) => if ∀ kv ∈ kvs, kv.1 ∈ entryFieldNames then some kvs else none
  | _ => none

/-- The entries among lines, in their order, after some others. -/
def entriesAmong (fresh : Nat → Fresh F) (depth start : Nat) (lines : List (List Char)) :
    List (EntryFields F) :=
  (lines.filterMap (entryData depth)).mapIdx fun i kvs => makeEntry (fresh (start + i)) kvs

/-- The entries of a file, in their order. -/
def fileEntries (fresh : Nat → Fresh F) (depth : Nat) : Option FileContent → List (EntryFields F)
  | some (.text chars) => entriesAmong fresh depth 0 (contentLines chars)
  | _ => []

/-- A line raises `JSONDecodeError` or is an entry. -/
def LineOk (F : Type) [PyFloat F] (depth : Nat) (line : List Char) : Prop :=
  loadsLimited (F := F) depth line = .ok none ∨ ∃ kvs, entryData (F := F) depth line = some kvs

/-! ### What loading does -/

theorem entryOfData_of_entryData {depth : Nat} {line : List Char} {kvs : List (String × PyVal F)}
    (h : entryData depth line = some kvs) (fresh : Fresh F) :
    loadsLimited depth line = .ok (some (.dict kvs)) ∧
      entryOfData fresh (.dict kvs) = .ok (makeEntry fresh kvs) := by
  rw [entryData] at h
  split at h
  · next kvs' hloads =>
    obtain ⟨hnames, hkvs⟩ := Option.ite_none_right_eq_some.mp h
    cases hkvs
    refine ⟨hloads, ?_⟩
    have hfind : kvs.find? (fun kv => kv.1 ∉ entryFieldNames) = none := by
      rw [List.find?_eq_none]
      exact fun kv hkv => by simpa using hnames kv hkv
    rw [entryOfData, hfind]
  · cases h

/-- One line that is neither skipped nor an entry raises. -/
theorem loadLines_cons_error (fresh : Nat → Fresh F) {depth : Nat} {line : List Char}
    (h : ¬ LineOk F depth line) (lines : List (List Char)) (entries : List (EntryFields F)) :
    (loadLines fresh depth (line :: lines) entries).1 ≠ .ok () := by
  rw [LineOk, not_or] at h
  obtain ⟨hloads, hdata⟩ := h
  rw [loadLines]
  rcases hdecoded : loadsLimited (F := F) depth line with e | _ | data
  · exact fun hok => by cases hok
  · exact absurd hdecoded hloads
  · dsimp only
    rcases hresult : entryOfData (fresh entries.length) data with e | entry
    · exact fun hok => by cases hok
    · exfalso
      -- The line is JSON. If it is a dict of known fields it is an entry; nothing else is.
      cases data with
      | dict kvs =>
        rw [entryOfData] at hresult
        split at hresult
        · next hfind =>
          refine hdata ⟨kvs, ?_⟩
          rw [List.find?_eq_none] at hfind
          rw [entryData, hdecoded]
          exact if_pos fun kv hkv => by simpa using hfind kv hkv
        · cases hresult
      | _ => cases hresult

theorem entriesAmong_singleton (fresh : Nat → Fresh F) {depth : Nat} (start : Nat)
    {line : List Char} {kvs : List (String × PyVal F)} (h : entryData depth line = some kvs) :
    entriesAmong fresh depth start [line] = [makeEntry (fresh start) kvs] := by
  rw [entriesAmong, List.filterMap_cons, h]
  rfl

/-- A line that is skipped, or is an entry. -/
theorem loadLines_cons_ok (fresh : Nat → Fresh F) {depth : Nat} {line : List Char}
    (h : LineOk F depth line) (lines : List (List Char)) (entries : List (EntryFields F)) :
    loadLines fresh depth (line :: lines) entries =
      loadLines fresh depth lines (entries ++ entriesAmong fresh depth entries.length [line]) := by
  rcases h with hloads | ⟨kvs, hdata⟩
  · have hskip : entryData (F := F) depth line = none := by rw [entryData, hloads]
    rw [loadLines, hloads, entriesAmong, List.filterMap_cons, hskip]
    simp
  · obtain ⟨hloads, hentry⟩ := entryOfData_of_entryData hdata (fresh entries.length)
    rw [loadLines, hloads, entriesAmong_singleton fresh _ hdata]
    dsimp only
    rw [hentry]

theorem entriesAmong_append (fresh : Nat → Fresh F) (depth start : Nat)
    (lines lines' : List (List Char)) :
    entriesAmong fresh depth start (lines ++ lines') = entriesAmong fresh depth start lines ++
      entriesAmong fresh depth (start + (entriesAmong fresh depth start lines).length) lines' := by
  simp only [entriesAmong, List.filterMap_append, List.mapIdx_append, List.length_mapIdx]
  simp only [Nat.add_comm, Nat.add_left_comm]

/-- **Loading lines** of which each is skipped or an entry. -/
theorem loadLines_ok (fresh : Nat → Fresh F) {depth : Nat} {lines : List (List Char)}
    (h : ∀ line ∈ lines, LineOk F depth line) (entries : List (EntryFields F)) :
    loadLines fresh depth lines entries =
      (.ok (), entries ++ entriesAmong fresh depth entries.length lines) := by
  induction lines generalizing entries with
  | nil => simp [loadLines, entriesAmong]
  | cons line lines ih =>
    obtain ⟨hline, hlines⟩ := List.forall_mem_cons.mp h
    rw [loadLines_cons_ok fresh hline, ih hlines, List.append_assoc, List.length_append,
      ← entriesAmong_append, List.singleton_append]

/-- Lines with one that is neither. -/
theorem loadLines_error (fresh : Nat → Fresh F) {depth : Nat} {lines : List (List Char)}
    (h : ¬ ∀ line ∈ lines, LineOk F depth line) (entries : List (EntryFields F)) :
    (loadLines fresh depth lines entries).1 ≠ .ok () := by
  induction lines generalizing entries with
  | nil => exact absurd (fun line hline => by cases hline) h
  | cons line lines ih =>
    by_cases hline : LineOk F depth line
    · rw [loadLines_cons_ok fresh hline]
      exact ih (fun hlines => h (List.forall_mem_cons.mpr ⟨hline, hlines⟩)) _
    · exact loadLines_cons_error fresh hline lines entries

end Entries

/-! ## All calls -/

/-- A ledger with its file. `recent` are the entries that the file held when it was loaded, and the
entries recorded since. -/
structure LedgerRun (F : Type) where
  file : Option FileContent
  entries : List (EntryFields F)
  outcome : Except PyExc Unit
  recent : List (EntryFields F)

/-- What encoding a line depends on besides the entry: how much nesting the stack of the call leaves
to `json.dumps`, and whether a string of the entry has a lone surrogate, which no string of the
model has. -/
structure Encoding where
  depth : Nat
  loneSurrogate : Bool

/-- A call on a ledger with a file, or an edit of the file by somebody else. `written` is how much
of the line of an entry reaches the file, if the file can be opened. -/
inductive LedgerCall (F : Type) where
  | record (fresh : Fresh F) (entry : LedgerEntry F) (encoding : Encoding) (written : Option Nat)
  | load (fresh : Nat → Fresh F) (depth : Nat) (given : List (List Char))
  | edit (content : Option FileContent)

/-- The last `n` of a list, `xs[-n:]`. -/
def lastOf {α : Type} (n : Nat) (xs : List α) : List α := xs.drop (xs.length - n)

variable [PyFloat F]

/-- `f.write(...)` in append mode, of which so much reaches the file. -/
def appendLine (file : Option FileContent) (line : List Char) (written : Nat) :
    Option FileContent :=
  match file with
  | none => some (.text ((line ++ ['\n']).take written))
  | some (.text chars) => some (.text (chars ++ (line ++ ['\n']).take written))
  | some content => some content

/-- What encoding a line raises: `json.dumps` has the limits of `json.loads`, and `f.write` takes no
lone surrogate. -/
def encodeError (encoding : Encoding) (line : List Char) : Option PyExc :=
  match limitError encoding.depth line with
  | some e => some e
  | none =>
    if encoding.loneSurrogate then
      some (.custom "UnicodeEncodeError" "'utf-8' codec can't encode character: surrogates not allowed")
    else none

theorem encodeError_of_limit {depth : Nat} {line : List Char} (h : limitError depth line = none) :
    encodeError ⟨depth, false⟩ line = none := by
  rw [encodeError, h]
  rfl

/-- `_append_to_file` (ledger.py:101): how it ends, and the file after it. -/
def appendToFile (file : Option FileContent) (line : List Char) (encoding : Encoding) :
    Option Nat → Except PyExc Unit × Option FileContent
  -- `OSError` is caught
  | none => (.ok (), file)
  | some written =>
    match encodeError encoding line with
    -- by now the file has been opened
    | some e => (.error e, appendLine file line 0)
    | none => (.ok (), appendLine file line written)

/-- `self.max_entries`. -/
def ledgerBound (maxEntries : Int) : Nat := (max 1 maxEntries).toNat

/-- `record` of an entry with these fields. -/
def LedgerRun.record (s : LedgerRun F) (bound : Nat) (fields : EntryFields F) (encoding : Encoding)
    (written : Option Nat) : LedgerRun F :=
  let entries := s.entries ++ [fields]
  let appended := appendToFile s.file (dumps false (.dict fields)) encoding written
  { file := appended.2
    entries := if bound < entries.length then lastOf bound entries else entries
    outcome := appended.1
    recent := s.recent ++ [fields] }

/-- `load`. -/
def LedgerRun.load (s : LedgerRun F) (fresh : Nat → Fresh F) (depth : Nat)
    (given : List (List Char)) : LedgerRun F :=
  let loaded := loadFile fresh depth given s.file
  { s with entries := loaded.2, outcome := loaded.1, recent := fileEntries fresh depth s.file }

/-- The calls on a ledger with JSON values in `meta`. -/
def ledgerSystem (maxEntries : Int) (start : Option FileContent) :
    System (LedgerRun F) (LedgerCall F) where
  init := ⟨start, [], .ok (), []⟩
  step s
    | .record fresh entry encoding written =>
      if isJsonPairs entry.meta then
        some (s.record (ledgerBound maxEntries) (entry.toDict fresh) encoding written)
      else none
    | .load fresh depth given => some (s.load fresh depth given)
    | .edit content => some { s with file := content, outcome := .ok () }

theorem step_record {maxEntries : Int} {start : Option FileContent} {entry : LedgerEntry F}
    (h : isJsonPairs entry.meta = true) (s : LedgerRun F) (fresh : Fresh F) (encoding : Encoding)
    (written : Option Nat) :
    (ledgerSystem maxEntries start).step s (.record fresh entry encoding written) =
      some (s.record (ledgerBound maxEntries) (entry.toDict fresh) encoding written) :=
  if_pos h

/-- The last call has not raised, and memory holds the most recent entries. -/
structure KeepsRecent (bound : Nat) (s : LedgerRun F) : Prop where
  ends : s.outcome = .ok ()
  bounded : s.entries.length ≤ bound
  recent : s.entries = lastOf bound s.recent

/-- The file is UTF-8, each of its lines is skipped or is an entry, and there are no more entries
than memory may hold. -/
def Loadable (F : Type) [PyFloat F] (depth bound : Nat) : Option FileContent → Prop
  | none => True
  | some (.text chars) => (∀ line ∈ contentLines chars, LineOk F depth line) ∧
      ((contentLines chars).filterMap (entryData (F := F) depth)).length ≤ bound
  | some _ => False

/-- A call that records cannot open the file, which is caught, or can encode its line; a call that
loads finds the file loadable. -/
def CallOk (bound : Nat) (s : LedgerRun F) : LedgerCall F → Prop
  | .record fresh entry encoding written =>
    written = none ∨ encodeError encoding (dumps false (.dict (entry.toDict fresh))) = none
  | .load _ depth _ => Loadable F depth bound s.file
  | .edit _ => True

section Lists

variable {α : Type} {n : Nat}

theorem length_lastOf_le (xs : List α) : (lastOf n xs).length ≤ n := by
  rw [lastOf, List.length_drop]
  omega

theorem lastOf_of_le {xs : List α} (h : xs.length ≤ n) : lastOf n xs = xs := by
  rw [lastOf, Nat.sub_eq_zero_of_le h, List.drop_zero]

/-- A list that is cut to its last `n` at each step holds the last `n` of all. -/
theorem lastOf_append_singleton (hn : 0 < n) (xs : List α) (x : α) :
    lastOf n (lastOf n xs ++ [x]) = lastOf n (xs ++ [x]) := by
  simp only [lastOf, List.length_append, List.length_drop, List.length_singleton]
  rw [List.drop_append_of_le_length (by rw [List.length_drop]; omega), List.drop_drop,
    List.drop_append_of_le_length (by omega)]
  congr 2
  omega

end Lists

theorem length_entriesAmong (fresh : Nat → Fresh F) (depth start : Nat)
    (lines : List (List Char)) : (entriesAmong fresh depth start lines).length =
      (lines.filterMap (entryData (F := F) depth)).length :=
  List.length_mapIdx

/-! ### What is recorded is read back -/

omit [PyFloat F] in
theorem keys_toDict (fresh : Fresh F) (e : LedgerEntry F) :
    (e.toDict fresh).map Prod.fst = entryFieldNames := rfl

/-- The line of an entry, read back. -/
theorem entryData_line (fresh : Fresh F) {e : LedgerEntry F} (hjson : isJsonPairs e.meta = true)
    (hwf : (PyVal.dict e.meta).WF) {depth : Nat}
    (hlimit : limitError depth (dumps false (.dict (e.toDict fresh))) = none) :
    entryData depth (dumps false (.dict (e.toDict fresh))) = some (e.toDict fresh) := by
  have hdict : (PyVal.dict (e.toDict fresh)).isJson = true := by
    simp [PyVal.isJson, LedgerEntry.toDict, isJsonPairs, hjson]
  have hdictWf : (PyVal.dict (e.toDict fresh)).WF :=
    ⟨by rw [keys_toDict]; decide, by simpa [LedgerEntry.toDict, wfPairs, PyVal.WF] using hwf⟩
  have hloads := loads_dumps false hdictWf
  rw [plain_eq_self _ hdict] at hloads
  rw [entryData, loadsLimited_of_loads hlimit hloads]
  refine if_pos fun kv hkv => ?_
  rw [← keys_toDict fresh e]
  exact List.mem_map_of_mem hkv

theorem makeEntry_toDict (fresh fresh' : Fresh F) (e : LedgerEntry F) :
    makeEntry fresh' (e.toDict fresh) = e.toDict fresh := rfl

/-- When a load keeps the property. -/
theorem load_iff (s : LedgerRun F) (bound : Nat) (fresh : Nat → Fresh F) (depth : Nat)
    (given : List (List Char)) :
    KeepsRecent bound (s.load fresh depth given) ↔ Loadable F depth bound s.file := by
  obtain ⟨_ | chars | _ | _, entries, outcome, recent⟩ := s
  · exact iff_of_true ⟨rfl, Nat.zero_le _, (lastOf_of_le (Nat.zero_le _)).symm⟩ trivial
  · rw [LedgerRun.load, loadFile, fileEntries, Loadable]
    -- The list is what the file holds, so that the bound is about the file.
    by_cases hlines : ∀ line ∈ contentLines chars, LineOk F depth line
    · rw [loadLines_ok fresh hlines, List.nil_append, List.length_nil, and_iff_right hlines]
      constructor
      · intro h
        rw [← length_entriesAmong fresh depth 0]
        exact h.bounded
      · intro hlength
        rw [← length_entriesAmong fresh depth 0] at hlength
        exact ⟨rfl, hlength, (lastOf_of_le hlength).symm⟩
    · exact iff_of_false (fun h => loadLines_error fresh hlines [] h.ends) fun h => hlines h.1
  · refine iff_of_false (fun h => ?_) id
    have hends := h.ends
    rw [LedgerRun.load, loadFile] at hends
    split at hends
    · cases hends
    · cases hends
  · exact iff_of_false (fun h => by cases h.ends) id

/-- When recording ends without an exception. -/
theorem record_ends_iff (s : LedgerRun F) (bound : Nat) (fields : EntryFields F)
    (encoding : Encoding) (written : Option Nat) :
    (s.record bound fields encoding written).outcome = .ok () ↔
      written = none ∨ encodeError encoding (dumps false (.dict fields)) = none := by
  rcases written with _ | n
  · exact iff_of_true rfl (.inl rfl)
  · rw [LedgerRun.record, appendToFile]
    cases encodeError encoding (dumps false (.dict fields)) with
    | none => exact iff_of_true rfl (.inr rfl)
    | some e => exact iff_of_false (fun h => by cases h) (by simp)

/-- Once the file is open, a lone surrogate raises. -/
theorem record_lone {s : LedgerRun F} {bound depth n : Nat} {fields : EntryFields F}
    (h : limitError depth (dumps false (.dict fields)) = none) :
    (s.record bound fields ⟨depth, true⟩ (some n)).outcome ≠ .ok () := by
  rw [Ne, record_ends_iff, encodeError, h]
  simp

/-- **The ledger and its file.** In every run of calls and of edits of the file, whatever the file
holds, no call raises and memory always holds the most recent entries, no more than its bound, if
and only if every line that is recorded can be encoded and every file that is loaded is loadable. -/
theorem ledger_iff {maxEntries : Int} {start : Option FileContent}
    {steps : List (LedgerRun F × LedgerCall F)} {s : LedgerRun F}
    (run : (ledgerSystem maxEntries start).Run steps s) :
    System.Always (KeepsRecent (ledgerBound maxEntries)) steps s ↔
      System.Meets (CallOk (ledgerBound maxEntries)) steps := by
  have hpos : 0 < ledgerBound maxEntries := by
    rw [ledgerBound]
    omega
  refine run.always_iff (I := fun _ => True) trivial (fun _ _ _ _ _ => trivial)
    ⟨rfl, Nat.zero_le _, (lastOf_of_le (Nat.zero_le _)).symm⟩ ?_
  -- One call, in both directions: recording cuts the list to its last entries, loading does not.
  intro s call s' _ hs hstep
  cases call with
  | record fresh entry encoding written =>
    obtain ⟨-, hstep⟩ := Option.ite_none_right_eq_some.mp hstep
    cases hstep
    rw [CallOk, ← record_ends_iff s (ledgerBound maxEntries)]
    refine ⟨KeepsRecent.ends, fun hends => ?_⟩
    have hcut : ∀ xs : List (EntryFields F),
        (if ledgerBound maxEntries < xs.length then lastOf (ledgerBound maxEntries) xs else xs) =
          lastOf (ledgerBound maxEntries) xs := by
      intro xs
      split
      · rfl
      · next h => exact (lastOf_of_le (Nat.not_lt.mp h)).symm
    constructor
    · exact hends
    · show List.length (ite _ _ _) ≤ _
      rw [hcut]
      exact length_lastOf_le _
    · show ite _ _ _ = _
      rw [hcut, hs.recent]
      exact lastOf_append_singleton hpos _ _
  | load fresh depth given =>
    cases hstep
    exact load_iff s _ fresh depth given
  | edit content =>
    cases hstep
    exact iff_of_true ⟨rfl, hs.bounded, hs.recent⟩ trivial

/-- An entry of a node, with its id. -/
def nodeEntry (n : String) : Fresh FloatText × LedgerEntry FloatText :=
  (⟨n, zeroFloat⟩, LedgerEntry.of n "t1" "solution" 1 1 zeroFloat "" "" [("pr", .int 7)])

theorem nodeEntry_json (n : String) : isJsonPairs (nodeEntry n).2.meta = true := rfl

/-- A damaged line before an entry. -/
def damagedText : List Char := ['\x7b', '"', '\n', '\x7b', '\x7d', '\n']

theorem damagedText_ok : ∀ line ∈ contentLines damagedText, LineOk FloatText 1000 line := by
  have hlines : contentLines damagedText = [['\x7b', '"'], ['\x7b', '\x7d']] := by decide +kernel
  rw [hlines]
  refine List.forall_mem_cons.mpr ⟨.inl ?_, List.forall_mem_singleton.mpr (.inr ⟨[], ?_⟩)⟩
  · rw [loadsLimited, limitError_of_length (by decide) (by decide)]
    rfl
  · have hlimit : limitError 1000 ['\x7b', '\x7d'] = none :=
      limitError_of_length (by decide) (by decide)
    rw [entryData, loadsLimited_of_loads hlimit (v := .dict []) rfl]
    rfl

theorem nodeEntry_length :
    (dumps false (.dict ((nodeEntry "b").2.toDict (nodeEntry "b").1))).length < 1000 := by
  decide +kernel

/-- The line of an entry is within the limits. -/
theorem nodeEntry_limit :
    limitError 1000 (dumps false (.dict ((nodeEntry "b").2.toDict (nodeEntry "b").1))) = none :=
  limitError_of_length nodeEntry_length.le (nodeEntry_length.le.trans (by decide))

theorem ledger_iff_damaged : ∃ steps s, (ledgerSystem (F := FloatText) 2 none).Run steps s ∧
    s.entries.length = 2 ∧ s.recent.length = 3 ∧ KeepsRecent 2 s := by
  let fresh : Nat → Fresh FloatText := fun _ => ⟨"x", zeroFloat⟩
  have hedited := System.Run.next (e := .edit (some (.text damagedText)))
    (System.Run.start (S := ledgerSystem (F := FloatText) 2 none)) rfl
  have hloaded := System.Run.next (e := .load fresh 1000 []) hedited rfl
  have hmissed := System.Run.next hloaded
    (step_record (nodeEntry_json "c") _ (nodeEntry "c").1 ⟨1000, true⟩ none)
  have run := System.Run.next hmissed
    (step_record (nodeEntry_json "b") _ (nodeEntry "b").1 ⟨1000, false⟩ (some 1000))
  have hload : Loadable FloatText 1000 2 (some (.text damagedText)) :=
    ⟨damagedText_ok, by decide +kernel⟩
  refine ⟨_, _, run, by decide +kernel, by decide +kernel, ((ledger_iff run).mpr ?_).1⟩
  -- Backwards: a line that can be encoded, one whose file could not be opened, the load, the edit.
  refine List.forall_mem_cons.mpr ⟨.inr (encodeError_of_limit nodeEntry_limit), ?_⟩
  refine List.forall_mem_cons.mpr ⟨.inl rfl, List.forall_mem_cons.mpr ⟨hload, ?_⟩⟩
  exact List.forall_mem_singleton.mpr trivial

/-- A line that is a list raises, two entries are loaded where one is the bound, and an entry with a
lone surrogate raises when it is recorded. -/
theorem load_breaks : (∃ steps s,
    (ledgerSystem (F := FloatText) 1 (some (.text ['[', ']', '\n']))).Run steps s ∧
      s.outcome ≠ .ok () ∧ ¬ KeepsRecent 1 s) ∧
    (∃ steps s, (ledgerSystem (F := FloatText) 1
      (some (.text ['\x7b', '\x7d', '\n', '\x7b', '\x7d', '\n']))).Run steps s ∧
        s.entries.length = 2 ∧ ¬ KeepsRecent 1 s) ∧
    ∃ steps s, (ledgerSystem (F := FloatText) 1 none).Run steps s ∧
      s.outcome ≠ .ok () ∧ s.entries.length = 1 ∧ ¬ KeepsRecent 1 s := by
  let fresh : Nat → Fresh FloatText := fun _ => ⟨"x", zeroFloat⟩
  refine ⟨?_, ?_, ?_⟩
  · have hraises := System.Run.next (e := .load fresh 1000 [])
      (System.Run.start (S := ledgerSystem (F := FloatText) 1 (some (.text ['[', ']', '\n'])))) rfl
    have hraised : (loadFile fresh 1000 [] (some (.text ['[', ']', '\n']))).1 ≠ .ok () := by
      intro h
      cases h
    exact ⟨_, _, hraises, hraised, fun h => hraised h.ends⟩
  · have hexceeds := System.Run.next (e := .load fresh 1000 []) (System.Run.start
      (S := ledgerSystem (F := FloatText) 1
        (some (.text ['\x7b', '\x7d', '\n', '\x7b', '\x7d', '\n'])))) rfl
    have htwo : (loadFile fresh 1000 []
        (some (.text ['\x7b', '\x7d', '\n', '\x7b', '\x7d', '\n']))).2.length = 2 := by
      decide +kernel
    refine ⟨_, _, hexceeds, htwo, fun h => ?_⟩
    exact absurd (htwo.symm.trans_le h.bounded) (by decide)
  · have hrecords := System.Run.next (System.Run.start (S := ledgerSystem (F := FloatText) 1 none))
      (step_record (nodeEntry_json "b") _ (nodeEntry "b").1 ⟨1000, true⟩ (some 1000))
    exact ⟨_, _, hrecords, record_lone nodeEntry_limit, rfl, fun h =>
      record_lone nodeEntry_limit h.ends⟩

end Noema.Billing
