import Noema.Lib.JsonText
import Noema.Lib.LastWrite
import Noema.Lib.PyText

/-!
# Checkpoints (`core/checkpoint.py`)

A checkpoint is a JSON file, whose name is made of the tenant and the task: both are sanitised, and
joined by two underscores. Sanitising maps every character that is not safe to an underscore, and
strips dots and underscores at both ends, so it is not injective; nor is the separator, as names may
have underscores of their own. Nothing in the file is compared with what `load` was asked for.

- `filePath_eq_iff`: which tasks and tenants share a file (`SharesFile`): the sanitised names are
  equal, or a part of the names between two separators is the end of one and the beginning of the
  other.
- `step_eq_some_iff`, `run_eq_some_iff`: the file of a task after a call, and after any sequence of
  calls. Names that are too long for the directory make `save` raise and touch nothing (`Fits`).
- `loads_data`: what `save` has written is read back, whatever texts are in it.
- `load_of_last`, `load_of_no_last`: after any sequence of calls, `load` finds what the last call
  with the file has saved, or nothing.
- **`isolated_iff`**: a task is isolated if and only if the last call for a task that shares its
  file, if that was a `save`, was for itself.

`corpCheckpoint_leaks` has two tenants whose names differ in a blank and an underscore.
-/

namespace Noema.Core.Checkpoint

open Noema.Lib PyJson

variable {F : Type}

/-! ## The store -/

/-- A value of a context: what `str` gives for it, unless it raises, and the name of its type. -/
structure ContextValue where
  typeName : String
  str : Except PyExc String

/-- `DAGCheckpoint`. Its dicts have distinct keys. -/
structure DAGCheckpoint where
  taskId : String := ""
  tenantId : String := ""
  sessionId : String := ""
  attempt : Int := 1
  completedSteps : List String := []
  stepResults : List (String × String) := []
  tokenBudgetUsed : Int := 0
  context : List (String × ContextValue) := []
  nodup_stepResults : (stepResults.map Prod.fst).Nodup := by simp
  nodup_context : (context.map Prod.fst).Nodup := by simp

/-- A `DAGCheckpoint` that `load` has made of a file. Its constructor checks no types. -/
structure Loaded (F : Type) where
  taskId : PyVal F
  tenantId : PyVal F
  sessionId : PyVal F
  attempt : PyVal F
  completedSteps : PyVal F
  stepResults : PyVal F
  tokenBudgetUsed : PyVal F
  context : PyVal F
  timestamp : PyVal F

/-- The files of the directory. -/
abbrev Files := String → Option (List Char)

/-- `_safe_str`. -/
def safeStr (v : ContextValue) (maxLen : Nat) : String :=
  match v.str with
  | .ok s => String.ofList (s.toList.take maxLen)
  | .error _ => "<error: " ++ v.typeName ++ ">"

/-- A character that `_safe_name` keeps. -/
def isSafe (c : Char) : Bool := c.isAlphanum || c == '_' || c == '.' || c == '-'

/-- `_safe_name`. -/
def safeName (value : String) : String :=
  let value := value.toList.map fun c => if isSafe c then c else '_'
  let value := stripBy (fun c => c == '.' || c == '_') value
  if value = [] then "unknown" else String.ofList value

/-- `_file_path`: the name in the directory. -/
def filePath (taskId tenantId : String) : String :=
  let safeTenant := safeName tenantId
  let safeTask := safeName taskId
  safeTenant ++ "__" ++ safeTask ++ ".json"

/-- What `save` writes at a time. -/
def DAGCheckpoint.data (cp : DAGCheckpoint) (now : F) : List (String × PyVal F) :=
  [("task_id", .str cp.taskId),
    ("tenant_id", .str cp.tenantId),
    ("session_id", .str cp.sessionId),
    ("attempt", .int cp.attempt),
    ("completed_steps", .list (cp.completedSteps.map .str)),
    ("step_results", .dict (cp.stepResults.map fun kv => (kv.1, .str kv.2))),
    ("token_budget_used", .int cp.tokenBudgetUsed),
    ("context", .dict (cp.context.map fun kv => (kv.1, .str (safeStr kv.2 500)))),
    ("timestamp", .float now)]

/-- The checkpoint that was saved, as it comes back. -/
def DAGCheckpoint.loaded (cp : DAGCheckpoint) (now : F) : Loaded F where
  taskId := .str cp.taskId
  tenantId := .str cp.tenantId
  sessionId := .str cp.sessionId
  attempt := .int cp.attempt
  completedSteps := .list (cp.completedSteps.map .str)
  stepResults := .dict (cp.stepResults.map fun kv => (kv.1, .str kv.2))
  tokenBudgetUsed := .int cp.tokenBudgetUsed
  context := .dict (cp.context.map fun kv => (kv.1, .str (safeStr kv.2 500)))
  timestamp := .float now

variable [PyFloat F] (nameMax : Nat)

/-- `os.replace`. -/
def replace (fs : Files) (src dst : String) : Files :=
  match fs src with
  | some text => Function.update (Function.update fs src none) dst (some text)
  | none => fs

/-- `save` (checkpoint.py:73). No name is longer than `nameMax`. -/
def save (fs : Files) (cp : DAGCheckpoint) (now : F) : Except PyExc Unit × Files :=
  let payload := dumps false (.dict (cp.data now))
  let path := filePath cp.taskId cp.tenantId
  let tmpPath := withSuffix path (suffix path ++ ".tmp")
  if nameMax < tmpPath.length then (.error (.osError "File name too long"), fs)
  else (.ok (), replace (Function.update fs tmpPath (some payload)) tmpPath path)

/-- `_read_text_if_exists`. -/
def readTextIfExists (fs : Files) (path : String) : Except PyExc (Option (List Char)) :=
  if nameMax < path.length then .error (.osError "File name too long")
  else .ok ((fs path).map universalNewlines)

/-- `_unlink_if_exists`. -/
def unlinkIfExists (fs : Files) (path : String) : Except PyExc Files :=
  if nameMax < path.length then .error (.osError "File name too long")
  else .ok (Function.update fs path none)

/-- What `data["task_id"]` raises when `data` is no dict. -/
def subscriptError : PyVal F → PyExc
  | .str _ => .typeError "string indices must be integers, not 'str'"
  | .list _ => .typeError "list indices must be integers or slices, not str"
  | data => .typeError ("'" ++ data.typeName ++ "' object is not subscriptable")

/-- The `DAGCheckpoint` of a file, `none` when it has no task. -/
def decode (tenantId : String) : PyVal F → Except PyExc (Option (Loaded F))
  | .dict data =>
    .ok ((data.lookup "task_id").map fun taskId =>
      { taskId
        tenantId := (data.lookup "tenant_id").getD (.str tenantId)
        sessionId := (data.lookup "session_id").getD (.str "")
        attempt := (data.lookup "attempt").getD (.int 1)
        completedSteps := (data.lookup "completed_steps").getD (.list [])
        stepResults := (data.lookup "step_results").getD (.dict [])
        tokenBudgetUsed := (data.lookup "token_budget_used").getD (.int 0)
        context := (data.lookup "context").getD (.dict [])
        timestamp := (data.lookup "timestamp").getD (.float (PyFloat.ofText ['0', '.', '0'])) })
  | data => .error (subscriptError data)

/-- `load` (checkpoint.py:100). -/
def load (fs : Files) (taskId tenantId : String) : Except PyExc (Option (Loaded F)) :=
  match readTextIfExists nameMax fs (filePath taskId tenantId) with
  | .error _ => .ok none
  | .ok none => .ok none
  | .ok (some text) =>
    match loads text with
    | none => .ok none
    | some data => decode tenantId data

/-- `delete` (checkpoint.py:122). -/
def delete (fs : Files) (taskId tenantId : String) : Files :=
  match unlinkIfExists nameMax fs (filePath taskId tenantId) with
  | .ok fs => fs
  | .error _ => fs

/-- A call that changes the store: `save`, at a time, or `delete`. -/
inductive Call (F : Type) where
  | save (cp : DAGCheckpoint) (now : F)
  | delete (taskId tenantId : String)

/-- The task and the tenant that a call is for. -/
def Call.subject : Call F → String × String
  | .save cp _ => (cp.taskId, cp.tenantId)
  | .delete taskId tenantId => (taskId, tenantId)

/-- The files after a call. -/
def step (fs : Files) : Call F → Files
  | .save cp now => (save nameMax fs cp now).2
  | .delete taskId tenantId => delete nameMax fs taskId tenantId

/-- The files after calls on an empty directory. -/
def run (calls : List (Call F)) : Files := calls.foldl (step nameMax) fun _ => none

/-! ## File names -/

/-- Two tasks with their tenants share a file: the sanitised names are equal, or a part of the
names, between two underscores on either side, belongs to the tenant of one and to the task of the
other. -/
def SharesFile (p p' : String × String) : Prop :=
  (safeName p.2 = safeName p'.2 ∧ safeName p.1 = safeName p'.1) ∨ Shifted p p' ∨ Shifted p' p
where
  /-- The part in the middle is in the task on the left, and in the tenant on the right. -/
  Shifted (p p' : String × String) : Prop :=
    ∃ mid, safeName p'.2 = safeName p.2 ++ "__" ++ mid ∧ safeName p.1 = mid ++ "__" ++ safeName p'.1

theorem getLast?_safeName (value : String) : (safeName value).toList.getLast? ≠ some '_' := by
  intro h
  dsimp only [safeName] at h
  split at h
  · exact absurd h (by decide)
  · rw [String.toList_ofList] at h
    exact absurd (getLast?_stripBy h) (by decide)

/-- Two texts that are joined by two underscores, the first of which ends in another character. -/
theorem joined_eq_append {a b r b' : List Char} (hlast : (a ++ r).getLast? ≠ some '_')
    (h : '_' :: '_' :: b = r ++ '_' :: '_' :: b') :
    (r = [] ∧ b = b') ∨ ∃ mid, r = '_' :: '_' :: mid ∧ b = mid ++ '_' :: '_' :: b' := by
  match r with
  | [] => exact .inl ⟨rfl, (List.cons.inj (List.cons.inj h).2).2⟩
  | [c] =>
    obtain ⟨rfl, -⟩ := List.cons.inj h
    exact absurd List.getLast?_concat hlast
  | c :: d :: mid =>
    rw [List.cons_append, List.cons_append, List.cons.injEq, List.cons.injEq] at h
    obtain ⟨rfl, rfl, h⟩ := h
    exact .inr ⟨mid, rfl, h⟩

/-- One half of `filePath_eq_iff`: the tenant on the left is the shorter one. -/
theorem sharesFile_of_append {p p' : String × String} {r : List Char}
    (htenant : (safeName p'.2).toList = (safeName p.2).toList ++ r)
    (h : '_' :: '_' :: (safeName p.1).toList = r ++ '_' :: '_' :: (safeName p'.1).toList) :
    SharesFile p p' := by
  rcases joined_eq_append (htenant ▸ getLast?_safeName p'.2) h with ⟨rfl, htask⟩ | ⟨mid, rfl, htask⟩
  · rw [List.append_nil] at htenant
    exact .inl ⟨(String.toList_injective htenant).symm, String.toList_injective htask⟩
  · refine .inr (.inl ⟨String.ofList mid, ?_, ?_⟩)
    · apply String.toList_injective
      simpa using htenant
    · apply String.toList_injective
      simpa using htask

theorem SharesFile.symm {p p' : String × String} (h : SharesFile p p') : SharesFile p' p := by
  rcases h with ⟨htenant, htask⟩ | h | h
  · exact .inl ⟨htenant.symm, htask.symm⟩
  · exact .inr (.inr h)
  · exact .inr (.inl h)

/-- Which tasks and tenants share a file. -/
theorem filePath_eq_iff (p p' : String × String) :
    filePath p.1 p.2 = filePath p'.1 p'.2 ↔ SharesFile p p' := by
  have htoList (p : String × String) : (filePath p.1 p.2).toList =
      ((safeName p.2).toList ++ '_' :: '_' :: (safeName p.1).toList) ++ ".json".toList := by
    simp [filePath]
  constructor
  · intro h
    have h := congrArg String.toList h
    rw [htoList, htoList, List.append_left_inj, List.append_eq_append_iff] at h
    rcases h with ⟨r, htenant, h⟩ | ⟨r, htenant, h⟩
    · exact sharesFile_of_append htenant h
    · exact (sharesFile_of_append htenant h).symm
  · have hshifted {p p' : String × String} (h : SharesFile.Shifted p p') :
        filePath p.1 p.2 = filePath p'.1 p'.2 := by
      obtain ⟨mid, htenant, htask⟩ := h
      simp only [filePath, htenant, htask, String.append_assoc]
    rintro (⟨htenant, htask⟩ | h | h)
    · simp only [filePath, htenant, htask]
    · exact hshifted h
    · exact (hshifted h).symm

/-! ## Files after calls -/

section Calls

variable {nameMax : Nat} {fs : Files} {taskId tenantId : String}

/-- A checkpoint is not a temporary file. -/
theorem filePath_ne_tmp (taskId tenantId path : String) :
    filePath taskId tenantId ≠ path ++ ".tmp" := by
  intro h
  have hlast := congrArg (fun name => name.toList.reverse.head?) h
  simp [filePath] at hlast

theorem save_apply (cp : DAGCheckpoint) (now : F) :
    (save nameMax fs cp now).2 (filePath taskId tenantId) =
      if filePath cp.taskId cp.tenantId = filePath taskId tenantId ∧
          (filePath taskId tenantId).length + 4 ≤ nameMax then
        some (dumps false (.dict (cp.data now)))
      else fs (filePath taskId tenantId) := by
  have hlength : (filePath cp.taskId cp.tenantId ++ ".tmp").length =
      (filePath cp.taskId cp.tenantId).length + 4 := by
    rw [String.length_append]
    rfl
  dsimp only [save]
  rw [withSuffix_suffix, hlength, replace, Function.update_self]
  -- The name of the temporary file is the longer one, by four characters; if it is too long nothing
  -- is written.
  by_cases hfits : nameMax < (filePath cp.taskId cp.tenantId).length + 4
  · rw [if_pos hfits, if_neg]
    rintro ⟨heq, hle⟩
    rw [← heq] at hle
    omega
  · rw [if_neg hfits]
    dsimp only
    by_cases heq : filePath cp.taskId cp.tenantId = filePath taskId tenantId
    · rw [heq] at hfits ⊢
      rw [if_pos ⟨rfl, by omega⟩, Function.update_self]
    · have htmp := filePath_ne_tmp taskId tenantId (filePath cp.taskId cp.tenantId)
      rw [if_neg fun h => heq h.1]
      rw [Function.update_of_ne (Ne.symm heq), Function.update_of_ne htmp,
        Function.update_of_ne htmp]

theorem delete_apply (taskId' tenantId' : String) :
    delete nameMax fs taskId' tenantId' (filePath taskId tenantId) =
      if filePath taskId' tenantId' = filePath taskId tenantId ∧
          (filePath taskId tenantId).length ≤ nameMax then none
      else fs (filePath taskId tenantId) := by
  rw [delete, unlinkIfExists]
  by_cases hfits : nameMax < (filePath taskId' tenantId').length
  · rw [if_pos hfits, if_neg]
    rintro ⟨heq, hle⟩
    rw [← heq] at hle
    omega
  · rw [if_neg hfits]
    show Function.update fs _ none _ = _
    by_cases heq : filePath taskId' tenantId' = filePath taskId tenantId
    · rw [heq] at hfits ⊢
      rw [if_pos ⟨rfl, by omega⟩, Function.update_self]
    · rw [if_neg fun h => heq h.1, Function.update_of_ne (Ne.symm heq)]

/-- There is room for the names of a task and a tenant in the name of a file. -/
def Fits (nameMax : Nat) (p : String × String) : Prop :=
  (safeName p.2).length + (safeName p.1).length + 11 ≤ nameMax

/-- A call is the last one for tasks and tenants of a kind, and saves a checkpoint. -/
def Last (kind : String × String → Prop) (calls : List (Call F)) (cp : DAGCheckpoint) (now : F) : Prop :=
  ∃ before after, calls = before ++ .save cp now :: after ∧ kind (cp.taskId, cp.tenantId) ∧
    ∀ c ∈ after, ¬ kind c.subject

theorem fits_iff (taskId tenantId : String) :
    (filePath taskId tenantId).length + 4 ≤ nameMax ↔ Fits nameMax (taskId, tenantId) := by
  have hlength : (filePath taskId tenantId).length =
      (safeName tenantId).length + (safeName taskId).length + 7 := by
    have hunderscores : "__".length = 2 := rfl
    have hjson : ".json".length = 5 := rfl
    simp only [filePath, String.length_append]
    omega
  rw [hlength, Fits]

/-- A call writes or removes a file. -/
def Call.Touches (nameMax : Nat) (taskId tenantId : String) (c : Call F) : Prop :=
  SharesFile c.subject (taskId, tenantId) ∧
    match c with
    | .save _ _ => (filePath taskId tenantId).length + 4 ≤ nameMax
    | .delete _ _ => (filePath taskId tenantId).length ≤ nameMax

/-- The file of a task after a call. -/
theorem step_eq_some_iff (c : Call F) (text : List Char) :
    step nameMax fs c (filePath taskId tenantId) = some text ↔
      (∃ cp now, c = .save cp now ∧ text = dumps false (.dict (cp.data now)) ∧
        c.Touches nameMax taskId tenantId) ∨
      fs (filePath taskId tenantId) = some text ∧ ¬ c.Touches nameMax taskId tenantId := by
  cases c with
  | save cp now =>
    have htouches : (filePath cp.taskId cp.tenantId = filePath taskId tenantId ∧
        (filePath taskId tenantId).length + 4 ≤ nameMax) ↔
        (Call.save cp now).Touches nameMax taskId tenantId :=
      and_congr_left fun _ => filePath_eq_iff (cp.taskId, cp.tenantId) (taskId, tenantId)
    rw [step, save_apply]
    -- A save writes the file of a task if the two share it and the name fits, and no other file.
    by_cases h : (Call.save cp now).Touches nameMax taskId tenantId
    · rw [if_pos (htouches.mpr h)]
      constructor
      · intro heq
        exact .inl ⟨cp, now, rfl, (Option.some.inj heq).symm, h⟩
      · rintro (⟨cp', now', heq, rfl, -⟩ | ⟨-, hnot⟩)
        · cases heq
          rfl
        · exact absurd h hnot
    · rw [if_neg fun heq => h (htouches.mp heq)]
      constructor
      · exact fun heq => .inr ⟨heq, h⟩
      · rintro (⟨cp', now', heq, -, htouch⟩ | ⟨heq, -⟩)
        · exact absurd htouch h
        · exact heq
  | delete taskId' tenantId' =>
    have htouches : (filePath taskId' tenantId' = filePath taskId tenantId ∧
        (filePath taskId tenantId).length ≤ nameMax) ↔
        (Call.delete taskId' tenantId' : Call F).Touches nameMax taskId tenantId :=
      and_congr_left fun _ => filePath_eq_iff (taskId', tenantId') (taskId, tenantId)
    rw [step, delete_apply, or_iff_right nofun]
    by_cases h : (Call.delete taskId' tenantId' : Call F).Touches nameMax taskId tenantId
    · rw [if_pos (htouches.mpr h)]
      exact iff_of_false nofun fun heq => heq.2 h
    · rw [if_neg fun heq => h (htouches.mp heq)]
      exact (and_iff_left h).symm

/-- The file of a task is what the last call with that file has saved. -/
theorem run_eq_some_iff (calls : List (Call F)) (text : List Char) :
    run nameMax calls (filePath taskId tenantId) = some text ↔
      ∃ cp now, Last (SharesFile · (taskId, tenantId)) calls cp now ∧ Fits nameMax (taskId, tenantId) ∧
        text = dumps false (.dict (cp.data now)) := by
  refine (foldl_iff_survives (fun fs : Files => fs (filePath taskId tenantId) = some text)
    (fun fs c => step_eq_some_iff c text) (fun h => by cases h) calls).trans ?_
  constructor
  · rintro ⟨before, c, after, hcalls, ⟨cp, now, rfl, htext, hshares, hfits⟩, hafter⟩
    refine ⟨cp, now, ⟨before, after, hcalls, hshares, fun c hc hshares => ?_⟩,
      (fits_iff taskId tenantId).mp hfits, htext⟩
    refine hafter c hc ⟨hshares, ?_⟩
    cases c with
    | save cp now => exact hfits
    | delete taskId' tenantId' => exact (Nat.le_add_right _ 4).trans hfits
  · rintro ⟨cp, now, ⟨before, after, hcalls, hshares, hafter⟩, hfits, htext⟩
    exact ⟨before, .save cp now, after, hcalls,
      ⟨cp, now, rfl, htext, hshares, (fits_iff taskId tenantId).mpr hfits⟩,
      fun c hc htouches => hafter c hc htouches.1⟩

omit [PyFloat F] in
theorem plain_strs (xs : List String) : plainItems (xs.map (PyVal.str (F := F))) = xs.map .str := by
  induction xs with
  | nil => rfl
  | cons x xs ih => exact congrArg (PyVal.str x :: ·) ih

omit [PyFloat F] in
theorem wf_strs (xs : List String) : wfItems (xs.map (PyVal.str (F := F))) := by
  induction xs with
  | nil => exact trivial
  | cons x xs ih => exact ⟨trivial, ih⟩

omit [PyFloat F] in
/-- A dict of texts comes back as it is. -/
theorem plain_texts {α : Type} (kvs : List (String × α)) (f : α → String) :
    plainPairs (kvs.map fun kv => (kv.1, PyVal.str (F := F) (f kv.2))) =
      kvs.map fun kv => (kv.1, .str (f kv.2)) := by
  rw [plainPairs_eq_map, List.map_map]
  rfl

omit [PyFloat F] in
theorem wf_texts {α : Type} {kvs : List (String × α)} (h : (kvs.map Prod.fst).Nodup) (f : α → String) :
    (PyVal.dict (kvs.map fun kv => (kv.1, PyVal.str (F := F) (f kv.2)))).WF := by
  refine ⟨by rwa [List.map_map], wfPairs_iff.mpr fun kv hkv => ?_⟩
  obtain ⟨kv, -, rfl⟩ := List.mem_map.mp hkv
  exact trivial

omit [PyFloat F] in
theorem data_wf (cp : DAGCheckpoint) (now : F) : (PyVal.dict (cp.data now)).WF := by
  have hkeys : ((cp.data now).map Prod.fst) = ["task_id", "tenant_id", "session_id", "attempt",
      "completed_steps", "step_results", "token_budget_used", "context", "timestamp"] := rfl
  exact ⟨hkeys ▸ by decide, trivial, trivial, trivial, trivial, wf_strs _, wf_texts cp.nodup_stepResults id, trivial,
    wf_texts cp.nodup_context (safeStr · 500), trivial, trivial⟩

omit [PyFloat F] in
theorem data_plain (cp : DAGCheckpoint) (now : F) :
    (PyVal.dict (cp.data now)).plain = .dict (cp.data now) := by
  have hresults := plain_texts (F := F) cp.stepResults id
  have hcontext := plain_texts (F := F) cp.context (safeStr · 500)
  simp only [id_eq] at hresults
  simp [DAGCheckpoint.data, PyVal.plain, plainPairs, plain_strs, hresults, hcontext]

/-- What `save` has written is read back. -/
theorem loads_data (cp : DAGCheckpoint) (now : F) :
    loads (universalNewlines (dumps false (.dict (cp.data now)))) = some (.dict (cp.data now)) := by
  have hnewline : '\r' ∉ dumps false (.dict (cp.data now)) := fun hmem =>
    absurd (dumps_textChar false _ _ hmem).1 (by decide)
  rw [universalNewlines_eq_self hnewline, loads_dumps false (data_wf cp now), data_plain]

/-- `load` gives what the last call with the file has saved. -/
theorem load_of_last {calls : List (Call F)} {cp : DAGCheckpoint} {now : F}
    (hlast : Last (SharesFile · (taskId, tenantId)) calls cp now)
    (hfits : Fits nameMax (taskId, tenantId)) :
    load nameMax (run nameMax calls) taskId tenantId = .ok (some (cp.loaded now)) := by
  have hfile := (run_eq_some_iff calls _).mpr ⟨cp, now, hlast, hfits, rfl⟩
  have hle : ¬ nameMax < (filePath taskId tenantId).length := by
    have := (fits_iff taskId tenantId).mpr hfits
    omega
  rw [load, readTextIfExists, if_neg hle, hfile, Option.map_some]
  dsimp only
  rw [loads_data]
  rfl

/-- And nothing when that call has not saved anything. -/
theorem load_of_no_last {calls : List (Call F)}
    (h : ¬ ∃ cp now, Last (SharesFile · (taskId, tenantId)) calls cp now ∧
      Fits nameMax (taskId, tenantId)) :
    load (F := F) nameMax (run nameMax calls) taskId tenantId = .ok none := by
  have hfile : run nameMax calls (filePath taskId tenantId) = none := by
    by_contra hsome
    obtain ⟨text, hsome⟩ := Option.ne_none_iff_exists'.mp hsome
    obtain ⟨cp, now, hlast, hfits, -⟩ := (run_eq_some_iff calls text).mp hsome
    exact h ⟨cp, now, hlast, hfits⟩
  rw [load, readTextIfExists, hfile]
  split_ifs <;> rfl

end Calls

/-- `load` finds nothing, or what the last `save` for the task and the tenant has saved, after which
there was no call for them. -/
def Isolated (nameMax : Nat) (calls : List (Call F)) (taskId tenantId : String) : Prop :=
  load (F := F) nameMax (run nameMax calls) taskId tenantId = .ok none ∨
    ∃ cp now, Last (· = (taskId, tenantId)) calls cp now ∧
      load nameMax (run nameMax calls) taskId tenantId = .ok (some (cp.loaded now))

theorem isolated_of_last {calls : List (Call F)} {taskId tenantId : String}
    (h : ∀ cp now, Last (SharesFile · (taskId, tenantId)) calls cp now →
      Fits nameMax (taskId, tenantId) → (cp.taskId, cp.tenantId) = (taskId, tenantId)) :
    Isolated nameMax calls taskId tenantId := by
  by_cases hex : ∃ cp now, Last (SharesFile · (taskId, tenantId)) calls cp now ∧
      Fits nameMax (taskId, tenantId)
  · obtain ⟨cp, now, hlast, hfits⟩ := hex
    have hload := load_of_last hlast hfits
    have hown := h cp now hlast hfits
    obtain ⟨before, after, hcalls, -, hafter⟩ := hlast
    refine .inr ⟨cp, now, ⟨before, after, hcalls, hown, fun c hc heq => ?_⟩, hload⟩
    exact hafter c hc (heq ▸ .inl ⟨rfl, rfl⟩)
  · exact .inl (load_of_no_last hex)

/-- After any calls, a task of a tenant is isolated if and only if the last call for a task that
shares its file, if that was a `save`, was for itself. -/
theorem isolated_iff (nameMax : Nat) (calls : List (Call F)) (taskId tenantId : String) :
    Isolated nameMax calls taskId tenantId ↔
      ∀ cp now, Last (SharesFile · (taskId, tenantId)) calls cp now → Fits nameMax (taskId, tenantId) →
        (cp.taskId, cp.tenantId) = (taskId, tenantId) := by
  constructor
  · intro h cp now hlast hfits
    have hload := load_of_last hlast hfits
    rcases h with hnone | ⟨own, savedAt, ⟨_, _, -, hown, -⟩, hloadOwn⟩
    · rw [hload] at hnone
      cases hnone
    · rw [hload] at hloadOwn
      have heq : cp.loaded now = own.loaded savedAt := Option.some.inj (Except.ok.inj hloadOwn)
      have htask := PyVal.str.inj (congrArg Loaded.taskId heq)
      have htenant := PyVal.str.inj (congrArg Loaded.tenantId heq)
      rw [htask, htenant]
      exact hown
  · exact isolated_of_last nameMax

/-- The tenants `acme corp` and `acme_corp` share their files. -/
def corpCheckpoint : DAGCheckpoint where
  taskId := "t1"
  tenantId := "acme corp"
  completedSteps := ["analysis"]
  stepResults := [("analysis", "the plans of acme corp")]

/-- `time.time()` at the save. -/
def corpSavedAt : FloatText := PyFloat.ofText "1754000000.5".toList

/-- So the checkpoint of one is loaded for the other. -/
theorem corpCheckpoint_leaks :
    load 255 (run 255 [.save corpCheckpoint corpSavedAt]) "t1" "acme_corp" =
      .ok (some (corpCheckpoint.loaded corpSavedAt)) ∧
    ¬ Isolated 255 [.save corpCheckpoint corpSavedAt] "t1" "acme_corp" := by
  have hshares : SharesFile ("t1", "acme corp") ("t1", "acme_corp") := .inl ⟨by decide +kernel, rfl⟩
  have hfits : Fits 255 ("t1", "acme_corp") := by
    unfold Fits
    decide +kernel
  have hload : load 255 (run 255 [.save corpCheckpoint corpSavedAt]) "t1" "acme_corp" =
      .ok (some (corpCheckpoint.loaded corpSavedAt)) :=
    load_of_last ⟨[], [], rfl, hshares, nofun⟩ hfits
  refine ⟨hload, ?_⟩
  rintro (hnone | ⟨own, savedAt, ⟨before, after, hcalls, hown, -⟩, -⟩)
  · rw [hload] at hnone
    cases hnone
  · have hmem : Call.save own savedAt ∈ [Call.save corpCheckpoint corpSavedAt] := by
      rw [hcalls]
      exact List.mem_append_right _ List.mem_cons_self
    cases List.mem_singleton.mp hmem
    exact absurd hown (by decide)

end Noema.Core.Checkpoint
