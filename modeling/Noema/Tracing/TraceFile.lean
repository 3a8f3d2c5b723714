import Noema.Core.Checkpoint
import Noema.Lib.PyNumber

/-!
# Trace artifacts (`tracing/reasoning_trace.py`)

A committed trace is a JSON file with all its fields. `load_reasoning_trace` reads every field back
on its own: some with a default, some with a test whether the value is true. A field that is present
but empty is then not what it was.

- `ReasoningTrace.toDict`, `commitReasoningTrace`: the dict, its text, and the name of the file,
  which is that of the task with unsafe characters replaced.
- `parseTrace_toDict`: what is read back, for every trace of JSON values: all fields are the same,
  but an empty final hypothesis or an empty final static verdict has become `None`
  (`ReasoningTrace.loaded`).
- `loads_toDict`: the text of a trace is read as its dict.
- **`load_commit_iff`**: the trace that is loaded is the one that was committed, if and only if
  neither of the two is an empty dict.

The hypotheses and verdicts are dicts here, given by their items; the replay of a trace is in
`Noema.Tracing.ReasoningTrace`.
-/

namespace Noema.Tracing.TraceFile

open Noema.Lib PyJson
open Noema.Core.Checkpoint (Files replace subscriptError)

variable {F : Type}

/-- The items of a dict. -/
abbrev Dict (F : Type) := List (String × PyVal F)

/-- `VerificationRound` (reasoning_trace.py:33). -/
structure VerificationRound (F : Type) where
  attempt : Int
  hypothesis : Dict F
  staticVerdict : Dict F
  symbolicValid : Bool
  violations : List (PyVal F)

/-- `ReasoningTrace` (reasoning_trace.py:44). -/
structure ReasoningTrace (F : Type) where
  runId : String
  correlationId : String
  task : Dict F
  rounds : List (VerificationRound F)
  outcome : String
  attempts : Int
  finalHypothesis : Option (Dict F)
  finalStaticVerdict : Option (Dict F)
  finalSymbolicValid : Option Bool
  finalViolations : List (PyVal F)
  error : String
  schemaVersion : Int
  createdAt : F

/-- `asdict` of a round. -/
def VerificationRound.asdict (r : VerificationRound F) : PyVal F :=
  .dict [("attempt", .int r.attempt), ("hypothesis", .dict r.hypothesis),
    ("static_verdict", .dict r.staticVerdict), ("symbolic_valid", .bool r.symbolicValid),
    ("violations", .list r.violations)]

/-- The value of an optional field. -/
def orNone {α : Type} (f : α → PyVal F) : Option α → PyVal F
  | none => .none
  | some a => f a

/-- `ReasoningTrace.to_dict`. -/
def ReasoningTrace.toDict (t : ReasoningTrace F) : Dict F :=
  [("schema_version", .int t.schemaVersion),
    ("run_id", .str t.runId),
    ("correlation_id", .str t.correlationId),
    ("created_at", .float t.createdAt),
    ("task", .dict t.task),
    ("outcome", .str t.outcome),
    ("attempts", .int t.attempts),
    ("error", .str t.error),
    ("final_hypothesis", orNone .dict t.finalHypothesis),
    ("final_static_verdict", orNone .dict t.finalStaticVerdict),
    ("final_symbolic_valid", orNone .bool t.finalSymbolicValid),
    ("final_violations", .list t.finalViolations),
    ("rounds", .list (t.rounds.map VerificationRound.asdict))]

/-- `_safe_name`, the same as that of the checkpoints. -/
def safeName (value : String) : String := Core.Checkpoint.safeName value

/-- The name of the artifact in its directory. -/
def traceName (runId : String) : String := safeName runId ++ ".json"

/-- `commit_reasoning_trace` (reasoning_trace.py:115): the name that is returned, and the files of
the directory. No name is longer than `nameMax`. -/
def commitReasoningTrace [PyFloat F] (nameMax : Nat) (fs : Files) (t : ReasoningTrace F) :
    Except PyExc String × Files :=
  let path := traceName t.runId
  let payload := dumps false (.dict t.toDict)
  let tmpPath := withSuffix path (suffix path ++ ".tmp")
  if nameMax < tmpPath.length then (.error (.osError "File name too long"), fs)
  else (.ok path, replace (Function.update fs tmpPath (some payload)) tmpPath path)

/-- `v[key]`. -/
def getItem (v : PyVal F) (key : String) : Except PyExc (PyVal F) :=
  match v with
  | .dict d =>
    match d.lookup key with
    | some w => .ok w
    | none => .error (.keyError ("'" ++ key ++ "'"))
  | v => .error (subscriptError v)

section Load

/- `dict(v)` of a value that is not a dict, such as a list of pairs. -/
variable [PyNumber F] (dictOfOther : PyVal F → Except PyExc (Dict F))

/-- `dict(v)`. -/
def toItems : PyVal F → Except PyExc (Dict F)
  | .dict d => .ok d
  | v => dictOfOther v

/-- `dict(v) if v else None`. -/
def dictIfTruthy (v : PyVal F) : Except PyExc (Option (Dict F)) :=
  if v.truthy then (toItems dictOfOther v).map some else .ok none

/-- `bool(v) if v is not None else None`. -/
def boolUnlessNone : PyVal F → Option Bool
  | .none => none
  | v => some v.truthy

/-- One round of the artifact. -/
def parseRound (roundData : PyVal F) : Except PyExc (VerificationRound F) := do
  let attempt ← (← getItem roundData "attempt").pyInt
  let hypothesis ← toItems dictOfOther (← getItem roundData "hypothesis")
  let staticVerdict ← toItems dictOfOther (← getItem roundData "static_verdict")
  let symbolicValid ← getItem roundData "symbolic_valid"
  let violations ← (← getItem roundData "violations").iter
  return ⟨attempt, hypothesis, staticVerdict, symbolicValid.truthy, violations⟩

/-- The trace of an artifact. -/
def parseTrace (data : PyVal F) : Except PyExc (ReasoningTrace F) := do
  let rounds ← (← (← data.getKey "rounds" (.list [])).iter).mapM (parseRound dictOfOther)
  let runId ← getItem data "run_id"
  let correlationId ← getItem data "correlation_id"
  let task ← toItems dictOfOther (← getItem data "task")
  let outcome ← data.getKey "outcome" (.str "error")
  let attempts ← (← data.getKey "attempts" (.int rounds.length)).pyInt
  -- an empty dict is not true
  let finalHypothesis ← dictIfTruthy dictOfOther (← data.getKey "final_hypothesis" .none)
  let finalStaticVerdict ← dictIfTruthy dictOfOther (← data.getKey "final_static_verdict" .none)
  let finalSymbolicValid ← data.getKey "final_symbolic_valid" .none
  let finalViolations ← (← data.getKey "final_violations" (.list [])).iter
  let error ← data.getKey "error" (.str "")
  let schemaVersion ← (← data.getKey "schema_version" (.int 1)).pyInt
  let createdAt ← (← data.getKey "created_at" (.float zeroFloat)).pyFloat
  return {
    runId := runId.toStr
    correlationId := correlationId.toStr
    task
    rounds
    outcome := outcome.toStr
    attempts
    finalHypothesis
    finalStaticVerdict
    finalSymbolicValid := boolUnlessNone finalSymbolicValid
    finalViolations
    error := error.toStr
    schemaVersion
    createdAt }

/-- `except (KeyError, TypeError, ValueError)`: other exceptions of the parser are raised. -/
def malformed : PyExc → Bool
  | .keyError _ | .typeError _ | .valueError _ => true
  | _ => false

/-- `load_reasoning_trace` (reasoning_trace.py:134). -/
def loadReasoningTrace (nameMax : Nat) (fs : Files) (path : String) :
    Except PyExc (Option (ReasoningTrace F)) :=
  match Core.Checkpoint.readTextIfExists nameMax fs path with
  | .error _ => .ok none
  | .ok none => .ok none
  | .ok (some text) =>
    match loads text with
    | none => .ok none
    | some data =>
      match parseTrace dictOfOther data with
      | .ok t => .ok (some t)
      | .error e => if malformed e then .ok none else .error e

end Load

/-! ## Traces of JSON values -/

/-- A JSON value: every dict has distinct keys, and there is no other object in it. -/
def IsValue (v : PyVal F) : Prop := v.WF ∧ v.isJson = true

/-- The values of a round are JSON. -/
structure VerificationRound.IsJson (r : VerificationRound F) : Prop where
  hypothesis : IsValue (.dict r.hypothesis)
  staticVerdict : IsValue (.dict r.staticVerdict)
  violations : IsValue (.list r.violations)

/-- The task, the hypotheses, the verdicts and the violations of a trace are JSON. -/
structure ReasoningTrace.IsJson (t : ReasoningTrace F) : Prop where
  task : IsValue (.dict t.task)
  rounds : ∀ r ∈ t.rounds, r.IsJson
  finalHypothesis : ∀ d ∈ t.finalHypothesis, IsValue (.dict d)
  finalStaticVerdict : ∀ d ∈ t.finalStaticVerdict, IsValue (.dict d)
  finalViolations : IsValue (.list t.finalViolations)

theorem isValue_list {xs : List (PyVal F)} (h : ∀ x ∈ xs, IsValue x) : IsValue (.list xs) := by
  induction xs with
  | nil => exact ⟨trivial, rfl⟩
  | cons x xs ih =>
    obtain ⟨hx, hxs⟩ := List.forall_mem_cons.mp h
    obtain ⟨hwf, hjson⟩ := ih hxs
    exact ⟨⟨hx.1, hwf⟩, (Bool.and_eq_true ..).mpr ⟨hx.2, hjson⟩⟩

theorem isValue_dict {d : Dict F} (hkeys : (d.map Prod.fst).Nodup)
    (h : ∀ kv ∈ d, IsValue kv.2) : IsValue (.dict d) := by
  refine ⟨⟨hkeys, wfPairs_iff.mpr fun kv hkv => (h kv hkv).1⟩, ?_⟩
  clear hkeys
  show isJsonPairs d = true
  induction d with
  | nil => rfl
  | cons kv d ih =>
    obtain ⟨hkv, hd⟩ := List.forall_mem_cons.mp h
    exact (Bool.and_eq_true ..).mpr ⟨hkv.2, ih hd⟩

theorem isValue_orNone {α : Type} {f : α → PyVal F} {x : Option α} (h : ∀ a ∈ x, IsValue (f a)) :
    IsValue (orNone f x) := by
  cases x with
  | none => exact ⟨trivial, rfl⟩
  | some a => exact h a rfl

theorem VerificationRound.IsJson.asdict {r : VerificationRound F} (h : r.IsJson) :
    IsValue r.asdict := by
  have hkeys : ["attempt", "hypothesis", "static_verdict", "symbolic_valid", "violations"].Nodup := by
    decide
  refine isValue_dict hkeys ?_
  simp only [List.forall_mem_cons]
  exact ⟨⟨trivial, rfl⟩, h.hypothesis, h.staticVerdict, ⟨trivial, rfl⟩, h.violations, nofun⟩

/-- The dict that is written is JSON. -/
theorem ReasoningTrace.IsJson.toDict {t : ReasoningTrace F} (h : t.IsJson) :
    IsValue (.dict t.toDict) := by
  have hkeys : t.toDict.map Prod.fst = ["schema_version", "run_id", "correlation_id",
      "created_at", "task", "outcome", "attempts", "error", "final_hypothesis",
      "final_static_verdict", "final_symbolic_valid", "final_violations", "rounds"] := rfl
  have hrounds : IsValue (.list (t.rounds.map VerificationRound.asdict)) := by
    refine isValue_list fun v hv => ?_
    obtain ⟨r, hr, rfl⟩ := List.mem_map.mp hv
    exact (h.rounds r hr).asdict
  refine isValue_dict (hkeys ▸ by decide) ?_
  simp only [ReasoningTrace.toDict, List.forall_mem_cons]
  exact ⟨⟨trivial, rfl⟩, ⟨trivial, rfl⟩, ⟨trivial, rfl⟩, ⟨trivial, rfl⟩, h.task, ⟨trivial, rfl⟩,
    ⟨trivial, rfl⟩, ⟨trivial, rfl⟩, isValue_orNone h.finalHypothesis,
    isValue_orNone h.finalStaticVerdict, isValue_orNone fun b _ => ⟨trivial, rfl⟩,
    h.finalViolations, hrounds, nofun⟩

/-! ## The round trip -/

variable [PyNumber F] (dictOfOther : PyVal F → Except PyExc (Dict F))

/-- The trace that comes back: an empty final dict is `None`. -/
def ReasoningTrace.loaded (t : ReasoningTrace F) : ReasoningTrace F :=
  { t with
    finalHypothesis := t.finalHypothesis.filter (!·.isEmpty)
    finalStaticVerdict := t.finalStaticVerdict.filter (!·.isEmpty) }

theorem parseRound_asdict (r : VerificationRound F) : parseRound dictOfOther r.asdict = .ok r := rfl

theorem mapM_parseRound (rounds : List (VerificationRound F)) :
    (rounds.map VerificationRound.asdict).mapM (parseRound dictOfOther) = .ok rounds := by
  induction rounds with
  | nil => rfl
  | cons r rounds ih =>
    rw [List.map_cons, List.mapM_cons, parseRound_asdict, ok_bind, ih]
    rfl

theorem dictIfTruthy_orNone (x : Option (Dict F)) :
    dictIfTruthy dictOfOther (orNone .dict x) = .ok (x.filter (!·.isEmpty)) := by
  rcases x with _ | _ | ⟨kv, d⟩ <;> rfl

theorem boolUnlessNone_orNone (x : Option Bool) : boolUnlessNone (orNone (F := F) .bool x) = x := by
  cases x <;> rfl

/-- What is read back from the dict of a trace. -/
theorem parseTrace_toDict (t : ReasoningTrace F) :
    parseTrace dictOfOther (.dict t.toDict) = .ok t.loaded := by
  have hrounds := mapM_parseRound dictOfOther t.rounds
  have hhypothesis := dictIfTruthy_orNone dictOfOther t.finalHypothesis
  have hverdict := dictIfTruthy_orNone dictOfOther t.finalStaticVerdict
  have hvalid := boolUnlessNone_orNone (F := F) t.finalSymbolicValid
  show (List.mapM (parseRound dictOfOther) (t.rounds.map VerificationRound.asdict)).bind _ = _
  rw [hrounds]
  show (dictIfTruthy dictOfOther (orNone .dict t.finalHypothesis)).bind _ = _
  rw [hhypothesis]
  show (dictIfTruthy dictOfOther (orNone .dict t.finalStaticVerdict)).bind _ = _
  rw [hverdict]
  show Except.ok { t.loaded with
    finalSymbolicValid := boolUnlessNone (orNone (F := F) .bool t.finalSymbolicValid) } = _
  rw [hvalid]
  rfl

/-- The artifact that was committed, without the temporary file. -/
theorem commit_eq_ok {nameMax : Nat} {fs fs' : Files} {t : ReasoningTrace F} {path : String}
    (h : commitReasoningTrace nameMax fs t = (.ok path, fs')) :
    path.length ≤ nameMax ∧ fs' path = some (dumps false (.dict t.toDict)) := by
  dsimp only [commitReasoningTrace] at h
  rw [withSuffix_suffix] at h
  split at h
  · cases h
  · next hfits =>
    have hlength : (traceName t.runId ++ ".tmp").length = (traceName t.runId).length + 4 := by
      rw [String.length_append]
      rfl
    obtain ⟨hpath, hfs⟩ := Prod.mk.inj h
    rw [← hfs, ← Except.ok.inj hpath, replace, Function.update_self]
    exact ⟨by omega, Function.update_self ..⟩

/-- The text of a trace of JSON values is read as its dict. -/
theorem loads_toDict {t : ReasoningTrace F} (h : t.IsJson) :
    loads (universalNewlines (dumps false (.dict t.toDict))) = some (.dict t.toDict) := by
  have hnewline : '\r' ∉ dumps false (.dict t.toDict) := fun hmem =>
    absurd (dumps_textChar false _ _ hmem).1 (by decide)
  rw [universalNewlines_eq_self hnewline, loads_dumps false h.toDict.1,
    plain_eq_self _ h.toDict.2]

/-- What is loaded after a commit. -/
theorem load_commit {nameMax : Nat} {fs fs' : Files} {t : ReasoningTrace F} {path : String}
    (hjson : t.IsJson) (hcommit : commitReasoningTrace nameMax fs t = (.ok path, fs')) :
    loadReasoningTrace dictOfOther nameMax fs' path = .ok (some t.loaded) := by
  obtain ⟨hlength, hfile⟩ := commit_eq_ok hcommit
  have hfits : ¬ nameMax < path.length := by omega
  have hread : Core.Checkpoint.readTextIfExists nameMax fs' path =
      .ok (some (universalNewlines (dumps false (.dict t.toDict)))) := by
    rw [Core.Checkpoint.readTextIfExists, if_neg hfits, hfile]
    rfl
  rw [loadReasoningTrace, hread]
  dsimp only
  rw [loads_toDict hjson]
  dsimp only
  rw [parseTrace_toDict]

omit [PyNumber F] in
theorem filter_eq_self_iff (x : Option (Dict F)) :
    x.filter (!·.isEmpty) = x ↔ x ≠ some [] := by
  rcases x with _ | _ | ⟨kv, d⟩ <;> simp

/-- **When a committed trace comes back**, for every trace of JSON values: when neither the final
hypothesis nor the final static verdict is an empty dict. -/
theorem load_commit_iff {nameMax : Nat} {fs fs' : Files} {t : ReasoningTrace F} {path : String}
    (hjson : t.IsJson) (hcommit : commitReasoningTrace nameMax fs t = (.ok path, fs')) :
    loadReasoningTrace dictOfOther nameMax fs' path = .ok (some t) ↔
      t.finalHypothesis ≠ some [] ∧ t.finalStaticVerdict ≠ some [] := by
  rw [load_commit dictOfOther hjson hcommit, ← filter_eq_self_iff, ← filter_eq_self_iff]
  constructor
  · intro h
    have hsame := Option.some.inj (Except.ok.inj h)
    exact ⟨congrArg ReasoningTrace.finalHypothesis hsame,
      congrArg ReasoningTrace.finalStaticVerdict hsame⟩
  · rintro ⟨hhypothesis, hverdict⟩
    rw [ReasoningTrace.loaded, hhypothesis, hverdict]

/-! ## Samples -/

/-- `dict` of a value that is not a dict: no value of a sample is such. -/
def noOther : PyVal FloatText → Except PyExc (Dict FloatText) :=
  fun v => .error (.typeError ("'" ++ v.typeName ++ "' object is not iterable"))

/-- A trace of one round, with the given final hypothesis. -/
def sampleTrace (final : Option (Dict FloatText)) : ReasoningTrace FloatText where
  runId := "run"
  correlationId := "call"
  task := [("goals", .list [])]
  rounds := [⟨0, [("code", .str "x = 1\n")], [("passed", .bool true)], true, []⟩]
  outcome := "completed"
  attempts := 1
  finalHypothesis := final
  finalStaticVerdict := none
  finalSymbolicValid := some true
  finalViolations := []
  error := ""
  schemaVersion := 1
  createdAt := PyFloat.ofText "1754000000.5".toList

omit [PyNumber F] in
theorem isValue_single {k : String} {v : PyVal F} (h : IsValue v) : IsValue (.dict [(k, v)]) :=
  isValue_dict (List.nodup_singleton k) (List.forall_mem_singleton.mpr h)

theorem sampleTrace_isJson (final : Option (Dict FloatText))
    (h : ∀ d ∈ final, IsValue (.dict d)) : (sampleTrace final).IsJson where
  task := isValue_single (isValue_list nofun)
  rounds := by
    intro r hr
    rw [List.mem_singleton.mp hr]
    exact ⟨isValue_single ⟨trivial, rfl⟩, isValue_single ⟨trivial, rfl⟩, isValue_list nofun⟩
  finalHypothesis := h
  finalStaticVerdict := nofun
  finalViolations := isValue_list nofun

theorem commit_sample (final : Option (Dict FloatText)) :
    ∃ fs', commitReasoningTrace 255 (fun _ => none) (sampleTrace final) = (.ok "run.json", fs') := by
  have hname : traceName "run" = "run.json" := by decide
  have hfits : ¬ 255 < (traceName "run" ++ ".tmp").length := by
    rw [hname]
    decide
  dsimp only [commitReasoningTrace]
  rw [withSuffix_suffix, show (sampleTrace final).runId = "run" from rfl, if_neg hfits, hname]
  exact ⟨_, rfl⟩

/-- The theorem at work on a trace with a final hypothesis. -/
theorem load_commit_sample :
    ∃ fs', commitReasoningTrace 255 (fun _ => none) (sampleTrace (some [("code", .str "x")])) =
        (.ok "run.json", fs') ∧
      loadReasoningTrace noOther 255 fs' "run.json" =
        .ok (some (sampleTrace (some [("code", .str "x")]))) := by
  obtain ⟨fs', hcommit⟩ := commit_sample (some [("code", .str "x")])
  have hjson : (sampleTrace (some [("code", .str "x")])).IsJson := sampleTrace_isJson _ fun d hd => by
    cases hd
    exact isValue_single ⟨trivial, rfl⟩
  exact ⟨fs', hcommit, (load_commit_iff noOther hjson hcommit).mpr ⟨nofun, nofun⟩⟩

/-- The empty final hypothesis comes back as `None`. -/
theorem load_commit_empty :
    (sampleTrace (some [])).IsJson ∧
      ∃ fs', commitReasoningTrace 255 (fun _ => none) (sampleTrace (some [])) = (.ok "run.json", fs') ∧
        loadReasoningTrace noOther 255 fs' "run.json" = .ok (some (sampleTrace none)) ∧
        loadReasoningTrace noOther 255 fs' "run.json" ≠ .ok (some (sampleTrace (some []))) := by
  obtain ⟨fs', hcommit⟩ := commit_sample (some [])
  have hjson : (sampleTrace (some [])).IsJson := sampleTrace_isJson _ fun d hd => by
    cases hd
    exact isValue_dict .nil nofun
  have hload := load_commit noOther hjson hcommit
  refine ⟨hjson, fs', hcommit, hload, fun hsame => ?_⟩
  rw [hload] at hsame
  have hfinal := congrArg ReasoningTrace.finalHypothesis (Option.some.inj (Except.ok.inj hsame))
  cases hfinal

end Noema.Tracing.TraceFile
