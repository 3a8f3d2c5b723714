import Noema.Lib.Folder
import Noema.Lib.Json
import Noema.Lib.PyText
import Noema.Lib.PyRuntime
import Noema.Lib.System

/-!
# Atomic writes with backups (`utils/atomic_io.py`)

`atomicWriteJson` rotates the backups of a file, writes the new content to a temporary file and
renames it; `atomicReadJson` reads a file, or its first backup. The backups are rotated before the
content is known to be serializable, so a call that fails has made a backup too
(`atomicWriteJson_error`).

- `backupPath`, `temporaryPath`: the names. They differ from each other and from that of the file
  whatever its suffix is (`stemOf_append_ne`), which is what lets the calls be compared file by
  file.
- `atomicWriteJson_ok`, `atomicWriteJson_error`: all that a call does, by the rotation of
  `Lib.Folder`.
- `failsCleanly_iff`: a call that fails changes nothing if and only if there was no file, or all
  backups held what the file held.
- **`writes_iff`**: in every run of calls on one path, whatever is in its directory, the file and
  its backups hold the last versions that were written, and failing calls change nothing, if and
  only if every call that cannot serialize its content finds such a directory (`Spares`).
- `failed_call_rotates`: the call that pushes the older version out.
-/

namespace Noema.Utils

open Noema.Lib

/-- The files of a directory, with their texts. -/
abbrev Files := Folder String (List Char)

/-! ## Names -/

/-- `path.stem`. -/
def stemOf (path : String) : String :=
  String.ofList (path.toList.take (path.length - (suffix path).length))

/-- `path.with_suffix(f".bak.{i}")`. -/
def backupPath (path : String) (i : ℕ) : String := withSuffix path (".bak." ++ toString i)

/-- The name that `mkstemp` makes. -/
def temporaryPath (path random : String) : String := stemOf path ++ "." ++ random ++ ".tmp"

/-! ## Writing -/

/-- `_rotate_backups` (atomic_io.py:80). -/
def rotateBackups (path : String) (maxBackups : Int) (d : Files) : Files :=
  if maxBackups ≤ 0 then d else d.rotate path (backupPath path) maxBackups.toNat

/-- A call of `atomic_write_json`: the random part of the name of its temporary file, and how
`json.dump` ends. -/
structure JsonWrite where
  random : String
  dumped : Except PyExc (List Char)

/-- `atomic_write_json` (atomic_io.py:18). Replacing a file and renaming to a new name are the
same. -/
def atomicWriteJson (path : String) (backup : Bool) (backupCount : Int) (w : JsonWrite) :
    PyM Files Unit := do
  let d ← PyM.get
  if backup && d.isFile path then PyM.modify (rotateBackups path backupCount) else pure ()
  PyM.modify fun d => d.write (temporaryPath path w.random) []
  match w.dumped with
  | .ok text => do
    PyM.modify fun d => d.write (temporaryPath path w.random) text
    PyM.modify fun d => d.rename (temporaryPath path w.random) path
  | .error e => do
    PyM.modify fun d => d.unlink (temporaryPath path w.random)
    PyM.raise e

/-! ## Reading -/

section Reading

open PyJson

variable {F : Type} [PyFloat F]

/-- `json.load(f)` of a file in text mode; `none` is `JSONDecodeError`. -/
def jsonLoad (text : List Char) : Option (PyVal F) := loads (universalNewlines text)

/-- `atomic_read_json` (atomic_io.py:59): the first backup is read if the file is no JSON. -/
def atomicReadJson (path : String) (default : Option (PyVal F)) (d : Files) : PyVal F :=
  let fallback := default.getD (.dict [])
  match d path with
  | none => fallback
  | some text =>
    match jsonLoad text with
    | some v => v
    | none =>
      match d (backupPath path 1) with
      | some text => (jsonLoad text).getD fallback
      | none => fallback

end Reading

/-! ## Names that differ -/

theorem stemOf_append_suffix (path : String) : stemOf path ++ suffix path = path := by
  have h := withSuffix_suffix path ""
  rwa [String.append_empty, String.append_empty] at h

/-- A suffix has one dot. -/
theorem suffix_cases (path : String) :
    suffix path = "" ∨ ∃ ext : List Char, suffix path = String.ofList ('.' :: ext) ∧ '.' ∉ ext := by
  rw [suffix]
  split
  · refine .inr ⟨_, rfl, ?_⟩
    rw [List.mem_reverse]
    intro hmem
    exact absurd (List.mem_takeWhile_imp hmem) (by decide)
  · exact .inl rfl

/-- Another suffix with two dots makes another name. -/
theorem stemOf_append_ne (path : String) {new : List Char} (hdot : '.' ∈ new) :
    stemOf path ++ String.ofList ('.' :: new) ≠ path := by
  intro h
  have hsuffix : String.ofList ('.' :: new) = suffix path := by
    have heq := h.trans (stemOf_append_suffix path).symm
    apply String.toList_injective
    have hchars := congrArg String.toList heq
    rw [String.toList_append, String.toList_append] at hchars
    exact List.append_cancel_left hchars
  rcases suffix_cases path with hnone | ⟨ext, hext, hnotin⟩
  · rw [hnone] at hsuffix
    exact absurd (congrArg String.toList hsuffix) (by simp)
  · rw [hext] at hsuffix
    have hchars := congrArg String.toList hsuffix
    rw [String.toList_ofList, String.toList_ofList] at hchars
    exact hnotin ((List.cons.inj hchars).2 ▸ hdot)

theorem toList_backupPath (path : String) (i : ℕ) :
    (backupPath path i).toList =
      (stemOf path).toList ++ '.' :: 'b' :: 'a' :: 'k' :: '.' :: (toString i).toList := by
  simp [backupPath, withSuffix, stemOf]

theorem toList_temporaryPath (path random : String) :
    (temporaryPath path random).toList =
      (stemOf path).toList ++ '.' :: (random.toList ++ ['.', 't', 'm', 'p']) := by
  simp [temporaryPath]

theorem backupPath_ne (path : String) (i : ℕ) : backupPath path i ≠ path := by
  intro heq
  have hdot : '.' ∈ 'b' :: 'a' :: 'k' :: '.' :: (toString i).toList := by simp
  refine stemOf_append_ne path hdot (String.toList_injective ?_)
  rw [String.toList_append, String.toList_ofList, ← toList_backupPath, heq]

theorem temporaryPath_ne (path random : String) : temporaryPath path random ≠ path := by
  intro heq
  have hdot : '.' ∈ random.toList ++ ['.', 't', 'm', 'p'] := by simp
  refine stemOf_append_ne path hdot (String.toList_injective ?_)
  rw [String.toList_append, String.toList_ofList, ← toList_temporaryPath, heq]

theorem backupPath_injective (path : String) : Function.Injective (backupPath path) := by
  intro i j h
  have hchars := congrArg String.toList h
  rw [toList_backupPath, toList_backupPath] at hchars
  have hrest := List.append_cancel_left hchars
  simp only [List.cons.injEq, true_and] at hrest
  exact Nat.repr_inj.mp (String.toList_injective hrest)

/-- A temporary file ends with a letter, a backup with a digit. -/
theorem temporaryPath_ne_backupPath (path random : String) (i : ℕ) :
    temporaryPath path random ≠ backupPath path i := by
  intro h
  have hchars := congrArg String.toList h
  rw [toList_temporaryPath, toList_backupPath] at hchars
  have hrest := (List.cons.inj (List.append_cancel_left hchars)).2
  have hdigits : (toString i).toList = Nat.toDigits 10 i := Nat.toList_repr
  have hlast : ('b' :: 'a' :: 'k' :: '.' :: Nat.toDigits 10 i).getLast? = some 'p' := by
    rw [← hdigits, ← hrest]
    simp
  have hp : 'p' ∈ Nat.toDigits 10 i := by
    have hget := List.getLast?_eq_some_getLast (Nat.toDigits_ne_nil (n := i) (b := 10))
    have hsome : (Nat.toDigits 10 i).getLast? = some 'p' := by
      rw [← hlast]
      simp [List.getLast?_cons, hget]
    exact List.mem_of_getLast? hsome
  exact absurd (Nat.isDigit_of_mem_toDigits (by decide) (by decide) hp) (by decide)

/-! ## What a call does -/

/-- The file or one of its backups. -/
def versionPath (path : String) : ℕ → String := Folder.version path (backupPath path)

/-- The files after the backups were made. -/
def backedUp (path : String) (backupCount : Int) (d : Files) : Files :=
  if d.isFile path then rotateBackups path backupCount d else d

theorem temporaryPath_ne_versionPath (path random : String) (i : ℕ) :
    temporaryPath path random ≠ versionPath path i := by
  cases i with
  | zero => exact temporaryPath_ne path random
  | succ i => exact temporaryPath_ne_backupPath path random (i + 1)

variable {path : String} {backupCount : Int} {w : JsonWrite} {d : Files}

/-- A call that succeeds has made the backups and written the file. -/
theorem atomicWriteJson_ok {text : List Char} (hw : w.dumped = .ok text) (i : ℕ) :
    (atomicWriteJson path true backupCount w d).2 (versionPath path i) =
      (backedUp path backupCount d).write path text (versionPath path i) := by
  have hne := (temporaryPath_ne_versionPath path w.random i).symm
  have hstate : (atomicWriteJson path true backupCount w d).2 =
      (((backedUp path backupCount d).write (temporaryPath path w.random) []).write
        (temporaryPath path w.random) text).rename (temporaryPath path w.random) path := by
    rw [atomicWriteJson, PyM.bind_ok (PyM.get_apply d), hw, backedUp, Bool.true_and]
    split
    · rfl
    · rfl
  rw [hstate]
  by_cases hpath : versionPath path i = path
  · rw [hpath, Folder.rename_dst (temporaryPath_ne path w.random).symm, Folder.write_self,
      Folder.write_self]
  · rw [Folder.rename_of_ne hne hpath, Folder.write_of_ne hne, Folder.write_of_ne hne,
      Folder.write_of_ne hpath]

theorem atomicWriteJson_returns {text : List Char} (hw : w.dumped = .ok text) :
    (atomicWriteJson path true backupCount w d).1 = .ok () := by
  rw [atomicWriteJson, PyM.bind_ok (PyM.get_apply d), hw]
  split
  · rfl
  · rfl

/-- A call that fails has made the backups. -/
theorem atomicWriteJson_error {e : PyExc} (hw : w.dumped = .error e) (i : ℕ) :
    (atomicWriteJson path true backupCount w d).2 (versionPath path i) =
      backedUp path backupCount d (versionPath path i) := by
  have hne := (temporaryPath_ne_versionPath path w.random i).symm
  have hstate : (atomicWriteJson path true backupCount w d).2 =
      ((backedUp path backupCount d).write (temporaryPath path w.random) []).unlink
        (temporaryPath path w.random) := by
    rw [atomicWriteJson, PyM.bind_ok (PyM.get_apply d), hw, backedUp, Bool.true_and]
    split
    · rfl
    · rfl
  rw [hstate, Folder.unlink_of_ne hne, Folder.write_of_ne hne]

/-! ## Sequences of calls -/

/-- The files, and the versions that were written, the newest first. -/
structure WriteState where
  files : Files
  versions : List (List Char)

/-- Calls on one path. `mkstemp` takes a name that is free. -/
def writes (path : String) (backupCount : Int) (start : Files) : System WriteState JsonWrite where
  init := ⟨start, []⟩
  step s w :=
    if s.files.isFile (temporaryPath path w.random) then none
    else some
      { files := (atomicWriteJson path true backupCount w s.files).2
        versions :=
          match w.dumped with
          | .ok text => text :: s.versions
          | .error _ => s.versions }

/-- The file holds the last version, and its backups the ones before. -/
def KeepsHistory (path : String) (backupCount : Int) (s : WriteState) : Prop :=
  Folder.Holds path (backupPath path) backupCount.toNat s.files s.versions

/-- If the call fails, it changes neither the file nor a backup. -/
def FailsCleanly (path : String) (backupCount : Int) (d : Files) (w : JsonWrite) : Prop :=
  ∀ e, w.dumped = .error e → ∀ i,
    (atomicWriteJson path true backupCount w d).2 (versionPath path i) = d (versionPath path i)

/-- The content can be serialized, or there is no file yet, or all backups hold what the file
holds. -/
def Spares (path : String) (backupCount : Int) (d : Files) (w : JsonWrite) : Prop :=
  (∃ text, w.dumped = .ok text) ∨ d path = none ∨
    ∀ i < backupCount.toNat, d (backupPath path (i + 1)) = d path

/-- When a call that fails changes nothing. -/
theorem failsCleanly_iff (hcount : 1 ≤ backupCount) :
    FailsCleanly path backupCount d w ↔ Spares path backupCount d w := by
  have hpos : ¬ backupCount ≤ 0 := by omega
  rcases hdumped : w.dumped with e | text
  · have hfails : FailsCleanly path backupCount d w ↔
        ∀ i, backedUp path backupCount d (versionPath path i) = d (versionPath path i) := by
      constructor
      · intro h i
        rw [← h e hdumped i, atomicWriteJson_error hdumped]
      · intro h e' _ i
        rw [atomicWriteJson_error hdumped, h i]
    rw [hfails, Spares, hdumped, backedUp]
    cases hfile : d path with
    | none => simp [Folder.isFile, hfile]
    | some text =>
      rw [if_pos (by rw [Folder.isFile, hfile]; rfl), rotateBackups, if_neg hpos, versionPath,
        Folder.rotate_eq_self_iff (backupPath_injective path) (backupPath_ne path) (by omega), hfile]
      simp
  · refine iff_of_true (fun e he => ?_) (.inl ⟨text, hdumped⟩)
    rw [hdumped] at he
    cases he

/-- A call that succeeds adds a version. -/
theorem holds_write (hcount : 1 ≤ backupCount) {text : List Char} (hw : w.dumped = .ok text)
    {versions : List (List Char)}
    (h : Folder.Holds path (backupPath path) backupCount.toNat d versions) :
    Folder.Holds path (backupPath path) backupCount.toNat
      (atomicWriteJson path true backupCount w d).2 (text :: versions) := by
  have hpos : ¬ backupCount ≤ 0 := by omega
  have hwritten : Folder.Holds path (backupPath path) backupCount.toNat
      ((backedUp path backupCount d).write path text) (text :: versions) := by
    rw [backedUp]
    cases hfile : d path with
    | none =>
      rw [if_neg (by rw [Folder.isFile, hfile]; decide)]
      exact h.first hfile
    | some old =>
      rw [if_pos (by rw [Folder.isFile, hfile]; rfl), rotateBackups, if_neg hpos]
      exact h.push (backupPath_injective path) (backupPath_ne path)
  exact hwritten.congr (atomicWriteJson_ok hw)

/-- **Backup rotation.** In every run of calls on one path, whatever is in its directory, the file
and its backups always hold the last versions and the calls that fail change none of them, if and
only if no call fails on a file whose backups differ from it. -/
theorem writes_iff {start : Files} (hcount : 1 ≤ backupCount)
    {steps : List (WriteState × JsonWrite)} {s : WriteState}
    (run : (writes path backupCount start).Run steps s) :
    (System.Always (KeepsHistory path backupCount) steps s ∧
        ∀ p ∈ steps, FailsCleanly path backupCount p.1.files p.2) ↔
      System.Meets (fun s w => Spares path backupCount s.files w) steps := by
  constructor
  · rintro ⟨-, hclean⟩ p hp
    exact (failsCleanly_iff hcount).mp (hclean p hp)
  · intro hmeets
    have hclean : ∀ p ∈ steps, FailsCleanly path backupCount p.1.files p.2 :=
      fun p hp => (failsCleanly_iff hcount).mpr (hmeets p hp)
    refine ⟨run.always_of_meets ?_ ?_ hmeets, hclean⟩
    · exact fun i _ hi => absurd hi (Nat.not_lt_zero i)
    · intro s w s' hs hspares hstep
      have hstep' := (Option.ite_none_left_eq_some.mp hstep).2
      cases hstep'
      -- a call that fails leaves the versions, and one that succeeds adds one
      rcases hdumped : w.dumped with e | text
      · exact Folder.Holds.congr hs ((failsCleanly_iff hcount).mpr hspares e hdumped)
      · exact holds_write hcount hdumped hs

/-! ## Samples -/

/-- An empty directory. -/
def noFiles : Files := fun _ => none

/-- A call that writes a text. -/
def writeText (text : List Char) : JsonWrite := ⟨"x", .ok text⟩

/-- A call whose data cannot be serialized. -/
def writeCircular : JsonWrite := ⟨"x", .error (.valueError "Circular reference detected")⟩

/-- Two versions after a call that failed. -/
theorem writes_iff_two : ∃ steps s, (writes "state.json" 2 noFiles).Run steps s ∧
    s.versions = [['2'], ['1']] ∧ KeepsHistory "state.json" 2 s := by
  have run := System.Run.next (e := writeText ['2']) (System.Run.next (e := writeText ['1'])
    (System.Run.next (e := writeCircular) (System.Run.start (S := writes "state.json" 2 noFiles)) rfl)
      rfl) rfl
  refine ⟨_, _, run, rfl, ((writes_iff (by decide) run).mpr ?_).1.1⟩
  refine List.forall_mem_cons.mpr ⟨.inl ⟨_, rfl⟩, List.forall_mem_cons.mpr ⟨.inl ⟨_, rfl⟩, ?_⟩⟩
  exact List.forall_mem_singleton.mpr (.inr (.inl rfl))

/-- A call that fails pushes the older version out of the backup. -/
theorem failed_call_rotates : ∃ steps s, (writes "state.json" 1 noFiles).Run steps s ∧
    s.versions = [['2'], ['1']] ∧ s.files "state.bak.1" = some ['2'] ∧
      ¬ KeepsHistory "state.json" 1 s := by
  have run := System.Run.next (e := writeCircular) (System.Run.next (e := writeText ['2'])
    (System.Run.next (e := writeText ['1']) (System.Run.start (S := writes "state.json" 1 noFiles))
      rfl) rfl) rfl
  refine ⟨_, _, run, rfl, by decide +kernel, fun hkeeps => ?_⟩
  have hbackup := hkeeps 1 (Nat.le_refl 1) (by decide)
  exact absurd hbackup (by decide +kernel)

end Noema.Utils
