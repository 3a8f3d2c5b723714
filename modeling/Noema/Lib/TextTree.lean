import Noema.Lib.LastWrite
import Noema.Lib.Posix

/-!
# Files with texts

A tree of entries together with the texts of its files, and a log of what was done to files. The
system may refuse any call, as in `Posix`.

- `touchFile`: `Path.touch`; `writeText`: `Path.write_text`; `onWorld`: what concerns the entries
  only, `mkdirP` among it.
- `Logged`: what was written last to a location is there. Each call keeps it, appends to the log
  what it did, and raises nothing but what the system raises (`Appends`).
- `Modest`: a call on the entries that turns no file into something else and raises for the system
  only; everything that `Posix` creates with is of this kind, so it never disturbs the texts.
- `Appends.within`: calls below a location stay there; `Appends.wrote`: what was written, in order,
  and `Wrote.read`, where no location was written twice. A program that writes a list of files is
  then a fold, and what it leaves is read off the list.
-/

namespace Noema.Lib.Posix

open PyM

/-! ## What the system raises -/

/-- An exception that comes from the system. -/
def Refusal (e : PyExc) : Prop := e = .valueError "embedded null byte" ∨ e.typeName ≠ "ValueError"

section Refusals

variable {fault : Nat → Bool} {path : List String} {P : World → Prop}

theorem refusal_of_walk {t : FileTree} {loc : Loc} {segs : List String} {e : PyExc}
    (h : t.walk loc segs = .error e) : Refusal e := by
  induction segs generalizing loc with
  | nil => cases h
  | cons seg segs ih =>
    rw [FileTree.walk] at h
    split at h
    · cases h
      exact .inr (by decide)
    · cases h
      exact .inr (by decide)
    · exact ih h

theorem refusals_osMkdir : Triple (fun _ => True) (osMkdir fault path) anything
    fun e _ => Refusal e := by
  intro w _
  rw [osMkdir]
  split_ifs with hnul hfault
  · exact .inl rfl
  · exact .inr (by decide)
  · cases hwalk : w.tree.walk [] path with
    | error e => exact refusal_of_walk hwalk
    | ok loc =>
      dsimp only
      split_ifs
      · trivial
      · exact .inr (by decide)

theorem refusals_touch : Triple (fun _ => True) (touch fault path) anything
    fun e _ => Refusal e := by
  intro w _
  rw [touch]
  split_ifs with hnul hfault
  · exact .inl rfl
  · exact .inr (by decide)
  · cases hwalk : w.tree.walk [] path with
    | error e => exact refusal_of_walk hwalk
    | ok loc =>
      dsimp only
      split_ifs
      · trivial
      · exact .inr (by decide)
      · trivial

theorem refusals_existOk {e : PyExc} :
    Triple (fun _ => Refusal e) (existOk path e) anything fun e _ => Refusal e := by
  intro w he
  rw [existOk]
  split_ifs
  · trivial
  · exact he

theorem refusals_mkdirP : Triple (fun _ => True) (mkdirP fault path) anything
    fun e _ => Refusal e := by
  rw [mkdirP]
  generalize path.reverse = rev
  induction rev with
  | nil => exact .tryCatch refusals_osMkdir fun _ => refusals_existOk
  | cons last rev ih =>
    refine .tryCatch refusals_osMkdir fun _ => .ite (fun _ => ?_) fun _ => refusals_existOk
    have hagain : Triple (fun _ => True) (osMkdir fault (last :: rev).reverse) anything
        fun e _ => Refusal e := refusals_osMkdir
    refine .bind (ih.imp (fun _ _ => trivial) (fun _ _ h => h) fun _ _ h => h) fun _ => ?_
    refine .tryCatch hagain fun _ => .ite (fun _ => ?_) fun _ => refusals_existOk
    exact .raise fun _ he => he

end Refusals

/-! ## Files stay files -/

section Files

variable {fault : Nat → Bool} {path : List String} {loc : Loc}

/-- No call makes something else of a file. -/
theorem allows_file (path : List String) : Allows (fun w => w.tree.kind loc = some .file) path := by
  refine ⟨fun _ h => h, fun w kind hparent hnew h => ?_⟩
  have hne : loc ≠ resolve [] path := by
    rintro rfl
    cases h.symm.trans hnew
  exact (Function.update_of_ne hne ..).trans h

/-- The way to a missing entry ends in a directory. -/
theorem FileTree.parent_of_walk {t : FileTree} {start : Loc}
    (hstart : t.kind start = none → t.kind start.dropLast = some .dir)
    (h : t.walk start path = .ok loc) (hnone : t.kind loc = none) :
    t.kind loc.dropLast = some .dir := by
  induction path generalizing start with
  | nil =>
    cases h
    exact hstart hnone
  | cons seg segs ih =>
    rw [FileTree.walk] at h
    split at h
    · cases h
    · cases h
    · next hdir =>
      refine ih (fun hmissing => ?_) h
      have hexists : t.kind start ≠ none := by
        rw [hdir]
        exact fun h => by cases h
      rw [enter] at hmissing ⊢
      split_ifs at hmissing ⊢
      · cases hmissing.symm.trans (t.parent start hexists)
      · rw [List.dropLast_concat, hdir]
      · exact absurd hmissing hexists

/-- What was opened is a file. -/
theorem touch_file : Triple (fun _ => True) (touch fault path)
    (fun _ w => w.tree.kind (resolve [] path) = some .file) anything := by
  intro w _
  rw [touch]
  split_ifs with hnul hfault
  · trivial
  · trivial
  · cases hwalk : w.tree.walk [] path with
    | error e => trivial
    | ok loc =>
      cases FileTree.walk_eq_ok hwalk
      dsimp only
      split_ifs with hnew hdir
      · exact Function.update_self ..
      · trivial
      · show w.tree.kind (resolve [] path) = some .file
        cases hkind : w.tree.kind (resolve [] path) with
        | none =>
          refine absurd ⟨w.tree.parent_of_walk (fun hroot => ?_) hwalk hkind, hkind⟩ hnew
          cases hroot.symm.trans w.tree.root
        | some kind =>
          cases kind with
          | dir => exact absurd hkind hdir
          | file => rfl

end Files

/-! ## Texts -/

/-- What is done to a file. -/
inductive FileOp where
  | touch (loc : Loc)
  | write (loc : Loc) (text : String)
  deriving DecidableEq, Repr

namespace FileOp

/-- The location of the file. -/
def loc : FileOp → Loc
  | .touch loc => loc
  | .write loc _ => loc

/-- The location that gets a text. -/
def written : FileOp → Option Loc
  | .touch _ => none
  | .write loc _ => some loc

end FileOp

/-- The entries, the texts of the files, and what was done to files. -/
structure Disk where
  world : World
  text : Loc → String
  log : List FileOp

namespace Disk

/-- The entry is a file. -/
def IsFile (d : Disk) (loc : Loc) : Prop := d.world.tree.kind loc = some .file

/-- What was written last is there. -/
def Logged (d : Disk) : Prop :=
  ∀ loc text, Survives (· = .write loc text) (fun op => op.written = some loc) d.log →
    d.IsFile loc ∧ d.text loc = text

end Disk

/-- What concerns the entries only. -/
def onWorld {α : Type} (x : PyM World α) : PyM Disk α := fun d =>
  ((x d.world).1, { d with world := (x d.world).2 })

section Calls

variable (fault : Nat → Bool)

/-- `os.utime(path)`. -/
def utime (path : List String) : PyM World Unit := fun w =>
  if path.any hasNul then (.error (.valueError "embedded null byte"), w)
  else if fault w.calls then (.error (.osError "refused"), w.called)
  else
    match w.tree.walk [] path with
    | .error e => (.error e, w.called)
    | .ok loc =>
      if w.tree.kind loc = none then
        (.error (.custom "FileNotFoundError" "No such file or directory"), w.called)
      else (.ok (), w.called)

/-- `path.touch(exist_ok=True)`. -/
def touchFile (path : List String) : PyM Disk Unit := do
  let d ← PyM.get
  onWorld (PyM.tryCatch (utime fault path) fun e =>
    if e.typeName = "ValueError" then PyM.raise e else touch fault path)
  let loc := resolve [] path
  PyM.modify fun d' =>
    { d' with
      -- a new file is empty
      text := if d.world.tree.kind loc = none then Function.update d'.text loc "" else d'.text
      log := d'.log ++ [.touch loc] }

/-- `path.write_text(text)`. -/
def writeText (path : List String) (text : String) : PyM Disk Unit := do
  onWorld (touch fault path)
  let loc := resolve [] path
  PyM.modify fun d =>
    { d with text := Function.update d.text loc text, log := d.log ++ [.write loc text] }

end Calls

section Texts

variable {α : Type} {fault : Nat → Bool} {path : List String} {ops : List FileOp} {text : String}

/-- The log is this one, and it is true. -/
def Logs (ops : List FileOp) (d : Disk) : Prop := d.log = ops ∧ d.Logged

/-- The log is this one, and the system raised an exception. -/
def Refused (ops : List FileOp) (e : PyExc) (d : Disk) : Prop := d.log = ops ∧ Refusal e

/-- A call on the entries that leaves files files and has exceptions of the system only. -/
structure Modest (x : PyM World α) : Prop where
  files : ∀ loc, Triple (fun w => w.tree.kind loc = some .file) x
    (fun _ w => w.tree.kind loc = some .file) fun _ w => w.tree.kind loc = some .file
  refusals : Triple (fun _ => True) x anything fun e _ => Refusal e

theorem modest_mkdirP : Modest (mkdirP fault path) :=
  ⟨fun _ => triple_mkdirP fun p _ => allows_file p, refusals_mkdirP⟩

theorem modest_touch : Modest (touch fault path) :=
  ⟨fun _ => (allows_file path).triple_touch, refusals_touch⟩

theorem modest_utime : Modest (utime fault path) := by
  refine ⟨fun loc w hw => ?_, fun w _ => ?_⟩
  · rw [utime]
    split_ifs with hnul hfault
    · exact hw
    · exact hw
    · cases hwalk : w.tree.walk [] path with
      | error e => exact hw
      | ok loc =>
        dsimp only
        split_ifs
        · exact hw
        · exact hw
  · rw [utime]
    split_ifs with hnul hfault
    · exact .inl rfl
    · exact .inr (by decide)
    · cases hwalk : w.tree.walk [] path with
      | error e => exact refusal_of_walk hwalk
      | ok loc =>
        dsimp only
        split_ifs
        · exact .inr (by decide)
        · trivial

theorem Modest.tryTouch {x : PyM World Unit} (h : Modest x) :
    Modest (PyM.tryCatch x fun e =>
      if e.typeName = "ValueError" then PyM.raise e else touch fault path) := by
  refine ⟨fun loc => ?_, ?_⟩
  · refine .tryCatch (h.files loc) fun _ => .ite (fun _ => ?_) fun _ => modest_touch.files loc
    exact .raise fun _ hw => hw
  · refine .tryCatch h.refusals fun _ => .ite (fun _ => ?_) fun _ => ?_
    · exact .raise fun _ he => he
    · exact refusals_touch.imp (fun _ _ => trivial) (fun _ _ h => h) fun _ _ h => h

/-- A call that returns has appended these to the log, and one that raises has done nothing. -/
def Appends (x : PyM Disk α) (new : List FileOp) : Prop :=
  ∀ ops, Triple (Logs ops) x (fun _ => Logs (ops ++ new)) (Refused ops)

/-- A call on the entries is not in the log. -/
theorem Modest.appends {x : PyM World α} (h : Modest x) : Appends (onWorld x) [] := by
  rintro ops d ⟨hlog, hlogged⟩
  have hfile : ∀ loc, d.IsFile loc → (x d.world).2.tree.kind loc = some .file := fun loc hloc =>
    (h.files loc).final hloc
  have hrefusal := h.refusals d.world trivial
  rw [onWorld, List.append_nil]
  rcases hrun : x d.world with ⟨e | a, w⟩ <;> rw [hrun] at hrefusal hfile
  · exact ⟨hlog, hrefusal⟩
  · refine ⟨hlog, fun loc text hsurvives => ?_⟩
    obtain ⟨hloc, htext⟩ := hlogged loc text hsurvives
    exact ⟨hfile loc hloc, htext⟩

theorem appends_mkdirs : Appends (onWorld (mkdirP fault path)) [] := modest_mkdirP.appends

/-- A file that was touched has no new text. -/
theorem appends_touchFile : Appends (touchFile fault path) [.touch (resolve [] path)] := by
  intro ops
  refine .bind (Q := fun d₀ d => Logs ops d ∧ Logs ops d₀) (.get fun d hd => ⟨hd, hd⟩) fun d₀ => ?_
  refine .of_pure fun hbefore => ?_
  refine .bind (modest_utime.tryTouch.appends ops) fun _ => .modify ?_
  rintro d ⟨hlog, hlogged⟩
  rw [List.append_nil] at hlog
  subst hlog
  refine ⟨rfl, fun loc text hsurvives => ?_⟩
  rw [survives_concat] at hsurvives
  obtain ⟨hsurvives, -⟩ := hsurvives.resolve_left fun h => by cases h
  obtain ⟨hfile, htext⟩ := hlogged loc text hsurvives
  refine ⟨hfile, ?_⟩
  dsimp only
  split_ifs with hnew
  · have hne : loc ≠ resolve [] path := by
      rintro rfl
      have hfile₀ := (hbefore.2 _ text (hbefore.1 ▸ hsurvives)).1
      cases hnew.symm.trans hfile₀
    rw [Function.update_of_ne hne, htext]
  · exact htext

/-- What was written is there, and nothing else has changed. -/
theorem appends_writeText : Appends (writeText fault path text) [.write (resolve [] path) text] := by
  intro ops
  have hopen : Triple (Logs ops) (onWorld (touch fault path))
      (fun _ d => Logs ops d ∧ d.IsFile (resolve [] path)) (Refused ops) := by
    intro d hd
    have hcall := (modest_touch : Modest (touch fault path)).appends ops d hd
    have hfile := @touch_file fault path d.world trivial
    rw [onWorld] at hcall ⊢
    rcases hrun : touch fault path d.world with ⟨e | a, w⟩ <;> rw [hrun] at hcall hfile
    · exact hcall
    · rw [List.append_nil] at hcall
      exact ⟨hcall, hfile⟩
  refine .bind hopen fun _ => .modify ?_
  rintro d ⟨⟨rfl, hlogged⟩, hfile⟩
  refine ⟨rfl, fun loc text' hsurvives => ?_⟩
  rw [survives_concat] at hsurvives
  rcases hsurvives with hlast | ⟨hsurvives, hother⟩
  · cases hlast
    exact ⟨hfile, Function.update_self ..⟩
  · have hne : loc ≠ resolve [] path := fun heq => hother (congrArg some heq.symm)
    obtain ⟨hloc, htext⟩ := hlogged loc text' hsurvives
    exact ⟨hloc, (Function.update_of_ne hne ..).trans htext⟩

end Texts

/-! ## Runs -/

section Runs

variable {α : Type} {x : PyM Disk α} {new : List FileOp} {root loc : Loc} {text : String}
  {ws : List (Loc × String)}

/-- All that was done to files was done below a location. -/
def Disk.Within (root : Loc) (d : Disk) : Prop := d.Logged ∧ ∀ op ∈ d.log, root <+: op.loc

/-- So far it was, and the system raised an exception. -/
def Stopped (root : Loc) (e : PyExc) (d : Disk) : Prop :=
  (∀ op ∈ d.log, root <+: op.loc) ∧ Refusal e

/-- Calls below a location stay there. -/
theorem Appends.within (h : Appends x new) (hnew : ∀ op ∈ new, root <+: op.loc) :
    Triple (Disk.Within root) x (fun _ => Disk.Within root) (Stopped root) := by
  rintro d ⟨hlogged, hbelow⟩
  have hpost := h d.log d ⟨rfl, hlogged⟩
  rcases hrun : x d with ⟨e | a, d'⟩ <;> rw [hrun] at hpost
  · obtain ⟨hlog, he⟩ := hpost
    exact ⟨hlog ▸ hbelow, he⟩
  · obtain ⟨hlog, hlogged'⟩ := hpost
    refine ⟨hlogged', fun op hop => ?_⟩
    rw [hlog] at hop
    exact (List.mem_append.mp hop).elim (hbelow op) (hnew op)

/-- What is written to a file. -/
def FileOp.text? : FileOp → Option (Loc × String)
  | .touch _ => none
  | .write loc text => some (loc, text)

/-- These texts were written, in this order. -/
def Disk.Wrote (ws : List (Loc × String)) (d : Disk) : Prop :=
  d.Logged ∧ d.log.filterMap FileOp.text? = ws

theorem Appends.wrote (h : Appends x new) : Triple (Disk.Wrote ws) x
    (fun _ => Disk.Wrote (ws ++ new.filterMap FileOp.text?)) anything := by
  rintro d ⟨hlogged, hws⟩
  have hpost := h d.log d ⟨rfl, hlogged⟩
  rcases hrun : x d with ⟨e | a, d'⟩ <;> rw [hrun] at hpost
  · trivial
  · obtain ⟨hlog, hlogged'⟩ := hpost
    refine ⟨hlogged', ?_⟩
    rw [hlog, List.filterMap_append, hws]

theorem wrote_mkdirs {fault : Nat → Bool} {path : List String} :
    Triple (Disk.Wrote ws) (onWorld (mkdirP fault path)) (fun _ => Disk.Wrote ws) anything :=
  appends_mkdirs.wrote.post fun _ _ hd => by rwa [List.filterMap_nil, List.append_nil] at hd

theorem wrote_touchFile {fault : Nat → Bool} {path : List String} :
    Triple (Disk.Wrote ws) (touchFile fault path) (fun _ => Disk.Wrote ws) anything :=
  appends_touchFile.wrote.post fun _ _ hd => by
    rwa [List.filterMap_cons_none rfl, List.filterMap_nil, List.append_nil] at hd

theorem wrote_writeText {fault : Nat → Bool} {path : List String} :
    Triple (Disk.Wrote ws) (writeText fault path text)
      (fun _ => Disk.Wrote (ws ++ [(resolve [] path, text)])) anything :=
  appends_writeText.wrote

/-- What was written to a location that nothing else was written to is there. -/
theorem Disk.Wrote.read {d : Disk} (h : d.Wrote ws) (hnodup : (ws.map Prod.fst).Nodup)
    (hmem : (loc, text) ∈ ws) : d.IsFile loc ∧ d.text loc = text := by
  obtain ⟨hlogged, rfl⟩ := h
  obtain ⟨op, hop, hwrite⟩ := List.mem_filterMap.mp hmem
  obtain ⟨before, after, hlog⟩ := List.append_of_mem hop
  refine hlogged loc text ⟨before, op, after, hlog, ?_, fun op' hop' hwritten => ?_⟩
  · cases op with
    | touch _ => cases hwrite
    | write _ _ =>
      cases hwrite
      rfl
  · rw [hlog, List.filterMap_append, List.filterMap_cons_some hwrite, List.map_append,
      List.map_cons] at hnodup
    refine (List.nodup_cons.mp (List.nodup_append.mp hnodup).2.1).1 ?_
    cases op' with
    | touch _ => cases hwritten
    | write loc' text' =>
      cases hwritten
      exact List.mem_map.mpr ⟨(loc, text'), List.mem_filterMap.mpr ⟨_, hop', rfl⟩, rfl⟩

end Runs

end Noema.Lib.Posix
