import Noema.Lib.PyTriple

/-!
# Paths and directories

A file system without symbolic links: the entries of a tree, each at a location, the list of the
names that lead to it. A path is a list of segments, `.` and `..` among them, and the system walks
along it from directory to directory. `..` at the root stays there, and what is walked through has
to be a directory even where the next segment is `..`.

- `FileTree`: the entries, with the invariant that what lies somewhere lies in a directory.
- `World`: a tree, and what was created in it; `osMkdir`, `mkdirP` (`Path.mkdir` with `parents` and
  `exist_ok`) and `touch` create entries, and may be refused. Refusals are numbered by system call,
  so that a theorem holds whatever the system refuses.
- `resolve`: where a path leads, by its segments alone; `walk_of_dirs` and `walk_of_missing` say
  when the way there is free.
- `climb`: where a relative path leads, if it never climbs above its start; `resolve_of_climb` and
  `apart_of_climb` say what this means for the locations: a path that does not climb leads below the
  start, and one that does, and does not name the start itself (`Apart`), leads elsewhere.
- the last sections are about texts: `pathlib` splits a text into segments, and joins them with
  slashes, and `parts_intercalate` says that names survive this.
-/

namespace Noema.Lib.Posix

open PyM

/-! ## Locations -/

/-- The names on the way to an entry, from the root of the file system. -/
abbrev Loc := List String

/-- The segment is a name. -/
def isName (seg : String) : Bool := seg ≠ "" && seg ≠ "." && seg ≠ ".."

/-- From a directory along a segment. -/
def enter (loc : Loc) (seg : String) : Loc :=
  if seg = ".." then loc.dropLast else if isName seg then loc ++ [seg] else loc

/-- From a directory along a path. -/
def resolve (loc : Loc) (segs : List String) : Loc := segs.foldl enter loc

/-- From a location below some start along a path, unless it climbs above the start. -/
def climb (rel : Loc) : List String → Option Loc
  | [] => some rel
  | seg :: segs => if seg = ".." ∧ rel = [] then none else climb (enter rel seg) segs

section Locations

variable {root rel rel' loc : Loc} {seg fresh : String} {segs segs' : List String}

theorem resolve_cons : resolve loc (seg :: segs) = resolve (enter loc seg) segs := rfl

theorem resolve_append : resolve loc (segs ++ segs') = resolve (resolve loc segs) segs' :=
  List.foldl_append

theorem enter_name (h : isName seg = true) : enter loc seg = loc ++ [seg] := by
  have hne : seg ≠ ".." := by
    rintro rfl
    cases h
  rw [enter, if_neg hne, if_pos h]

/-- Below a start everything is as if the start were the root. -/
theorem enter_append (h : ¬ (seg = ".." ∧ rel = [])) : enter (root ++ rel) seg = root ++ enter rel seg := by
  rw [enter, enter]
  split
  · next hup =>
    have hne : rel ≠ [] := fun hnil => h ⟨hup, hnil⟩
    rw [List.dropLast_append_of_ne_nil hne]
  · split
    · exact List.append_assoc ..
    · rfl

/-- A path that does not climb above its start leads below it. -/
theorem resolve_of_climb (h : climb rel segs = some rel') :
    resolve (root ++ rel) segs = root ++ rel' := by
  induction segs generalizing rel with
  | nil =>
    cases h
    rfl
  | cons seg segs ih =>
    rw [climb] at h
    split at h
    · cases h
    · next hup => rw [resolve_cons, enter_append hup, ih h]

theorem climb_append (segs segs' : List String) :
    climb rel (segs ++ segs') = (climb rel segs).bind fun rel => climb rel segs' := by
  induction segs generalizing rel with
  | nil => rfl
  | cons seg segs ih =>
    rw [List.cons_append, climb, climb]
    split
    · rfl
    · exact ih

/-- Nor do its first segments climb above it. -/
theorem climb_left (h : climb rel (segs ++ segs') ≠ none) : climb rel segs ≠ none := by
  intro hnone
  rw [climb_append, hnone] at h
  exact h rfl

/-- Names lead on. -/
theorem resolve_names (h : ∀ seg ∈ segs, isName seg = true) : resolve loc segs = loc ++ segs := by
  induction segs generalizing loc with
  | nil => exact (List.append_nil loc).symm
  | cons seg segs ih =>
    obtain ⟨hseg, hsegs⟩ := List.forall_mem_cons.mp h
    rw [resolve_cons, enter_name hseg, ih hsegs, List.append_assoc]
    rfl

/-- A path leads along names. -/
theorem isName_of_mem_resolve (hloc : ∀ name ∈ loc, isName name = true) :
    ∀ name ∈ resolve loc segs, isName name = true := by
  induction segs generalizing loc with
  | nil => exact hloc
  | cons seg segs ih =>
    refine ih fun name hname => ?_
    rw [enter] at hname
    split_ifs at hname with hup hseg
    · exact hloc name (List.mem_of_mem_dropLast hname)
    · rcases List.mem_append.mp hname with hname | hname
      · exact hloc name hname
      · rwa [List.mem_singleton.mp hname]
    · exact hloc name hname

/-- A location is where it leads to. -/
theorem resolve_resolve (segs : List String) : resolve [] (resolve [] segs) = resolve [] segs :=
  resolve_names (isName_of_mem_resolve fun _ h => by cases h)

/-- The name by which the location is found from the root is not `fresh`. -/
def Apart (fresh : String) (loc : Loc) : Prop := loc.head? ≠ some fresh

theorem Apart.dropLast (h : Apart fresh loc) : Apart fresh loc.dropLast := by
  rcases loc with _ | ⟨name, _ | ⟨name', loc⟩⟩
  · exact h
  · exact fun h => by cases h
  · exact h

theorem Apart.concat (h : Apart fresh loc) (hseg : seg ≠ fresh) : Apart fresh (loc ++ [seg]) := by
  rcases loc with _ | ⟨name, loc⟩
  · exact fun heq => hseg (Option.some.inj heq)
  · exact h

theorem Apart.enter (h : Apart fresh loc) (hseg : seg ≠ fresh) : Apart fresh (enter loc seg) := by
  rw [Posix.enter]
  split
  · exact h.dropLast
  · split
    · exact h.concat hseg
    · exact h

/-- A path that does not mention a name does not lead below it. -/
theorem Apart.resolve (h : Apart fresh loc) (hsegs : fresh ∉ segs) :
    Apart fresh (resolve loc segs) := by
  induction segs generalizing loc with
  | nil => exact h
  | cons seg segs ih =>
    rw [List.mem_cons, not_or] at hsegs
    exact ih (h.enter (Ne.symm hsegs.1)) hsegs.2

/-- A path that climbs above its start, and does not mention it, leads elsewhere. -/
theorem apart_of_climb (h : climb rel segs = none) (hsegs : fresh ∉ segs) :
    Apart fresh (Posix.resolve (fresh :: rel) segs) := by
  induction segs generalizing rel with
  | nil => cases h
  | cons seg segs ih =>
    rw [List.mem_cons, not_or] at hsegs
    rw [climb] at h
    split at h
    · next hup =>
      obtain ⟨rfl, rfl⟩ := hup
      have hroot : Apart fresh [] := fun h => by cases h
      exact hroot.resolve hsegs.2
    · next hup =>
      rw [resolve_cons, show fresh :: rel = [fresh] ++ rel from rfl, enter_append hup]
      exact ih h hsegs.2

theorem Apart.not_under (h : Apart fresh loc) : ¬ [fresh] <+: loc := by
  rintro ⟨rest, rfl⟩
  exact h rfl

end Locations

/-! ## Trees -/

/-- What an entry is. -/
inductive Kind where
  | dir
  | file
  deriving DecidableEq, Repr

/-- The entries. What lies somewhere lies in a directory. -/
structure FileTree where
  kind : Loc → Option Kind
  root : kind [] = some .dir
  parent : ∀ loc, kind loc ≠ none → kind loc.dropLast = some .dir

namespace FileTree

variable (t : FileTree) {loc loc' : Loc} {kind : Kind}

/-- A new entry in a directory. -/
def add (loc : Loc) (kind : Kind) (hparent : t.kind loc.dropLast = some .dir)
    (hnew : t.kind loc = none) : FileTree where
  kind := Function.update t.kind loc (some kind)
  root := by
    have hne : [] ≠ loc := by
      rintro rfl
      cases t.root.symm.trans hnew
    rw [Function.update_of_ne hne, t.root]
  parent loc' h := by
    have hdir : t.kind loc'.dropLast = some .dir := by
      by_cases heq : loc' = loc
      · rw [heq, hparent]
      · rw [Function.update_of_ne heq] at h
        exact t.parent loc' h
    have hne : loc'.dropLast ≠ loc := by
      intro heq
      rw [heq, hnew] at hdir
      cases hdir
    rw [Function.update_of_ne hne, hdir]

/-- The way along a path: all that is walked through are directories. -/
def walk : Loc → List String → Except PyExc Loc
  | loc, [] => .ok loc
  | loc, seg :: segs =>
    match t.kind loc with
    | none => .error (.custom "FileNotFoundError" "No such file or directory")
    | some .file => .error (.custom "NotADirectoryError" "Not a directory")
    | some .dir => walk (enter loc seg) segs

variable {t : FileTree} {segs : List String}

theorem walk_eq_ok (h : t.walk loc segs = .ok loc') : loc' = resolve loc segs := by
  induction segs generalizing loc with
  | nil =>
    cases h
    rfl
  | cons seg segs ih =>
    rw [walk] at h
    split at h
    · cases h
    · cases h
    · exact ih h

/-- The way is free if all that is walked through are directories. -/
theorem walk_of_dirs (h : ∀ p, p <+: segs → p ≠ segs → t.kind (resolve loc p) = some .dir) :
    t.walk loc segs = .ok (resolve loc segs) := by
  induction segs generalizing loc with
  | nil => rfl
  | cons seg segs ih =>
    have hloc : t.kind loc = some .dir := h [] List.nil_prefix (by simp)
    rw [walk, hloc, resolve_cons]
    refine ih fun p hp hne => ?_
    exact h (seg :: p) (List.cons_prefix_cons.mpr ⟨rfl, hp⟩) (by simpa using hne)

/-- Something on the way is missing. -/
theorem walk_of_missing (hkind : ∀ p, p <+: segs → t.kind (resolve loc p) ≠ some .file)
    (h : ∃ p, p <+: segs ∧ p ≠ segs ∧ t.kind (resolve loc p) = none) :
    t.walk loc segs = .error (.custom "FileNotFoundError" "No such file or directory") := by
  induction segs generalizing loc with
  | nil =>
    obtain ⟨p, hp, hne, -⟩ := h
    exact absurd (List.prefix_nil.mp hp) hne
  | cons seg segs ih =>
    rw [walk]
    cases hloc : t.kind loc with
    | none => rfl
    | some kind =>
      cases kind with
      | file => exact absurd hloc (hkind [] List.nil_prefix)
      | dir =>
        refine ih (fun p hp => hkind (seg :: p) (List.cons_prefix_cons.mpr ⟨rfl, hp⟩)) ?_
        obtain ⟨p, hp, hne, hnone⟩ := h
        cases p with
        | nil => cases hloc.symm.trans hnone
        | cons seg' p =>
          obtain ⟨heq, htail⟩ := List.cons_prefix_cons.mp hp
          subst heq
          exact ⟨p, htail, by simpa using hne, hnone⟩

/-- To a name in a directory. -/
theorem walk_concat {last : String} (hname : isName last = true)
    (h : ∀ p, p <+: segs → t.kind (resolve [] p) = some .dir) :
    t.walk [] (segs ++ [last]) = .ok (resolve [] segs ++ [last]) := by
  have hresolve : resolve [] (segs ++ [last]) = resolve [] segs ++ [last] := by
    rw [resolve_append, ← enter_name hname]
    rfl
  rw [← hresolve]
  refine walk_of_dirs fun p hp hne => ?_
  rcases List.prefix_concat_iff.mp hp with rfl | hp
  · exact absurd rfl hne
  · exact h p hp

end FileTree

/-! ## Creating entries -/

/-- The entries now, those that were created, and the number of system calls. -/
structure World where
  tree : FileTree
  created : List Loc
  calls : Nat

namespace World

/-- One more system call. -/
def called (w : World) : World := { w with calls := w.calls + 1 }

/-- One more entry. -/
def create (w : World) (loc : Loc) (kind : Kind) (hparent : w.tree.kind loc.dropLast = some .dir)
    (hnew : w.tree.kind loc = none) : World :=
  { w with tree := w.tree.add loc kind hparent hnew, created := loc :: w.created }

/-- `path.is_dir()`. -/
def isDir (w : World) (path : List String) : Bool :=
  ((w.tree.walk [] path).toOption.bind w.tree.kind) == some .dir

/-- `path.is_file()`. -/
def isFile (w : World) (path : List String) : Bool :=
  ((w.tree.walk [] path).toOption.bind w.tree.kind) == some .file

end World

/-- The segment has a character that no path may have. -/
def hasNul (seg : String) : Bool := seg.toList.contains '\x00'

section Calls

variable (fault : Nat → Bool)

/-- `os.mkdir(path)`. The system may refuse any call, for reasons of its own. -/
@[irreducible] def osMkdir (path : List String) : PyM World Unit := fun w =>
  if path.any hasNul then (.error (.valueError "embedded null byte"), w)
  else if fault w.calls then (.error (.osError "refused"), w.called)
  else
    match w.tree.walk [] path with
    | .error e => (.error e, w.called)
    | .ok loc =>
      if h : w.tree.kind loc.dropLast = some .dir ∧ w.tree.kind loc = none then
        (.ok (), w.called.create loc .dir h.1 h.2)
      else (.error (.custom "FileExistsError" "File exists"), w.called)

/-- `open(path, "w")` or `open(path, "a")`. -/
@[irreducible] def touch (path : List String) : PyM World Unit := fun w =>
  if path.any hasNul then (.error (.valueError "embedded null byte"), w)
  else if fault w.calls then (.error (.osError "refused"), w.called)
  else
    match w.tree.walk [] path with
    | .error e => (.error e, w.called)
    | .ok loc =>
      if h : w.tree.kind loc.dropLast = some .dir ∧ w.tree.kind loc = none then
        (.ok (), w.called.create loc .file h.1 h.2)
      else if w.tree.kind loc = some .dir then
        (.error (.custom "IsADirectoryError" "Is a directory"), w.called)
      else (.ok (), w.called)

/-- What `mkdir` does with an exception when `exist_ok` is set: a directory that is there already
is no error. -/
def existOk (path : List String) (e : PyExc) : PyM World Unit := fun w =>
  if e.typeName ≠ "ValueError" ∧ w.isDir path then (.ok (), w) else (.error e, w)

/-- `path.mkdir(parents=True, exist_ok=True)`, for the segments of the path, the last one first. -/
def mkdirRev : List String → PyM World Unit
  | [] => PyM.tryCatch (osMkdir fault []) (existOk [])
  | last :: rev =>
    let path := (last :: rev).reverse
    PyM.tryCatch (osMkdir fault path) fun e =>
      if e.typeName = "FileNotFoundError" then do
        mkdirRev rev
        PyM.tryCatch (osMkdir fault path) fun e =>
          if e.typeName = "FileNotFoundError" then PyM.raise e else existOk path e
      else existOk path e

/-- `path.mkdir(parents=True, exist_ok=True)`. -/
@[irreducible] def mkdirP (path : List String) : PyM World Unit := mkdirRev fault path.reverse

end Calls

/-! ## What the calls keep -/

section Kept

variable {fault : Nat → Bool} {path : List String} {P : World → Prop}

/-- A property survives a system call, and a new entry at the end of a path. -/
structure Allows (P : World → Prop) (path : List String) : Prop where
  called : ∀ w, P w → P w.called
  create : ∀ w kind hparent hnew, P w → P (w.create (resolve [] path) kind hparent hnew)

theorem Allows.triple_osMkdir (h : Allows P path) :
    Triple P (osMkdir fault path) (fun _ => P) fun _ => P := by
  intro w hw
  rw [osMkdir]
  split_ifs with hnul hfault
  · exact hw
  · exact h.called w hw
  · cases hwalk : w.tree.walk [] path with
    | error e => exact h.called w hw
    | ok loc =>
      cases FileTree.walk_eq_ok hwalk
      dsimp only
      split_ifs with hnew
      · exact h.create w.called .dir hnew.1 hnew.2 (h.called w hw)
      · exact h.called w hw

theorem Allows.triple_touch (h : Allows P path) :
    Triple P (touch fault path) (fun _ => P) fun _ => P := by
  intro w hw
  rw [touch]
  split_ifs with hnul hfault
  · exact hw
  · exact h.called w hw
  · cases hwalk : w.tree.walk [] path with
    | error e => exact h.called w hw
    | ok loc =>
      cases FileTree.walk_eq_ok hwalk
      dsimp only
      split_ifs with hnew hdir
      · exact h.create w.called .file hnew.1 hnew.2 (h.called w hw)
      · exact h.called w hw
      · exact h.called w hw

theorem triple_existOk {e : PyExc} : Triple P (existOk path e) (fun _ => P) fun _ => P := by
  intro w hw
  rw [existOk]
  split_ifs
  · exact hw
  · exact hw

/-- `mkdir` creates nothing but what lies along its path. -/
theorem triple_mkdirP (h : ∀ p, p <+: path → Allows P p) :
    Triple P (mkdirP fault path) (fun _ => P) fun _ => P := by
  rw [mkdirP]
  generalize hrev : path.reverse = rev
  induction rev generalizing path with
  | nil => exact .tryCatch (h [] List.nil_prefix).triple_osMkdir fun _ => triple_existOk
  | cons last rev ih =>
    have hpath : path = (last :: rev).reverse := by rw [← hrev, List.reverse_reverse]
    have hself : Triple P (osMkdir fault (last :: rev).reverse) (fun _ => P) fun _ => P :=
      hpath ▸ (h path (List.prefix_refl path)).triple_osMkdir
    refine .tryCatch hself fun _ => .ite (fun _ => ?_) fun _ => triple_existOk
    have hparent : Triple P (mkdirRev fault rev) (fun _ => P) fun _ => P := by
      refine ih (fun p hp => h p ?_) (List.reverse_reverse rev)
      rw [hpath, List.reverse_cons]
      exact hp.trans (List.prefix_append _ _)
    refine .bind hparent fun _ => .tryCatch hself fun _ => .ite (fun _ => ?_) fun _ => triple_existOk
    exact .raise fun _ hw => hw

/-- A path with a NUL is refused at once. -/
theorem triple_osMkdir_nul (h : path.any hasNul = true) :
    Triple P (osMkdir fault path) (fun _ _ => False)
      fun e w => e.typeName = "ValueError" ∧ P w := by
  intro w hw
  rw [osMkdir, if_pos h]
  exact ⟨rfl, hw⟩

theorem triple_mkdirP_nul (h : path.any hasNul = true) :
    Triple P (mkdirP fault path) (fun _ _ => False) fun _ => P := by
  have hraise (e : PyExc) : Triple (fun w => e.typeName = "ValueError" ∧ P w) (existOk path e)
      (fun _ _ => False) fun _ => P := by
    rintro w ⟨he, hw⟩
    simpa [existOk, he] using hw
  rw [mkdirP]
  cases hrev : path.reverse with
  | nil =>
    cases List.reverse_eq_nil_iff.mp hrev
    cases h
  | cons last rev =>
    rw [mkdirRev, ← hrev, List.reverse_reverse]
    refine .tryCatch (triple_osMkdir_nul h) fun e => ?_
    rintro w ⟨he, hw⟩
    rw [if_neg (by rw [he]; decide)]
    exact hraise e w ⟨he, hw⟩

end Kept

/-! ## What the calls do when nothing is refused -/

section Runs

variable {t : FileTree} {path : List String} {target : Loc}

/-- Nothing is refused. -/
def noFault : Nat → Bool := fun _ => false

/-- An entry that was created stays in the record. -/
theorem allows_created (path : List String) : Allows (fun w => target ∈ w.created) path :=
  ⟨fun _ h => h, fun _ _ _ _ h => List.mem_cons_of_mem _ h⟩

theorem any_hasNul_of_initial {p : List String} (hp : p <+: path) (h : path.any hasNul = false) :
    p.any hasNul = false := by
  rw [List.any_eq_false] at h ⊢
  exact fun seg hseg => h seg (hp.subset hseg)

/-- At the end of the path a directory is created. -/
theorem osMkdir_creates (hnul : path.any hasNul = false) (hwalk : t.walk [] path = .ok target)
    (hparent : t.kind target.dropLast = some .dir) (hnew : t.kind target = none) :
    Triple (fun w => w.tree = t) (osMkdir noFault path)
      (fun _ w => target ∈ w.created ∧ w.tree = t.add target .dir hparent hnew)
      fun _ _ => False := by
  rintro w rfl
  have hcond : w.tree.kind target.dropLast = some .dir ∧ w.tree.kind target = none := ⟨hparent, hnew⟩
  simp only [osMkdir, hnul, noFault, hwalk, dif_pos hcond]
  exact ⟨List.mem_cons_self, rfl⟩

/-- At the end of the path a file is created. -/
theorem touch_creates (hnul : path.any hasNul = false) (hwalk : t.walk [] path = .ok target)
    (hparent : t.kind target.dropLast = some .dir) (hnew : t.kind target = none) :
    Triple (fun w => w.tree = t) (touch noFault path) (fun _ w => target ∈ w.created)
      fun _ _ => False := by
  rintro w rfl
  have hcond : w.tree.kind target.dropLast = some .dir ∧ w.tree.kind target = none := ⟨hparent, hnew⟩
  simp only [touch, hnul, noFault, hwalk, dif_pos hcond]
  exact List.mem_cons_self

/-- A directory that is there is left alone. -/
theorem mkdirP_existing (hnul : path.any hasNul = false)
    (h : ∀ p, p <+: path → t.kind (resolve [] p) = some .dir) :
    Triple (fun w => w.tree = t) (mkdirP noFault path) (fun _ w => w.tree = t)
      fun _ _ => False := by
  have hwalk : t.walk [] path = .ok (resolve [] path) := FileTree.walk_of_dirs fun p hp _ => h p hp
  have hdir := h path (List.prefix_refl path)
  have hmkdir : Triple (fun w => w.tree = t) (osMkdir noFault path) (fun _ w => w.tree = t)
      fun e w => e = .custom "FileExistsError" "File exists" ∧ w.tree = t := by
    rintro w rfl
    simp [osMkdir, hnul, noFault, hwalk, hdir, World.called]
  have hexist : Triple (fun w => w.tree = t)
      (existOk path (.custom "FileExistsError" "File exists")) (fun _ w => w.tree = t)
      fun _ _ => False := by
    rintro w rfl
    simp [existOk, World.isDir, hwalk, hdir, PyExc.typeName, Except.toOption]
  rw [mkdirP]
  cases hrev : path.reverse with
  | nil =>
    cases List.reverse_eq_nil_iff.mp hrev
    refine .tryCatch hmkdir fun e => ?_
    rintro w ⟨rfl, hw⟩
    exact hexist w hw
  | cons last rev =>
    have hpath : (last :: rev).reverse = path := by rw [← hrev, List.reverse_reverse]
    rw [mkdirRev, hpath]
    refine .tryCatch hmkdir fun e => ?_
    rintro w ⟨rfl, hw⟩
    rw [if_neg (by decide)]
    exact hexist w hw

/-- Nothing lies below what is missing. -/
theorem FileTree.kind_below (h : t.kind target = none) {loc : Loc} (hbelow : target <+: loc) :
    t.kind loc = none := by
  obtain ⟨rest, rfl⟩ := hbelow
  induction rest using List.reverseRecOn with
  | nil => rwa [List.append_nil]
  | append_singleton rest name ih =>
    by_contra hne
    have hdir := t.parent _ hne
    rw [← List.append_assoc, List.dropLast_concat, ih] at hdir
    cases hdir

/-- The step of a path that comes upon a location has its name. -/
theorem resolve_eq_of_first {init : List String} {last : String}
    (h : target <+: resolve [] (init ++ [last])) (hinit : ¬ target <+: resolve [] init) :
    resolve [] (init ++ [last]) = target := by
  rw [resolve_append] at h ⊢
  show enter (resolve [] init) last = target
  have hlast : target <+: enter (resolve [] init) last := h
  rw [enter] at hlast ⊢
  split at hlast
  · exact absurd (hlast.trans (List.dropLast_prefix _)) hinit
  · split at hlast
    · next hup hname =>
      rw [if_neg hup, if_pos hname]
      exact ((List.prefix_concat_iff.mp hlast).resolve_right hinit).symm
    · exact absurd hlast hinit

/-- A path that leads through a location where nothing is has `mkdir` create a directory there. -/
theorem mkdirP_creates (hnul : path.any hasNul = false)
    (hparent : t.kind target.dropLast = some .dir) (hnew : t.kind target = none)
    (hall : ∀ p, p <+: path → t.kind (resolve [] p) = some .dir ∨ target <+: resolve [] p)
    (hvisit : ∃ p, p <+: path ∧ target <+: resolve [] p) :
    Triple (fun w => w.tree = t) (mkdirP noFault path) (fun _ w => target ∈ w.created)
      fun _ w => target ∈ w.created := by
  rw [mkdirP]
  generalize hrev : path.reverse = rev
  induction rev generalizing path with
  | nil =>
    cases List.reverse_eq_nil_iff.mp hrev
    obtain ⟨p, hp, hbelow⟩ := hvisit
    cases List.prefix_nil.mp hp
    cases (t.kind_below hnew hbelow).symm.trans t.root
  | cons last rev ih =>
    have hpath : path = rev.reverse ++ [last] := by
      rw [← List.reverse_reverse path, hrev, List.reverse_cons]
    rw [mkdirRev, ← hrev, List.reverse_reverse]
    have hself : Triple (fun w => target ∈ w.created) (osMkdir noFault path)
        (fun _ w => target ∈ w.created) fun _ w => target ∈ w.created :=
      (allows_created path).triple_osMkdir
    have hinit : rev.reverse <+: path := hpath ▸ List.prefix_append _ _
    by_cases hbefore : ∃ p, p <+: rev.reverse ∧ target <+: resolve [] p
    · -- the way to the last segment is not there yet
      have hwalk : t.walk [] path =
          .error (.custom "FileNotFoundError" "No such file or directory") := by
        refine FileTree.walk_of_missing (fun p hp => ?_) ?_
        · rcases hall p hp with hdir | hbelow
          · rw [hdir]
            exact fun h => by cases h
          · rw [t.kind_below hnew hbelow]
            exact fun h => by cases h
        · obtain ⟨p, hp, hbelow⟩ := hbefore
          refine ⟨p, hp.trans hinit, ?_, t.kind_below hnew hbelow⟩
          rintro rfl
          have hlength := hp.length_le
          rw [hpath, List.length_append] at hlength
          simp at hlength
      have hmkdir : Triple (fun w => w.tree = t) (osMkdir noFault path)
          (fun _ w => target ∈ w.created)
          fun e w => e.typeName = "FileNotFoundError" ∧ w.tree = t := by
        rintro w rfl
        simp [osMkdir, hnul, noFault, hwalk, World.called, PyExc.typeName]
      refine .tryCatch hmkdir fun e => ?_
      rintro w ⟨he, hw⟩
      rw [if_pos he]
      refine Triple.bind (ih (any_hasNul_of_initial hinit hnul) (fun p hp => hall p (hp.trans hinit))
        hbefore (List.reverse_reverse rev)) (fun _ => ?_) w hw
      refine .tryCatch hself fun _ => .ite (fun _ => ?_) fun _ => triple_existOk
      exact .raise fun _ hw => hw
    · -- the last segment is the first to come upon it
      push Not at hbefore
      have htarget : resolve [] path = target := by
        obtain ⟨p, hp, hbelow⟩ := hvisit
        rw [hpath, List.prefix_concat_iff] at hp
        rcases hp with rfl | hp
        · rw [hpath]
          exact resolve_eq_of_first hbelow (hbefore _ (List.prefix_refl _))
        · exact absurd hbelow (hbefore p hp)
      have hwalk : t.walk [] path = .ok target := by
        rw [← htarget]
        refine FileTree.walk_of_dirs fun p hp hne => ?_
        rw [hpath, List.prefix_concat_iff] at hp
        rcases hp with rfl | hp
        · exact absurd hpath.symm hne
        · exact (hall p (hp.trans hinit)).resolve_right (hbefore p hp)
      have hmkdir : Triple (fun w => w.tree = t) (osMkdir noFault path)
          (fun _ w => target ∈ w.created) fun _ _ => False :=
        (osMkdir_creates hnul hwalk hparent hnew).post fun _ _ h => h.1
      exact .tryCatch hmkdir fun _ => .unreached

end Runs

/-- All is directories, but for what lies below a location, and for what a name leads to. -/
def openTree (target : Loc) (name : String) (h : target ≠ []) : FileTree where
  kind loc := if target <+: loc ∨ name ∈ loc then none else some .dir
  root := by simp [h]
  parent loc hloc := by
    have hout : ¬ (target <+: loc ∨ name ∈ loc) := fun hin => hloc (if_pos hin)
    rw [not_or] at hout
    refine if_neg (not_or.mpr ⟨fun hin => hout.1 (hin.trans (List.dropLast_prefix loc)), fun hin => ?_⟩)
    exact hout.2 (List.mem_of_mem_dropLast hin)

theorem kind_openTree_target {target : Loc} {name : String} (h : target ≠ []) :
    (openTree target name h).kind target = none :=
  if_pos (.inl (List.prefix_refl target))

theorem kind_openTree {target loc : Loc} {name : String} {h : target ≠ []}
    (hout : ¬ target <+: loc) (hname : name ∉ loc) : (openTree target name h).kind loc = some .dir :=
  if_neg (not_or.mpr ⟨hout, hname⟩)

/-- A location has the segments of the path that leads to it. -/
theorem mem_of_mem_resolve {name : String} {segs : List String} {loc : Loc}
    (h : name ∈ resolve loc segs) : name ∈ loc ∨ name ∈ segs := by
  induction segs generalizing loc with
  | nil => exact .inl h
  | cons seg segs ih =>
    rcases ih h with hloc | hsegs
    · rw [enter] at hloc
      split at hloc
      · exact .inl (List.mem_of_mem_dropLast hloc)
      · split at hloc
        · rcases List.mem_append.mp hloc with hloc | hseg
          · exact .inl hloc
          · exact .inr (List.mem_cons.mpr (.inl (List.mem_singleton.mp hseg)))
        · exact .inl hloc
    · exact .inr (List.mem_cons_of_mem _ hsegs)

/-- The directories that a path leads through. -/
theorem kind_openTree_resolve {target : Loc} {name : String} {path p : List String} (h : target ≠ [])
    (hname : name ∉ path) (hp : p <+: path) :
    (openTree target name h).kind (resolve [] p) = some .dir ∨ target <+: resolve [] p := by
  refine or_iff_not_imp_right.mpr fun hout => kind_openTree hout fun hmem => ?_
  rcases mem_of_mem_resolve hmem with hnil | hmem
  · cases hnil
  · exact hname (hp.subset hmem)

/-- Where the name is a segment of the target, the target is on no other path. -/
theorem kind_openTree_of_mem {target : Loc} {name : String} {path p : List String} (h : target ≠ [])
    (hmem : name ∈ target) (hname : name ∉ path) (hp : p <+: path) :
    (openTree target name h).kind (resolve [] p) = some .dir := by
  refine (kind_openTree_resolve h hname hp).resolve_right fun hpre => ?_
  rcases mem_of_mem_resolve (hpre.subset hmem) with hnil | hmem
  · cases hnil
  · exact hname (hp.subset hmem)

theorem kind_openTree_parent {loc : Loc} {last name : String} (h : loc ++ [last] ≠ [])
    (hname : name ∉ loc) : (openTree (loc ++ [last]) name h).kind (loc ++ [last]).dropLast = some .dir := by
  rw [List.dropLast_concat]
  refine kind_openTree (fun hpre => ?_) hname
  have hlength := hpre.length_le
  rw [List.length_append] at hlength
  simp at hlength

/-! ## Texts of paths -/

/-- `text.split("/")`. -/
def segments : List Char → List (List Char)
  | [] => [[]]
  | c :: cs =>
    if c = '/' then [] :: segments cs
    else
      match segments cs with
      | [] => [[c]]
      | seg :: segs => (c :: seg) :: segs

theorem segments_ne_nil (text : List Char) : segments text ≠ [] := by
  cases text with
  | nil => exact List.cons_ne_nil _ _
  | cons c cs =>
    rw [segments]
    split_ifs
    · exact List.cons_ne_nil _ _
    · split
      · exact List.cons_ne_nil _ _
      · exact List.cons_ne_nil _ _

/-- What has no slash goes to the last segment. -/
theorem segments_append (text : List Char) {rest : List Char} (h : '/' ∉ rest) :
    ∃ last, segments (text ++ rest) = (segments text).dropLast ++ [last ++ rest] := by
  induction text with
  | nil =>
    refine ⟨[], ?_⟩
    show segments rest = [rest]
    induction rest with
    | nil => rfl
    | cons c rest ih =>
      rw [List.mem_cons, not_or] at h
      rw [segments, if_neg (Ne.symm h.1), ih h.2]
  | cons c text ih =>
    obtain ⟨last, hlast⟩ := ih
    obtain ⟨seg, segs, hsegs⟩ := List.exists_cons_of_ne_nil (segments_ne_nil text)
    rw [List.cons_append, segments, segments]
    split_ifs
    · refine ⟨last, ?_⟩
      rw [hlast, List.dropLast_cons_of_ne_nil (segments_ne_nil text)]
      rfl
    · rw [hlast, hsegs]
      cases segs with
      | nil => exact ⟨c :: last, rfl⟩
      | cons seg' segs => exact ⟨last, rfl⟩

/-- The characters of the segments are those of the text. -/
theorem mem_segments {text : List Char} {c : Char} (hc : c ≠ '/') :
    (∃ seg ∈ segments text, c ∈ seg) ↔ c ∈ text := by
  induction text with
  | nil => simp [segments]
  | cons d text ih =>
    rw [segments, List.mem_cons]
    split_ifs with hd
    · have hne : c ≠ d := hd ▸ hc
      simp [ih, hne]
    · obtain ⟨seg, segs, hsegs⟩ := List.exists_cons_of_ne_nil (segments_ne_nil text)
      rw [hsegs] at ih ⊢
      simp only [List.mem_cons, exists_eq_or_imp, or_assoc] at ih ⊢
      rw [← ih]

theorem length_of_mem_segments {text seg : List Char} (h : seg ∈ segments text) :
    seg.length ≤ text.length := by
  induction text generalizing seg with
  | nil =>
    cases List.mem_singleton.mp h
    exact Nat.le_refl _
  | cons d text ih =>
    rw [segments] at h
    rw [List.length_cons]
    split_ifs at h with hd
    · rcases List.mem_cons.mp h with rfl | h
      · exact Nat.zero_le _
      · exact Nat.le_succ_of_le (ih h)
    · obtain ⟨first, segs, hsegs⟩ := List.exists_cons_of_ne_nil (segments_ne_nil text)
      rw [hsegs] at h ih
      rcases List.mem_cons.mp h with rfl | h
      · exact Nat.succ_le_succ (ih List.mem_cons_self)
      · exact Nat.le_succ_of_le (ih (List.mem_cons_of_mem _ h))

/-- The segments of a text. -/
@[irreducible] def pathSegs (text : String) : List String := (segments text.toList).map String.ofList

/-- The parts of a `PurePosixPath`. -/
def parts (text : String) : List String := (pathSegs text).filter fun seg => seg ≠ "" ∧ seg ≠ "."

/-- The path starts at the root. -/
def isAbsolute (text : String) : Bool := text.toList.head? == some '/'

/-- `base / text`. -/
def joinPath (base : List String) (text : String) : List String :=
  if isAbsolute text then parts text else base ++ parts text

/-- `os.path.join(base, text)`. -/
def osJoin (base : List String) (text : String) : List String :=
  if isAbsolute text then pathSegs text else base ++ pathSegs text

theorem any_hasNul_pathSegs (text : String) : (pathSegs text).any hasNul = hasNul text := by
  rw [Bool.eq_iff_iff, List.any_eq_true, hasNul, List.contains_iff_mem,
    ← mem_segments (by decide : '\x00' ≠ '/')]
  simp [pathSegs, hasNul]

theorem any_hasNul_parts (text : String) : (parts text).any hasNul = hasNul text := by
  rw [← any_hasNul_pathSegs, parts, Bool.eq_iff_iff, List.any_eq_true, List.any_eq_true]
  constructor
  · rintro ⟨seg, hseg, hnul⟩
    exact ⟨seg, List.mem_of_mem_filter hseg, hnul⟩
  · rintro ⟨seg, hseg, hnul⟩
    refine ⟨seg, List.mem_filter.mpr ⟨hseg, ?_⟩, hnul⟩
    have hne : seg ≠ "" ∧ seg ≠ "." := by
      constructor
      · rintro rfl
        cases hnul
      · rintro rfl
        cases hnul
    simpa using hne

/-- Texts longer than a path are none of its segments. -/
theorem not_mem_pathSegs {text seg : String} (h : text.length < seg.length) : seg ∉ pathSegs text := by
  intro hmem
  rw [pathSegs] at hmem
  obtain ⟨chars, hchars, rfl⟩ := List.mem_map.mp hmem
  have hle := length_of_mem_segments hchars
  rw [String.length_ofList] at h
  rw [String.length_toList] at hle
  omega

theorem not_mem_parts {text seg : String} (h : text.length < seg.length) : seg ∉ parts text :=
  fun hmem => not_mem_pathSegs h (List.mem_of_mem_filter hmem)

/-! ### Joined segments -/

theorem segments_append_slash (text rest : List Char) :
    segments (text ++ '/' :: rest) = segments text ++ segments rest := by
  induction text with
  | nil => rfl
  | cons c text ih =>
    rw [List.cons_append, segments, segments, ih]
    split_ifs
    · rfl
    · obtain ⟨seg, segs, hsegs⟩ := List.exists_cons_of_ne_nil (segments_ne_nil text)
      rw [hsegs]
      rfl

theorem segments_eq_singleton {text : List Char} (h : '/' ∉ text) : segments text = [text] := by
  induction text with
  | nil => rfl
  | cons c text ih =>
    rw [List.mem_cons, not_or] at h
    rw [segments, if_neg (Ne.symm h.1), ih h.2]

theorem slash_not_mem_of_mem_segments {text seg : List Char} (h : seg ∈ segments text) :
    '/' ∉ seg := by
  induction text generalizing seg with
  | nil =>
    cases List.mem_singleton.mp h
    exact List.not_mem_nil
  | cons c text ih =>
    rw [segments] at h
    split_ifs at h with hc
    · rcases List.mem_cons.mp h with rfl | h
      · exact List.not_mem_nil
      · exact ih h
    · obtain ⟨first, segs, hsegs⟩ := List.exists_cons_of_ne_nil (segments_ne_nil text)
      rw [hsegs] at h ih
      rcases List.mem_cons.mp h with rfl | h
      · rw [List.mem_cons, not_or]
        exact ⟨Ne.symm hc, ih List.mem_cons_self⟩
      · exact ih (List.mem_cons_of_mem _ h)

/-- The segment has no slash. -/
def noSlash (seg : String) : Bool := !seg.toList.contains '/'

theorem noSlash_of_mem_parts {text seg : String} (h : seg ∈ parts text) : noSlash seg = true := by
  have hmem := List.mem_of_mem_filter h
  rw [pathSegs] at hmem
  obtain ⟨chars, hchars, rfl⟩ := List.mem_map.mp hmem
  simpa [noSlash] using slash_not_mem_of_mem_segments hchars

theorem parts_append (text rest : String) : parts (text ++ "/" ++ rest) = parts text ++ parts rest := by
  rw [parts, parts, parts, pathSegs, pathSegs, pathSegs, ← List.filter_append, ← List.map_append,
    ← segments_append_slash, String.toList_append, String.toList_append, List.append_assoc]
  rfl

theorem parts_eq_singleton {seg : String} (hslash : noSlash seg = true) (hname : isName seg = true) :
    parts seg = [seg] := by
  have hnone : '/' ∉ seg.toList := by simpa [noSlash] using hslash
  have hne : seg ≠ "" ∧ seg ≠ "." := by
    constructor
    · rintro rfl
      cases hname
    · rintro rfl
      cases hname
  rw [parts, pathSegs, segments_eq_singleton hnone, List.map_singleton, String.ofList_toList,
    List.filter_cons_of_pos (by simpa using hne), List.filter_nil]

/-- Names are read back from the text of their path. -/
theorem parts_intercalate {names : List String}
    (h : ∀ name ∈ names, noSlash name = true ∧ isName name = true) :
    parts ("/".intercalate names) = names := by
  induction names with
  | nil =>
    rw [String.intercalate_nil, parts, pathSegs]
    rfl
  | cons name names ih =>
    obtain ⟨⟨hslash, hname⟩, hnames⟩ := List.forall_mem_cons.mp h
    by_cases hnil : names = []
    · rw [hnil, String.intercalate_singleton, parts_eq_singleton hslash hname]
    · rw [String.intercalate_cons_of_ne_nil hnil, parts_append, parts_eq_singleton hslash hname,
        ih hnames]
      rfl

end Noema.Lib.Posix
