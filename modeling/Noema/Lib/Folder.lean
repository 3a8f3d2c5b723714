import Mathlib

/-!
# The files of a directory

A folder says what each of its files holds. Files are written, removed, renamed and copied by name;
each operation has one lemma for the file that it changes and one for all others, so that a proof
about a sequence of operations never unfolds them.

- `shift`: a chain of backups, each of which is renamed to the next one, the last first. Renaming in
  this order never overwrites a backup that is still needed (`shift_spec`).
- `rotate`: the oldest backup is removed, the others are shifted, and the current file is copied to
  the first. `version n` is the current file for 0 and the backup with the number for others, which
  makes a rotation a shift of versions (`rotate_version`).
- `Holds`: the current file and its backups hold the latest versions. `Holds.push` is one more
  version after a rotation, and `rotate_eq_self_iff` says when a rotation changes nothing.
-/

namespace Noema.Lib

/-- What the files hold, by their names. -/
abbrev Folder (N C : Type) := N → Option C

namespace Folder

variable {N C : Type} [DecidableEq N]

/-! ## Operations -/

/-- `path.is_file()`. -/
def isFile (d : Folder N C) (name : N) : Bool := (d name).isSome

def write (d : Folder N C) (name : N) (content : C) : Folder N C :=
  Function.update d name (some content)

def unlink (d : Folder N C) (name : N) : Folder N C := Function.update d name none

/-- The content of one file is put into another. -/
def copy (d : Folder N C) (src dst : N) : Folder N C := Function.update d dst (d src)

/-- A file gets another name; a file that had it is gone. -/
def rename (d : Folder N C) (src dst : N) : Folder N C := (d.copy src dst).unlink src

variable {d : Folder N C} {src dst name : N}

theorem write_self {content : C} : d.write name content name = some content :=
  Function.update_self ..

theorem write_of_ne {content : C} {name' : N} (h : name' ≠ name) :
    d.write name content name' = d name' :=
  Function.update_of_ne h ..

theorem unlink_self : d.unlink name name = none := Function.update_self ..

theorem unlink_of_ne {name' : N} (h : name' ≠ name) : d.unlink name name' = d name' :=
  Function.update_of_ne h ..

theorem copy_self : d.copy src dst dst = d src := Function.update_self ..

theorem copy_of_ne (h : name ≠ dst) : d.copy src dst name = d name := Function.update_of_ne h ..

theorem rename_src : d.rename src dst src = none := unlink_self

theorem rename_dst (h : dst ≠ src) : d.rename src dst dst = d src := by
  rw [rename, unlink_of_ne h, copy_self]

theorem rename_of_ne (hsrc : name ≠ src) (hdst : name ≠ dst) : d.rename src dst name = d name := by
  rw [rename, unlink_of_ne hsrc, copy_of_ne hdst]

/-- Renaming a file only if it is there is renaming it, when the other name is free. -/
theorem rename_of_free (h : d dst = none) :
    (if d.isFile src then d.rename src dst else d) = d.rename src dst := by
  split
  · rfl
  · next hsrc =>
    have hnone : d src = none := by
      simpa [isFile] using hsrc
    rw [rename, copy, hnone, ← h, Function.update_eq_self, unlink, ← hnone, Function.update_eq_self]

/-! ## Rotation -/

/-- The backups from `n` down to 1 are renamed, each to the next. -/
def shift (bak : ℕ → N) : ℕ → Folder N C → Folder N C
  | 0, d => d
  | i + 1, d =>
    shift bak i (if d.isFile (bak (i + 1)) then d.rename (bak (i + 1)) (bak (i + 2)) else d)

/-- One more backup is made of the current file, and there are `m` at most. -/
def rotate (cur : N) (bak : ℕ → N) (m : ℕ) (d : Folder N C) : Folder N C :=
  (shift bak (m - 1) (d.unlink (bak m))).copy cur (bak 1)

/-- The current file and its backups. -/
def version (cur : N) (bak : ℕ → N) : ℕ → N
  | 0 => cur
  | i + 1 => bak (i + 1)

section Rotate

variable {cur : N} {bak : ℕ → N} (hinj : Function.Injective bak)
include hinj

/-- A shift moves every backup to the next, and leaves other files alone. -/
theorem shift_spec {n : ℕ} (hfree : d (bak (n + 1)) = none) :
    (∀ i < n, shift bak n d (bak (i + 2)) = d (bak (i + 1))) ∧
      ∀ name, (∀ i ≤ n, name ≠ bak (i + 1)) → shift bak n d name = d name := by
  induction n generalizing d with
  | zero => exact ⟨fun i hi => absurd hi (Nat.not_lt_zero i), fun name _ => rfl⟩
  | succ n ih =>
    have hne : ∀ {i j : ℕ}, i ≠ j → bak i ≠ bak j := fun h heq => h (hinj heq)
    obtain ⟨hshift, hother⟩ := ih (d := d.rename (bak (n + 1)) (bak (n + 2))) rename_src
    rw [shift, rename_of_free hfree]
    constructor
    · intro i hi
      rcases Nat.lt_succ_iff_lt_or_eq.mp hi with hi | rfl
      · rw [hshift i hi, rename_of_ne (hne (by omega)) (hne (by omega))]
      · -- The last backup is not touched by the rest of the loop.
        rw [hother _ fun j hj => hne (by omega), rename_dst (hne (by omega))]
    · intro name hname
      rw [hother name fun i hi => hname i (Nat.le_succ_of_le hi),
        rename_of_ne (hname n (Nat.le_succ n)) (hname (n + 1) (Nat.le_refl _))]

variable (hcur : ∀ i, bak i ≠ cur)
include hcur

/-- A rotation moves every version to the next. -/
theorem rotate_version {m i : ℕ} (hi : i < m) :
    rotate cur bak m d (version cur bak (i + 1)) = d (version cur bak i) := by
  have hne : ∀ {i j : ℕ}, i ≠ j → bak i ≠ bak j := fun h heq => h (hinj heq)
  obtain ⟨n, rfl⟩ : ∃ n, m = n + 1 := Nat.exists_eq_succ_of_ne_zero (by omega)
  obtain ⟨hshift, hother⟩ := shift_spec hinj (d := d.unlink (bak (n + 1))) (n := n) unlink_self
  rw [rotate, Nat.add_sub_cancel]
  cases i with
  | zero =>
    show copy _ cur (bak 1) (bak 1) = d cur
    rw [copy_self, hother cur fun i _ => (hcur _).symm, unlink_of_ne (hcur _).symm]
  | succ i =>
    rw [version, version, copy_of_ne (hne (by omega)), hshift i (by omega),
      unlink_of_ne (hne (by omega))]

omit hcur in
/-- A rotation touches the backups only that it keeps. -/
theorem rotate_of_ne {m : ℕ} (hm : 0 < m) (hname : ∀ i < m, name ≠ bak (i + 1)) :
    rotate cur bak m d name = d name := by
  obtain ⟨n, rfl⟩ : ∃ n, m = n + 1 := Nat.exists_eq_succ_of_ne_zero (by omega)
  obtain ⟨-, hother⟩ := shift_spec hinj (d := d.unlink (bak (n + 1))) (n := n) unlink_self
  rw [rotate, Nat.add_sub_cancel, copy_of_ne (hname 0 hm),
    hother name fun i hi => hname i (Nat.lt_succ_of_le hi), unlink_of_ne (hname n (Nat.lt_succ_self n))]

/-- A rotation changes no version if and only if all backups that it keeps hold what the current
file holds. -/
theorem rotate_eq_self_iff {m : ℕ} (hm : 0 < m) :
    (∀ i, rotate cur bak m d (version cur bak i) = d (version cur bak i)) ↔
      ∀ i < m, d (bak (i + 1)) = d cur := by
  have hmoved : ∀ i < m, rotate cur bak m d (bak (i + 1)) = d (version cur bak i) :=
    fun i hi => rotate_version hinj hcur hi
  constructor
  · intro hsame i hi
    have hstep : d (bak (i + 1)) = d (version cur bak i) := (hsame (i + 1)).symm.trans (hmoved i hi)
    induction i with
    | zero => exact hstep
    | succ i ih =>
      have hi' : i < m := Nat.lt_of_succ_lt hi
      exact hstep.trans (ih hi' ((hsame (i + 1)).symm.trans (hmoved i hi')))
  · intro hall i
    -- all versions are the same, so moving them changes nothing
    have hversion : ∀ i ≤ m, d (version cur bak i) = d cur := by
      intro i hi
      cases i with
      | zero => rfl
      | succ i => exact hall i hi
    cases i with
    | zero => exact rotate_of_ne hinj hm fun i _ => (hcur _).symm
    | succ i =>
      show rotate cur bak m d (bak (i + 1)) = d (bak (i + 1))
      by_cases hi : i < m
      · rw [hmoved i hi, hversion i hi.le, hall i hi]
      · -- a backup beyond those that are kept
        refine rotate_of_ne hinj hm fun j hj heq => ?_
        have hij := hinj heq
        omega

/-! ## Histories -/

omit hinj hcur in
/-- The current file and its backups hold the latest versions, the newest first. -/
def Holds (cur : N) (bak : ℕ → N) (m : ℕ) (d : Folder N C) (versions : List C) : Prop :=
  ∀ i ≤ m, i < versions.length → d (version cur bak i) = versions[i]?

omit [DecidableEq N] hinj hcur in
theorem Holds.congr {m : ℕ} {d' : Folder N C} {versions : List C} (h : Holds cur bak m d versions)
    (heq : ∀ i, d' (version cur bak i) = d (version cur bak i)) : Holds cur bak m d' versions :=
  fun i hi hlength => (heq i).trans (h i hi hlength)

/-- One more version after a rotation. -/
theorem Holds.push {m : ℕ} {versions : List C} (h : Holds cur bak m d versions) {content : C} :
    Holds cur bak m ((rotate cur bak m d).write cur content) (content :: versions) := by
  intro i hi hlength
  cases i with
  | zero => exact write_self
  | succ i =>
    show write _ cur content (bak (i + 1)) = _
    rw [write_of_ne (hcur _), List.getElem?_cons_succ, ← h i (by omega) (Nat.lt_of_succ_lt_succ hlength)]
    exact rotate_version hinj hcur hi

omit hinj hcur in
/-- The first version. -/
theorem Holds.first {m : ℕ} {versions : List C} (h : Holds cur bak m d versions)
    (hcur : d cur = none) {content : C} :
    Holds cur bak m (d.write cur content) (content :: versions) := by
  cases versions with
  | nil =>
    intro i _ hi
    cases Nat.lt_one_iff.mp hi
    exact write_self
  | cons old versions =>
    cases hcur.symm.trans (h 0 (Nat.zero_le m) (Nat.zero_lt_succ _))

end Rotate

end Folder

end Noema.Lib
