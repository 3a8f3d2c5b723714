import Mathlib

/-!
# Transactions that see what is committed

A table with a primary key, and transactions under the isolation level "read committed". A `DELETE`
takes a snapshot of the committed rows when it starts, and waits for the transactions that have
deleted some of them; an `INSERT` waits for the transactions that have inserted its key, and fails
if the key is there. Only what goes on without an error is described, and waiting is described by
what cannot happen yet: `CanDelete` and `CanInsert` are the conditions under which a statement goes
on.

- `Compatible`: what open transactions have to do with the rows and with one another: a key that one
  of them has inserted is nobody else's. Each statement and each commit keeps it.
- `victims`: a `DELETE` deletes the rows of its snapshot that are still there when it goes on, so a
  row that another transaction has put in meanwhile survives.
- `commit_eq`: a transaction that has deleted all that it does not replace leaves its own rows.
- `keys_subset_commit`: no key is lost if the transaction has inserted the keys that it deleted.
-/

namespace Noema.Lib.Transaction

universe u v

/-- What an open transaction has deleted and inserted. -/
structure Txn (R : Type u) where
  deleted : List R := []
  inserted : List R := []
  deriving DecidableEq, Repr

section Locks

variable {R : Type u} {K : Type v} (key : R → K)

/-- None of the rows is deleted by another open transaction. -/
def CanDelete (others : List (Txn R)) (found : List R) : Prop :=
  ∀ tx ∈ others, ∀ r ∈ found, r ∉ tx.deleted

/-- The key of the row is free: whoever has it is deleted by the transaction itself, and no
transaction has inserted it. -/
def CanInsert (rows : List R) (others : List (Txn R)) (own : Txn R) (r : R) : Prop :=
  (∀ r' ∈ rows, key r' = key r → r' ∈ own.deleted) ∧
    ∀ tx ∈ own :: others, ∀ r' ∈ tx.inserted, key r' ≠ key r

/-- What the open transactions have inserted has its key for itself. -/
structure Compatible (rows : List R) (txs : List (Txn R)) : Prop where
  fresh : ∀ tx ∈ txs, ∀ r ∈ tx.inserted, ∀ r' ∈ rows, key r' = key r → r' ∈ tx.deleted
  apart : txs.Pairwise fun tx tx' => ∀ r ∈ tx.inserted, ∀ r' ∈ tx'.inserted, key r ≠ key r'

variable {key} {rows : List R} {own : Txn R} {others txs txs' : List (Txn R)} {r : R}

theorem Compatible.perm (h : Compatible key rows txs) (hperm : txs.Perm txs') :
    Compatible key rows txs' := by
  refine ⟨fun tx htx => h.fresh tx (hperm.mem_iff.mpr htx), ?_⟩
  refine (hperm.pairwise_iff fun hapart => ?_).mp h.apart
  exact fun r hr r' hr' heq => hapart r' hr' r hr heq.symm

/-- A transaction that does nothing is compatible with the others. -/
theorem Compatible.empty (h : Compatible key rows others) : Compatible key rows ({} :: others) := by
  refine ⟨List.forall_mem_cons.mpr ⟨?_, h.fresh⟩, List.pairwise_cons.mpr ⟨?_, h.apart⟩⟩
  · exact fun r hr => by cases hr
  · exact fun _ _ r hr => by cases hr

theorem Compatible.tail (h : Compatible key rows (own :: others)) : Compatible key rows others :=
  ⟨fun tx htx => h.fresh tx (List.mem_cons_of_mem _ htx), (List.pairwise_cons.mp h.apart).2⟩

theorem Compatible.delete (h : Compatible key rows (own :: others)) (found : List R) :
    Compatible key rows ({ own with deleted := own.deleted ++ found } :: others) := by
  obtain ⟨hown, hothers⟩ := List.forall_mem_cons.mp h.fresh
  obtain ⟨hapart, hpairs⟩ := List.pairwise_cons.mp h.apart
  refine ⟨List.forall_mem_cons.mpr ⟨?_, hothers⟩, List.pairwise_cons.mpr ⟨hapart, hpairs⟩⟩
  exact fun r hr r' hr' heq => List.mem_append_left _ (hown r hr r' hr' heq)

theorem Compatible.insert (h : Compatible key rows (own :: others))
    (hcan : CanInsert key rows others own r) :
    Compatible key rows ({ own with inserted := own.inserted ++ [r] } :: others) := by
  obtain ⟨hfree, hnew⟩ := hcan
  obtain ⟨hown, hothers⟩ := List.forall_mem_cons.mp h.fresh
  obtain ⟨hapart, hpairs⟩ := List.pairwise_cons.mp h.apart
  refine ⟨List.forall_mem_cons.mpr ⟨fun r' hr' => ?_, hothers⟩,
    List.pairwise_cons.mpr ⟨fun tx htx r' hr' => ?_, hpairs⟩⟩
  · rcases List.mem_append.mp hr' with hr' | hr'
    · exact hown r' hr'
    · cases List.mem_singleton.mp hr'
      exact hfree
  · rcases List.mem_append.mp hr' with hr' | hr'
    · exact hapart tx htx r' hr'
    · cases List.mem_singleton.mp hr'
      exact fun r'' hr'' heq => hnew tx (List.mem_cons_of_mem _ htx) r'' hr'' heq.symm

end Locks

section Commit

variable {R : Type u} {K : Type v} [DecidableEq R] (key : R → K)

instance (others : List (Txn R)) (found : List R) : Decidable (CanDelete others found) :=
  inferInstanceAs (Decidable (∀ tx ∈ others, ∀ r ∈ found, r ∉ tx.deleted))

instance [DecidableEq K] (rows : List R) (others : List (Txn R)) (own : Txn R) (r : R) :
    Decidable (CanInsert key rows others own r) :=
  inferInstanceAs (Decidable (_ ∧ _))

/-- The rows that a `DELETE` finds: they were there when it started, and are still there. -/
def victims (rows snapshot : List R) : List R := snapshot.filter fun r => r ∈ rows

/-- The rows after a commit. -/
def commit (rows : List R) (tx : Txn R) : List R :=
  rows.filter (fun r => r ∉ tx.deleted) ++ tx.inserted

variable {key} {rows : List R} {own tx : Txn R} {others : List (Txn R)} {r : R}

theorem mem_commit : r ∈ commit rows tx ↔ r ∈ rows ∧ r ∉ tx.deleted ∨ r ∈ tx.inserted := by
  rw [commit, List.mem_append, List.mem_filter, decide_eq_true_iff]

theorem Compatible.commit (h : Compatible key rows (own :: others)) :
    Compatible key (commit rows own) ({} :: others) := by
  obtain ⟨hapart, hpairs⟩ := List.pairwise_cons.mp h.apart
  refine Compatible.empty ⟨fun tx htx r hr r' hr' heq => ?_, hpairs⟩
  rcases mem_commit.mp hr' with ⟨hr', -⟩ | hr'
  · exact h.fresh tx (List.mem_cons_of_mem _ htx) r hr r' hr' heq
  · exact absurd heq (hapart tx htx r' hr' r hr)

/-- A transaction that has deleted or replaced every row leaves its own rows. -/
theorem commit_eq (hfresh : ∀ r ∈ tx.inserted, ∀ r' ∈ rows, key r' = key r → r' ∈ tx.deleted)
    (hcover : ∀ r' ∈ rows, r' ∈ tx.deleted ∨ ∃ r ∈ tx.inserted, key r' = key r) :
    commit rows tx = tx.inserted := by
  have hgone : rows.filter (fun r => r ∉ tx.deleted) = [] := by
    refine List.filter_eq_nil_iff.mpr fun r' hr' => ?_
    rw [decide_eq_true_iff, not_not]
    rcases hcover r' hr' with hdeleted | ⟨r, hr, heq⟩
    · exact hdeleted
    · exact hfresh r hr r' hr' heq
  rw [commit, hgone, List.nil_append]

/-- No key is lost if the transaction has inserted the keys of the rows that it has deleted. -/
theorem keys_subset_commit (h : tx.deleted.map key ⊆ tx.inserted.map key) :
    rows.map key ⊆ (commit rows tx).map key := by
  intro k hk
  obtain ⟨r, hr, rfl⟩ := List.mem_map.mp hk
  by_cases hdeleted : r ∈ tx.deleted
  · obtain ⟨r', hr', heq⟩ := List.mem_map.mp (h (List.mem_map_of_mem hdeleted))
    exact List.mem_map.mpr ⟨r', mem_commit.mpr (.inr hr'), heq⟩
  · exact List.mem_map_of_mem (mem_commit.mpr (.inl ⟨hr, hdeleted⟩))

end Commit

end Noema.Lib.Transaction
