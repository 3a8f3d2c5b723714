import Noema.Lib.PyNumber

/-!
# The contribution ledger (`billing/ledger.py`)

`ContributionLedger.record` appends an entry to the list in memory, which is cut to its bound: at
least one entry stays, whatever `max_entries` is (`max(1, max_entries)`). Negative numbers of tokens
are stored as zero.

This module is about the list. What is computed from it is in `LedgerViews`. Writing the entry to
the file is best effort and changes nothing in memory; `LedgerFile` has the file, with what reading
it back does.
-/

namespace Noema.Billing

open Noema.Lib PyJson

variable {F : Type}

/-- `LedgerEntry`, without its id and its time. -/
structure LedgerEntry (F : Type) where
  nodeId : String
  taskId : String
  subtaskId : String := ""
  kind : String
  provider : String := ""
  model : String := ""
  inputTokens : Int
  outputTokens : Int
  totalTokens : Int
  costUsd : F
  peer : String
  artifactRef : String
  «meta» : List (String × PyVal F)

/-- A `ContributionLedger` in memory. -/
structure ContributionLedger (F : Type) where
  maxEntries : Nat
  entries : List (LedgerEntry F)

/-- `__init__`. -/
def ContributionLedger.new (maxEntries : Int) : ContributionLedger F :=
  ⟨(max 1 maxEntries).toNat, []⟩

/-- The entry that `record` makes of its arguments. -/
def LedgerEntry.of [PyInterp F] (nodeId taskId kind : String) (inputTokens outputTokens : Int)
    (costUsd : F) (peer artifactRef : String) (info : List (String × PyVal F)) : LedgerEntry F where
  nodeId := nodeId
  taskId := taskId
  kind := kind
  inputTokens := max inputTokens 0
  outputTokens := max outputTokens 0
  totalTokens := max inputTokens 0 + max outputTokens 0
  costUsd := pyMax costUsd zeroFloat
  peer := peer
  artifactRef := artifactRef
  «meta» := info

/-- The rest of `record` (ledger.py:68): the list keeps its last entries. -/
def ContributionLedger.record (ledger : ContributionLedger F) (entry : LedgerEntry F) :
    ContributionLedger F :=
  let entries := ledger.entries ++ [entry]
  { ledger with
    entries :=
      if ledger.maxEntries < entries.length then entries.drop (entries.length - ledger.maxEntries)
      else entries }

end Noema.Billing
