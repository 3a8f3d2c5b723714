import Noema.Billing.Ledger
import Noema.Observability.Grid

/-!
# Views of the contribution ledger (`billing/ledger.py`)

`entriesFor` lists the entries of a task, and `perNode` adds up those that the nodes have
contributed to it. The loop keeps a dict of totals by node, in the order in which the nodes first
occur, and the totals of the task beside it.

The total of a task is that of its entries (`perNode_totalTokens`), whatever the nodes are; nothing
is counted twice, and an entry without a node is counted, too.
-/

namespace Noema.Billing

open Noema.Lib PyJson
open Noema.Observability (GridFloat)

variable {F : Type}

/-- `entries_for` (ledger.py:153), without the conversion to dicts. -/
def ContributionLedger.entriesFor (ledger : ContributionLedger F) (taskId : String) :
    List (LedgerEntry F) :=
  ledger.entries.filter fun e => e.taskId = taskId

/-- What `per_node` adds up for a node. -/
structure NodeTotals (F : Type) where
  entries : Nat
  inputTokens : Int
  outputTokens : Int
  totalTokens : Int
  costUsd : F
  delegatedToPeers : Nat

/-- What `per_node` returns. -/
structure NodeContributions (F : Type) where
  nodes : List (String × NodeTotals F)
  totalCostUsd : F
  totalTokens : Int

section PerNode

variable [GridFloat F]

/-- The totals of a node before its first entry. -/
def NodeTotals.zero : NodeTotals F := ⟨0, 0, 0, 0, zeroFloat, 0⟩

/-- The totals of a node with one more entry. -/
def NodeTotals.add (agg : NodeTotals F) (e : LedgerEntry F) : NodeTotals F where
  entries := agg.entries + 1
  inputTokens := agg.inputTokens + e.inputTokens
  outputTokens := agg.outputTokens + e.outputTokens
  totalTokens := agg.totalTokens + e.totalTokens
  costUsd := GridFloat.add agg.costUsd e.costUsd
  delegatedToPeers := agg.delegatedToPeers + if e.peer = "" then 0 else 1

/-- The loop of `per_node` over the entries. -/
def addEntries (nodes : List (String × NodeTotals F)) (entries : List (LedgerEntry F)) :
    List (String × NodeTotals F) :=
  entries.foldl
    (fun nodes e => dictInsert e.nodeId (((nodes.lookup e.nodeId).getD .zero).add e) nodes) nodes

/-- `per_node` (ledger.py:116); without a task it is about all entries. -/
def ContributionLedger.perNode (ledger : ContributionLedger F) (taskId : String) :
    NodeContributions F :=
  let entries := ledger.entries.filter fun e => taskId = "" ∨ e.taskId = taskId
  { nodes := (sortedBy Prod.fst (addEntries [] entries)).map fun (node, agg) =>
      (node, { agg with costUsd := GridFloat.round agg.costUsd 6 })
    totalCostUsd := GridFloat.round (GridFloat.sum (entries.map LedgerEntry.costUsd)) 6
    totalTokens := (entries.map LedgerEntry.totalTokens).sum }

/-- The total of a task is that of its entries. -/
theorem perNode_totalTokens (ledger : ContributionLedger F) {taskId : String} (h : taskId ≠ "") :
    (ledger.perNode taskId).totalTokens =
      ((ledger.entriesFor taskId).map LedgerEntry.totalTokens).sum := by
  simp [ContributionLedger.perNode, ContributionLedger.entriesFor, h]

end PerNode

end Noema.Billing
