import Noema.Billing.Ledger
import Noema.Lib.System

/-!
# The federation router (`federation/router.py`)

`execute` runs one `delegate` for each sub-task, all at once. A `delegate` picks a peer, waits for
the executor of the peer, waits for the local executor if that failed, and writes one entry to the
ledger; between its awaits it runs alone. Which circuits are open when a sub-task starts, and how
the executors end, is in the events.

- `Job.descriptions`: the sub-tasks of a job. Without any, the title is the only one
  (router.py:277).
- `Delegation`: where a `delegate` is: waiting to start, waiting for a peer, waiting at home, done,
  or raised.
- `FederationState.finish`: `_record` and `return`, which every exit of a `delegate` leads through.
  Converting the numbers of a response may raise, and then the delegation does.
- `federationSystem`: a call of `execute` on a router with a cursor for its round robin and a
  ledger.

A run is over when every sub-task has a result, or when one of them raised (`outcome`), as `gather`
passes on the first exception.
-/

namespace Noema.Federation

open Noema.Lib PyJson Noema.Billing

/-- `PeerNode`. -/
structure PeerNode where
  host : String
  port : Nat
  deriving DecidableEq, Repr

/-- `address`. -/
def PeerNode.address (peer : PeerNode) : String := peer.host ++ ":" ++ toString peer.port

/-- The status of a `DelegationResult`. -/
inductive Status where
  | pending
  | delegated
  | «local»
  | failed
  deriving DecidableEq, Repr

/-- The text of a status. -/
def Status.text : Status → String
  | .pending => "pending"
  | .delegated => "delegated"
  | .local => "local"
  | .failed => "failed"

/-- A response: a dict. -/
abbrev Response (F : Type) := List (String × PyVal F)

/-- `DelegationResult`. -/
structure DelegationResult (F : Type) where
  subtaskId : String
  description : String
  peer : String := ""
  status : Status := .pending
  response : Response F := []
  error : String := ""
  attempts : Nat := 0

/-- What a router is set up with. -/
structure FederationRouter where
  peers : List PeerNode
  hasLocalExecutor : Bool
  nodeId : String

/-- The keys of `_executors`. -/
def FederationRouter.addresses (router : FederationRouter) : List String :=
  (router.peers.map PeerNode.address).eraseDups

/-- How the executor of a peer ends: with a response after some attempts, with a
`CircuitBreakerError`, by the timeout, or with another exception. -/
inductive ExecutorEnd (F : Type) where
  | returned (response : Response F) (attempts : Nat)
  | circuitOpen (msg : String)
  | timedOut
  | raised (e : PyExc)

/-- Where a `delegate` is. -/
inductive Delegation (F : Type) where
  | waiting
  | delegating (address : String)
  | runningLocal (reason : String)
  | done (result : DelegationResult F)
  | raised (e : PyExc)

/-- The router with its running delegations. `received` are the entries that the ledger was given,
also those that it has dropped. -/
structure FederationState (F : Type) where
  robin : Nat
  delegations : List (Delegation F)
  ledger : Option (ContributionLedger F)
  received : List (LedgerEntry F)

/-- A sub-task starts, the executor of its peer ends, or the local executor ends. -/
inductive FederationEvent (F : Type) where
  | start (index : Nat) (isOpen : String → Bool)
  | executorEnds (index : Nat) (ending : ExecutorEnd F)
  | localEnds (index : Nat) (ending : Except PyExc (Response F))

/-! ## Jobs -/

/-- What `execute` is called with. -/
structure Job where
  title : String
  subtasks : List String
  taskId : String := ""
  deriving DecidableEq, Repr

/-- The sub-tasks of a job: without any, the title is the only one. -/
def Job.descriptions (job : Job) : List String :=
  if job.subtasks = [] then [job.title] else job.subtasks

/-- The id of a sub-task. -/
def Job.subtaskId (job : Job) (index : Nat) : String :=
  if job.taskId = "" then toString index else job.taskId ++ ":" ++ toString index

section Result

variable {F : Type}

/-- The result that `delegate` starts with. -/
def Job.result (job : Job) (index : Nat) : DelegationResult F where
  subtaskId := job.subtaskId index
  description := job.descriptions.getD index ""

/-- The result of a delegation that has one. -/
def Delegation.result? : Delegation F → Option (DelegationResult F)
  | .done result => some result
  | _ => none

/-- The exception of a delegation that raised. -/
def Delegation.exception? : Delegation F → Option PyExc
  | .raised e => some e
  | _ => none

/-- What `execute` returns, without the duration. -/
structure Summary (F : Type) where
  title : String
  taskId : String
  subtasks : List (DelegationResult F)
  total : Nat
  delegated : Nat
  «local» : Nat
  failed : Nat
  peersUsed : List String

/-- `execute` (router.py:277) after the `gather`. -/
def summaryOf (job : Job) (results : List (DelegationResult F)) : Summary F where
  title := job.title
  taskId := job.taskId
  subtasks := results
  total := results.length
  delegated := results.countP fun r => r.status = .delegated
  «local» := results.countP fun r => r.status = .local
  failed := results.countP fun r => r.status = .failed
  peersUsed := sortedBy id ((results.map DelegationResult.peer).filter (· ≠ "")).dedup

/-- What `execute` ends with: the exception of a delegation, or the summary when all have a
result. -/
def FederationState.outcome (job : Job) (s : FederationState F) : Option (Except PyExc (Summary F)) :=
  match s.delegations.findSome? Delegation.exception? with
  | some e => some (.error e)
  | none => (s.delegations.mapM Delegation.result?).map fun results => .ok (summaryOf job results)

end Result

/-! ## Delegations -/

section Delegate

variable {F : Type} [PyNumber F]

/-- The argument of `int` for a token field. -/
def tokenField (response : Response F) (key : String) : PyVal F :=
  (getOr response key (.int 0)).pyOr (.int 0)

/-- The argument of `float` for the cost. -/
def costField (response : Response F) : PyVal F :=
  (getOr response "cost_usd" (.float zeroFloat)).pyOr (.float zeroFloat)

/-- The `kind` of the entry for a result. -/
def kindOf (status : Status) : String :=
  if status = .delegated then "subtask" else "delegation-" ++ status.text

/-- The entry that `_record` (router.py:255) gives to the ledger, without the duration. -/
def entryOf (nodeId : String) (result : DelegationResult F) : Except PyExc (LedgerEntry F) := do
  let inputTokens ← (tokenField result.response "tokens_input").pyInt
  let outputTokens ← (tokenField result.response "tokens_output").pyInt
  let costUsd ← (costField result.response).pyFloat
  return .of nodeId result.subtaskId (kindOf result.status) inputTokens outputTokens costUsd
    result.peer (getOr result.response "solution_id" (.str "")).toStr
    [("description", .str (String.ofList (result.description.toList.take 200))),
      ("quality", .str (getOr result.response "quality" (.str "")).toStr)]

variable (router : FederationRouter) (job : Job)

/-- `_record` and `return`. Without a ledger nothing is converted. -/
def FederationState.finish (s : FederationState F) (index : Nat) (result : DelegationResult F) :
    FederationState F :=
  match s.ledger with
  | none => { s with delegations := s.delegations.set index (.done result) }
  | some ledger =>
    match entryOf router.nodeId result with
    | .error e => { s with delegations := s.delegations.set index (.raised e) }
    | .ok entry =>
      { s with
        delegations := s.delegations.set index (.done result)
        ledger := some (ledger.record entry)
        received := s.received ++ [entry] }

/-- `_run_local` (router.py:233) up to its `await`. -/
def FederationState.runLocal (s : FederationState F) (index : Nat) (reason : String) :
    FederationState F :=
  if router.hasLocalExecutor then
    { s with delegations := s.delegations.set index (.runningLocal reason) }
  else s.finish router index { (job.result index : DelegationResult F) with
    status := .failed, error := reason }

/-- `delegate` (router.py:186) up to its `await`. -/
def FederationState.start (s : FederationState F) (index : Nat) (isOpen : String → Bool) :
    FederationState F :=
  let healthy := router.addresses.filter fun address => !isOpen address
  match healthy[s.robin % healthy.length]? with
  | none => s.runLocal router job index "no healthy peers"
  | some address =>
    { s with
      robin := s.robin + 1
      delegations := s.delegations.set index (.delegating address) }

/-- The rest of `delegate`. -/
def FederationState.executorEnds (s : FederationState F) (index : Nat) (address : String) :
    ExecutorEnd F → FederationState F
  | .returned response attempts =>
    s.finish router index
      { (job.result index : DelegationResult F) with
        peer := address, status := .delegated, response, attempts }
  | .circuitOpen msg =>
    s.runLocal router job index ("circuit open on " ++ address ++ ": " ++ msg)
  | .timedOut => s.runLocal router job index ("timeout delegating to " ++ address)
  | .raised e => s.runLocal router job index (e.typeName ++ ": " ++ e.msg)

/-- The rest of `_run_local`. -/
def FederationState.localEnds (s : FederationState F) (index : Nat) (reason : String) :
    Except PyExc (Response F) → FederationState F
  | .ok response =>
    s.finish router index { (job.result index : DelegationResult F) with
      status := .local, response, error := reason }
  | .error e =>
    s.finish router index { (job.result index : DelegationResult F) with
      status := .failed, error := reason ++ "; local: " ++ e.typeName ++ ": " ++ e.msg }

/-- A step of the router. -/
def federationStep (s : FederationState F) : FederationEvent F → Option (FederationState F)
  | .start index isOpen =>
    match s.delegations[index]? with
    -- each phase of a delegation has one event that ends it
    | some .waiting => some (s.start router job index isOpen)
    | _ => none
  | .executorEnds index ending =>
    match s.delegations[index]? with
    | some (.delegating address) => some (s.executorEnds router job index address ending)
    | _ => none
  | .localEnds index ending =>
    match s.delegations[index]? with
    | some (.runningLocal reason) => some (s.localEnds router job index reason ending)
    | _ => none

/-- A call of `execute` on a router with a cursor and a ledger. -/
def federationSystem (robin : Nat) (ledger : Option (ContributionLedger F)) :
    System (FederationState F) (FederationEvent F) where
  init := ⟨robin, job.descriptions.map fun _ => .waiting, ledger, []⟩
  step := federationStep router job

end Delegate

end Noema.Federation
