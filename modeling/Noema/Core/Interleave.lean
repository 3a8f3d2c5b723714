import Noema.Core.ChainOfThought
import Noema.Lib.System

/-!
# Concurrent calls of `think` (`core/engine.py`)

The calls of one engine share the attribute `self.cot`. A call puts a new `ChainOfThought` there
before each attempt, lets that object reason, and later reads the chain of whatever object is in the
attribute then: into the thought process when the reasoning is over, and into the checkpoint when
the judge was not content. `engineSystem` has the objects, the attribute and the calls; an event is
what happens between two awaits.

The object that reasons is held by the task that runs it, so its nodes go to the right chain; only
what is read back through the attribute can be somebody else's.

- `Call.nodes`, `Call.kernels`: all that a call has produced, as bookkeeping of the model.
- `Separate`: the thoughts and the checkpoints of a call are made of what the call has produced.
- `EngineInv`: in addition, each object has nodes of the call that made it only.
  `EngineInv.of_grows` says what a step has to show: the calls grow, and what is new is in order;
  the rules for a call, an object and a node are derived from it, and `EngineInv.step` has one case
  per event.
- `ReadsOwn`: the condition on an event, that what a call reads from `self.cot` is the chain of an
  object that it made itself, or empty.
- **`separate_of_readsOwn`**: in every run whose events meet it, the calls do not mix.
  `crossedCalls_mix` is a run that does not.
-/

namespace Noema.Core

open Noema.Lib PyJson

/-- What a thought process has of a step: the kernel or role, and the two summaries. -/
structure Summary where
  kernel : String
  inputSummary : String
  outputSummary : String
  confidence : ℚ
  deriving DecidableEq

/-- `ThoughtStep`. -/
structure ThoughtStep where
  stepNumber : Nat
  summary : Summary
  deriving DecidableEq

/-- `DAGCheckpoint`: whose it is, and the steps that it has. -/
structure DAGCheckpoint where
  taskId : String
  tenantId : String
  attempt : Nat
  completedSteps : List String
  stepResults : List (String × String)
  deriving DecidableEq

/-- A `ChainOfThought` object, with the call that made it. -/
structure Cot where
  owner : Nat
  chain : List ThoughtNode

/-- Where a call is: before its first `ChainOfThought`, reasoning (with the kernels, if the LLM is
the fallback), after the chain was read, saving a checkpoint, or over. -/
inductive CallPhase where
  | entered
  | reasoning
  | judging
  | saving
  | finished
  deriving DecidableEq, Repr

/-- A call of `think`: its task, its thought process, and all that its own chains of thought and
its own kernels have produced. -/
structure Call where
  taskId : String
  tenantId : String
  phase : CallPhase := .entered
  attempt : Nat := 1
  thought : List ThoughtStep := []
  nodes : List ThoughtNode := []
  kernels : List Summary := []

/-- The engine: all `ChainOfThought` objects in the order in which they were made, the one in
`self.cot`, the calls, and the checkpoints that they saved. -/
structure EngineState where
  cots : List Cot
  cot : Option Nat
  calls : List Call
  saved : List (Nat × DAGCheckpoint)

/-- What happens next. The objects and the calls are numbered. -/
inductive EngineEvent where
  | enter (taskId tenantId : String)
  | assign (i : Nat)
  | reset (o : Nat)
  | node (o : Nat) (n : ThoughtNode)
  | kernel (i : Nat) (summary : Summary)
  | readBack (i : Nat)
  | save (i : Nat) (stored : Bool)
  | reassign (i : Nat)
  | finish (i : Nat)

/-- What `add_step` is given for a node (engine.py:497). -/
def ThoughtNode.summary (n : ThoughtNode) : Summary :=
  ⟨n.role, String.ofList (n.prompt.toList.take 200), String.ofList (n.response.toList.take 200),
    n.confidence⟩

/-- `add_step` (types.py:188). -/
def addStep (thought : List ThoughtStep) (summary : Summary) : List ThoughtStep :=
  thought ++ [⟨thought.length + 1, summary⟩]

/-- The thought process after a chain was read into it. -/
def readChain (thought : List ThoughtStep) (chain : List ThoughtNode) : List ThoughtStep :=
  chain.foldl (fun thought n => addStep thought n.summary) thought

/-- The checkpoint of a call with a chain (engine.py:549). -/
def checkpointOf (call : Call) (chain : List ThoughtNode) : DAGCheckpoint where
  taskId := call.taskId
  tenantId := call.tenantId
  attempt := call.attempt + 1
  completedSteps := chain.map fun n => n.name.text
  stepResults := dictOf (chain.map fun n => (n.name.text, n.response))

namespace EngineState

/-- The call with a number, if it is in a phase. -/
def callAt (s : EngineState) (i : Nat) (phase : CallPhase) : Option Call :=
  s.calls[i]?.filter fun call => call.phase = phase

/-- `self.cot.chain`. -/
def chain (s : EngineState) : List ThoughtNode :=
  ((s.cot.bind fun o => s.cots[o]?).map Cot.chain).getD []

/-- The call that made the object in `self.cot`. -/
def cotOwner (s : EngineState) : Option Nat := (s.cot.bind fun o => s.cots[o]?).map Cot.owner

/-- A call after its update. -/
def setCall (s : EngineState) (i : Nat) (call : Call) : EngineState :=
  { s with calls := s.calls.set i call }

/-- `self.cot = ChainOfThought(...)`, by a call. -/
def newCot (s : EngineState) (i : Nat) : EngineState :=
  { s with cots := s.cots ++ [⟨i, []⟩], cot := some s.cots.length }

/-- `self.chain.append(node)`, in an object. -/
def appendNode (s : EngineState) (o : Nat) (c : Cot) (n : ThoughtNode) : EngineState :=
  { s with
    cots := s.cots.set o { c with chain := c.chain ++ [n] }
    calls := s.calls.modify c.owner fun call => { call with nodes := call.nodes ++ [n] } }

end EngineState

/-- A step of the engine. With the fallback LLM the kernels reason, and nothing is judged. -/
def engineStep (fallback : Bool) (s : EngineState) : EngineEvent → Option EngineState
  | .enter taskId tenantId => some { s with calls := s.calls ++ [{ taskId, tenantId }] }
  | .assign i =>
    (s.callAt i .entered).map fun call => (s.newCot i).setCall i { call with phase := .reasoning }
  -- the first statement of `reason`, which a failed run may be healed to run again
  | .reset o => s.cots[o]?.map fun c => { s with cots := s.cots.set o { c with chain := [] } }
  | .node o n => if fallback then none else s.cots[o]?.map fun c => s.appendNode o c n
  | .kernel i summary =>
    if fallback then
      (s.callAt i .reasoning).map fun call =>
        s.setCall i { call with
          thought := addStep call.thought summary, kernels := call.kernels ++ [summary] }
    else none
  | .readBack i =>
    (s.callAt i .reasoning).map fun call =>
      s.setCall i { call with phase := .judging, thought := readChain call.thought s.chain }
  | .save i stored =>
    if fallback then none
    else
      ((s.callAt i .judging).filter fun call => call.attempt < 3).map fun call =>
        { s.setCall i { call with phase := .saving } with
          saved := if stored then (i, checkpointOf call s.chain) :: s.saved else s.saved }
  | .reassign i =>
    (s.callAt i .saving).map fun call =>
      (s.newCot i).setCall i { call with phase := .reasoning, attempt := call.attempt + 1 }
  | .finish i => s.calls[i]?.map fun call => s.setCall i { call with phase := .finished }

/-- An engine, without calls at first. -/
def engineSystem (fallback : Bool) : System EngineState EngineEvent where
  init := ⟨[], none, [], []⟩
  step := engineStep fallback

/-- The thought process of a call has only steps that the call has produced. -/
def Call.OwnThought (call : Call) : Prop :=
  ∀ step ∈ call.thought, step.summary ∈ call.nodes.map ThoughtNode.summary ++ call.kernels

/-- A checkpoint of a call has only names and results of nodes that the call has produced. -/
structure Call.OwnCheckpoint (call : Call) (ckpt : DAGCheckpoint) : Prop where
  task : ckpt.taskId = call.taskId ∧ ckpt.tenantId = call.tenantId
  names : ∀ name ∈ ckpt.completedSteps, ∃ n ∈ call.nodes, n.name.text = name
  results : ∀ p ∈ ckpt.stepResults, ∃ n ∈ call.nodes, n.name.text = p.1 ∧ n.response = p.2

/-- The calls do not mix. -/
structure Separate (s : EngineState) : Prop where
  thoughts : ∀ call ∈ s.calls, call.OwnThought
  saved : ∀ p ∈ s.saved, ∃ call, s.calls[p.1]? = some call ∧ call.OwnCheckpoint p.2

/-- The condition on a state and an event: what a call reads from `self.cot` is the chain of an
object that it made itself, or empty. -/
def ReadsOwn (s : EngineState) : EngineEvent → Prop
  | .readBack i => s.chain = [] ∨ s.cotOwner = some i
  | .save i _ => s.chain = [] ∨ s.cotOwner = some i
  | .enter .. => True
  | .assign _ => True
  | .reset _ => True
  | .node .. => True
  | .kernel .. => True
  | .reassign _ => True
  | .finish _ => True

instance decidableReadsOwn (s : EngineState) (e : EngineEvent) : Decidable (ReadsOwn s e) :=
  match e with
  | .readBack i => inferInstanceAs (Decidable (s.chain = [] ∨ s.cotOwner = some i))
  | .save i _ => inferInstanceAs (Decidable (s.chain = [] ∨ s.cotOwner = some i))
  | .enter .. => instDecidableTrue
  | .assign _ => instDecidableTrue
  | .reset _ => instDecidableTrue
  | .node .. => instDecidableTrue
  | .kernel .. => instDecidableTrue
  | .reassign _ => instDecidableTrue
  | .finish _ => instDecidableTrue

/-! ## What a call has produced -/

section Calls

variable {calls calls' : List Call} {call call' : Call} {i : Nat}

/-- A later state of a call: it is for the same task, and has produced no less. -/
structure Call.Extends (call call' : Call) : Prop where
  task : call'.taskId = call.taskId ∧ call'.tenantId = call.tenantId
  nodes : call.nodes ⊆ call'.nodes
  kernels : call.kernels ⊆ call'.kernels

/-- All calls are still there, each in a later state. -/
def Grows (calls calls' : List Call) : Prop :=
  ∀ (i : Nat) (call : Call), calls[i]? = some call →
    ∃ call' : Call, calls'[i]? = some call' ∧ call.Extends call'

theorem Call.Extends.refl (call : Call) : call.Extends call :=
  ⟨⟨rfl, rfl⟩, List.Subset.refl _, List.Subset.refl _⟩

/-- What a call has produced does not depend on its phase, its attempt and its thoughts. -/
theorem Call.Extends.of_same (task : call'.taskId = call.taskId)
    (tenant : call'.tenantId = call.tenantId) (nodes : call'.nodes = call.nodes)
    (kernels : call'.kernels = call.kernels) : call.Extends call' :=
  ⟨⟨task, tenant⟩, nodes ▸ List.Subset.refl _, kernels ▸ List.Subset.refl _⟩

theorem Grows.refl (calls : List Call) : Grows calls calls :=
  fun _ call h => ⟨call, h, .refl call⟩

theorem Grows.append (calls new : List Call) : Grows calls (calls ++ new) := by
  intro i call h
  obtain ⟨hlt, -⟩ := List.getElem?_eq_some_iff.mp h
  exact ⟨call, by rwa [List.getElem?_append_left hlt], .refl call⟩

theorem Grows.set (h : calls[i]? = some call) (hext : call.Extends call') :
    Grows calls (calls.set i call') := by
  intro j call₁ hj
  obtain ⟨hlt, -⟩ := List.getElem?_eq_some_iff.mp h
  by_cases heq : i = j
  · subst heq
    cases h.symm.trans hj
    exact ⟨call', List.getElem?_set_self hlt, hext⟩
  · exact ⟨call₁, by rwa [List.getElem?_set_ne heq], .refl call₁⟩

theorem Grows.modify {f : Call → Call} (hext : ∀ call : Call, call.Extends (f call)) :
    Grows calls (calls.modify i f) := by
  intro j call hj
  rw [List.getElem?_modify, hj]
  refine ⟨if i = j then f call else call, rfl, ?_⟩
  split
  · exact hext call
  · exact .refl call

/-- What has more to choose from keeps its own thoughts. -/
theorem Call.OwnThought.mono (h : call.OwnThought) (hext : call.Extends call')
    (hsame : call'.thought = call.thought) : call'.OwnThought := by
  intro step hstep
  rw [hsame] at hstep
  rcases List.mem_append.mp (h step hstep) with hnode | hkernel
  · exact List.mem_append_left _ (List.map_subset _ hext.nodes hnode)
  · exact List.mem_append_right _ (hext.kernels hkernel)

theorem Call.OwnCheckpoint.mono {ckpt : DAGCheckpoint} (h : call.OwnCheckpoint ckpt)
    (hext : call.Extends call') : call'.OwnCheckpoint ckpt where
  task := ⟨h.task.1.trans hext.task.1.symm, h.task.2.trans hext.task.2.symm⟩
  names name hname := by
    obtain ⟨n, hn, heq⟩ := h.names name hname
    exact ⟨n, hext.nodes hn, heq⟩
  results p hp := by
    obtain ⟨n, hn, heq⟩ := h.results p hp
    exact ⟨n, hext.nodes hn, heq⟩

end Calls

/-! ## What is read from a chain -/

section Reading

variable {call : Call} {chain : List ThoughtNode} {thought : List ThoughtStep}

theorem mem_addStep {summary : Summary} {step : ThoughtStep}
    (h : step ∈ addStep thought summary) : step ∈ thought ∨ step.summary = summary := by
  rcases List.mem_append.mp h with h | h
  · exact .inl h
  · rw [List.mem_singleton.mp h]
    exact .inr rfl

theorem mem_readChain {step : ThoughtStep} (h : step ∈ readChain thought chain) :
    step ∈ thought ∨ ∃ n ∈ chain, step.summary = n.summary := by
  induction chain generalizing thought with
  | nil => exact .inl h
  | cons n chain ih =>
    rcases ih h with h | ⟨n', hn', heq⟩
    · rcases mem_addStep h with h | heq
      · exact .inl h
      · exact .inr ⟨n, List.mem_cons_self, heq⟩
    · exact .inr ⟨n', List.mem_cons_of_mem n hn', heq⟩

/-- A chain of its own nodes gives a call a thought process of its own. -/
theorem Call.OwnThought.readChain (h : call.OwnThought) (hown : ∀ n ∈ chain, n ∈ call.nodes) :
    ∀ step ∈ readChain call.thought chain,
      step.summary ∈ call.nodes.map ThoughtNode.summary ++ call.kernels := by
  intro step hstep
  rcases mem_readChain hstep with hstep | ⟨n, hn, heq⟩
  · exact h step hstep
  · rw [heq]
    exact List.mem_append_left _ (List.mem_map_of_mem (hown n hn))

/-- And a checkpoint of its own. -/
theorem ownCheckpoint_checkpointOf (hown : ∀ n ∈ chain, n ∈ call.nodes) :
    call.OwnCheckpoint (checkpointOf call chain) where
  task := ⟨rfl, rfl⟩
  names name hname := by
    obtain ⟨n, hn, heq⟩ := List.mem_map.mp hname
    exact ⟨n, hown n hn, heq⟩
  results p hp := by
    obtain ⟨n, hn, rfl⟩ := List.mem_map.mp (mem_dictOf hp)
    exact ⟨n, hown n hn, rfl, rfl⟩

end Reading

/-! ## The invariant -/

section Runs

variable {fallback : Bool} {s s' : EngineState} {call : Call} {i : Nat} {phase : CallPhase}

/-- The nodes of an object are nodes of the call that made it. -/
def Cot.OwnedIn (c : Cot) (calls : List Call) : Prop :=
  ∃ call, calls[c.owner]? = some call ∧ ∀ n ∈ c.chain, n ∈ call.nodes

/-- The calls do not mix, and each object has nodes of its own call only. -/
structure EngineInv (s : EngineState) : Prop extends Separate s where
  owned : ∀ c ∈ s.cots, c.OwnedIn s.calls

theorem Cot.OwnedIn.grows {c : Cot} {calls calls' : List Call} (h : c.OwnedIn calls)
    (hgrows : Grows calls calls') : c.OwnedIn calls' := by
  obtain ⟨call, hcall, hown⟩ := h
  obtain ⟨call', hcall', hext⟩ := hgrows _ _ hcall
  exact ⟨call', hcall', fun n hn => hext.nodes (hown n hn)⟩

/-- What a step has to show: the calls grow, and what is new is in order. -/
theorem EngineInv.of_grows (hinv : EngineInv s) (hgrows : Grows s.calls s'.calls)
    (hthoughts : ∀ call ∈ s'.calls, call.OwnThought)
    (howned : ∀ c ∈ s'.cots, c ∈ s.cots ∨ c.OwnedIn s'.calls)
    (hsaved : ∀ p ∈ s'.saved, p ∈ s.saved ∨
      ∃ call, s'.calls[p.1]? = some call ∧ call.OwnCheckpoint p.2) : EngineInv s' := by
  refine ⟨⟨hthoughts, ?_⟩, ?_⟩
  · intro p hp
    rcases hsaved p hp with hold | hnew
    · obtain ⟨call, hcall, hown⟩ := hinv.saved p hold
      obtain ⟨call', hcall', hext⟩ := hgrows _ _ hcall
      exact ⟨call', hcall', hown.mono hext⟩
    · exact hnew
  · intro c hc
    rcases howned c hc with hold | hnew
    · exact (hinv.owned c hold).grows hgrows
    · exact hnew

theorem callAt_eq_some (h : s.callAt i phase = some call) :
    s.calls[i]? = some call ∧ call.phase = phase := by
  obtain ⟨hcall, hphase⟩ := Option.filter_eq_some_iff.mp h
  exact ⟨hcall, of_decide_eq_true hphase⟩

/-- A call changes; the objects that are new are of this call, and empty. -/
theorem EngineInv.setCall {call' : Call} (hinv : EngineInv s) (hcall : s.calls[i]? = some call)
    (hcalls : s'.calls = s.calls.set i call') (hext : call.Extends call')
    (hthought : call'.OwnThought)
    (hcots : s'.cots = s.cots ∨ s'.cots = s.cots ++ [⟨i, []⟩])
    (hsaved : ∀ p ∈ s'.saved, p ∈ s.saved ∨ p.1 = i ∧ call'.OwnCheckpoint p.2) :
    EngineInv s' := by
  obtain ⟨hlt, -⟩ := List.getElem?_eq_some_iff.mp hcall
  have hself : s'.calls[i]? = some call' := by rw [hcalls, List.getElem?_set_self hlt]
  refine hinv.of_grows (hcalls ▸ .set hcall hext) ?_ ?_ ?_
  · intro call₁ hmem
    rw [hcalls] at hmem
    rcases List.mem_or_eq_of_mem_set hmem with hmem | rfl
    · exact hinv.thoughts call₁ hmem
    · exact hthought
  · intro c hc
    -- Either no object is new, or one of this call, without nodes yet.
    rcases hcots with hcots | hcots
    · exact .inl (hcots ▸ hc)
    · rw [hcots] at hc
      rcases List.mem_append.mp hc with hc | hc
      · exact .inl hc
      · rw [List.mem_singleton.mp hc]
        exact .inr ⟨call', hself, fun n hn => by cases hn⟩
  · intro p hp
    rcases hsaved p hp with hold | ⟨heq, hown⟩
    · exact .inl hold
    · exact .inr ⟨call', heq ▸ hself, hown⟩

/-- A change of an object that keeps it in the hands of its call. -/
theorem EngineInv.setCot {o : Nat} {c' : Cot} (hinv : EngineInv s)
    (hgrows : Grows s.calls s'.calls) (hthoughts : ∀ call ∈ s'.calls, call.OwnThought)
    (hcots : s'.cots = s.cots.set o c') (hown : c'.OwnedIn s'.calls)
    (hsaved : s'.saved = s.saved) : EngineInv s' := by
  refine hinv.of_grows hgrows hthoughts ?_ ?_
  · intro c hc
    rw [hcots] at hc
    rcases List.mem_or_eq_of_mem_set hc with hc | rfl
    · exact .inl hc
    · exact .inr hown
  · intro p hp
    exact .inl (hsaved ▸ hp)

/-- What the attribute has, if it is empty or of the call, is of the call. -/
theorem EngineInv.chain_own (hinv : EngineInv s) (hcall : s.calls[i]? = some call)
    (hreads : s.chain = [] ∨ s.cotOwner = some i) : ∀ n ∈ s.chain, n ∈ call.nodes := by
  rcases hreads with hempty | howner
  · rw [hempty]
    exact fun n hn => by cases hn
  · rw [EngineState.cotOwner] at howner
    obtain ⟨c, hc, howner⟩ := Option.map_eq_some_iff.mp howner
    obtain ⟨o, -, ho⟩ := Option.bind_eq_some_iff.mp hc
    obtain ⟨call', hcall', hown⟩ := hinv.owned c (List.mem_of_getElem? ho)
    rw [howner] at hcall'
    cases hcall.symm.trans hcall'
    rw [EngineState.chain, hc]
    exact hown

/-- A node is appended to the chain and to what its call has produced. -/
theorem EngineInv.appendNode {o : Nat} {c : Cot} (hinv : EngineInv s) (hc : s.cots[o]? = some c)
    (n : ThoughtNode) : EngineInv (s.appendNode o c n) := by
  obtain ⟨call, hcall, hown⟩ := hinv.owned c (List.mem_of_getElem? hc)
  have hext : ∀ call : Call, call.Extends { call with nodes := call.nodes ++ [n] } :=
    fun call => ⟨⟨rfl, rfl⟩, List.subset_append_left _ _, List.Subset.refl _⟩
  refine hinv.setCot (.modify hext) ?_ rfl ?_ rfl
  · intro call₁ hmem
    obtain ⟨j, hj⟩ := List.mem_iff_getElem?.mp hmem
    rw [EngineState.appendNode, List.getElem?_modify] at hj
    obtain ⟨call₂, hcall₂, rfl⟩ := Option.map_eq_some_iff.mp hj
    have hbefore := hinv.thoughts call₂ (List.mem_of_getElem? hcall₂)
    split
    · exact hbefore.mono (hext call₂) rfl
    · exact hbefore
  · refine ⟨{ call with nodes := call.nodes ++ [n] }, ?_, ?_⟩
    · show (s.calls.modify c.owner _)[c.owner]? = _
      rw [List.getElem?_modify, hcall]
      simp
    · intro n' hn'
      rcases List.mem_append.mp hn' with hn' | hn'
      · exact List.mem_append_left _ (hown n' hn')
      · exact List.mem_append_right _ hn'

/-- Every step keeps the invariant, if what it reads is its own. -/
theorem EngineInv.step (hinv : EngineInv s) (e : EngineEvent) (hreads : ReadsOwn s e)
    (hstep : engineStep fallback s e = some s') : EngineInv s' := by
  cases e with
  | enter taskId tenantId =>
    cases hstep
    -- a new call has produced nothing yet
    refine hinv.of_grows (.append _ _) ?_ (fun c hc => .inl hc) (fun p hp => .inl hp)
    intro call hmem
    rcases List.mem_append.mp hmem with hmem | hmem
    · exact hinv.thoughts call hmem
    · rw [List.mem_singleton.mp hmem]
      exact fun step hstep => by cases hstep
  | assign i =>
    obtain ⟨call, hcall, rfl⟩ := Option.map_eq_some_iff.mp hstep
    obtain ⟨hcall, -⟩ := callAt_eq_some hcall
    -- another object is in the attribute, but no call has got anything
    have hbefore := hinv.thoughts call (List.mem_of_getElem? hcall)
    exact hinv.setCall hcall rfl (.of_same rfl rfl rfl rfl) hbefore (.inr rfl) fun p hp => .inl hp
  | reset o =>
    obtain ⟨c, hc, rfl⟩ := Option.map_eq_some_iff.mp hstep
    obtain ⟨call, hcall, -⟩ := hinv.owned c (List.mem_of_getElem? hc)
    refine hinv.setCot (.refl _) hinv.thoughts rfl ?_ rfl
    exact ⟨call, hcall, fun n hn => by cases hn⟩
  | node o n =>
    rw [engineStep] at hstep
    split at hstep
    · cases hstep
    · obtain ⟨c, hc, rfl⟩ := Option.map_eq_some_iff.mp hstep
      -- a node goes to the object of the task that reasons, whatever is in the attribute
      exact hinv.appendNode hc n
  | kernel i summary =>
    rw [engineStep] at hstep
    split at hstep
    · obtain ⟨call, hcall, rfl⟩ := Option.map_eq_some_iff.mp hstep
      obtain ⟨hcall, -⟩ := callAt_eq_some hcall
      have hbefore := hinv.thoughts call (List.mem_of_getElem? hcall)
      refine hinv.setCall hcall rfl ?_ ?_ (.inl rfl) fun p hp => .inl hp
      · exact ⟨⟨rfl, rfl⟩, List.Subset.refl _, List.subset_append_left _ _⟩
      · intro step hmem
        rcases mem_addStep hmem with hmem | heq
        · rw [← List.append_assoc]
          exact List.mem_append_left _ (hbefore step hmem)
        · simp [heq]
    · cases hstep
  | readBack i =>
    obtain ⟨call, hcall, rfl⟩ := Option.map_eq_some_iff.mp hstep
    obtain ⟨hcall, -⟩ := callAt_eq_some hcall
    have hbefore := hinv.thoughts call (List.mem_of_getElem? hcall)
    have hthought := hbefore.readChain (hinv.chain_own hcall hreads)
    exact hinv.setCall hcall rfl (.of_same rfl rfl rfl rfl) hthought (.inl rfl) fun p hp => .inl hp
  | save i stored =>
    rw [engineStep] at hstep
    split at hstep
    · cases hstep
    · obtain ⟨call, hcall, rfl⟩ := Option.map_eq_some_iff.mp hstep
      obtain ⟨hcall, -⟩ := Option.filter_eq_some_iff.mp hcall
      obtain ⟨hcall, -⟩ := callAt_eq_some hcall
      have hbefore := hinv.thoughts call (List.mem_of_getElem? hcall)
      refine hinv.setCall hcall rfl (.of_same rfl rfl rfl rfl) hbefore (.inl rfl) ?_
      intro p hp
      dsimp only at hp
      split at hp
      · rcases List.mem_cons.mp hp with rfl | hp
        · have hown := ownCheckpoint_checkpointOf (hinv.chain_own hcall hreads)
          exact .inr ⟨rfl, hown.mono (.of_same rfl rfl rfl rfl)⟩
        · exact .inl hp
      · exact .inl hp
  | reassign i =>
    obtain ⟨call, hcall, rfl⟩ := Option.map_eq_some_iff.mp hstep
    obtain ⟨hcall, -⟩ := callAt_eq_some hcall
    have hbefore := hinv.thoughts call (List.mem_of_getElem? hcall)
    exact hinv.setCall hcall rfl (.of_same rfl rfl rfl rfl) hbefore (.inr rfl) fun p hp => .inl hp
  | finish i =>
    obtain ⟨call, hcall, rfl⟩ := Option.map_eq_some_iff.mp hstep
    have hbefore := hinv.thoughts call (List.mem_of_getElem? hcall)
    exact hinv.setCall hcall rfl (.of_same rfl rfl rfl rfl) hbefore (.inl rfl) fun p hp => .inl hp

theorem EngineInv.start : EngineInv (engineSystem fallback).init where
  thoughts := fun call hcall => by cases hcall
  saved := fun p hp => by cases hp
  owned := fun c hc => by cases hc

/-- **Concurrent calls.** In every run in which a call reads `self.cot` only while an object that it
made itself is there, or one without nodes, the calls do not mix. -/
theorem separate_of_readsOwn {steps : List (EngineState × EngineEvent)}
    (run : (engineSystem fallback).Run steps s) (hreads : System.Meets ReadsOwn steps) :
    System.Always Separate steps s := by
  refine (run.always_of_meets EngineInv.start ?_ hreads).imp ?_
  · intro s e s' hinv hread hstep
    exact hinv.step e hread hstep
  · intro s hinv
    exact hinv.toSeparate

/-- A node of the analysis. -/
def analysisNode (response : String) : ThoughtNode :=
  ⟨1, "analyst", "Analyze the task", response, .analysis, 1⟩

/-- Two calls that take turns. The first one saves its checkpoint when the second one has just
started its second attempt, with an object that has no nodes yet. -/
def callsInTurns : List EngineEvent :=
  [.enter "a" "x", .enter "b" "y", .assign 0, .node 0 (analysisNode "A"), .readBack 0, .assign 1,
    .node 1 (analysisNode "B"), .readBack 1, .save 1 true, .reassign 1, .save 0 true,
    .node 2 (analysisNode "C"), .readBack 1, .reassign 0, .finish 1]

theorem separate_callsInTurns : ∃ steps s, (engineSystem false).Run steps s ∧
    s.calls.map (fun call => (call.taskId, call.thought.map fun step => step.summary.outputSummary)) =
      [("a", ["A"]), ("b", ["B", "C"])] ∧
    s.saved.map (fun p => (p.2.taskId, p.2.stepResults)) =
      [("a", []), ("b", [("analysis", "B")])] ∧
    System.Always Separate steps s := by
  let S := (engineSystem false).guard ReadsOwn
  have hend : (S.exec S.init callsInTurns).map (fun s =>
      (s.calls.map fun call => (call.taskId, call.thought.map fun step => step.summary.outputSummary),
        s.saved.map fun p => (p.2.taskId, p.2.stepResults))) =
      some ([("a", ["A"]), ("b", ["B", "C"])], [("a", []), ("b", [("analysis", "B")])]) := by
    decide +kernel
  obtain ⟨s, hs, heq⟩ := Option.map_eq_some_iff.mp hend
  obtain ⟨hthoughts, hsaved⟩ := Prod.mk.inj heq
  obtain ⟨steps, run⟩ := System.reachable_of_exec _ hs
  obtain ⟨run, hreads⟩ := run.of_guard
  exact ⟨steps, s, run, hthoughts, hsaved, separate_of_readsOwn run hreads⟩

/-- Two calls, the second of which puts its object into the attribute before the first one reads. -/
def crossedCalls : List EngineEvent :=
  [.enter "a" "x", .assign 0, .enter "b" "y", .assign 1, .node 0 (analysisNode "A"),
    .node 1 (analysisNode "B"), .readBack 0, .save 0 true]

/-- The first call gets the node of the second one. -/
theorem crossedCalls_mix : ∃ s, (engineSystem false).Reachable s ∧ ¬ Separate s := by
  refine ⟨_, System.reachable_of_exec crossedCalls rfl, ?_⟩
  intro h
  have hown := h.thoughts _ List.mem_cons_self _ List.mem_cons_self
  revert hown
  decide +kernel

end Runs

end Noema.Core
