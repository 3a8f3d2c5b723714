import Noema.Lib.DepthFirst
import Noema.Lib.PyNumber

/-!
# The ontology graph (`ontology/graph.py`)

An `OntologyGraph` keeps its entities in a dict by name, its relations in a list, and for each name
the indices of the relations that start or end there. Calls that change a graph are computations on
it that may raise `OntologyError`; a `KeyError` or an `IndexError` is modelled where a table is
read, and that none of them is ever raised is proved with the representation (`GraphRuns`).

- `cleanName`: names are stripped, and blank ones refused. A relation is stored under the names of
  its entities, stripped too.
- `addEntity`, `addRelation`: with the caps of the graph, and the search for the triple among the
  relations of the subject.
- `hasCycle`: the loop of the source has no bound. The model gives it `searchTurns` turns, which are
  always enough (`Cycle`).
- `getSubgraph`: rounds of two loops over the nodes that were reached, the first of which collects
  neighbours, and the second one relations.

The order in which Python goes through a set is arbitrary; `SetOrder` is one such order for each of
the rounds of `getSubgraph`, and results about it hold for every order.
-/

namespace Noema.Ontology

open Noema.Lib PyJson

/-- `Entity` (graph.py:42). -/
structure Entity where
  name : String
  type : String
  attributes : List (String × String) := []
  deriving DecidableEq, Repr

/-- `Relation` (graph.py:49). The weight of a relation in a graph is a float. -/
structure Relation (F : Type) where
  subject : String
  predicate : String
  object : String
  weight : PyVal F
  metadata : List (String × String) := []

/-- `OntologyError(msg)`. -/
def ontologyError (msg : String) : PyExc := .custom "OntologyError" msg

/-- `text.strip()`. -/
def stripText (text : String) : String := String.ofList (strip text.toList)

/-- `index.setdefault(name, []).append(idx)`. -/
def appendIndex (name : String) (idx : Nat) (index : List (String × List Nat)) :
    List (String × List Nat) :=
  dictInsert name ((index.lookup name).getD [] ++ [idx]) index

/-- `OntologyGraph` (graph.py:66). -/
structure OntologyGraph (F : Type) where
  maxEntities : Int := 10000
  maxRelations : Int := 50000
  entities : List (String × Entity) := []
  relations : List (Relation F) := []
  bySubject : List (String × List Nat) := []
  byObject : List (String × List Nat) := []

/-- The orders in which a set is iterated, one for each round. -/
structure SetOrder where
  order : Nat → List String → List String
  perm : ∀ round names, (order round names).Perm names

/-- The order of insertion. -/
def SetOrder.insertion : SetOrder := ⟨fun _ names => names, fun _ _ => .refl _⟩

/-- `s.add(name)`. -/
def setAdd (name : String) (s : List String) : List String := if name ∈ s then s else s ++ [name]

variable {F : Type}

section Names

variable (F) [PyInterp F]

/-- `_clean_name` (graph.py:57). -/
def cleanName (name : String) : Except PyExc String :=
  let cleaned := strip name.toList
  if cleaned = [] then .error (ontologyError "Entity/relation names must not be empty")
  else if cleaned.any fun c => c.toNat < 32 then
    .error (ontologyError ("Control characters are not allowed in names: " ++
      PyInterp.reprOf (.str name : PyVal F)))
  else .ok (String.ofList cleaned)

/-- `d[key]`. -/
def pyKey {α : Type} (d : List (String × α)) (key : String) : Except PyExc α :=
  match d.lookup key with
  | some v => .ok v
  | none => .error (.keyError (PyInterp.reprOf (.str key : PyVal F)))

end Names

namespace OntologyGraph

variable (g : OntologyGraph F)

/-- `self._by_subject.get(name, ())`. -/
def subjectIndices (name : String) : List Nat := (g.bySubject.lookup name).getD []

/-- `self._by_object.get(name, ())`. -/
def objectIndices (name : String) : List Nat := (g.byObject.lookup name).getD []

/-- The names of the entities. -/
def names : List String := g.entities.map Prod.fst

/-! ## Mutation -/

/-- `self._entities[name] = entity`. -/
def setEntity (name : String) (entity : Entity) : OntologyGraph F :=
  { g with entities := dictInsert name entity g.entities }

/-- A relation that is added at the end of the list, and its index in the two tables. -/
def appendRelation (r : Relation F) : OntologyGraph F :=
  { g with
    relations := g.relations ++ [r]
    bySubject := appendIndex r.subject g.relations.length g.bySubject
    byObject := appendIndex r.object g.relations.length g.byObject }

/-- The loop of `add_relation` over the relations of the subject. -/
def hasTriple (predicate object : String) : List Nat → Except PyExc Bool
  | [] => .ok false
  | idx :: rest => do
    let existing ← pyIndex g.relations idx
    if existing.predicate = predicate ∧ existing.object = object then .ok true
    else hasTriple predicate object rest

section Calls

variable [PyInterp F]

/-- `add_entity` (graph.py:90). -/
def addEntity (entity : Entity) : PyM (OntologyGraph F) Unit := do
  let name ← PyM.lift (cleanName F entity.name)
  let g ← PyM.get
  if name ∉ g.names ∧ g.maxEntities ≤ g.entities.length then
    PyM.raise (ontologyError ("Entity cap reached (" ++ toString g.maxEntities ++
      "); refusing to grow unbounded"))
  else
    PyM.modify fun g => g.setEntity name
      { name := name
        type := stripText (if entity.type = "" then "unknown" else entity.type)
        attributes := entity.attributes }

/-- `add_relation` (graph.py:101). -/
def addRelation (relation : Relation F) : PyM (OntologyGraph F) Unit := do
  let subject ← PyM.lift (cleanName F relation.subject)
  let object ← PyM.lift (cleanName F relation.object)
  let g ← PyM.get
  if subject ∉ g.names then
    PyM.raise (ontologyError ("Unknown subject entity: " ++
      PyInterp.reprOf (.str subject : PyVal F)))
  else if object ∉ g.names then
    PyM.raise (ontologyError ("Unknown object entity: " ++
      PyInterp.reprOf (.str object : PyVal F)))
  else
    let predicate := stripText relation.predicate
    if predicate = "" then PyM.raise (ontologyError "Relation predicate must not be empty")
    else
      let known ← PyM.lift (g.hasTriple predicate object (g.subjectIndices subject))
      if known then pure ()
      else if g.maxRelations ≤ g.relations.length then
        PyM.raise (ontologyError ("Relation cap reached (" ++ toString g.maxRelations ++
          "); refusing to grow unbounded"))
      else
        -- `float(...)` may raise, before anything is appended.
        let weight ← PyM.lift relation.weight.pyFloat
        PyM.modify fun g => g.appendRelation
          { subject := subject
            predicate := predicate
            object := object
            weight := .float weight
            metadata := relation.metadata }

/-! ## Queries -/

/-- `get_entity` (graph.py:142). -/
def getEntity (name : String) : Except PyExc (Option Entity) := do
  let name ← cleanName F name
  .ok (g.entities.lookup name)

/-- `entities()` (graph.py:145), of every type. -/
def sortedEntities : List Entity := sortedBy Entity.name (g.entities.map Prod.snd)

/-! ### The search for a cycle -/

/-- The inner loop of `has_cycle` over the relations of the popped node. -/
def pushTargets (color : List (String × Color)) :
    List Nat → List (String × Bool) → Except PyExc (List (String × Bool))
  | [], stack => .ok stack
  | idx :: rest, stack => do
    let relation ← pyIndex g.relations idx
    let c ← pyKey F color relation.object
    pushTargets color rest
      (if c = .white ∨ c = .gray then (relation.object, false) :: stack else stack)

/-- The loop of `has_cycle` over the stack; `none` when it finds a cycle. The code loops without a
bound; `searchTurns` are always enough (`Rep.search_ends`). -/
def search : Nat → List (String × Color) → List (String × Bool) →
    Except PyExc (Option (List (String × Color)))
  | _, color, [] => .ok (some color)
  | 0, _, _ :: _ => .error (.runtimeError "the search takes more turns")
  | turns + 1, color, (node, true) :: stack => search turns (dictInsert node .black color) stack
  | turns + 1, color, (node, false) :: stack => do
    let c ← pyKey F color node
    if c = .gray then .ok none
    else
      let color := dictInsert node .gray color
      let stack ← g.pushTargets color (g.subjectIndices node) ((node, true) :: stack)
      search turns color stack

/-- A bound on the turns of one search. -/
def searchTurns : Nat := 2 * (g.entities.length * g.relations.length + 1)

/-- The loop of `has_cycle` over the nodes to start from. -/
def searchFrom : List String → List (String × Color) → Except PyExc Bool
  | [], _ => .ok false
  | start :: starts, color => do
    let c ← pyKey F color start
    if c ≠ .white then searchFrom starts color
    else
      match ← g.search g.searchTurns color [(start, false)] with
      | none => .ok true
      | some color => searchFrom starts color

/-- `has_cycle` (graph.py:217). -/
def hasCycle : Except PyExc Bool := g.searchFrom g.names (g.names.map fun name => (name, .white))

/-! ### Subgraphs -/

/-- Copy an entity of the graph into the subgraph, unless it was reached before. -/
def copyTarget (reached : List String) (name : String) : PyM (OntologyGraph F) Unit :=
  match g.entities.lookup name with
  | some target =>
    if target.name ∉ reached then PyM.modify fun sub => sub.setEntity target.name target
    else pure ()
  | none => pure ()

/-- Look at one relation of a reached node: the entity at its other end is copied and is found for
the next round. -/
def followRelation (reached : List String) (endpoint : Relation F → String) (found : List String)
    (idx : Nat) : PyM (OntologyGraph F) (List String) := do
  let relation ← PyM.lift (pyIndex g.relations idx)
  g.copyTarget reached (endpoint relation)
  pure (setAdd (endpoint relation) found)

/-- The relations of one reached node, those that start there first. -/
def followNode (reached found : List String) (node : String) :
    PyM (OntologyGraph F) (List String) := do
  let found ← (g.subjectIndices node).foldlM (g.followRelation reached Relation.object) found
  (g.objectIndices node).foldlM (g.followRelation reached Relation.subject) found

/-- Copy the relations of a reached node into the subgraph. -/
def copyRelations : List Nat → PyM (OntologyGraph F) Unit
  | [] => pure ()
  | idx :: rest => do
    let relation ← PyM.lift (pyIndex g.relations idx)
    addRelation relation
    copyRelations rest

/-- The second loop of a round. -/
def copyNodes : List String → PyM (OntologyGraph F) Unit
  | [] => pure ()
  | node :: nodes => do
    g.copyRelations (g.subjectIndices node ++ g.objectIndices node)
    copyNodes nodes

/-- The rounds of `get_subgraph`, numbered from `round` on. -/
def expandRounds (orders : SetOrder) : Nat → Nat → List String → PyM (OntologyGraph F) Unit
  | 0, _, _ => pure ()
  | rounds + 1, round, reached => do
    let nodes := orders.order round reached
    let found ← nodes.foldlM (g.followNode reached) []
    g.copyNodes nodes
    expandRounds orders rounds (round + 1) (found.foldl (fun s name => setAdd name s) reached)

/-- The loop of `get_subgraph` over the roots. -/
def addRoots : List String → List String → PyM (OntologyGraph F) (List String)
  | [], reached => pure reached
  | name :: names, reached => do
    match ← PyM.lift (g.getEntity name) with
    | none => addRoots names reached
    | some entity => do
      PyM.modify fun sub => sub.setEntity entity.name entity
      addRoots names (setAdd entity.name reached)

/-- The body of `get_subgraph`, which fills the subgraph. -/
def fillSubgraph (roots : List String) (depth maxDepth : Int) (orders : SetOrder) :
    PyM (OntologyGraph F) Unit := do
  let reached ← g.addRoots roots []
  if reached = [] then pure ()
  else g.expandRounds orders (max 1 (min depth maxDepth)).toNat 0 reached

/-- `get_subgraph` (graph.py:240). -/
def getSubgraph (roots : List String) (depth maxDepth : Int) (orders : SetOrder) :
    Except PyExc (OntologyGraph F) :=
  let sub : OntologyGraph F := { maxEntities := g.maxEntities, maxRelations := g.maxRelations }
  match g.fillSubgraph roots depth maxDepth orders sub with
  | (.ok (), sub) => .ok sub
  | (.error e, _) => .error e

end Calls

end OntologyGraph

end Noema.Ontology
