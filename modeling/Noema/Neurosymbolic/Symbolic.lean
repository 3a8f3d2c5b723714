import Noema.Lib.PyInterp
import Noema.Lib.Regex
import Noema.Lib.Smt

/-!
# The symbolic engine (`neurosymbolic/symbolic.py`)

- `sanitizeVarName`, `candidateName`, `uniqueNames`: the names of the variables. What is not a
  letter, a digit or an underscore is replaced, and names that were given out get a number.
- `extractBounds`: the bounds that a requirement declares, in the fields `min` and `max` and in its
  texts. The regular expressions are those of the source, as patterns of `Lib.RegexMatch`, and
  `re.search` takes the first match.
- `parseTask`: the task graph, with one shared dict of variables, in which a constraint overwrites a
  requirement of the same name. Entries that do not parse are skipped with a warning, and the number
  of entries is limited.
- `verifySolution`: the check of a candidate, in `PyM Engine`. Each entry about a variable is
  checked on its own, together with the requirements: `push`, the equation, `check`, `pop`. The
  solver that it takes from the pool is the state of `checkSolution`.

The character data of the interpreter (`Unicode`), the floats (`PyInterp`) and z3 (`Z3`) are
parameters. What is used of z3 is that `check` answers `unsat` only for assertions that cannot be
met. The description, the priority and the metadata of a graph are left out, nothing reads them.
-/

namespace Noema.Neurosymbolic

open Noema.Lib PyJson Smt

/-! ## What the engine uses of z3 -/

/-- What z3 reads in a Python float, and its `check`. A float is read at the value of the
literal it prints as, so the order of what is read is the order of the floats. -/
structure Z3 (F : Type) [PyInterp F] extends Checker where
  numeral : F → Except PyExc ℚ
  le_of_numeral : ∀ {a b p q}, numeral a = .ok p → numeral b = .ok q → p ≤ q →
    PyInterp.le a b = true
  le_toInt : ∀ {a v p}, numeral a = .ok p → PyInterp.isInteger v = true →
    p ≤ PyInterp.toInt v → PyInterp.le a v = true
  toInt_le : ∀ {a v p}, numeral a = .ok p → PyInterp.isInteger v = true →
    PyInterp.toInt v ≤ p → PyInterp.le v a = true

/-- The outcome of importing z3: the package may be missing or not loadable
(`_z3_unavailable`), or fail in another way. -/
inductive Z3Import where
  | available
  | unavailable
  | broken (e : PyExc)

/-! ## Names -/

section Names

variable {F : Type} [PyBuiltins F]

/-- `[0-9a-zA-Z_]` -/
def identChar (c : Char) : Bool := c.isAlphanum || c == '_'

/-- `re.sub(r"_+", "_", …)`. -/
def squeezeUnderscores : List Char → List Char
  | [] => []
  | c :: cs =>
    if c = '_' ∧ (squeezeUnderscores cs).head? = some '_' then squeezeUnderscores cs
    else c :: squeezeUnderscores cs

/-- `text.strip("_")`. -/
def stripUnderscores (text : List Char) : List Char :=
  ((text.dropWhile (· == '_')).reverse.dropWhile (· == '_')).reverse

/-- `_sanitize_var_name` (symbolic.py:54). -/
def sanitizeVarName (name : PyVal F) (fallback : String) : String :=
  let text := strip name.toStr.toList
  if text = [] then fallback
  else
    let safe := text.map fun c => if identChar c then c else '_'
    let safe := stripUnderscores (squeezeUnderscores safe)
    let safe := if (safe.head?.map Char.isDigit).getD true then 'v' :: '_' :: safe else safe
    if safe = [] then fallback else String.ofList safe

/-- The first `k`, from a given one on, for which `name_k` is not a key. The code searches
without a limit; one more step than there are keys is always enough
(`freshIndex_not_mem`). -/
def freshIndex (keys : List String) (name : String) : Nat → Nat → Nat
  | 0, k => k
  | fuel + 1, k => if name ++ "_" ++ toString k ∈ keys then freshIndex keys name fuel (k + 1) else k

/-- The loop of `_unique_names`; `seen` maps the names given out to the last number that
was appended to them. -/
def uniqueNamesLoop (seen : List (String × Nat)) : List String → List String
  | [] => []
  | name :: names =>
    match seen.lookup name with
    | none => name :: uniqueNamesLoop (dictInsert name 0 seen) names
    | some n =>
      let k := freshIndex (seen.map Prod.fst) name (seen.length + 1) (n + 1)
      let candidate := name ++ "_" ++ toString k
      candidate :: uniqueNamesLoop (dictInsert candidate 0 (dictInsert name k seen)) names

/-- `_unique_names` (symbolic.py:111). -/
def uniqueNames (names : List String) : List String := uniqueNamesLoop [] names

end Names

section Tasks

variable {F : Type} [PyInterp F]

/-- An entry of a list of the task: a plain value, or a pydantic model with the dict its
`model_dump()` returns. -/
inductive Item (F : Type) where
  | val (v : PyVal F)
  | model (dump : List (String × PyVal F))

/-- The dict of an entry. -/
def Item.asDict? : Item F → Option (List (String × PyVal F))
  | .val (.dict d) => some d
  | .model d => some d
  | .val _ => none

/-- `type(item).__name__`. -/
def Item.typeName : Item F → String
  | .val v => v.typeName
  | .model _ => "BaseModel"

/-- `_candidate_name` (symbolic.py:90). -/
def candidateName (req : Item F) (index : Nat) : String :=
  match req.asDict? with
  | none => "req_" ++ toString index
  | some d => (((dictGet d "name").pyOr (dictGet d "category")).pyOr (.str "")).toStr

/-- The list comprehensions of `parse_task` over `_unique_names`. -/
def itemNames (fallback : String) (items : List (Item F)) : List String :=
  uniqueNames (items.zipIdx.map fun (item, i) =>
    sanitizeVarName (.str (candidateName item i) : PyVal F) (fallback ++ toString i))

/-! ## Bounds -/

/-- `_BOUND_TEXT_KEYS`. -/
def boundTextKeys : List String :=
  ["constraints", "description", "requirement", "text", "condition", "rule", "statement"]

/-- `_bound_text_parts` (symbolic.py:184). -/
def boundTextParts (req : List (String × PyVal F)) : List String :=
  boundTextKeys.flatMap fun key =>
    match dictGet req key with
    | .str s => if s = "" then [] else [s]
    | .list xs => xs.map PyVal.toStr
    | _ => []

/-- The direction of a bound phrase. -/
inductive BoundKind where
  | lower
  | upper
  | exact
  deriving DecidableEq, Repr

section Patterns

variable (u : Unicode)

/-- `\s+` -/
def spaces : Pat := .many1 isSpace

/-- `[-+]?` -/
def signPat : Pat := .opt (.one fun c => c == '-' || c == '+')

/-- `([-+]?[\d.]+)` -/
def roughNumber : Pat := .group (.seq signPat (.many1 fun c => u.isDecimal c || c == '.'))

/-- `([-+]?\d+(?:\.\d+)?)\s*([a-zµ]*)` -/
def amount : Pat :=
  .cat [
    .group (.cat [signPat, .many1 u.isDecimal, .opt (.seq (.lit ".") (.many1 u.isDecimal))]),
    .many isSpace,
    .group (.many fun c => ('a' ≤ c && c ≤ 'z') || c == 'µ')]

/-- `in\s*[\[\(]\s*([-+]?[\d.]+)\s*,\s*([-+]?[\d.]+)\s*[\]\)]` -/
def inPattern : Pat :=
  .cat [.lit "in", .many isSpace, .one fun c => c == '[' || c == '(', .many isSpace,
    roughNumber u, .many isSpace, .lit ",", .many isSpace, roughNumber u, .many isSpace,
    .one fun c => c == ']' || c == ')']

/-- `between\s+([-+]?[\d.]+)\s+and\s+([-+]?[\d.]+)` -/
def betweenPattern : Pat :=
  .cat [.lit "between", spaces, roughNumber u, spaces, .lit "and", spaces, roughNumber u]

/-- `>=\s*([-+]?[\d.]+)`, and the same with `<=`. -/
def operatorPattern (op : String) : Pat := .cat [.lit op, .many isSpace, roughNumber u]

/-- `\bmin\s*[:=]?\s*([-+]?[\d.]+)`, and the same with `max`. -/
def fieldPattern (field : String) : Pat :=
  .cat [.boundary, .lit field, .many isSpace, .opt (.one fun c => c == ':' || c == '='),
    .many isSpace, roughNumber u]

/-- A phrase, `\s+` and the amount. -/
def phrase (r : Pat) : Pat := .cat [r, spaces, amount u]

/-- `_BOUND_PATTERNS`. -/
def boundPatterns : List (Pat × BoundKind) :=
  [(phrase u (.words ["no", "less", "than"]), .lower),
    (phrase u (.words ["no", "more", "than"]), .upper),
    (phrase u (.cat [.words ["must", "stay"], spaces, .alt (.lit "below") (.lit "under")]), .upper),
    (phrase u (.cat [.words ["must", "stay"], spaces, .alt (.lit "above") (.lit "over")]), .lower),
    (phrase u (.words ["must", "not", "exceed"]), .upper),
    (phrase u (.words ["must", "not", "go", "above"]), .upper),
    (phrase u (.words ["greater", "than", "or", "equal", "to"]), .lower),
    (phrase u (.words ["less", "than", "or", "equal", "to"]), .upper),
    (phrase u (.words ["at", "least"]), .lower),
    (phrase u (.words ["at", "most"]), .upper),
    (phrase u (.seq (.lit "minimum") (.opt (.lit "ly"))), .lower),
    (phrase u (.seq (.lit "maximum") (.opt (.lit "ly"))), .upper),
    (phrase u (.words ["up", "to"]), .upper),
    (phrase u (.lit "exactly"), .exact),
    (phrase u (.cat [.boundary, .lit "exceed", .opt (.lit "s")]), .upper),
    (phrase u (.seq .boundary (.lit "below")), .upper),
    (phrase u (.seq .boundary (.lit "above")), .lower)]

end Patterns

/-- `_to_num` (symbolic.py:67). -/
def toNum : PyVal F → Except PyExc (Option F)
  | .bool _ => .ok none
  | .int i => (PyInterp.ofInt i).map some
  | .float f => .ok (some f)
  | .str s => .ok (PyInterp.ofStr (strip s.toList))
  | _ => .ok none

/-- `_unit_scale` (symbolic.py:174). -/
def unitScale (u : Unicode) (suffix : List Char) : F :=
  let unit := String.ofList (u.lower (strip suffix))
  if unit ∈ ["ms", "millisecond", "milliseconds"] then PyFloat.ofText "0.001".toList
  else if unit ∈ ["us", "µs", "microsecond", "microseconds"] then PyFloat.ofText "1e-6".toList
  else PyFloat.ofText "1.0".toList

/-- The bounds found so far. -/
structure Bounds (F : Type) where
  lower : Option F
  upper : Option F
  deriving DecidableEq

/-- `lower = lo if lower is None else max(lower, lo)`. -/
def Bounds.raiseLower (b : Bounds F) (lo : F) : Bounds F :=
  { b with lower := some (b.lower.elim lo (pyMax · lo)) }

/-- `upper = hi if upper is None else min(upper, hi)`. -/
def Bounds.cutUpper (b : Bounds F) (hi : F) : Bounds F :=
  { b with upper := some (b.upper.elim hi (pyMin · hi)) }

/-- The update by one match of a bound phrase. -/
def Bounds.narrow (b : Bounds F) (value : F) : BoundKind → Bounds F
  | .lower => b.raiseLower value
  | .upper => b.cutUpper value
  | .exact => (b.raiseLower value).cutUpper value

section Extract

variable (u : Unicode)

/-- `match = re.search(…)` with two numbers: an interval. -/
def intervalStep (r : Pat) (lowered : List Char) (b : Bounds F) : Except PyExc (Bounds F) :=
  match r.search u lowered with
  | some (lo :: hi :: _) => do
    let lo ← toFloat lo
    let hi ← toFloat hi
    return (b.raiseLower lo).cutUpper hi
  | _ => .ok b

/-- `match = re.search(…)` with one number. -/
def boundStep (r : Pat) (kind : BoundKind) (lowered : List Char) (b : Bounds F) :
    Except PyExc (Bounds F) :=
  match r.search u lowered with
  | some (value :: _) => do
    let value ← toFloat value
    return b.narrow value kind
  | _ => .ok b

/-- The body of the loop over `_BOUND_PATTERNS`. -/
def phraseStep (lowered : List Char) (b : Bounds F) : Pat × BoundKind → Except PyExc (Bounds F)
  | (r, kind) =>
    match r.search u lowered with
    | some (value :: suffix :: _) => do
      let value ← toFloat value
      return b.narrow (PyInterp.mul value (unitScale u suffix)) kind
    | _ => .ok b

/-- The body of the loop over the texts. -/
def textStep (b : Bounds F) (text : String) : Except PyExc (Bounds F) := do
  let lowered := u.lower text.toList
  let b ← intervalStep u (inPattern u) lowered b
  let b ← intervalStep u (betweenPattern u) lowered b
  let b ← boundStep u (operatorPattern u ">=") .lower lowered b
  let b ← boundStep u (operatorPattern u "<=") .upper lowered b
  let b ← boundStep u (fieldPattern u "min") .lower lowered b
  let b ← boundStep u (fieldPattern u "max") .upper lowered b
  (boundPatterns u).foldlM (phraseStep u lowered) b

/-- `_extract_bounds` (symbolic.py:197). -/
def extractBounds (req : List (String × PyVal F)) : Except PyExc (Bounds F) := do
  let lower ← toNum (dictGet req "min")
  let upper ← toNum (dictGet req "max")
  (boundTextParts req).foldlM (textStep u) ⟨lower, upper⟩

end Extract

/-! ## Task graphs -/

/-- `Constraint` (symbolic.py:36). -/
structure Constraint where
  name : String
  expression : Expr
  var : Var
  deriving DecidableEq

/-- `TaskGraph` (symbolic.py:45). -/
structure TaskGraph (F : Type) where
  requirements : List Constraint
  constraints : List Constraint
  goals : PyVal F
  vars : List (String × Var)

/-- A field of the task: a list of entries, or another value. -/
inductive TaskField (F : Type) where
  | items (xs : List (Item F))
  | val (v : PyVal F)

/-- The fields of the task that `parse_task` reads, `none` where the key is missing. -/
structure StructuredTask (F : Type) where
  requirements : Option (TaskField F)
  constraints : Option (TaskField F)
  goals : Option (PyVal F)

/-- The entries of a field that is a list. -/
def TaskField.asList? : TaskField F → Option (List (Item F))
  | .items xs => some xs
  | .val (.list xs) => some (xs.map .val)
  | .val _ => none

/-- What a loop over the field visits. -/
def TaskField.iter : TaskField F → Except PyExc (List (Item F))
  | .items xs => .ok xs
  | .val (.list xs) => .ok (xs.map .val)
  | .val (.dict d) => .ok (d.map fun kv => .val (.str kv.1))
  | .val (.str s) => .ok (s.toList.map fun c => .val (.str (String.singleton c)))
  | .val v => .error (.typeError ("'" ++ v.typeName ++ "' object is not iterable"))

/-- `len(v)`. -/
def pyLen : PyVal F → Except PyExc Nat
  | .list xs => .ok xs.length
  | .dict d => .ok d.length
  | .str s => .ok s.length
  | v => .error (.typeError ("object of type '" ++ v.typeName ++ "' has no len()"))

/-- `_validate_task_structure` (symbolic.py:524); returns the requirements. -/
def validateTaskStructure (task : StructuredTask F) : Except PyExc (List (Item F)) :=
  match task.requirements with
  | none => .error (.valueError "Missing required field: requirements")
  | some field =>
    match field.asList? with
    | none => .error (.valueError "requirements must be a list")
    | some reqs => .ok reqs

section Parse

variable (u : Unicode) (z3 : Z3 F) (imp : Z3Import)

/-- `[make(bound)] if bound is not None else []`. -/
def clause (make : ℚ → Atom) : Option F → Except PyExc (List Atom)
  | none => .ok []
  | some f => (z3.numeral f).map fun q => [make q]

/-- The sort that holds the bounds: `Real` when one of them is fractional. -/
def boundSort (b : Bounds F) : Srt :=
  if (b.lower.toList ++ b.upper.toList).any fun v => !PyInterp.isInteger v then .real else .int

/-- The body of `_parse_requirement`, with the exceptions that it catches. -/
def parseNumeric (req : Item F) (name : String) : Except PyExc (Option Constraint) := do
  let d ← match req.asDict? with
    | some d => .ok d
    | none => .error (.typeError ("requirement must be a dict, got " ++ req.typeName))
  let name := if name = "" then
    sanitizeVarName ((dictGet d "name").pyOr (dictGet d "category")) "req" else name
  match (d.lookup "type").getD (.str "numeric") with
  | .str "numeric" =>
    let b ← extractBounds u d
    -- a requirement without bounds is no constraint
    if b.lower.isNone && b.upper.isNone then return none
    let var : Var := ⟨name, boundSort b⟩
    let lower ← clause z3 (.ge var) b.lower
    let upper ← clause z3 (.le var) b.upper
    return some ⟨name, .and (lower ++ upper), var⟩
  | _ => return none

/-- `_parse_requirement` (symbolic.py:534). -/
def parseRequirement (req : Item F) (name : String) : Except PyExc (Option Constraint) :=
  match imp with
  | .unavailable => .ok none
  | .broken e => .error e
  | .available =>
    match parseNumeric u z3 req name with
    | .ok c => .ok c
    | .error _ => .ok none

/-- `_parse_constraint` (symbolic.py:586). -/
def parseConstraint (const : Item F) (name : String) : Except PyExc (Option Constraint) :=
  match imp, const.asDict? with
  | .available, some d =>
    let name := if name = "" then
      sanitizeVarName ((dictGet d "name").pyOr (dictGet d "category")) "constraint" else name
    .ok (some ⟨name, .atom (.isTrue ⟨name, .bool⟩), ⟨name, .bool⟩⟩)
  | _, _ => .ok none

/-- The loops of `parse_task`: the constraints parsed so far and the dict of variables. -/
def collect (parse : Item F → String → Except PyExc (Option Constraint)) (maxConstraints : Int) :
    List (Item F × String) → List Constraint × List (String × Var) →
      Except PyExc (List Constraint × List (String × Var))
  | [], acc => .ok acc
  | (item, name) :: rest, (cs, vars) =>
    if maxConstraints ≤ cs.length then .ok (cs, vars)
    else do
      match ← parse item name with
      | none => collect parse maxConstraints rest (cs, vars)
      | some c => collect parse maxConstraints rest (cs ++ [c], dictInsert c.name c.var vars)

/-- `parse_task` (symbolic.py:347). -/
def parseTask (maxConstraints : Int) (task : StructuredTask F) : Except PyExc (TaskGraph F) := do
  let reqs ← validateTaskStructure task
  let (requirements, vars) ←
    collect (parseRequirement u z3 imp) maxConstraints (reqs.zip (itemNames "req_" reqs)) ([], [])
  let consts ← (task.constraints.getD (.items [])).iter
  let (constraints, vars) ←
    collect (parseConstraint imp) maxConstraints (consts.zip (itemNames "constraint_" consts))
      ([], vars)
  let goals := task.goals.getD (.list [])
  let _ ← pyLen goals
  return ⟨requirements, constraints, goals, vars⟩

end Parse

/-! ## Verification -/

/-- The literals a value is coerced to. -/
inductive Literal (F : Type) where
  | bool (b : Bool)
  | int (i : Int)
  | num (f : F)
  deriving DecidableEq

/-- `_coerce_value` (symbolic.py:253). -/
def coerceValue (u : Unicode) (var : Var) (value : PyVal F) : Except PyExc (Option (Literal F)) :=
  match var.sort with
  | .bool =>
    match value with
    | .bool b => .ok (some (.bool b))
    | .int i => .ok (some (.bool (i != 0)))
    | .float f => .ok (some (.bool (PyBuiltins.floatTruthy f)))
    | .str s =>
      let low := String.ofList (u.lower (strip s.toList))
      if low ∈ ["true", "1", "yes", "on"] then .ok (some (.bool true))
      else if low ∈ ["false", "0", "no", "off"] then .ok (some (.bool false))
      else .ok none
    | _ => .ok none
  -- a number that is not integral has no `Int` value
  | .int => do
    match ← toNum value with
    | some num =>
      return if PyInterp.isInteger num then some (.int (PyInterp.toInt num)) else none
    | none => return none
  | .real => do
    match ← toNum value with
    | some num => return some (.num num)
    | none => return none

/-- `var == coerced`. -/
def equation (z3 : Z3 F) (var : Var) : Literal F → Except PyExc Expr
  | .bool b => .ok (.atom (.eqBool var b))
  | .int i => .ok (.atom (.eqNum var i))
  | .num f => (z3.numeral f).map fun q => .atom (.eqNum var q)

/-- `push()`, the body and, in `finally`, `pop()`. -/
def pushPop {α : Type} (body : PyM Solver α) : PyM Solver α := fun s =>
  match body s.push with
  | (result, s) => (result, s.pop)

/-- `solver.check()`. -/
def check (z3 : Z3 F) : PyM Solver Answer := fun s => (.ok (z3.check s.assertions), s)

/-- A verdict: whether the solution is valid, and the violations. -/
abbrev Verdict := Bool × List String

/-- A solution: a dict, so its keys are distinct. -/
structure Solution (F : Type) where
  items : List (String × PyVal F)
  nodup : (items.map Prod.fst).Nodup

section Verify

variable (u : Unicode) (z3 : Z3 F)

/-- The check of `var == coerced` together with the assertions. -/
def checkEquation (var : Var) (coerced : Literal F) : PyM Solver Answer :=
  pushPop do
    let e ← PyM.lift (equation z3 var coerced)
    PyM.modify (·.add e)
    check z3

/-- The loop of `_check_solution`: the verdict it returns with, or the number of the entries
that were checked. -/
def checkEntries (vars : List (String × Var)) :
    List (String × PyVal F) → Nat → PyM Solver (Verdict ⊕ Nat)
  | [], checked => return .inr checked
  | (name, value) :: rest, checked =>
    match vars.lookup name with
    -- a name without a variable is skipped
    | none => checkEntries vars rest checked
    | some var => do
      match ← PyM.lift (coerceValue u var value) with
      | none =>
        return .inl (false,
          ["requirement_" ++ name ++ "_uncheckable_value: value=" ++ PyInterp.reprOf value])
      | some coerced =>
        let answer ← checkEquation z3 var coerced
        if answer = .unsat then
          return .inl (false, ["requirement_" ++ name ++ "_violated: value=" ++ value.toStr])
        else checkEntries vars rest (checked + 1)

/-- `_check_solution` (symbolic.py:478). -/
def checkSolution (solution : Solution F) (graph : TaskGraph F) : PyM Solver Verdict := do
  let answer ← pushPop (check z3)
  if answer = .unsat then return (false, ["constraints_unsatisfiable"])
  else
    match ← checkEntries u z3 graph.vars solution.items 0 with
    | .inl verdict => return verdict
    | .inr checked =>
      if checked = 0 ∧ solution.items ≠ [] then return (false, ["no_solution_variable_matched"])
      else return (true, [])

/-- `SymbolicEngine`: its limit, the solvers in the pool and its two flags. -/
structure Engine where
  maxConstraints : Int
  solverPool : List Solver
  initialized : Bool
  degraded : Bool

/-- `SymbolicEngine(...)`. -/
def Engine.new (maxConstraints : Int) : Engine := ⟨maxConstraints, [], false, false⟩

/-- `initialize` (symbolic.py:313). -/
def initializeEngine (imp : Z3Import) : PyM Engine Unit := do
  let engine ← PyM.get
  if engine.initialized then return ()
  else
    match imp with
    | .broken e => PyM.raise e
    | .unavailable => PyM.modify fun e => { e with degraded := true, initialized := true }
    | .available => PyM.modify fun e =>
        { e with
          solverPool := e.solverPool ++ List.replicate 10 ⟨[], []⟩
          degraded := false
          initialized := true }

/-- The waits of one call that run into their time limit. `_check_solution` never suspends,
so a time limit can only stop it before it starts. -/
structure Timeouts where
  pool : Bool
  verification : Bool

/-- `async with self._get_solver() as solver:` (symbolic.py:330). -/
def withSolver {α : Type} (timeouts : Timeouts) (body : PyM Solver α) : PyM Engine α := fun engine =>
  match engine.solverPool with
  | [] => (.error (.custom "SymbolicVerificationError" "Solver pool exhausted"), engine)
  | solver :: rest =>
    if timeouts.pool then
      (.error (.custom "SymbolicVerificationError" "Solver pool exhausted"), engine)
    else
      match body solver.reset with
      | (result, solver) => (result, { engine with solverPool := rest ++ [solver] })

/-- The body of the `async with` of `verify_solution`. -/
def verifyWith (timeouts : Timeouts) (solution : Solution F) (graph : TaskGraph F) :
    PyM Solver Verdict := do
  PyM.modify fun s => (graph.requirements.map Constraint.expression).foldl Solver.add s
  if graph.requirements.isEmpty && graph.constraints.isEmpty then return (true, [])
  else if timeouts.verification then return (false, ["verification_timeout"])
  else checkSolution u z3 solution graph

/-- `verify_solution` (symbolic.py:426). -/
def verifySolution (timeouts : Timeouts) (solution : Solution F) :
    Option (TaskGraph F) → PyM Engine Verdict
  | none => return (false, ["task_graph_not_initialized"])
  | some graph => do
    let engine ← PyM.get
    if engine.degraded then return (false, ["symbolic_engine_unavailable_z3_not_installed"])
    else
      PyM.tryCatch (withSolver timeouts (verifyWith u z3 timeouts solution graph)) fun
        | .custom "SymbolicVerificationError" msg =>
          PyM.raise (.custom "SymbolicVerificationError" msg)
        | e => return (false, ["verification_error: " ++ e.msg])

end Verify

end Tasks

end Noema.Neurosymbolic
