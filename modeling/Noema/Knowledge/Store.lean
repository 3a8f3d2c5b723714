import Noema.Lib.FirstByKey
import Noema.Lib.PyNumber
import Noema.Lib.System
import Noema.Utils.JsonFiles

/-!
# The knowledge store (`knowledge/store.py`)

A store starts with the built-in entries and patterns, whose ids are new in every process. It writes
its entries to a file, but for those with embeddings, and all its patterns. Loading adds what a
fresh store does not know, comparing entries by title and content (`KnowledgeEntry.key`) and
patterns by name.

A process is a run of `knowledge`, whose calls go through pydantic: `Valid` says that the types and
bounds of the fields have been checked, which is what makes an entry come back from its dump
(`entryOf_dump`, `patternOf_dump`).

- `load_persist`: what a fresh store knows after loading the file of another one.
- `Additions`, `restart_additions`: what the first restart adds to the built-in knowledge;
  `restart_extended` says that every further one adds the same again.
- **`restarts_keep`**: a restart keeps the entries without embeddings and the patterns, and the
  restarts after it change nothing but the ids of what is built in.
- `embedded_entry_lost`: an entry with embeddings does not survive one restart.

The search in a store and its statistics read what is there and change nothing; they are not
modelled.
-/

namespace Noema.Knowledge

open Noema.Lib Noema.Utils PyJson

/-! ## Entries and patterns -/

/-- What pydantic does with values that are not of the type of their field, and with times. -/
class Pydantic (F : Type) (D : outParam Type) extends PyInterp F where
  isoformat : D → String
  datetimeOf : PyVal F → Except PyExc D
  /-- A time is read back from its text. -/
  datetimeOf_isoformat : ∀ d, datetimeOf (.str (isoformat d)) = .ok d
  floatOf : PyVal F → Except PyExc F
  intOf : PyVal F → Except PyExc Int

/-- `KnowledgeEntry`. -/
structure KnowledgeEntry (F D : Type) where
  id : String
  category : String
  title : String
  content : String
  tags : List String := []
  embeddings : List F := []
  weight : F
  source : String := ""
  createdAt : D

/-- `Pattern`. -/
structure Pattern (F : Type) where
  id : String
  name : String
  category : String
  description : String
  template : List (String × PyVal F) := []
  applicableStacks : List String := []
  successRate : F
  usageCount : Int := 0

/-- What `load` compares entries by. -/
def KnowledgeEntry.key {F D : Type} (e : KnowledgeEntry F D) : String × String := (e.title, e.content)

section Models

variable {F D : Type} [Pydantic F D]

/-- `1.0`. -/
def oneFloat : F := PyFloat.ofText ['1', '.', '0']

/-- `Field(ge=0.0, le=1.0)`. -/
def fits (w : F) : Bool := !PyInterp.lt w zeroFloat && !PyInterp.lt oneFloat w

/-- `min(max(w, 0.0), 1.0)`. -/
def clamp (w : F) : F :=
  let atLeast := if PyInterp.lt w zeroFloat then zeroFloat else w
  if PyInterp.lt oneFloat atLeast then oneFloat else atLeast

/-- `0.5`. -/
def half : F := PyFloat.ofText ['0', '.', '5']

/-- `e.model_dump(mode="json")`. -/
def KnowledgeEntry.dump (e : KnowledgeEntry F D) : List (String × PyVal F) :=
  [("id", .str e.id), ("category", .str e.category), ("title", .str e.title),
    ("content", .str e.content), ("tags", .list (e.tags.map .str)),
    ("embeddings", .list (e.embeddings.map .float)), ("weight", .float e.weight),
    ("source", .str e.source), ("created_at", .str (Pydantic.isoformat F e.createdAt))]

omit [Pydantic F D] in
/-- `p.model_dump(mode="json")`. -/
def Pattern.dump (p : Pattern F) : List (String × PyVal F) :=
  [("id", .str p.id), ("name", .str p.name), ("category", .str p.category),
    ("description", .str p.description), ("template", .dict p.template),
    ("applicable_stacks", .list (p.applicableStacks.map .str)),
    ("success_rate", .float p.successRate), ("usage_count", .int p.usageCount)]

/-- A `ValidationError`. -/
def invalid (field : String) : PyExc := .custom "ValidationError" field

/-- A `str`. -/
def strField (field : String) : PyVal F → Except PyExc String
  | .str s => .ok s
  | _ => .error (invalid field)

/-- A `float`. -/
def floatField : PyVal F → Except PyExc F
  | .float f => .ok f
  | v => Pydantic.floatOf v

/-- A `float` from 0 to 1. -/
def unitField (field : String) (v : PyVal F) : Except PyExc F := do
  let w ← floatField v
  if fits w then .ok w else .error (invalid field)

/-- An `int`. -/
def intField : PyVal F → Except PyExc Int
  | .int i => .ok i
  | v => Pydantic.intOf v

/-- A `list`. -/
def listField {α : Type} (field : String) (item : PyVal F → Except PyExc α) :
    PyVal F → Except PyExc (List α)
  | .list xs => xs.mapM item
  | _ => .error (invalid field)

/-- A `dict[str, Any]`. -/
def dictField (field : String) : PyVal F → Except PyExc (List (String × PyVal F))
  | .dict kvs => .ok kvs
  | _ => .error (invalid field)

/-- A field with a default. -/
def optional {α : Type} (data : List (String × PyVal F)) (field : String)
    (read : PyVal F → Except PyExc α) (default : α) : Except PyExc α :=
  match data.lookup field with
  | some v => read v
  | none => .ok default

/-- A field that has no default. -/
def required {α : Type} (data : List (String × PyVal F)) (field : String)
    (read : PyVal F → Except PyExc α) : Except PyExc α :=
  match data.lookup field with
  | some v => read v
  | none => .error (invalid field)

/-- What the default factories make: an id and the time. -/
structure Defaults (D : Type) where
  id : String
  createdAt : D

/-- `KnowledgeEntry(**data)`. -/
def entryOf (defaults : Defaults D) (data : List (String × PyVal F)) :
    Except PyExc (KnowledgeEntry F D) := do
  let id ← optional data "id" (strField "id") defaults.id
  let category ← required data "category" (strField "category")
  let title ← required data "title" (strField "title")
  let content ← required data "content" (strField "content")
  let tags ← optional data "tags" (listField "tags" (strField "tags")) []
  let embeddings ← optional data "embeddings" (listField "embeddings" floatField) []
  let weight ← optional data "weight" (unitField "weight") half
  let source ← optional data "source" (strField "source") ""
  let createdAt ← optional data "created_at" Pydantic.datetimeOf defaults.createdAt
  .ok { id, category, title, content, tags, embeddings, weight, source, createdAt }

/-- `Pattern(**data)`. -/
def patternOf (defaults : Defaults D) (data : List (String × PyVal F)) : Except PyExc (Pattern F) := do
  let id ← optional data "id" (strField "id") defaults.id
  let name ← required data "name" (strField "name")
  let category ← required data "category" (strField "category")
  let description ← required data "description" (strField "description")
  let template ← optional data "template" (dictField "template") []
  let applicableStacks ←
    optional data "applicable_stacks" (listField "applicable_stacks" (strField "applicable_stacks")) []
  let successRate ← optional data "success_rate" (unitField "success_rate") half
  let usageCount ← optional data "usage_count" intField 0
  .ok { id, name, category, description, template, applicableStacks, successRate, usageCount }

/-- An entry that pydantic has validated. -/
def KnowledgeEntry.Valid (e : KnowledgeEntry F D) : Prop := fits e.weight = true

/-- A pattern that pydantic has validated, whose template holds values of JSON. -/
structure Pattern.Valid (p : Pattern F) : Prop where
  rate : fits p.successRate = true
  wf : (PyVal.dict p.template).WF
  json : (PyVal.dict p.template).isJson = true

end Models

/-! ## The store -/

/-- `KnowledgeStore`, without its index. -/
structure KnowledgeStore (F D : Type) where
  entries : List (KnowledgeEntry F D)
  patterns : List (Pattern F)

section Store

variable {F D : Type} [Pydantic F D]

/-- `BUILTIN_KNOWLEDGE` and `BUILTIN_PATTERNS` in a process. No built-in entry has embeddings. -/
structure Builtins (F D : Type) [Pydantic F D] where
  entries : List (KnowledgeEntry F D)
  patterns : List (Pattern F)
  validEntries : ∀ e ∈ entries, e.Valid
  validPatterns : ∀ p ∈ patterns, p.Valid
  plain : ∀ e ∈ entries, e.embeddings = []

/-- Two processes have the same built-in knowledge, but for its ids and times. -/
structure Builtins.Same (b b' : Builtins F D) : Prop where
  entries : b.entries.map KnowledgeEntry.key = b'.entries.map KnowledgeEntry.key
  patterns : b.patterns.map Pattern.name = b'.patterns.map Pattern.name

/-- `KnowledgeStore()`. -/
def Builtins.store (b : Builtins F D) : KnowledgeStore F D := ⟨b.entries, b.patterns⟩

namespace KnowledgeStore

variable (s : KnowledgeStore F D)

/-- The data that `_write` writes. -/
def payload : PyVal F :=
  let entries := s.entries.filter fun e => e.embeddings.isEmpty
  .dict [("entries", .list (entries.map fun e => .dict e.dump)),
    ("patterns", .list (s.patterns.map fun p => .dict p.dump))]

/-- `persist` and `save` (store.py:282), with the random part of the name of the temporary file. -/
def persist (path random : String) : PyM Files Unit :=
  atomicWriteJson path true 5 ⟨random, .ok (dumpsIndent false 0 s.payload)⟩

/-- `self.entries.append(e)`. -/
def appendEntry (e : KnowledgeEntry F D) : KnowledgeStore F D := { s with entries := s.entries ++ [e] }

/-- `self.patterns.append(p)`. -/
def appendPattern (p : Pattern F) : KnowledgeStore F D := { s with patterns := s.patterns ++ [p] }

/-- `learn_fact` (store.py:391). Nothing is learned if the entry is not valid. -/
def learnFact (topic fact : String) (confidence : F) (source : String) (tags : List String)
    (made : Defaults D) : KnowledgeStore F D :=
  let start := String.ofList (fact.toList.take 60)
  if fits (clamp confidence) then
    s.appendEntry
      { id := made.id, category := topic, title := if start = "" then topic else start
        content := fact, tags, weight := clamp confidence, source, createdAt := made.createdAt }
  else s

end KnowledgeStore

/-- `(data.get("title", ""), data.get("content", ""))`, if these are texts. -/
def keyIn (data : List (String × PyVal F)) : Option (String × String) :=
  match (data.lookup "title").getD (.str ""), (data.lookup "content").getD (.str "") with
  | .str title, .str content => some (title, content)
  | _, _ => none

/-- `data.get("name")`, if it is a text. -/
def nameIn (data : List (String × PyVal F)) : Option String :=
  match data.lookup "name" with
  | some (.str name) => some name
  | _ => none

/-- `data.get`, for the items of a dict. -/
def itemsOf : PyVal F → Except PyExc (List (String × PyVal F))
  | .dict kvs => .ok kvs
  | v => .error (.attributeError ("'" ++ v.typeName ++ "' object has no attribute 'get'"))

/-- A loop of `load`: what has no known key is made and appended. -/
def addUnknown {α κ : Type} [DecidableEq κ] (keyIn : List (String × PyVal F) → Option κ)
    (make : List (String × PyVal F) → Except PyExc α)
    (append : KnowledgeStore F D → α → KnowledgeStore F D) :
    List κ → List (PyVal F) → PyM (KnowledgeStore F D) Unit
  | _, [] => pure ()
  | known, raw :: rest => do
    let data ← PyM.lift (itemsOf raw)
    let key := keyIn data
    if key.any (· ∈ known) then addUnknown keyIn make append known rest
    else do
      let item ← PyM.lift (make data)
      PyM.modify (append · item)
      addUnknown keyIn make append (key.toList ++ known) rest

variable (defaults : List (String × PyVal F) → Defaults D)

/-- The part of `load` that suppresses exceptions. -/
def loadData (data : List (String × PyVal F)) : PyM (KnowledgeStore F D) Unit := do
  let s ← PyM.get
  let entries ← PyM.lift ((data.lookup "entries").getD (.list [])).iter
  addUnknown keyIn (fun data => entryOf (defaults data) data) KnowledgeStore.appendEntry
    (s.entries.map KnowledgeEntry.key) entries
  let patterns ← PyM.lift ((data.lookup "patterns").getD (.list [])).iter
  addUnknown nameIn (fun data => patternOf (defaults data) data) KnowledgeStore.appendPattern
    (s.patterns.map Pattern.name) patterns

/-- `load` (store.py:257). A file that is no JSON changes nothing. -/
def load (path : String) (d : Files) (s : KnowledgeStore F D) : KnowledgeStore F D :=
  match d path with
  | none => s
  | some text =>
    match (jsonLoad text : Option (PyVal F)) with
    | some (.dict data) => (loadData defaults data s).2
    | _ => s

end Store

/-! ## Calls and restarts -/

section Runs

variable {F D : Type} [Pydantic F D]

/-- A call of the store. -/
inductive KnowledgeCall (F D : Type) [Pydantic F D] where
  | addEntry (e : KnowledgeEntry F D) (h : e.Valid)
  | learnFact (topic fact : String) (confidence : F) (source : String) (tags : List String)
      (made : Defaults D)
  | addPattern (p : Pattern F) (h : p.Valid)

/-- What a call does. -/
def KnowledgeCall.apply (s : KnowledgeStore F D) : KnowledgeCall F D → KnowledgeStore F D
  | .addEntry e _ => s.appendEntry e
  | .learnFact topic fact confidence source tags made =>
    s.learnFact topic fact confidence source tags made
  | .addPattern p _ => s.appendPattern p

/-- The calls of a process. -/
def knowledge (b : Builtins F D) : System (KnowledgeStore F D) (KnowledgeCall F D) where
  init := b.store
  step s call := some (call.apply s)

/-- A restart: the built-in knowledge of the new process, and what is random in it. -/
structure Restart (F D : Type) [Pydantic F D] where
  builtins : Builtins F D
  random : String
  defaults : List (String × PyVal F) → Defaults D

/-- The store is persisted, and a fresh one loads the file. -/
def restart (path : String) (state : KnowledgeStore F D × Files) (r : Restart F D) :
    KnowledgeStore F D × Files :=
  let d := (state.1.persist path r.random state.2).2
  (load r.defaults path d r.builtins.store, d)

end Runs

/-! ## What is loaded -/

section Loading

variable {F D : Type} [Pydantic F D] {s : KnowledgeStore F D}

omit [Pydantic F D] in
theorem listField_map {α : Type} {make : α → PyVal F} {read : PyVal F → Except PyExc α}
    (h : ∀ x, read (make x) = .ok x) (field : String) (xs : List α) :
    listField field read (.list (xs.map make)) = .ok xs := by
  rw [listField]
  induction xs with
  | nil => rfl
  | cons x xs ih =>
    rw [List.map_cons, List.mapM_cons, h, ok_bind, ih]
    rfl

theorem unitField_float {w : F} (h : fits w = true) (field : String) :
    unitField field (.float w) = .ok w := by
  show (if fits w = true then Except.ok w else _) = _
  rw [if_pos h]

/-- A valid entry is read back. -/
theorem entryOf_dump {e : KnowledgeEntry F D} (h : e.Valid) (defaults : Defaults D) :
    entryOf defaults e.dump = .ok e := by
  have htags := @listField_map F String .str (strField "tags") (fun _ => rfl) "tags" e.tags
  have hembeddings :=
    @listField_map F F .float floatField (fun _ => rfl) "embeddings" e.embeddings
  simp [entryOf, KnowledgeEntry.dump, optional, required, List.lookup, strField, htags, hembeddings,
    unitField_float h, Pydantic.datetimeOf_isoformat]

/-- A valid pattern is read back. -/
theorem patternOf_dump {p : Pattern F} (h : p.Valid) (defaults : Defaults D) :
    patternOf defaults p.dump = .ok p := by
  have hstacks := @listField_map F String .str (strField "applicable_stacks") (fun _ => rfl)
    "applicable_stacks" p.applicableStacks
  simp [patternOf, Pattern.dump, optional, required, List.lookup, strField, hstacks,
    unitField_float h.rate, dictField, intField]

variable (s) in
/-- What the calls store was validated. -/
structure KnowledgeStore.Valid : Prop where
  entries : ∀ e ∈ s.entries, e.Valid
  patterns : ∀ p ∈ s.patterns, p.Valid

omit [Pydantic F D] in
/-- A loop of `load` appends what was dumped and is unknown. -/
theorem addUnknown_dumped {α κ : Type} [DecidableEq κ]
    {keyIn : List (String × PyVal F) → Option κ} {make : List (String × PyVal F) → Except PyExc α}
    {append : KnowledgeStore F D → α → KnowledgeStore F D} {dump : α → List (String × PyVal F)}
    {key : α → κ} (hkey : ∀ x, keyIn (dump x) = some (key x)) {xs : List α}
    (hmake : ∀ x ∈ xs, make (dump x) = .ok x) (known : List κ) (s : KnowledgeStore F D) :
    addUnknown keyIn make append known (xs.map fun x => .dict (dump x)) s =
      (.ok (), (unknown key known xs).foldl append s) := by
  induction xs generalizing known s with
  | nil => rfl
  | cons x xs ih =>
    obtain ⟨hx, hxs⟩ := List.forall_mem_cons.mp hmake
    rw [List.map_cons, addUnknown, PyM.bind_ok (show PyM.lift (itemsOf (.dict (dump x))) s = _ from rfl),
      unknown, hkey]
    by_cases hknown : key x ∈ known
    · rw [if_pos (by simpa using hknown), if_pos hknown]
      exact ih hxs known s
    · rw [if_neg (by simpa using hknown), if_neg hknown, hx, PyM.bind_ok (PyM.lift_apply _ _),
        PyM.bind_ok (PyM.modify_apply _ _)]
      exact ih hxs (key x :: known) (append s x)

omit [Pydantic F D] in
theorem foldl_appendEntry (es : List (KnowledgeEntry F D)) (s : KnowledgeStore F D) :
    es.foldl KnowledgeStore.appendEntry s = { s with entries := s.entries ++ es } := by
  induction es generalizing s with
  | nil => simp
  | cons e es ih => simp [ih, KnowledgeStore.appendEntry]

omit [Pydantic F D] in
theorem foldl_appendPattern (ps : List (Pattern F)) (s : KnowledgeStore F D) :
    ps.foldl KnowledgeStore.appendPattern s = { s with patterns := s.patterns ++ ps } := by
  induction ps generalizing s with
  | nil => simp
  | cons p ps ih => simp [ih, KnowledgeStore.appendPattern]

namespace KnowledgeStore

theorem Valid.wf_payload (h : s.Valid) : s.payload.WF := by
  refine ⟨by simp, ?_, ?_, trivial⟩
  · refine wfItems_map fun e he => ?_
    have htags : (PyVal.list (e.tags.map .str) : PyVal F).WF := wfItems_map fun _ _ => trivial
    have hembeddings : (PyVal.list (e.embeddings.map .float) : PyVal F).WF :=
      wfItems_map fun _ _ => trivial
    exact ⟨by simp [KnowledgeEntry.dump], trivial, trivial, trivial, trivial, htags, hembeddings,
      trivial, trivial, trivial, trivial⟩
  · refine wfItems_map fun p hp => ?_
    have hstacks : (PyVal.list (p.applicableStacks.map .str) : PyVal F).WF :=
      wfItems_map fun _ _ => trivial
    exact ⟨by simp [Pattern.dump], trivial, trivial, trivial, trivial, (h.patterns p hp).wf, hstacks,
      trivial, trivial, trivial⟩

theorem Valid.isJson_payload (h : s.Valid) : s.payload.isJson = true := by
  have hstrs : ∀ xs : List String, isJsonItems (xs.map .str : List (PyVal F)) = true := fun _ =>
    isJsonItems_map fun _ _ => rfl
  have hfloats : ∀ xs : List F, isJsonItems (xs.map .float : List (PyVal F)) = true := fun _ =>
    isJsonItems_map fun _ _ => rfl
  have hentries : isJsonItems ((s.entries.filter fun e => e.embeddings.isEmpty).map
      fun e => (.dict e.dump : PyVal F)) = true :=
    isJsonItems_map fun e _ => by
      simp [KnowledgeEntry.dump, PyVal.isJson, isJsonPairs, hstrs, hfloats]
  have hpatterns : isJsonItems (s.patterns.map fun p => (.dict p.dump : PyVal F)) = true := by
    refine isJsonItems_map fun p hp => ?_
    have htemplate := (h.patterns p hp).json
    simp [Pattern.dump, PyVal.isJson, isJsonPairs, hstrs] at htemplate ⊢
    exact htemplate
  simp [payload, PyVal.isJson, isJsonPairs, hentries, hpatterns]

end KnowledgeStore

/-- What a fresh store has loaded: the entries without embeddings and the patterns that it did not
know. -/
theorem load_persist (h : s.Valid) (b : Builtins F D) (path random : String) (d : Files)
    (defaults : List (String × PyVal F) → Defaults D) :
    load defaults path (s.persist path random d).2 b.store =
      ⟨b.entries ++ unknown KnowledgeEntry.key (b.entries.map KnowledgeEntry.key)
          (s.entries.filter fun e => e.embeddings.isEmpty),
        b.patterns ++ unknown Pattern.name (b.patterns.map Pattern.name) s.patterns⟩ := by
  have hfile : (s.persist path random d).2 path = some (dumpsIndent false 0 s.payload) :=
    file_of_dumped path random d
  -- the file is what was written, and `json.load` gives back the payload
  rw [load, hfile]
  dsimp only
  rw [jsonLoad_dumpsIndent h.wf_payload h.isJson_payload]
  have hentries := fun known (s' : KnowledgeStore F D) =>
    @addUnknown_dumped F D _ _ _ keyIn (fun data => entryOf (defaults data) data)
      KnowledgeStore.appendEntry KnowledgeEntry.dump KnowledgeEntry.key (fun _ => rfl)
      (s.entries.filter fun e => e.embeddings.isEmpty)
      (fun e he => entryOf_dump (h.entries e (List.mem_of_mem_filter he)) _) known s'
  have hpatterns := fun known (s' : KnowledgeStore F D) =>
    @addUnknown_dumped F D _ _ _ nameIn (fun data => patternOf (defaults data) data)
      KnowledgeStore.appendPattern Pattern.dump Pattern.name (fun _ => rfl) s.patterns
      (fun p hp => patternOf_dump (h.patterns p hp) _) known s'
  -- the two lists of the payload are what `load` iterates over
  obtain ⟨data, hdata, hentriesIn, hpatternsIn⟩ : ∃ data, s.payload = .dict data ∧
      ((data.lookup "entries").getD (.list [])).iter =
        .ok ((s.entries.filter fun e => e.embeddings.isEmpty).map fun e => .dict e.dump) ∧
      ((data.lookup "patterns").getD (.list [])).iter =
        .ok (s.patterns.map fun p => .dict p.dump) := ⟨_, rfl, rfl, rfl⟩
  rw [hdata]
  show (loadData defaults data b.store).2 = _
  rw [loadData, PyM.bind_ok (PyM.get_apply _), hentriesIn, PyM.bind_ok (PyM.lift_apply _ _),
    PyM.bind_ok (hentries _ _), hpatternsIn, PyM.bind_ok (PyM.lift_apply _ _), hpatterns,
    foldl_appendPattern, foldl_appendEntry]
  rfl

end Loading

/-! ## Restarts -/

section Restarts

variable {F D : Type} [Pydantic F D] {b b' : Builtins F D} {s : KnowledgeStore F D}

/-- The store of a process to whose built-in knowledge this was added. -/
def Builtins.extended (b : Builtins F D) (added : KnowledgeStore F D) : KnowledgeStore F D :=
  ⟨b.entries ++ added.entries, b.patterns ++ added.patterns⟩

variable (b) in
/-- What loading adds: entries without embeddings and patterns, each with a key of its own. -/
structure Additions (added : KnowledgeStore F D) : Prop where
  valid : added.Valid
  plain : ∀ e ∈ added.entries, e.embeddings = []
  entries : (added.entries.map KnowledgeEntry.key).Nodup ∧
    ∀ e ∈ added.entries, e.key ∉ b.entries.map KnowledgeEntry.key
  patterns : (added.patterns.map Pattern.name).Nodup ∧
    ∀ p ∈ added.patterns, p.name ∉ b.patterns.map Pattern.name

theorem Additions.of_same {added : KnowledgeStore F D} (h : Additions b added) (hsame : b.Same b') :
    Additions b' added where
  valid := h.valid
  plain := h.plain
  entries := hsame.entries ▸ h.entries
  patterns := hsame.patterns ▸ h.patterns

theorem valid_extended {added : KnowledgeStore F D} (h : added.Valid) : (b.extended added).Valid where
  entries := List.forall_mem_append.mpr ⟨b.validEntries, h.entries⟩
  patterns := List.forall_mem_append.mpr ⟨b.validPatterns, h.patterns⟩

/-- The first restart. -/
theorem restart_additions (h : s.Valid) (path : String) (d : Files) (r : Restart F D) :
    ∃ added, (restart path (s, d) r).1 = r.builtins.extended added ∧ Additions r.builtins added ∧
      added.entries = unknown KnowledgeEntry.key (r.builtins.entries.map KnowledgeEntry.key)
        (s.entries.filter fun e => e.embeddings.isEmpty) ∧
      added.patterns = unknown Pattern.name (r.builtins.patterns.map Pattern.name) s.patterns := by
  refine ⟨⟨_, _⟩, load_persist h r.builtins path r.random d r.defaults, ⟨⟨fun e he => ?_, fun p hp => ?_⟩,
    fun e he => ?_, unknown_keys, unknown_keys⟩, rfl, rfl⟩
  · exact h.entries e (List.mem_of_mem_filter (unknown_subset he))
  · exact h.patterns p (unknown_subset hp)
  · simpa using (List.mem_filter.mp (unknown_subset he)).2

/-- The restarts that follow add the same again. -/
theorem restart_extended {added : KnowledgeStore F D} (h : Additions b added) (path : String)
    (d : Files) (r : Restart F D) (hsame : b.Same r.builtins) :
    (restart path (b.extended added, d) r).1 = r.builtins.extended added := by
  have hplain : ((b.entries ++ added.entries).filter fun e => e.embeddings.isEmpty) =
      b.entries ++ added.entries := by
    refine List.filter_eq_self.mpr fun e he => ?_
    rcases List.mem_append.mp he with he | he
    · simpa using b.plain e he
    · simpa using h.plain e he
  have hadded := h.of_same hsame
  have hload := load_persist (valid_extended (b := b) h.valid) r.builtins path r.random d r.defaults
  refine hload.trans ?_
  rw [Builtins.extended, hplain, unknown_append, unknown_append,
    unknown_eq_self hadded.entries.1 hadded.entries.2,
    unknown_eq_self hadded.patterns.1 hadded.patterns.2]
  · rfl
  · intro p hp
    rw [← hsame.patterns]
    exact List.mem_map_of_mem hp
  · intro e he
    rw [← hsame.entries]
    exact List.mem_map_of_mem he

theorem restarts_extended {added : KnowledgeStore F D} (h : Additions b added) (path : String)
    (rs : List (Restart F D)) (last : Restart F D) (hsame : ∀ r ∈ rs ++ [last], b.Same r.builtins)
    (d : Files) :
    ((rs ++ [last]).foldl (restart path) (b.extended added, d)).1 =
      last.builtins.extended added := by
  induction rs generalizing b d with
  | nil => exact restart_extended h path d last (hsame last (List.mem_singleton_self last))
  | cons r rs ih =>
    have hr := hsame r List.mem_cons_self
    have hrest : ∀ r' ∈ rs ++ [last], r.builtins.Same r'.builtins := fun r' hr' =>
      have hsame' := hsame r' (List.mem_cons_of_mem r hr')
      ⟨hr.entries.symm.trans hsame'.entries, hr.patterns.symm.trans hsame'.patterns⟩
    have hfirst := restart_extended h path d r hr
    have hih := ih (h.of_same hr) hrest (restart path (b.extended added, d) r).2
    rwa [← hfirst] at hih

/-- What the calls of a process leave in its store: its built-in knowledge, and what is valid. -/
structure Grown (b : Builtins F D) (s : KnowledgeStore F D) : Prop where
  valid : s.Valid
  entries : b.entries ⊆ s.entries
  patterns : b.patterns ⊆ s.patterns

theorem Grown.appendEntry (h : Grown b s) {e : KnowledgeEntry F D} (he : e.Valid) :
    Grown b (s.appendEntry e) where
  valid := ⟨List.forall_mem_append.mpr ⟨h.valid.entries, List.forall_mem_singleton.mpr he⟩,
    h.valid.patterns⟩
  entries := List.subset_append_of_subset_left _ h.entries
  patterns := h.patterns

theorem grown_of_run {steps : List (KnowledgeStore F D × KnowledgeCall F D)}
    (run : (knowledge b).Run steps s) : Grown b s := by
  refine run.invariant ⟨⟨b.validEntries, b.validPatterns⟩, List.Subset.refl _, List.Subset.refl _⟩ ?_
  rintro s call s' h ⟨⟩
  cases call with
  | addEntry e he => exact h.appendEntry he
  | learnFact topic fact confidence source tags made =>
    show Grown b (s.learnFact topic fact confidence source tags made)
    rw [KnowledgeStore.learnFact]
    by_cases hfits : fits (clamp confidence) = true
    · rw [if_pos hfits]
      exact h.appendEntry hfits
    · rw [if_neg hfits]
      exact h
  | addPattern p hp =>
    exact ⟨⟨h.valid.entries,
      List.forall_mem_append.mpr ⟨h.valid.patterns, List.forall_mem_singleton.mpr hp⟩⟩, h.entries,
      List.subset_append_of_subset_left _ h.patterns⟩

/-- A store knows, by title and content, the entries of another one that have no embeddings and no
others, and by name the same patterns. -/
structure Keeps (s s' : KnowledgeStore F D) : Prop where
  entries : ∀ key, (∃ e' ∈ s'.entries, e'.key = key) ↔
    ∃ e ∈ s.entries, e.embeddings = [] ∧ e.key = key
  patterns : ∀ name, (∃ p' ∈ s'.patterns, p'.name = name) ↔ ∃ p ∈ s.patterns, p.name = name

theorem keeps_restart (h : Grown b s) (path : String) (d : Files) (r : Restart F D)
    (hsame : b.Same r.builtins) : Keeps s (restart path (s, d) r).1 := by
  obtain ⟨added, hrestart, -, hentries, hpatterns⟩ := restart_additions h.valid path d r
  rw [hrestart, Builtins.extended, hentries, hpatterns]
  -- first the entries, by their keys, and then the patterns, by their names
  constructor
  · intro key
    have hkeys := @keys_unknown _ _ _ KnowledgeEntry.key (r.builtins.entries.map KnowledgeEntry.key)
      (s.entries.filter fun e => e.embeddings.isEmpty) key
    rw [← List.mem_append, ← List.map_append, List.mem_map] at hkeys
    rw [hkeys, ← hsame.entries, List.mem_map, List.mem_map]
    constructor
    · rintro (⟨e, he, rfl⟩ | ⟨e, he, rfl⟩)
      · exact ⟨e, h.entries he, b.plain e he, rfl⟩
      · obtain ⟨he, hplain⟩ := List.mem_filter.mp he
        exact ⟨e, he, by simpa using hplain, rfl⟩
    · rintro ⟨e, he, hplain, rfl⟩
      exact .inr ⟨e, List.mem_filter.mpr ⟨he, by simpa using hplain⟩, rfl⟩
  · intro name
    have hkeys := @keys_unknown _ _ _ Pattern.name (r.builtins.patterns.map Pattern.name)
      s.patterns name
    rw [← List.mem_append, ← List.map_append, List.mem_map] at hkeys
    rw [hkeys, ← hsame.patterns, List.mem_map, List.mem_map]
    constructor
    · rintro (⟨p, hp, rfl⟩ | hp)
      · exact ⟨p, h.patterns hp, rfl⟩
      · exact hp
    · exact .inr

/-- A restart keeps the entries without embeddings and the patterns, and the restarts that follow
change nothing but the built-in knowledge of their processes. -/
theorem restarts_keep {steps : List (KnowledgeStore F D × KnowledgeCall F D)}
    (run : (knowledge b).Run steps s) (path : String) (d : Files) (r : Restart F D)
    (hsame : b.Same r.builtins) :
    Keeps s (restart path (s, d) r).1 ∧
    ∃ added, (restart path (s, d) r).1 = r.builtins.extended added ∧
      ∀ (rs : List (Restart F D)) (last : Restart F D), (∀ r' ∈ rs ++ [last], b.Same r'.builtins) →
        ((rs ++ [last]).foldl (restart path) (restart path (s, d) r)).1 =
          last.builtins.extended added := by
  have hgrown := grown_of_run run
  refine ⟨keeps_restart hgrown path d r hsame, ?_⟩
  obtain ⟨added, hrestart, hadditions, -⟩ := restart_additions hgrown.valid path d r
  refine ⟨added, hrestart, fun rs last hrest => ?_⟩
  -- all processes have the same built-in knowledge as the first one that was restarted
  have hsame' : ∀ r' ∈ rs ++ [last], r.builtins.Same r'.builtins := fun r' hr' =>
    have h := hrest r' hr'
    ⟨hsame.entries.symm.trans h.entries, hsame.patterns.symm.trans h.patterns⟩
  have hrestarts := restarts_extended hadditions path rs last hsame' (restart path (s, d) r).2
  rwa [← hrestart] at hrestarts

end Restarts

/-! ## An entry with embeddings -/

/-- Times are their texts, and values are converted by the interpreter. -/
instance : Pydantic FloatText String where
  isoformat t := t
  datetimeOf
    | .str t => .ok t
    | _ => .error (invalid "created_at")
  datetimeOf_isoformat _ := rfl
  floatOf := PyVal.pyFloat
  intOf := PyVal.pyInt

theorem half_fits : fits (half : FloatText) = true := by
  decide +kernel

/-- An entry of `BUILTIN_KNOWLEDGE`, in a process. -/
def cachingEntry (id : String) : KnowledgeEntry FloatText String where
  id := id
  category := "performance"
  title := "Caching Strategy L1/L2/L3"
  content := "Cache-aside for reads"
  weight := half
  createdAt := "2026-01-01T00:00:00Z"

/-- Built-in knowledge of one entry, whose id is that of the process. -/
def cachingBuiltins (id : String) : Builtins FloatText String where
  entries := [cachingEntry id]
  patterns := []
  validEntries := by
    rintro e he
    rw [List.mem_singleton.mp he]
    exact half_fits
  validPatterns := by simp
  plain := by
    rintro e he
    rw [List.mem_singleton.mp he]
    rfl

/-- A process with this knowledge. -/
def cachingRestart (id : String) : Restart FloatText String where
  builtins := cachingBuiltins id
  random := "x"
  defaults _ := ⟨"", ""⟩

/-- An entry with an embedding. -/
def embeddedEntry : KnowledgeEntry FloatText String where
  id := "e1"
  category := "api"
  title := "Rate limits"
  content := "Use a token bucket"
  embeddings := [half]
  weight := half
  createdAt := "2026-01-02T00:00:00Z"

/-- A fact is learned. -/
def learnLimits : KnowledgeCall FloatText String :=
  .learnFact "api" "Use a token bucket" half "" [] ⟨"e1", "2026-01-02T00:00:00Z"⟩

/-- The store of a process that has learned the fact. -/
def limitsLearned : KnowledgeStore FloatText String := learnLimits.apply (cachingBuiltins "a").store

theorem restarts_keep_limits :
    Keeps limitsLearned (restart "k.json" (limitsLearned, fun _ => none) (cachingRestart "b")).1 := by
  have hrun : (knowledge (cachingBuiltins "a")).Run [((cachingBuiltins "a").store, learnLimits)]
      limitsLearned := .next .start rfl
  exact (restarts_keep hrun "k.json" (fun _ => none) (cachingRestart "b") ⟨rfl, rfl⟩).1

/-- An entry with an embedding is not written, so a restart loses it. -/
theorem embedded_entry_lost :
    ¬ ∀ (b : Builtins FloatText String) steps s, (knowledge b).Run steps s →
      ∀ (path : String) (d : Files) (r : Restart FloatText String), b.Same r.builtins →
        ∀ e ∈ s.entries, ∃ e' ∈ (restart path (s, d) r).1.entries, e'.key = e.key := by
  intro h
  have hvalid : embeddedEntry.Valid := half_fits
  have hrun : (knowledge (cachingBuiltins "a")).Run
      [((cachingBuiltins "a").store, .addEntry embeddedEntry hvalid)]
      ((cachingBuiltins "a").store.appendEntry embeddedEntry) := .next .start rfl
  obtain ⟨e, he, hkey⟩ := h _ _ _ hrun "k.json" (fun _ => none) (cachingRestart "b") ⟨rfl, rfl⟩
    embeddedEntry (List.mem_append_right _ (List.mem_singleton_self _))
  have hkept := (keeps_restart (grown_of_run hrun) "k.json" (fun _ => none) (cachingRestart "b")
    ⟨rfl, rfl⟩).entries embeddedEntry.key
  obtain ⟨e', he', hplain, hkey'⟩ := hkept.mp ⟨e, he, hkey⟩
  rcases List.mem_append.mp he' with he' | he' <;> rw [List.mem_singleton.mp he'] at hplain hkey'
  · exact absurd hkey' (by decide)
  · cases hplain

end Noema.Knowledge
