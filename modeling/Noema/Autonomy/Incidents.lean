import Noema.Autonomy.Fixer
import Noema.Lib.GitRef
import Noema.Lib.PyNumber

/-!
# Incidents and their branches (`autonomy/incidents.py`)

`parseIncident` makes an incident of a payload, in the notation of Sentry or plain. The id is the
client's, cut at most, and `incident_branch_name` puts its first eight characters into the name of a
branch as they are; only the title goes through `re.sub`.

- `validRefName_branch_iff`: git accepts the name if and only if those characters break none of its
  rules (`SafeId`). The rest of the name breaks none: the prefix is fixed, and a slug has letters,
  digits and dashes only. A pattern such as `..` could lie across two parts, which is what
  `pattern_infix_iff` excludes: no pattern has a dash.
- `branch_eq_iff`: when two incidents get one name. Equal parts are the ordinary case; otherwise the
  part of one id goes on as the slug of the other begins (`append_dash_eq_iff`).
- **`branches_iff`**: both together, for incidents that were parsed.
- `branch_refused_and_shared`: a space in an id, and two ids that agree in eight characters.

The parser is modelled with all that it may raise, for payloads of any shape: `v[0]` on what is no
list, `str` of a value, a text that is not JSON. The rules of git are in `Lib.GitRef`.
-/

namespace Noema.Autonomy

open Noema.Lib PyJson Noema.Core Noema.Lib.Git

/-! ## The parser -/

section Parse

variable {F : Type} [PyInterp F]

/-- `v[0]`. -/
def firstItem : PyVal F → Except PyExc (PyVal F)
  | .list xs => pyIndex xs 0
  | .str s =>
    match s.toList with
    | c :: _ => .ok (.str (String.ofList [c]))
    | [] => .error (.indexError "string index out of range")
  | .dict _ => .error (.keyError "0")
  | v => .error (.typeError ("'" ++ v.typeName ++ "' object is not subscriptable"))

/-- The value that the Sentry helpers read: a text is decoded, and is empty if it is not JSON. -/
def sentryEvent (payload : List (String × PyVal F)) : PyVal F :=
  match (dictGet payload "event").pyOr (.dict payload) with
  | .str text => (loads text.toList).getD (.dict [])
  | event => event

/-- `_sentry_title` (incidents.py:27). -/
def sentryTitle (payload : List (String × PyVal F)) : Except PyExc String := do
  let event := sentryEvent payload
  let title ← event.getKey "title" .none
  let title ← if title.truthy then .ok title else event.getKey "message" .none
  let title ← if title.truthy then .ok title
    else do
      let values ← (← event.getKey "exception" (.dict [])).getKey "values" (.list [.dict []])
      (← firstItem values).getKey "type" (.str "")
  return pySlice (title.pyOr (.str "Production incident")).toStr 200

/-- The lines of a frame of `_sentry_stack`. -/
def sentryFrame (frame : PyVal F) : Except PyExc String := do
  let filename := (← frame.getKey "filename" (.str "")).toStr
  let function := (← frame.getKey "function" (.str "")).toStr
  let line ← frame.getKey "lineno" (.str "")
  return "  File " ++ PyInterp.reprOf (.str filename : PyVal F) ++ ", line " ++ line.toStr ++
    ", in " ++ function

/-- The lines of an exception of `_sentry_stack`. -/
def sentryException (entry : PyVal F) : Except PyExc (List String) := do
  let value := (← entry.getKey "value" (.str "")).toStr
  let stack := (← entry.getKey "stacktrace" (.str "")).toStr
  let frames ← (← entry.getKey "stacktrace" (.dict [])).getKey "frames" (.list [])
  let lines ← (← (← frames.sliceTo 20).iter).mapM sentryFrame
  return value :: lines ++ if stack = "" then [] else [stack]

/-- `_sentry_stack` (incidents.py:43). -/
def sentryStack (payload : List (String × PyVal F)) : Except PyExc String := do
  let event := sentryEvent payload
  let values ← (← event.getKey "exception" (.dict [])).getKey "values" (.list [])
  let frames := (← (← values.iter).mapM sentryException).flatten
  if frames = [] then return (← event.getKey "stacktrace" (.str "")).toStr
  else return "\n".intercalate frames

/-- `_sentry_context` (incidents.py:65). -/
def sentryContext (payload : List (String × PyVal F)) : Except PyExc String := do
  let event := sentryEvent payload
  let parts ← ["environment", "release", "server_name", "culprit"].mapM fun key => do
    let value ← event.getKey key .none
    return if value.truthy then [key ++ "=" ++ value.toStr] else []
  return "; ".intercalate parts.flatten

/-- `_sentry_tags` (incidents.py:145). -/
def sentryTags (body : List (String × PyVal F)) : List String :=
  match dictGet body "event" with
  | .dict event =>
    match getOr event "tags" (.list []) with
    | .list tags => tags.filterMap fun
      | .list [_, value] => some value.toStr
      | _ => none
    | _ => []
  | _ => []

/-- `[str(t) for t in v]`. -/
def strList (v : PyVal F) : Except PyExc (List String) := do
  return (← v.iter).map PyVal.toStr

/-- The branch of `parse_incident` for an event; `uuid` stands for `uuid.uuid4().hex[:12]`. -/
def parseEvent (uuid : String) (body : List (String × PyVal F)) : Except PyExc Incident := do
  let event := match dictGet body "event" with
    | .dict event => event
    | _ => body
  -- the id is whatever the payload says, of any type, and is cut to 32 characters
  let id := ((dictGet event "id").pyOr (dictGet body "id")).pyOr (.str uuid)
  let stack ← sentryStack body
  let context ← sentryContext body
  let formatted ← (getOr event "logentry" (.dict [])).getKey "formatted" (.str "")
  let description := ((formatted.pyOr (getOr event "message" (.str ""))).pyOr (.str "")).toStr
  let description :=
    if context = "" then description
    else if description = "" then context
    else description ++ " (" ++ context ++ ")"
  let title ← sentryTitle body
  return {
    id := pySlice id.toStr 32
    title := title
    description := pySlice description 2000
    stackTrace := stack
    tags := (sentryTags body).take 20 }

/-- The two branches of `parse_incident` for a plain incident; `now` is `time.time()`. -/
def parsePlain (uuid : String) (now : F) (title : PyVal F) (body : List (String × PyVal F)) :
    Except PyExc Incident := do
  let description := (getOr body "description" (.str "")).toStr
  let tags ← strList (getOr body "tags" (.list []))
  let _ ← (getOr body "occurred_at" (.float now)).pyFloat
  return {
    id := ((dictGet body "id").pyOr (.str uuid)).toStr
    title := pySlice title.toStr 200
    description := pySlice description 2000
    stackTrace := (getOr body "stack_trace" (.str "")).toStr
    tags := tags.take 20 }

/-- `parse_incident` (incidents.py:82). -/
def parseIncident (uuid : String) (now : F) (payload : List (String × PyVal F)) :
    Except PyExc Incident :=
  let body := match dictGet payload "payload" with
    | .dict body => body
    | _ => payload
  let event := dictGet body "event"
  let source := (getOr body "source" (.str (if event.truthy then "sentry" else "webhook"))).toStr
  match dictGet body "incident" with
  -- an empty `incident` is like none
  | .dict (field :: fields) =>
    let incident := field :: fields
    parsePlain uuid now ((dictGet incident "title").pyOr (.str "Incident")) incident
  | _ =>
    if event.truthy ∨ source = "sentry" then parseEvent uuid body
    else
      parsePlain uuid now (((dictGet body "title").pyOr (dictGet body "message")).pyOr
        (.str "Incident")) body

end Parse

/-! ## The name of the branch -/

/-- The slug of a title. -/
def slugOf (u : Unicode) (title : String) : List Char :=
  let slug := (stripDashes (dashRuns false (u.lower title.toList))).take 40
  if slug = [] then "incident".toList else slug

/-- The part of the id that is in the name. -/
def shortId (incident : Incident) : List Char := incident.id.toList.take 8

theorem toList_branchName (u : Unicode) (incident : Incident) :
    (incidentBranchName u incident).toList =
      "noema-fix/".toList ++ shortId incident ++ '-' :: slugOf u incident.title := by
  rw [incidentBranchName, slugOf, shortId, pySlice]
  split <;> simp [*]

theorem dashRuns_chars {inRun : Bool} {text : List Char} :
    ∀ c ∈ dashRuns inRun text, isSlugChar c = true ∨ c = '-' := by
  induction text generalizing inRun with
  | nil => exact fun c hc => absurd hc List.not_mem_nil
  | cons x text ih =>
    rw [dashRuns]
    split
    next hx => exact List.forall_mem_cons.mpr ⟨.inl hx, ih⟩
    next =>
      split
      · exact ih
      · exact List.forall_mem_cons.mpr ⟨.inr rfl, ih⟩

theorem slug_chars (u : Unicode) (title : String) :
    ∀ c ∈ slugOf u title, isSlugChar c = true ∨ c = '-' := by
  rw [slugOf]
  split
  · simp [isSlugChar]
  · intro c hc
    have hc := List.mem_reverse.mp (List.mem_of_mem_take hc)
    have hc := List.mem_reverse.mp ((List.dropWhile_sublist _).subset hc)
    exact dashRuns_chars c ((List.dropWhile_sublist _).subset hc)

theorem slugOf_ne_nil (u : Unicode) (title : String) : slugOf u title ≠ [] := by
  rw [slugOf]
  split
  · decide
  · assumption

/-- Nothing in the part of the id breaks a rule for names. -/
structure SafeId (id : List Char) : Prop where
  patterns : ∀ q ∈ refPatterns, ¬ q <:+: '/' :: id
  chars : ∀ c ∈ id, refForbidden c = false

theorem slugChar_allowed {c : Char} (h : isSlugChar c = true ∨ c = '-') :
    refForbidden c = false ∧ c ∉ ['/', '.', '@'] := by
  rcases h with h | rfl
  · have hrange : 97 ≤ c.toNat ∧ c.toNat ≤ 122 ∨ 48 ≤ c.toNat ∧ c.toNat ≤ 57 := by
      simpa [isSlugChar, Char.le_def, UInt32.le_iff_toNat_le] using h
    constructor
    · rw [refForbidden, Bool.or_eq_false_iff, Bool.or_eq_false_iff, decide_eq_false_iff_not,
        decide_eq_false_iff_not]
      refine ⟨⟨by omega, by simp; omega⟩, fun hmem => ?_⟩
      fin_cases hmem <;> revert hrange <;> decide
    · intro hmem
      fin_cases hmem <;> revert hrange <;> decide
  · decide

/-- No pattern lies in a slug and the slash after it. -/
theorem not_infix_slug {q : List Char} (hq : q ∈ refPatterns) (u : Unicode) (title : String) :
    ¬ q <:+: slugOf u title ++ ['/'] := by
  intro h
  have hslug := fun c hc => (slugChar_allowed (slug_chars u title c hc)).2
  have hcount : (slugOf u title).count '/' = 0 :=
    List.count_eq_zero.mpr fun hc => hslug '/' hc (by decide)
  have hle := h.sublist.count_le '/'
  have hmem : ∀ c ∈ q, c = '/' ∨ c ∉ ['.', '@'] := by
    intro c hc
    rcases List.mem_append.mp (h.subset hc) with hc | hc
    · exact .inr fun hmem => hslug c hc (List.mem_cons_of_mem _ hmem)
    · exact .inl (List.mem_singleton.mp hc)
  rw [List.count_append, hcount] at hle
  have hdot : '.' ∉ q := fun hc => absurd (hmem '.' hc) (by decide)
  have hat : '@' ∉ q := fun hc => absurd (hmem '@' hc) (by decide)
  fin_cases hq
  · exact absurd hle (by decide)
  · exact hdot (by decide)
  · exact hdot (by decide)
  · exact hdot (by decide)
  · exact hat (by decide)

/-- A rule about a pattern is a rule about the part of the id. -/
theorem pattern_infix_iff {q : List Char} (hq : q ∈ refPatterns) (incident : Incident)
    (u : Unicode) :
    q <:+: '/' :: ("refs/heads/".toList ++ (incidentBranchName u incident).toList) ++ ['/'] ↔
      q <:+: '/' :: shortId incident := by
  have hdash : '-' ∉ q := by
    fin_cases hq <;> decide
  have hfix : q <:+: "fix".toList ++ '/' :: shortId incident ↔ q <:+: '/' :: shortId incident := by
    have hword : "fix".toList = ['f', 'i', 'x'] := rfl
    rw [hword]
    simp only [List.cons_append, List.nil_append, List.infix_cons_iff (a := 'f'),
      List.infix_cons_iff (a := 'i'), List.infix_cons_iff (a := 'x')]
    fin_cases hq <;> simp [List.cons_prefix_cons]
  have hfirst : ¬ q <:+: "/refs/heads/noema".toList := by
    have hword : "/refs/heads/noema".toList = ['/', 'r', 'e', 'f', 's', '/', 'h', 'e', 'a', 'd',
      's', '/', 'n', 'o', 'e', 'm', 'a'] := rfl
    rw [hword]
    fin_cases hq <;> decide
  -- The name is cut at its dashes. No pattern has a dash, so each lies in one of the pieces.
  have hsplit : '/' :: ("refs/heads/".toList ++ (incidentBranchName u incident).toList) ++ ['/'] =
      "/refs/heads/noema".toList ++ '-' :: (("fix".toList ++ '/' :: shortId incident) ++
        '-' :: (slugOf u incident.title ++ ['/'])) := by
    rw [toList_branchName]
    simp
  rw [hsplit, infix_append_cons_iff hdash, infix_append_cons_iff hdash, or_iff_right hfirst,
    or_iff_left (not_infix_slug hq u incident.title), hfix]

/-- Git accepts the name if and only if the part of the id breaks none of its rules. -/
theorem validRefName_branch_iff (u : Unicode) (incident : Incident) :
    ValidRefName ("refs/heads/".toList ++ (incidentBranchName u incident).toList) ↔
      SafeId (shortId incident) := by
  have hpatterns := forall₂_congr fun q hq => not_congr (pattern_infix_iff (q := q) hq incident u)
  have hslug := fun c hc => slugChar_allowed (slug_chars u incident.title c hc)
  rw [toList_branchName] at hpatterns ⊢
  constructor
  · intro h
    exact ⟨hpatterns.mp h.patterns, fun c hc => h.chars c (by simp [hc])⟩
  · intro h
    refine ⟨by simp, hpatterns.mpr h.patterns, fun c hc => ?_, ?_, by simp⟩
    · have hwords : ∀ c ∈ "refs/heads/".toList ++ "noema-fix/".toList, refForbidden c = false := by
        simp [refForbidden]
      rw [← List.append_assoc, ← List.append_assoc] at hc
      rcases List.mem_append.mp hc with hc | hc
      · rcases List.mem_append.mp hc with hc | hc
        · exact hwords c hc
        · exact h.chars c hc
      · rcases List.mem_cons.mp hc with rfl | hc
        · decide
        · exact (hslug c hc).1
    · -- the name ends as the slug does
      rw [← List.append_assoc, List.getLast?_append_of_ne_nil _ (List.cons_ne_nil _ _),
        List.getLast?_cons_of_ne_nil (slugOf_ne_nil u incident.title)]
      exact fun hdot => (hslug '.' (List.mem_of_getLast? hdot)).2 (by decide)

/-- The names are built of the same parts, or the part of one id goes on as the slug of the
other begins. -/
def SameParts (u : Unicode) (i₁ i₂ : Incident) : Prop :=
  shortId i₁ = shortId i₂ ∧ slugOf u i₁.title = slugOf u i₂.title ∨
    (∃ w, shortId i₂ = shortId i₁ ++ '-' :: w ∧
      slugOf u i₁.title = w ++ '-' :: slugOf u i₂.title) ∨
    ∃ w, shortId i₁ = shortId i₂ ++ '-' :: w ∧ slugOf u i₂.title = w ++ '-' :: slugOf u i₁.title

/-- Two texts with a dash between two parts are the same in one of three ways. -/
theorem append_dash_eq_iff {a b c d : List Char} :
    a ++ '-' :: b = c ++ '-' :: d ↔ a = c ∧ b = d ∨
      (∃ w, c = a ++ '-' :: w ∧ b = w ++ '-' :: d) ∨ ∃ w, a = c ++ '-' :: w ∧ d = w ++ '-' :: b := by
  constructor
  · intro h
    rcases List.append_eq_append_iff.mp h with ⟨m, rfl, hm⟩ | ⟨m, rfl, hm⟩
    · cases m with
      | nil => exact .inl ⟨(List.append_nil a).symm, (List.cons.inj hm).2⟩
      | cons x m =>
        obtain ⟨rfl, hb⟩ := List.cons.inj hm
        exact .inr (.inl ⟨m, rfl, hb⟩)
    · cases m with
      | nil => exact .inl ⟨List.append_nil c, (List.cons.inj hm).2.symm⟩
      | cons x m =>
        obtain ⟨rfl, hd⟩ := List.cons.inj hm
        exact .inr (.inr ⟨m, rfl, hd⟩)
  · rintro (⟨rfl, rfl⟩ | ⟨w, rfl, rfl⟩ | ⟨w, rfl, rfl⟩)
    · rfl
    · simp
    · simp

theorem branch_eq_iff (u : Unicode) (i₁ i₂ : Incident) :
    incidentBranchName u i₁ = incidentBranchName u i₂ ↔ SameParts u i₁ i₂ := by
  rw [← String.toList_inj, toList_branchName, toList_branchName, List.append_assoc,
    List.append_assoc, List.append_cancel_left_eq, append_dash_eq_iff, SameParts]

/-- For two incidents that were parsed: git accepts the names of both branches, and different ids
have different names, if and only if the first eight characters of either id break no rule and
the names are not built of the same parts for different ids. -/
theorem branches_iff {F : Type} [PyInterp F] (u : Unicode) (uuid₁ uuid₂ : String) (now₁ now₂ : F)
    (payload₁ payload₂ : List (String × PyVal F)) :
    ∀ i₁ i₂, parseIncident uuid₁ now₁ payload₁ = .ok i₁ →
      parseIncident uuid₂ now₂ payload₂ = .ok i₂ →
      ((ValidRefName ("refs/heads/".toList ++ (incidentBranchName u i₁).toList) ∧
          ValidRefName ("refs/heads/".toList ++ (incidentBranchName u i₂).toList) ∧
          (i₁.id ≠ i₂.id → incidentBranchName u i₁ ≠ incidentBranchName u i₂)) ↔
        SafeId (shortId i₁) ∧ SafeId (shortId i₂) ∧ (i₁.id ≠ i₂.id → ¬ SameParts u i₁ i₂)) := by
  intro i₁ i₂ _ _
  rw [validRefName_branch_iff, validRefName_branch_iff, ne_eq (incidentBranchName u i₁),
    branch_eq_iff]

/-- A payload with an id and a title. -/
def crashPayload (id : String) : List (String × PyVal FloatText) :=
  [("id", .str id), ("title", .str "Crash: no space")]

theorem parse_crashPayload {id : String} (h : id ≠ "") :
    parseIncident "0f3a" (PyFloat.ofText ['0', '.', '0']) (crashPayload id) =
      .ok { id := id, title := "Crash: no space", description := "" } := by
  simp [parseIncident, parsePlain, crashPayload, dictGet, getOr, List.lookup, PyVal.truthy,
    PyVal.pyOr, strList, PyVal.iter, PyVal.pyFloat, PyVal.toStr, pySlice, h]

/-- The incident of such a payload. -/
def crash (id : String) : Incident := { id := id, title := "Crash: no space", description := "" }

/-- Two crashes with one title have the same parts only if they have the same part of the id. -/
theorem shortId_eq_of_sameParts {u : Unicode} {id₁ id₂ : String}
    (h : SameParts u (crash id₁) (crash id₂)) : shortId (crash id₁) = shortId (crash id₂) := by
  have hlonger : ∀ w : List Char,
      slugOf u "Crash: no space" ≠ w ++ '-' :: slugOf u "Crash: no space" := by
    intro w hslug
    have hlength := congrArg List.length hslug
    simp at hlength
    omega
  rcases h with ⟨hid, -⟩ | ⟨w, -, hslug⟩ | ⟨w, -, hslug⟩
  · exact hid
  · exact absurd hslug (hlonger w)
  · exact absurd hslug (hlonger w)

/-- Two crashes, the id of one of which goes on after a dash. -/
theorem branches_twoCrashes :
    ValidRefName ("refs/heads/".toList ++ (incidentBranchName .ascii (crash "7c1e")).toList) ∧
      ValidRefName ("refs/heads/".toList ++ (incidentBranchName .ascii (crash "7c1e-9b2")).toList) ∧
      incidentBranchName .ascii (crash "7c1e") ≠ incidentBranchName .ascii (crash "7c1e-9b2") := by
  have hid₁ : shortId (crash "7c1e") = ['7', 'c', '1', 'e'] := rfl
  have hid₂ : shortId (crash "7c1e-9b2") = ['7', 'c', '1', 'e', '-', '9', 'b', '2'] := rfl
  have hsafe₁ : SafeId (shortId (crash "7c1e")) := by
    rw [hid₁]
    refine ⟨fun q hq => ?_, by simp [refForbidden]⟩
    fin_cases hq <;> decide
  have hsafe₂ : SafeId (shortId (crash "7c1e-9b2")) := by
    rw [hid₂]
    refine ⟨fun q hq => ?_, by simp [refForbidden]⟩
    fin_cases hq <;> decide
  have hdiffer : ¬ SameParts .ascii (crash "7c1e") (crash "7c1e-9b2") := by
    intro hsame
    have hid := shortId_eq_of_sameParts hsame
    rw [hid₁, hid₂] at hid
    exact absurd hid (by decide)
  obtain ⟨hvalid₁, hvalid₂, hnames⟩ := (branches_iff .ascii _ _ _ _ _ _ _ _
    (@parse_crashPayload "7c1e" (by decide)) (@parse_crashPayload "7c1e-9b2" (by decide))).mpr
      ⟨hsafe₁, hsafe₂, fun _ => hdiffer⟩
  exact ⟨hvalid₁, hvalid₂, hnames (by decide)⟩

/-- A space in the id is in the name, which git refuses; and two ids that agree in eight
characters have one name. -/
theorem branch_refused_and_shared :
    (∃ i, parseIncident "0f3a" (PyFloat.ofText ['0', '.', '0']) (crashPayload "job 7") = .ok i ∧
      incidentBranchName .ascii i = "noema-fix/job 7-crash-no-space" ∧
      ¬ ValidRefName ("refs/heads/".toList ++ (incidentBranchName .ascii i).toList)) ∧
    ∃ i₁ i₂, parseIncident "0f3a" (PyFloat.ofText ['0', '.', '0']) (crashPayload "20240611-1") =
        .ok i₁ ∧
      parseIncident "0f3a" (PyFloat.ofText ['0', '.', '0']) (crashPayload "20240611-2") = .ok i₂ ∧
      i₁.id ≠ i₂.id ∧ incidentBranchName .ascii i₁ = incidentBranchName .ascii i₂ := by
  refine ⟨⟨_, parse_crashPayload (by decide), by decide +kernel, fun h => ?_⟩, _, _,
    parse_crashPayload (by decide), parse_crashPayload (by decide), by decide, by decide +kernel⟩
  exact absurd (h.chars ' ' (by decide +kernel)) (by decide)

end Noema.Autonomy
