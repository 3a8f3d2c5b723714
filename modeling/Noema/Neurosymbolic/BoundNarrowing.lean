import Noema.Lib.Extremes
import Noema.Lib.RegexMatch
import Noema.Neurosymbolic.Symbolic

/-!
# The bounds of a requirement (`neurosymbolic/symbolic.py`)

`_extract_bounds` narrows the explicit bounds by what every pattern finds first in every text: it
uses `re.search`, which gives one match. A requirement may state more, since a pattern can occur
again in the same text.

- `Rule`, `rules`: the patterns with what their groups say, so that the three loops of the source
  are one (`textStep_eq`).
- `readings`: the bounds that the texts state, by the occurrences that are read; `firstReadings` are
  those that the code reads, `allReadings` those of every occurrence.
- `extractBounds_eq_foldlM`: the bounds are the explicit ones met with the first readings, in their
  order.
- `foldlM_readingStep`: readings that return are met one after the other. What is met is the extreme
  one of a list (`Lib.Extremes`), for an order that need not be total, as not all floats compare.
- **`narrowest_iff`**: the bounds are the narrowest of all that the requirement states, if and only
  if no later occurrence of a pattern in a text is narrower than all that was read.
- `statedAgain_wider`: a text with a stricter limit after a first one.
-/

namespace Noema.Neurosymbolic

open Noema.Lib PyJson

variable {F : Type} [PyInterp F]

/-! ## Rules -/

/-- Both bounds are narrowed. -/
def Bounds.meet (b d : Bounds F) : Bounds F :=
  let b := d.lower.elim b b.raiseLower
  d.upper.elim b b.cutUpper

/-- A pattern, and the bounds that the groups of an occurrence state. -/
abbrev Rule (F : Type) := Pat × (List (List Char) → Except PyExc (Bounds F))

/-- The bounds of an interval. -/
def readInterval : List (List Char) → Except PyExc (Bounds F)
  | lo :: hi :: _ => do
    let lo ← toFloat lo
    let hi ← toFloat hi
    return ⟨some lo, some hi⟩
  | _ => .ok ⟨none, none⟩

/-- The bound of a number. -/
def readBound (kind : BoundKind) : List (List Char) → Except PyExc (Bounds F)
  | value :: _ => do
    let value ← toFloat value
    return (⟨none, none⟩ : Bounds F).narrow value kind
  | _ => .ok ⟨none, none⟩

/-- The bound of a number with its unit. -/
def readPhrase (u : Unicode) (kind : BoundKind) : List (List Char) → Except PyExc (Bounds F)
  | value :: suffix :: _ => do
    let value ← toFloat value
    return (⟨none, none⟩ : Bounds F).narrow (PyInterp.mul value (unitScale u suffix)) kind
  | _ => .ok ⟨none, none⟩

/-- The rules, in the order in which they are tried. -/
def rules (u : Unicode) : List (Rule F) :=
  [(inPattern u, readInterval), (betweenPattern u, readInterval),
    (operatorPattern u ">=", readBound .lower), (operatorPattern u "<=", readBound .upper),
    (fieldPattern u "min", readBound .lower), (fieldPattern u "max", readBound .upper)] ++
  (boundPatterns u).map fun (r, kind) => (r, readPhrase u kind)

variable (u : Unicode)

/-- A rule is applied to a text. -/
def ruleStep (lowered : List Char) (b : Bounds F) (rule : Rule F) : Except PyExc (Bounds F) :=
  match rule.1.search u lowered with
  | some groups => (rule.2 groups).map b.meet
  | none => .ok b

theorem meet_narrow (b : Bounds F) (value : F) (kind : BoundKind) :
    b.meet ((⟨none, none⟩ : Bounds F).narrow value kind) = b.narrow value kind := by
  cases kind <;> rfl

theorem intervalStep_eq (r : Pat) (lowered : List Char) (b : Bounds F) :
    intervalStep u r lowered b = ruleStep u lowered b (r, readInterval) := by
  rw [intervalStep, ruleStep]
  cases r.search u lowered with
  | none => rfl
  | some groups =>
    rcases groups with _ | ⟨lo, _ | ⟨hi, groups⟩⟩
    · rfl
    · rfl
    · dsimp only [readInterval]
      cases (toFloat lo : Except PyExc F) with
      | error e => rfl
      | ok lo => cases (toFloat hi : Except PyExc F) <;> rfl

theorem boundStep_eq (r : Pat) (kind : BoundKind) (lowered : List Char) (b : Bounds F) :
    boundStep u r kind lowered b = ruleStep u lowered b (r, readBound kind) := by
  rw [boundStep, ruleStep]
  cases r.search u lowered with
  | none => rfl
  | some groups =>
    rcases groups with _ | ⟨value, groups⟩
    · rfl
    · dsimp only [readBound]
      cases (toFloat value : Except PyExc F) with
      | error e => rfl
      | ok value => exact congrArg Except.ok (meet_narrow b value kind).symm

theorem phraseStep_eq (r : Pat) (kind : BoundKind) (lowered : List Char) (b : Bounds F) :
    phraseStep u lowered b (r, kind) = ruleStep u lowered b (r, readPhrase u kind) := by
  rw [phraseStep, ruleStep]
  cases r.search u lowered with
  | none => rfl
  | some groups =>
    rcases groups with _ | ⟨value, _ | ⟨suffix, groups⟩⟩
    · rfl
    · rfl
    · dsimp only [readPhrase]
      cases (toFloat value : Except PyExc F) with
      | error e => rfl
      | ok value => exact congrArg Except.ok (meet_narrow b _ kind).symm

/-- A text is read by the rules. -/
theorem textStep_eq (b : Bounds F) (text : String) :
    textStep u b text = (rules u).foldlM (ruleStep u (u.lower text.toList)) b := by
  rw [textStep, rules]
  simp only [intervalStep_eq, boundStep_eq, List.foldlM_append, List.foldlM_cons, List.foldlM_nil,
    List.foldlM_map, bind_assoc, bind_pure, ← phraseStep_eq]

/-! ## What a requirement states -/

/-- The bounds that the texts of a requirement state, by the occurrences that are read. -/
def readings (found : Pat → List Char → List (List (List Char))) (req : List (String × PyVal F)) :
    List (Except PyExc (Bounds F)) :=
  (boundTextParts req).flatMap fun text => (rules u).flatMap fun rule =>
    (found rule.1 (u.lower text.toList)).map rule.2

/-- The readings of every occurrence. -/
def allReadings (req : List (String × PyVal F)) : List (Except PyExc (Bounds F)) :=
  readings u (Pat.occurrences u) req

/-- The readings of the first occurrence of each pattern in each text. -/
def firstReadings (req : List (String × PyVal F)) : List (Except PyExc (Bounds F)) :=
  readings u (fun r lowered => (r.search u lowered).toList) req

/-- The readings that return. -/
def statedBounds (ds : List (Except PyExc (Bounds F))) : List (Bounds F) := ds.filterMap Except.toOption

variable {u} {req : List (String × PyVal F)}

theorem firstReadings_subset : ∀ d ∈ firstReadings u req, d ∈ allReadings u req := by
  intro d hd
  obtain ⟨text, htext, hd⟩ := List.mem_flatMap.mp hd
  obtain ⟨rule, hrule, hd⟩ := List.mem_flatMap.mp hd
  obtain ⟨groups, hgroups, rfl⟩ := List.mem_map.mp hd
  refine List.mem_flatMap.mpr ⟨text, htext, List.mem_flatMap.mpr ⟨rule, hrule, ?_⟩⟩
  rw [Option.mem_toList, Pat.search_eq_head?] at hgroups
  exact List.mem_map_of_mem (List.mem_of_head? hgroups)

/-- A reading narrows the bounds. -/
def readingStep (b : Bounds F) (d : Except PyExc (Bounds F)) : Except PyExc (Bounds F) := d.map b.meet

/-- The bounds are the explicit ones, narrowed by the first occurrences. -/
theorem extractBounds_eq_foldlM {lower upper : Option F}
    (hlower : toNum (dictGet req "min") = .ok lower) (hupper : toNum (dictGet req "max") = .ok upper) :
    extractBounds u req = (firstReadings u req).foldlM readingStep ⟨lower, upper⟩ := by
  have hrules : ∀ (lowered : List Char) (rules : List (Rule F)) (b : Bounds F),
      rules.foldlM (ruleStep u lowered) b =
        (rules.flatMap fun rule => (rule.1.search u lowered).toList.map rule.2).foldlM readingStep b := by
    intro lowered rules
    induction rules with
    | nil => exact fun b => rfl
    | cons rule rules ih =>
      intro b
      rw [List.foldlM_cons, List.flatMap_cons, List.foldlM_append, ruleStep]
      cases rule.1.search u lowered with
      | none => exact ih b
      | some groups =>
        simp only [Option.toList_some, List.map_cons, List.map_nil, List.foldlM_cons,
          List.foldlM_nil, bind_pure, ← ih]
        rfl
  have htexts : ∀ (texts : List String) (b : Bounds F), texts.foldlM (textStep u) b =
      (texts.flatMap fun text => (rules u).flatMap fun rule =>
        (rule.1.search u (u.lower text.toList)).toList.map rule.2).foldlM readingStep b := by
    intro texts
    induction texts with
    | nil => exact fun b => rfl
    | cons text texts ih =>
      intro b
      rw [List.foldlM_cons, List.flatMap_cons, List.foldlM_append, textStep_eq, hrules]
      simp only [ih]
  rw [extractBounds, hlower, hupper]
  exact htexts _ _

/-- Readings that return are met one after the other. -/
theorem foldlM_readingStep {ds : List (Except PyExc (Bounds F))} (h : ∀ d ∈ ds, ∃ b, d = .ok b)
    (b : Bounds F) : ds.foldlM readingStep b = .ok ((statedBounds ds).foldl Bounds.meet b) := by
  induction ds generalizing b with
  | nil => rfl
  | cons d ds ih =>
    obtain ⟨b', rfl⟩ := h d List.mem_cons_self
    exact ih (fun d hd => h d (List.mem_cons_of_mem _ hd)) (b.meet b')

theorem lower_foldl_meet (ds : List (Bounds F)) (b : Bounds F) :
    (ds.foldl Bounds.meet b).lower = (ds.filterMap Bounds.lower).foldl
      (fun x v => some (x.elim v (pick PyInterp.lt · v))) b.lower := by
  induction ds generalizing b with
  | nil => rfl
  | cons d ds ih =>
    rw [List.foldl_cons, ih]
    obtain ⟨lower, upper⟩ := d
    cases lower <;> cases upper <;> rfl

theorem upper_foldl_meet (ds : List (Bounds F)) (b : Bounds F) :
    (ds.foldl Bounds.meet b).upper = (ds.filterMap Bounds.upper).foldl
      (fun x v => some (x.elim v (pick (fun a b => PyInterp.lt b a) · v))) b.upper := by
  induction ds generalizing b with
  | nil => rfl
  | cons d ds ih =>
    rw [List.foldl_cons, ih]
    obtain ⟨lower, upper⟩ := d
    cases lower <;> cases upper <;> rfl

/-- The lower bounds of an explicit field and of readings. -/
def lowersOf (x : Option F) (ds : List (Except PyExc (Bounds F))) : List F :=
  x.toList ++ (statedBounds ds).filterMap Bounds.lower

/-- The upper bounds of an explicit field and of readings. -/
def uppersOf (x : Option F) (ds : List (Except PyExc (Bounds F))) : List F :=
  x.toList ++ (statedBounds ds).filterMap Bounds.upper

omit [PyInterp F] in
theorem mem_filterMap_statedBounds {f : Bounds F → Option F} {x : Option F}
    {ds ds' : List (Except PyExc (Bounds F))} (h : ∀ d ∈ ds, d ∈ ds') {v : F}
    (hv : v ∈ x.toList ++ (statedBounds ds).filterMap f) : v ∈ x.toList ++ (statedBounds ds').filterMap f := by
  rcases List.mem_append.mp hv with hv | hv
  · exact List.mem_append_left _ hv
  · obtain ⟨b, hb, hf⟩ := List.mem_filterMap.mp hv
    obtain ⟨d, hd, hok⟩ := List.mem_filterMap.mp hb
    exact List.mem_append_right _ (List.mem_filterMap.mpr
      ⟨b, List.mem_filterMap.mpr ⟨d, h d hd, hok⟩, hf⟩)

/-- The bounds are the narrowest that the requirement states, exactly when no later occurrence of
a pattern in a text states more than the explicit bounds and the first occurrences. -/
theorem narrowest_iff {lower upper : Option F}
    (hlower : toNum (dictGet req "min") = .ok lower) (hupper : toNum (dictGet req "max") = .ok upper)
    (hparse : ∀ d ∈ allReadings u req, ∃ b, d = .ok b)
    (hlowers : Comparable PyInterp.lt (lowersOf lower (allReadings u req)))
    (huppers : Comparable PyInterp.lt (uppersOf upper (allReadings u req))) :
    (∃ b, extractBounds u req = .ok b ∧
      Extreme PyInterp.lt (lowersOf lower (allReadings u req)) b.lower ∧
      Extreme (fun v w => PyInterp.lt w v) (uppersOf upper (allReadings u req)) b.upper) ↔
    (∀ v ∈ lowersOf lower (allReadings u req),
      ∃ w ∈ lowersOf lower (firstReadings u req), PyInterp.lt w v = false) ∧
    (∀ v ∈ uppersOf upper (allReadings u req),
      ∃ w ∈ uppersOf upper (firstReadings u req), PyInterp.lt v w = false) := by
  have hfirst := fun d hd => hparse d (firstReadings_subset d hd)
  rw [extractBounds_eq_foldlM hlower hupper, foldlM_readingStep hfirst]
  have hsubLower : ∀ v ∈ lowersOf lower (firstReadings u req),
      v ∈ lowersOf lower (allReadings u req) := fun v => mem_filterMap_statedBounds firstReadings_subset
  have hsubUpper : ∀ v ∈ uppersOf upper (firstReadings u req),
      v ∈ uppersOf upper (allReadings u req) := fun v => mem_filterMap_statedBounds firstReadings_subset
  -- what the fold has found is extreme among the explicit bound and the first readings
  have hlow := extreme_foldl
    (Extreme.toList (hlowers.mono fun v hv => List.mem_append_left _ hv))
    (hlowers.mono hsubLower)
  have hupp := extreme_foldl
    (Extreme.toList (huppers.flip.mono fun v hv => List.mem_append_left _ hv))
    (huppers.flip.mono hsubUpper)
  rw [← lower_foldl_meet _ ⟨lower, upper⟩] at hlow
  rw [← upper_foldl_meet _ ⟨lower, upper⟩] at hupp
  -- it is extreme among more of them exactly when none of these is narrower
  have hlowIff := hlow.extend_iff hsubLower hlowers
  have huppIff := hupp.extend_iff hsubUpper huppers.flip
  constructor
  · rintro ⟨b, hb, hl, hu⟩
    cases Except.ok.inj hb
    exact ⟨hlowIff.mp hl, huppIff.mp hu⟩
  · rintro ⟨hl, hu⟩
    exact ⟨_, rfl, hlowIff.mpr hl, huppIff.mpr hu⟩

/-- A requirement with an explicit bound and one phrase of each kind. -/
def statedOnce : List (String × PyVal FloatText) :=
  [("min", .int 1), ("description", .str "at least 3 and at most 9")]

theorem statedOnce_narrowest :
    ∃ b, extractBounds .ascii statedOnce = .ok b ∧
      Extreme PyInterp.lt (lowersOf (some (PyFloat.ofText ['1', '.', '0']))
        (allReadings .ascii statedOnce)) b.lower ∧
      Extreme (fun v w => PyInterp.lt w v) (uppersOf none (allReadings .ascii statedOnce)) b.upper := by
  have hparse : (allReadings .ascii statedOnce).all (fun d => d.toOption.isSome) = true := by
    decide +kernel
  refine (narrowest_iff (by decide +kernel) rfl (fun d hd => ?_) ⟨?_, ?_⟩ ⟨?_, ?_⟩).mpr ?_
  · have hd := List.all_eq_true.mp hparse d hd
    cases d with
    | ok b => exact ⟨b, rfl⟩
    | error e => cases hd
  all_goals decide +kernel

/-- A requirement that states a stricter limit after another one. -/
def statedAgain : List (String × PyVal FloatText) :=
  [("description", .str "at most 10, later at most 5")]

theorem statedAgain_wider :
    let ten := PyInterp.mul (PyFloat.ofText ['1', '0', '.', '0']) (unitScale .ascii [])
    let five := PyInterp.mul (PyFloat.ofText ['5', '.', '0']) (unitScale .ascii [])
    extractBounds .ascii statedAgain = .ok ⟨none, some ten⟩ ∧
      five ∈ uppersOf none (allReadings .ascii statedAgain) ∧ PyInterp.lt five ten = true := by
  decide +kernel

end Noema.Neurosymbolic
