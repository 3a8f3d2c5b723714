import Noema.Lib.RegexMatch
import Noema.Sandbox.Environment

/-!
# Test counts (`sandbox/environment.py`)

`_parse_pytest_counts` looks for `N passed`, `N failed` and `N error` in the last 2000 characters of
what a run of the tests printed. What the tests print themselves stands in the same text, before the
summary line, and a search takes the first match.

- `lastSummary`: what the last summary line of the text reports, which is what the counts are
  compared with. The line is read from its bars and words, and not by the patterns of the source.
- `FirstCount`: the first count of a word in a text, without regular expressions;
  `searchCount_eq_some_iff` says that it is what the search finds.
- `parsePytestCounts_cases`: the counts are the first ones shown, and follow the return code where
  none is.
- **`failsClosed_iff`**: the counts are those of the last summary line, and a run that failed has a
  failure, if and only if the first counts that are shown agree with both (`FirstCountsTell`).
- `printedCounts_pass`: a test that prints counts of its own and fails. The counts say that three
  tests passed.
-/

namespace Noema.Sandbox

open Noema.Lib

/-! ## Summary lines -/

/-- The value of a text of ASCII digits. -/
def number? (text : List Char) : Option Nat :=
  if text ≠ [] ∧ text.all Char.isDigit then some (digitsValue (fun c => c.toNat - 48) text) else none

/-- The seconds of a run, as in `0.12s`. -/
def isSeconds (text : List Char) : Bool :=
  match text.splitOn '.' with
  | [whole, fraction] =>
    (number? whole).isSome && (number? fraction.dropLast).isSome && fraction.getLast? == some 's'
  | _ => false

/-- The counts with their words, before the time of the run. -/
def readCounts : List (List Char) → Option (List (Nat × String))
  | count :: word :: rest => do
    let n ← number? count
    if word.getLast? = some ',' then
      let counts ← readCounts rest
      some ((n, String.ofList word.dropLast) :: counts)
    else
      match rest with
      | sep :: seconds :: _ =>
        if sep = ['i', 'n'] ∧ isSeconds seconds then some [(n, String.ofList word)] else none
      | _ => none
  | _ => none

/-- The tests that passed and that failed, and the errors. -/
structure Summary where
  passed : Nat
  failed : Nat
  errors : Nat
  deriving DecidableEq, Repr

/-- What a summary line reports: `== 2 failed, 3 passed, 1 error in 0.12s ==`, or the same without
the bars. -/
def readSummary (line : List Char) : Option Summary :=
  let isBar := fun c => c == '=' || c == ' '
  let text := ((line.dropWhile isBar).reverse.dropWhile isBar).reverse
  (readCounts (text.splitOn ' ')).map fun counts =>
    let total (words : List String) := ((counts.filter (·.2 ∈ words)).map Prod.fst).sum
    ⟨total ["passed"], total ["failed"], total ["error", "errors"]⟩

/-- What the last summary line of the output reports. -/
def lastSummary (output : String) : Option Summary :=
  ((output.toList.splitOn '\n').filterMap readSummary).getLast?

example : lastSummary "1 passed\n=== 1 failed, 3 passed, 2 errors in 0.12s ===\n" = some ⟨3, 1, 2⟩ := by
  decide +kernel

/-! ## Counts in a text -/

section Counts

variable (u : Unicode) (digit : Char → Nat)

/-- A text begins with a count of a word: decimals, whitespace and the word. -/
def BeginsCount (word : String) (text count : List Char) : Prop :=
  (∀ c ∈ count, u.isDecimal c = true) ∧ count ≠ [] ∧ ∃ space rest,
    text = count ++ (space ++ (word.toList ++ rest)) ∧ (∀ c ∈ space, isSpace c = true) ∧ space ≠ []

/-- No count of a word is shown in a text. -/
def NoCount (word : String) (text : List Char) : Prop :=
  ∀ pre rest count, text = pre ++ rest → ¬ BeginsCount u word rest count

/-- The first count of a word in a text, with all its decimals, is `n`. -/
def FirstCount (word : String) (text : List Char) (n : Nat) : Prop :=
  ∃ pre rest count, text = pre ++ rest ∧ BeginsCount u word rest count ∧
    (∀ count', BeginsCount u word rest count' → count'.length ≤ count.length) ∧
    (∀ pre' rest' count', text = pre' ++ rest' → pre'.length < pre.length →
      ¬ BeginsCount u word rest' count') ∧
    digitsValue digit count = n

/-- `(\d+)\s+word` -/
def countPattern (word : String) : Pat :=
  .seq (.group (.many1 u.isDecimal)) (.seq (.many1 isSpace) (.lit word))

/-- `int(match.group(1))` of a search for the count of a word. -/
def searchCount (word : String) (text : List Char) : Option Nat :=
  (Pat.search u (countPattern u word) text).bind fun groups => groups.head?.map (digitsValue digit)

variable {u digit} {word : String} {text : List Char}

theorem mem_run_spaced {m m' : Pat.Match} :
    m' ∈ Pat.run u (.seq (.many1 isSpace) (.lit word)) m ↔ ∃ space rest,
      m.pos.rest = space ++ (word.toList ++ rest) ∧ (∀ c ∈ space, isSpace c = true) ∧ space ≠ [] ∧
        m' = (m.after space (word.toList ++ rest)).after word.toList rest := by
  rw [Pat.mem_run_seq]
  constructor
  · rintro ⟨m₁, h₁, h⟩
    obtain ⟨space, rest, hrest, hspace, hne, rfl⟩ := Pat.mem_run_many1.mp h₁
    obtain ⟨rest', rfl, rfl⟩ := Pat.mem_run_lit.mp h
    exact ⟨space, rest', hrest, hspace, hne, rfl⟩
  · rintro ⟨space, rest, hrest, hspace, hne, rfl⟩
    exact ⟨_, Pat.mem_run_many1.mpr ⟨space, _, hrest, hspace, hne, rfl⟩,
      Pat.mem_run_lit.mpr ⟨rest, rfl, rfl⟩⟩

theorem run_countPattern_eq_nil_iff {prev : Option Char} :
    Pat.run u (countPattern u word) ⟨⟨prev, text⟩, []⟩ = [] ↔
      ∀ count, ¬ BeginsCount u word text count := by
  rw [List.eq_nil_iff_forall_not_mem]
  constructor
  · rintro h count ⟨hdecimal, hcount, space, rest, rfl, hspace, hne⟩
    let start : Pat.Match := ⟨⟨prev, count ++ (space ++ (word.toList ++ rest))⟩, []⟩
    have hgroup := Pat.mem_run_group (u := u) (m := start)
      |>.mpr ⟨_, Pat.mem_run_many1.mpr ⟨count, _, rfl, hdecimal, hcount, rfl⟩, count, rfl, rfl⟩
    exact h _ (Pat.mem_run_seq.mpr ⟨_, hgroup, mem_run_spaced.mpr ⟨space, rest, rfl, hspace, hne, rfl⟩⟩)
  · intro h m hm
    obtain ⟨m₁, h₁, hword⟩ := Pat.mem_run_seq.mp hm
    obtain ⟨m₂, h₂, cs, -, rfl⟩ := Pat.mem_run_group.mp h₁
    obtain ⟨count, rest, hrest, hdecimal, hcount, rfl⟩ := Pat.mem_run_many1.mp h₂
    obtain ⟨space, rest', rfl, hspace, hne, -⟩ := mem_run_spaced.mp hword
    exact h count ⟨hdecimal, hcount, space, rest', hrest, hspace, hne⟩

theorem searchCount_eq_none_iff (digit : Char → Nat) :
    searchCount u digit word text = none ↔ NoCount u word text := by
  have hsearch : searchCount u digit word text = none ↔
      Pat.search u (countPattern u word) text = none := by
    cases h : Pat.search u (countPattern u word) text with
    | none => simp [searchCount, h]
    | some groups =>
      obtain ⟨pre, rest, -, ⟨m, hm, rfl⟩, -⟩ := Pat.search_eq_some h
      obtain ⟨count, rest', -, -, -, hhead, -⟩ := Pat.head?_group_many1 hm
      obtain ⟨space, rest'', -, -, -, hm'⟩ := mem_run_spaced.mp (List.mem_of_head? hhead)
      simp [searchCount, h, hm', Pat.Match.after]
  rw [hsearch, Pat.search_eq_none_iff]
  constructor
  · exact fun h pre rest count htext => run_countPattern_eq_nil_iff.mp (h pre rest htext) count
  · exact fun h pre rest htext => run_countPattern_eq_nil_iff.mpr fun count => h pre rest count htext

theorem firstCount_of_searchCount {n : Nat} (h : searchCount u digit word text = some n) :
    FirstCount u digit word text n := by
  obtain ⟨groups, hsearch, hvalue⟩ := Option.bind_eq_some_iff.mp h
  obtain ⟨pre, rest, rfl, ⟨m, hm, rfl⟩, hearlier⟩ := Pat.search_eq_some hsearch
  obtain ⟨count, rest', hrest, hdecimal, hcount, hhead, hlongest⟩ := Pat.head?_group_many1 hm
  obtain ⟨space, rest'', hrest', hspace, hne, rfl⟩ := mem_run_spaced.mp (List.mem_of_head? hhead)
  refine ⟨pre, rest, count, rfl, ⟨hdecimal, hcount, space, rest'', ?_, hspace, hne⟩, ?_, ?_, ?_⟩
  · exact hrest.trans (congrArg _ hrest')
  · rintro count' ⟨hdecimal', -, space', rest₁, rfl, hspace', hne'⟩
    by_contra hlt
    have hnil := hlongest count' _ rfl hdecimal' (by omega)
    exact List.eq_nil_iff_forall_not_mem.mp hnil _
      (mem_run_spaced.mpr ⟨space', rest₁, rfl, hspace', hne', rfl⟩)
  · intro pre' rest₁ count' htext hlt
    exact run_countPattern_eq_nil_iff.mp (hearlier pre' rest₁ htext hlt) count'
  · simpa [Pat.Match.after] using hvalue

/-- A text has one first count of a word. -/
theorem FirstCount.unique {n k : Nat} (hn : FirstCount u digit word text n)
    (hk : FirstCount u digit word text k) : n = k := by
  obtain ⟨pre, rest, count, htext, hcount, hlongest, hfirst, rfl⟩ := hn
  obtain ⟨pre', rest', count', htext', hcount', hlongest', hfirst', rfl⟩ := hk
  have hlength : pre.length = pre'.length := by
    by_contra hne
    rcases Nat.lt_or_gt_of_ne hne with hlt | hlt
    · exact hfirst' pre rest count htext hlt hcount
    · exact hfirst pre' rest' count' htext' hlt hcount'
  obtain ⟨rfl, rfl⟩ := List.append_inj (htext.symm.trans htext') hlength
  have hsame : count.length = count'.length :=
    le_antisymm (hlongest' count hcount) (hlongest count' hcount')
  obtain ⟨-, -, _, _, hrest, -, -⟩ := hcount
  obtain ⟨-, -, _, _, hrest', -, -⟩ := hcount'
  rw [(List.append_inj (hrest.symm.trans hrest') hsame).1]

theorem searchCount_eq_some_iff {n : Nat} :
    searchCount u digit word text = some n ↔ FirstCount u digit word text n := by
  refine ⟨firstCount_of_searchCount, fun h => ?_⟩
  cases hsearch : searchCount u digit word text with
  | some k => rw [(firstCount_of_searchCount hsearch).unique h]
  | none =>
    obtain ⟨pre, rest, count, htext, hcount, -⟩ := h
    exact absurd hcount ((searchCount_eq_none_iff digit).mp hsearch pre rest count htext)

end Counts

/-! ## Counts of a run -/

section Run

variable (u : Unicode) (digit : Char → Nat) (output : String) (returncode : Int)

/-- The last 2000 characters. -/
def outputTail : List Char := output.toList.drop (output.length - 2000)

/-- The last 2000 characters show no count. -/
def Silent : Prop :=
  NoCount u "passed" (outputTail output) ∧ NoCount u "failed" (outputTail output) ∧
    NoCount u "error" (outputTail output)

/-- The first count of a word in the last 2000 characters, zero where there is none. -/
def Shows (word : String) (n : Nat) : Prop :=
  FirstCount u digit word (outputTail output) n ∨ (NoCount u word (outputTail output) ∧ n = 0)

/-- A run that failed has a failure, and the counts are those of the last summary line. -/
def FailsClosed : Prop :=
  (returncode ≠ 0 → 1 ≤ (parsePytestCounts u digit output returncode).2) ∧
    ∀ s, lastSummary output = some s →
      parsePytestCounts u digit output returncode = (s.passed, s.failed + s.errors)

/-- The first counts shown agree with the return code and with the last summary line. -/
structure FirstCountsTell : Prop where
  failing : returncode ≠ 0 → Silent u output ∨
    ∃ failed errors, Shows u digit output "failed" failed ∧ Shows u digit output "error" errors ∧
      0 < failed + errors
  summary : ∀ s, lastSummary output = some s →
    (¬ Silent u output ∧ Shows u digit output "passed" s.passed ∧
      ∃ failed errors, Shows u digit output "failed" failed ∧ Shows u digit output "error" errors ∧
        failed + errors = s.failed + s.errors) ∨
    (Silent u output ∧ s.passed = (if returncode = 0 then 1 else 0) ∧
      s.failed + s.errors = if returncode = 0 then 0 else 1)

variable {u digit output}

theorem shows_iff {word : String} {n : Nat} :
    Shows u digit output word n ↔ (searchCount u digit word (outputTail output)).getD 0 = n := by
  rw [Shows, ← searchCount_eq_some_iff, ← searchCount_eq_none_iff digit]
  cases searchCount u digit word (outputTail output) <;> simp [eq_comm]

/-- The counts of a run from the counts that its output shows. -/
def countsOf (returncode : Int) : Option Nat → Option Nat → Option Nat → Nat × Nat
  | none, none, none => if returncode = 0 then (1, 0) else (0, 1)
  | passed, failed, errors => (passed.getD 0, failed.getD 0 + errors.getD 0)

/-- The counts are the first ones shown, and follow the return code where none is. -/
theorem parsePytestCounts_cases (u : Unicode) (digit : Char → Nat) (output : String)
    (returncode : Int) :
    (Silent u output ∧
      parsePytestCounts u digit output returncode = if returncode = 0 then (1, 0) else (0, 1)) ∨
    (¬ Silent u output ∧ ∃ passed failed errors, Shows u digit output "passed" passed ∧
      Shows u digit output "failed" failed ∧ Shows u digit output "error" errors ∧
      parsePytestCounts u digit output returncode = (passed, failed + errors)) := by
  have heq : parsePytestCounts u digit output returncode =
      countsOf returncode (searchCount u digit "passed" (outputTail output))
        (searchCount u digit "failed" (outputTail output))
        (searchCount u digit "error" (outputTail output)) := by
    unfold parsePytestCounts outputTail
    generalize output.toList.drop (output.length - 2000) = tail
    rfl
  simp only [Silent, ← searchCount_eq_none_iff digit, shows_iff, heq]
  rcases searchCount u digit "passed" (outputTail output) with _ | passed <;>
    rcases searchCount u digit "failed" (outputTail output) with _ | failed <;>
      rcases searchCount u digit "error" (outputTail output) with _ | errors <;> simp [countsOf]

/-- The counts are those of the summary line, and a run that failed has a failure, exactly when the
first counts shown agree with both. -/
theorem failsClosed_iff (u : Unicode) (digit : Char → Nat) (output : String) (returncode : Int) :
    FailsClosed u digit output returncode ↔ FirstCountsTell u digit output returncode := by
  obtain ⟨hsilent, heq⟩ | ⟨hsilent, p, f, e, hp, hf, he, heq⟩ :=
    parsePytestCounts_cases u digit output returncode
  · constructor
    · rintro ⟨-, hsummary⟩
      refine ⟨fun _ => .inl hsilent, fun s hs => .inr ⟨hsilent, ?_⟩⟩
      have hcounts := heq.symm.trans (hsummary s hs)
      split at hcounts <;> simp_all
    · rintro ⟨-, hsummary⟩
      refine ⟨fun hrc => by rw [heq, if_neg hrc], fun s hs => ?_⟩
      obtain ⟨hnot, -⟩ | ⟨-, hpassed, hfailed⟩ := hsummary s hs
      · exact absurd hsilent hnot
      · rw [heq, hpassed, hfailed]
        split <;> rfl
  -- the text shows counts, and these are what is returned, whatever the return code is
  · rw [shows_iff] at hp hf he
    constructor
    · rintro ⟨hfailing, hsummary⟩
      refine ⟨fun hrc => .inr ⟨f, e, shows_iff.mpr hf, shows_iff.mpr he, ?_⟩, fun s hs => .inl ?_⟩
      · have := hfailing hrc
        rwa [heq] at this
      · obtain ⟨hpassed, hfailed⟩ := Prod.mk.inj (heq.symm.trans (hsummary s hs))
        exact ⟨hsilent, shows_iff.mpr (hp.trans hpassed), f, e, shows_iff.mpr hf,
          shows_iff.mpr he, hfailed⟩
    · rintro ⟨hfailing, hsummary⟩
      refine ⟨fun hrc => ?_, fun s hs => ?_⟩
      · obtain hnot | ⟨f', e', hf', he', hpos⟩ := hfailing hrc
        · exact absurd hnot hsilent
        · rw [shows_iff] at hf' he'
          rw [heq]
          show 1 ≤ f + e
          omega
      · obtain ⟨-, hpassed, f', e', hf', he', hfailed⟩ | ⟨hnot, -⟩ := hsummary s hs
        · rw [shows_iff] at hpassed hf' he'
          rw [heq, ← hp, hpassed, ← hf, hf', ← he, he', hfailed]
        · exact absurd hnot hsilent

end Run

/-- A test that prints counts of its own, and fails. -/
def printedCounts : String := "3 passed, 0 failed\n1 failed, 2 passed in 0.10s\n"

/-- The run failed, and the counts say that three tests passed. -/
theorem printedCounts_pass :
    lastSummary printedCounts = some ⟨2, 1, 0⟩ ∧
      parsePytestCounts .ascii (fun c => c.toNat - 48) printedCounts 1 = (3, 0) ∧
      ¬ FailsClosed .ascii (fun c => c.toNat - 48) printedCounts 1 := by
  have hcounts : parsePytestCounts .ascii (fun c => c.toNat - 48) printedCounts 1 = (3, 0) := by
    decide +kernel
  refine ⟨by decide +kernel, hcounts, fun h => ?_⟩
  have hfailing := h.1 (by decide)
  rw [hcounts] at hfailing
  exact absurd hfailing (by decide)

end Noema.Sandbox
