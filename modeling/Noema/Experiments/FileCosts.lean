import Noema.Billing.PrCost

/-!
# File costs of a run (`attribute_file_costs`, `experiments/runner.py`)

The tokens of a run are distributed over the generated files by their numbers of lines. Each share
but the last is rounded on its own, half to even, and the last file gets what the others leave,
which may be less than nothing.

- `tokens_spread`: the two columns of tokens are one computation with two totals (`spread`), so
  everything is proved once.
- `spread_eq`: all shares but the last are rounded, and the last one is what is left; so a column
  always adds up to its total.
- `spread_nonneg_iff`: nobody gets less than nothing if and only if the rounded shares leave
  something.
- `RoundingFits`: the same in terms of the exact shares: what the shares before the last are rounded
  up by is no more than what they are rounded down by and the share of the last.
- **`partition_iff`**: for all code blocks of which one has a name and a content, the rows are a
  partition of the tokens if and only if both columns fit.
- `fileCosts_negative`: of three tokens for five files, four get one and the last one gets minus
  one.

Shares are exact rationals; `lineCount` is `len(content.splitlines())`.
-/

namespace Noema.Experiments

open Noema.Lib
open Noema.Billing (lineCount)

/-- A row of the attribution. -/
structure FileCostRow where
  filePath : String
  lines : Nat
  tokensInput : Int
  tokensOutput : Int
  totalTokens : Int
  costEstimate : ℚ
  deriving DecidableEq

section Rows

variable (tokensInput tokensOutput : Int) (costPerToken : ℚ) (totalLines : Nat)

/-- `rows.append(...)`. -/
def fileCostRow (file : String × Nat) (fileInput fileOutput : Int) : FileCostRow where
  filePath := file.1
  lines := file.2
  tokensInput := fileInput
  tokensOutput := fileOutput
  totalTokens := fileInput + fileOutput
  costEstimate := roundTo 8 (costPerToken * (fileInput + fileOutput : Int))

/-- The loop over the files; the sums are those of the rows before. -/
def fileCostRows : List (String × Nat) → Int → Int → List FileCostRow
  | [], _, _ => []
  -- The last file absorbs the rounding remainder.
  | [file], sumInput, sumOutput =>
    [fileCostRow costPerToken file (tokensInput - sumInput) (tokensOutput - sumOutput)]
  | file :: files, sumInput, sumOutput =>
    let share : ℚ := file.2 / totalLines
    let fileInput := roundHalfEven (tokensInput * share)
    let fileOutput := roundHalfEven (tokensOutput * share)
    fileCostRow costPerToken file fileInput fileOutput ::
      fileCostRows files (sumInput + fileInput) (sumOutput + fileOutput)

end Rows

/-- The code blocks with a name, with the lines of their contents. -/
def namedFiles (codeBlocks : List (String × String)) : List (String × Nat) :=
  (codeBlocks.filter fun block => block.1 ≠ "").map fun block => (block.1, lineCount block.2)

/-- The lines of all files. -/
def linesOf (files : List (String × Nat)) : Nat := (files.map Prod.snd).sum

/-- `attribute_file_costs` (runner.py:192), of code blocks with a name and a content. -/
def attributeFileCosts (codeBlocks : List (String × String)) (tokensInput tokensOutput : Int)
    (costPerToken : ℚ) : List FileCostRow :=
  let files := namedFiles codeBlocks
  if linesOf files ≤ 0 ∨ tokensInput ≤ 0 ∧ tokensOutput ≤ 0 then []
  else fileCostRows tokensInput tokensOutput costPerToken (linesOf files) files 0 0

/-! ## One column -/

section Spread

variable (total : Int) (totalLines : Nat)

/-- The exact share of a file. -/
def shareOf (file : String × Nat) : ℚ := total * (file.2 / totalLines)

/-- The tokens of the files, of which those before have got some. -/
def spread : List (String × Nat) → Int → List Int
  | [], _ => []
  | [_], sum => [total - sum]
  | file :: files, sum =>
    let tokens := roundHalfEven (shareOf total totalLines file)
    tokens :: spread files (sum + tokens)

variable {total totalLines}

/-- The columns of tokens. -/
theorem tokens_spread {tokensInput tokensOutput : Int} {costPerToken : ℚ}
    (files : List (String × Nat)) (sumInput sumOutput : Int) :
    (fileCostRows tokensInput tokensOutput costPerToken totalLines files sumInput sumOutput).map
        FileCostRow.tokensInput = spread tokensInput totalLines files sumInput ∧
      (fileCostRows tokensInput tokensOutput costPerToken totalLines files sumInput sumOutput).map
        FileCostRow.tokensOutput = spread tokensOutput totalLines files sumOutput := by
  induction files generalizing sumInput sumOutput with
  | nil => exact ⟨rfl, rfl⟩
  | cons file files ih =>
    cases files with
    | nil => exact ⟨rfl, rfl⟩
    | cons next files =>
      obtain ⟨hinput, houtput⟩ := ih
        (sumInput + roundHalfEven (shareOf tokensInput totalLines file))
        (sumOutput + roundHalfEven (shareOf tokensOutput totalLines file))
      exact ⟨congrArg (List.cons _) hinput, congrArg (List.cons _) houtput⟩

/-- All shares but the last are rounded, and the last one is what is left. -/
theorem spread_eq {files : List (String × Nat)} (hne : files ≠ []) (sum : Int) :
    spread total totalLines files sum =
      (files.dropLast.map fun file => roundHalfEven (shareOf total totalLines file)) ++
        [total - sum -
          (files.dropLast.map fun file => roundHalfEven (shareOf total totalLines file)).sum] := by
  induction files generalizing sum with
  | nil => exact absurd rfl hne
  | cons file files ih =>
    cases files with
    | nil => simp [spread]
    | cons next files =>
      rw [spread, ih (List.cons_ne_nil _ _), List.dropLast_cons_cons, List.map_cons, List.sum_cons,
        List.cons_append, Int.sub_sub, Int.sub_sub, Int.add_assoc]
      exact fun h => by cases h

theorem sum_spread {files : List (String × Nat)} (hne : files ≠ []) :
    (spread total totalLines files 0).sum = total := by
  rw [spread_eq hne, List.sum_append, List.sum_singleton]
  omega

theorem roundHalfEven_nonneg {x : ℚ} (hx : 0 ≤ x) : 0 ≤ roundHalfEven x := by
  have hfloor : 0 ≤ ⌊x⌋ := Int.floor_nonneg.mpr hx
  rw [roundHalfEven]
  split
  · omega
  · exact hfloor

theorem shareOf_nonneg (htotal : 0 ≤ total) (file : String × Nat) :
    0 ≤ shareOf total totalLines file := by
  have hcast : (0 : ℚ) ≤ total := by exact_mod_cast htotal
  exact mul_nonneg hcast (div_nonneg (Nat.cast_nonneg _) (Nat.cast_nonneg _))

/-- Nobody gets less than nothing if and only if the rounded shares leave something. -/
theorem spread_nonneg_iff {files : List (String × Nat)} (hne : files ≠ []) (htotal : 0 ≤ total) :
    (∀ tokens ∈ spread total totalLines files 0, 0 ≤ tokens) ↔
      (files.dropLast.map fun file => roundHalfEven (shareOf total totalLines file)).sum
        ≤ total := by
  rw [spread_eq hne, List.forall_mem_append, List.forall_mem_singleton, and_iff_right]
  · omega
  · intro tokens htokens
    obtain ⟨file, -, rfl⟩ := List.mem_map.mp htokens
    exact roundHalfEven_nonneg (shareOf_nonneg htotal file)

/-- The exact shares of all files are the total. -/
theorem sum_shareOf (total : Int) {files : List (String × Nat)} (hlines : 0 < linesOf files) :
    (files.map (shareOf total (linesOf files))).sum = total := by
  have hne : (linesOf files : ℚ) ≠ 0 := by exact_mod_cast hlines.ne'
  have hsum : (files.map fun file => (file.2 : ℚ)).sum = linesOf files := by
    rw [linesOf, Nat.cast_list_sum, List.map_map]
    rfl
  calc (files.map (shareOf total (linesOf files))).sum
    _ = (files.map fun file => (file.2 : ℚ) * (total / linesOf files)).sum :=
      congrArg List.sum (List.map_congr_left fun file _ => by rw [shareOf]; ring)
    _ = linesOf files * (total / linesOf files) := by rw [List.sum_map_mul_right, hsum]
    _ = total := by field_simp

end Spread

/-! ## Partitions -/

/-- The shares before the last that are rounded up are no more than what is rounded off the shares
before the last, with the exact share of the last file. -/
def RoundingFits (total : Int) (files : List (String × Nat)) : Prop :=
  let shares := files.map (shareOf total (linesOf files))
  (shares.dropLast.countP fun x => RoundsUp x : ℚ) ≤
    (shares.dropLast.map Int.fract).sum + shares.getLast?.getD 0

instance (total : Int) (files : List (String × Nat)) : Decidable (RoundingFits total files) :=
  inferInstanceAs (Decidable ((_ : ℚ) ≤ _))

/-- The rows add up to the totals, and no row has a negative count. -/
def IsPartition (tokensInput tokensOutput : Int) (rows : List FileCostRow) : Prop :=
  (rows.map FileCostRow.tokensInput).sum = tokensInput ∧
    (rows.map FileCostRow.tokensOutput).sum = tokensOutput ∧
    ∀ row ∈ rows, 0 ≤ row.tokensInput ∧ 0 ≤ row.tokensOutput

theorem roundingFits_iff {total : Int} {files : List (String × Nat)} (hlines : 0 < linesOf files) :
    RoundingFits total files ↔
      (files.dropLast.map fun file =>
        roundHalfEven (shareOf total (linesOf files) file)).sum ≤ total := by
  have hne : files ≠ [] := by
    rintro rfl
    exact absurd hlines (Nat.lt_irrefl 0)
  obtain ⟨before, last, rfl⟩ := List.eq_nil_or_concat files |>.resolve_left hne
  rw [List.concat_eq_append] at hlines ⊢
  -- All exact shares add up to the total, and rounding changes a sum by what is rounded up less
  -- what is rounded down.
  have htotal := sum_shareOf total hlines
  have hround := sum_roundHalfEven
    (before.map (shareOf total (linesOf (before ++ [last]))))
  rw [List.map_append, List.sum_append, List.map_singleton, List.sum_singleton] at htotal
  rw [List.map_map] at hround
  rw [RoundingFits, List.dropLast_concat, List.map_append, List.map_singleton,
    List.dropLast_concat, List.getLast?_concat, Option.getD_some]
  have hcast : ((before.map fun file =>
      roundHalfEven (shareOf total (linesOf (before ++ [last])) file)).sum ≤ total) ↔
      ((before.map fun file =>
        roundHalfEven (shareOf total (linesOf (before ++ [last])) file)).sum : ℚ) ≤ total :=
    Int.cast_le.symm
  rw [hcast]
  have hsame : (before.map (roundHalfEven ∘ shareOf total (linesOf (before ++ [last])))) =
      before.map fun file => roundHalfEven (shareOf total (linesOf (before ++ [last])) file) := rfl
  rw [hsame] at hround
  constructor
  · intro hfits
    linarith
  · intro hleft
    linarith

theorem lineCount_pos {content : String} (h : content ≠ "") : 0 < lineCount content := by
  have hlines : ∀ cs cur : List Char, cur ≠ [] ∨ cs ≠ [] → splitLinesFrom cur cs ≠ [] := by
    intro cs cur hcs
    induction cur, cs using splitLinesFrom.induct with
    | case1 => simp at hcs
    | case2 cur hcur => simp [splitLinesFrom, hcur]
    | case3 => simp [splitLinesFrom]
    | case4 cur c cs hcrlf hbreak _ => simp [splitLinesFrom, hbreak]
    | case5 cur c cs hcrlf hbreak ih =>
      rw [splitLinesFrom, if_neg hbreak]
      · exact ih (.inl (List.cons_ne_nil _ _))
      · exact hcrlf
  refine List.length_pos_of_ne_nil (hlines _ _ (.inr fun hnil => h ?_))
  exact String.toList_inj.mp (hnil.trans String.toList_empty.symm)

/-- A named block that is not empty has lines. -/
theorem linesOf_pos {codeBlocks : List (String × String)}
    (h : ∃ block ∈ codeBlocks, block.1 ≠ "" ∧ block.2 ≠ "") : 0 < linesOf (namedFiles codeBlocks) := by
  obtain ⟨block, hblock, hname, hcontent⟩ := h
  have hfile : (block.1, lineCount block.2) ∈ namedFiles codeBlocks :=
    List.mem_map_of_mem (f := fun block : String × String => (block.1, lineCount block.2))
      (List.mem_filter.mpr ⟨hblock, decide_eq_true hname⟩)
  exact (lineCount_pos hcontent).trans_le
    (List.single_le_sum (fun _ _ => Nat.zero_le _) _ (List.mem_map_of_mem hfile))

/-- **File costs.** For all code blocks of which one has a name and a content, and all totals that
are not negative and not both zero, the rows are a partition of the totals if and only if rounding
fits for both. -/
theorem partition_iff {codeBlocks : List (String × String)}
    (hnamed : ∃ block ∈ codeBlocks, block.1 ≠ "" ∧ block.2 ≠ "") {tokensInput tokensOutput : Int}
    (hinput : 0 ≤ tokensInput) (houtput : 0 ≤ tokensOutput)
    (hsome : tokensInput ≠ 0 ∨ tokensOutput ≠ 0) (costPerToken : ℚ) :
    IsPartition tokensInput tokensOutput
        (attributeFileCosts codeBlocks tokensInput tokensOutput costPerToken) ↔
      RoundingFits tokensInput (namedFiles codeBlocks) ∧
        RoundingFits tokensOutput (namedFiles codeBlocks) := by
  have hlines := linesOf_pos hnamed
  have hne : namedFiles codeBlocks ≠ [] := by
    intro hnil
    rw [hnil] at hlines
    exact absurd hlines (Nat.lt_irrefl 0)
  have hrows : attributeFileCosts codeBlocks tokensInput tokensOutput costPerToken =
      fileCostRows tokensInput tokensOutput costPerToken (linesOf (namedFiles codeBlocks))
        (namedFiles codeBlocks) 0 0 := if_neg (by omega)
  obtain ⟨hcolumn, hcolumn'⟩ := @tokens_spread (linesOf (namedFiles codeBlocks)) tokensInput
    tokensOutput costPerToken (namedFiles codeBlocks) 0 0
  -- The two columns are independent of each other.
  have hnonneg : (∀ row ∈ attributeFileCosts codeBlocks tokensInput tokensOutput costPerToken,
      0 ≤ row.tokensInput ∧ 0 ≤ row.tokensOutput) ↔
      (∀ n ∈ spread tokensInput (linesOf (namedFiles codeBlocks)) (namedFiles codeBlocks) 0, 0 ≤ n) ∧
      ∀ n ∈ spread tokensOutput (linesOf (namedFiles codeBlocks)) (namedFiles codeBlocks) 0,
        0 ≤ n := by
    rw [hrows, ← hcolumn, ← hcolumn', List.forall_mem_map, List.forall_mem_map]
    exact forall₂_and
  rw [IsPartition, hnonneg, hrows, hcolumn, hcolumn', sum_spread hne, sum_spread hne,
    and_iff_right rfl, and_iff_right rfl, spread_nonneg_iff hne hinput,
    spread_nonneg_iff hne houtput, roundingFits_iff hlines, roundingFits_iff hlines]

/-- Blocks of one line each. -/
def oneLineBlocks (names : List String) : List (String × String) :=
  names.map fun name => (name, "x = 1")

/-- Three tokens for two files. -/
theorem partition_two :
    IsPartition 3 1 (attributeFileCosts (oneLineBlocks ["a.py", "b.py"]) 3 1 0) := by
  exact (partition_iff ⟨("a.py", "x = 1"), List.mem_cons_self, by decide⟩ (by decide) (by decide)
    (.inl (by decide)) 0).mpr ⟨by decide +kernel, by decide +kernel⟩

/-- Of three tokens for five files, four files get one. -/
theorem fileCosts_negative :
    (attributeFileCosts (oneLineBlocks ["a.py", "b.py", "c.py", "d.py", "e.py"]) 3 0 0).map
        FileCostRow.tokensInput = [1, 1, 1, 1, -1] ∧
      ¬ IsPartition 3 0
        (attributeFileCosts (oneLineBlocks ["a.py", "b.py", "c.py", "d.py", "e.py"]) 3 0 0) := by
  have hrows : (attributeFileCosts
      (oneLineBlocks ["a.py", "b.py", "c.py", "d.py", "e.py"]) 3 0 0).map
        FileCostRow.tokensInput = [1, 1, 1, 1, -1] := by decide +kernel
  refine ⟨hrows, fun h => ?_⟩
  have hnonneg : ∀ n ∈ (attributeFileCosts
      (oneLineBlocks ["a.py", "b.py", "c.py", "d.py", "e.py"]) 3 0 0).map
        FileCostRow.tokensInput, 0 ≤ n :=
    List.forall_mem_map.mpr fun row hrow => (h.2.2 row hrow).1
  rw [hrows] at hnonneg
  exact absurd (hnonneg (-1) (by decide)) (by decide)

end Noema.Experiments
