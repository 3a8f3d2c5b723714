import Noema.Billing.CostTracker
import Noema.Lib.JsonRoundTrip
import Noema.Lib.PyInterp
import Noema.Lib.PyText
import Noema.Lib.Rounding

/-!
# Costs of a pull request (`CostTracker.attribute_pr_cost`)

The cost of a task is distributed over the files of a pull request by their numbers of lines. Each
share is rounded to micro-dollars on its own, half to even, and a path that is listed twice is
charged twice with the lines of its last content, while the total counts it once.

- `chargedLines`, `totalLines`, `repeatedLines`: the lines that a path is charged for, those of all
  paths, and those that are charged again.
- `sum_shares`: the exact shares add up to the cost and to what is charged again.
- `costs_of_pos`, `costs_of_not_pos`: every listed file is charged its rounded share, if there is
  something to distribute.
- **`attribution_iff`**: the shares add up to the cost of the task if and only if that is zero, or
  the fractions that are rounded off make up exactly for the shares that are rounded up and for what
  is charged again.
- `attribution_lost`: a dollar over three files is 0.999999 USD, and over a file that is listed
  twice it is two dollars.

Costs are exact rationals here, and rounding is Python's `round`.
-/

namespace Noema.Billing

open Noema.Lib PyJson

variable {T : Type}

/-- `FileCost`. -/
structure FileCost where
  filePath : String
  linesAdded : Nat
  tokensInput : Int := 0
  tokensOutput : Int := 0
  costUsd : ℚ := 0
  model : String := ""
  taskId : String := ""
  repo : String := ""
  prNumber : String := ""

/-- `calculate_line_costs` (cost_tracker.py:76). -/
def calculateLineCosts (totalCost : ℚ) (linesByFile : List (String × Int)) : List (String × ℚ) :=
  let totalLines := (linesByFile.map fun p => max p.2 0).sum
  if totalLines ≤ 0 ∨ totalCost ≤ 0 then linesByFile.map fun p => (p.1, 0)
  else linesByFile.map fun p => (p.1, roundTo 6 (totalCost * (max p.2 0 : Int) / totalLines))

/-- `len(content.splitlines())`. -/
def lineCount (content : String) : Nat := (splitLinesFrom [] content.toList).length

/-- `{path: len(content.splitlines()) for path, content in files}`. -/
def linesByFile (files : List (String × String)) : List (String × Int) :=
  files.foldl (fun lines f => dictInsert f.1 (lineCount f.2 : Int) lines) []

namespace CostTracker

/-- `get_task_cost` (cost_tracker.py:219). -/
def getTaskCost (c : CostTracker T) (taskId : String) : ℚ :=
  roundTo 6 ((c.records.filter fun r => r.taskId = taskId).map CostRecord.costUsd).sum

/-- `attribute_pr_cost` (cost_tracker.py:222): the records that it returns. -/
def attributePrCost (c : CostTracker T) (repo : String) (prNumber : Int) (taskId : String)
    (files : List (String × String)) (model : String) : List FileCost :=
  if files = [] then []
  else
    let costs := calculateLineCosts (c.getTaskCost taskId) (linesByFile files)
    files.map fun f =>
      { filePath := f.1
        linesAdded := lineCount f.2
        costUsd := (costs.lookup f.1).getD 0
        model := model
        taskId := taskId
        repo := repo
        prNumber := toString prNumber }

end CostTracker

/-! ## The lines of the files -/

variable {files : List (String × String)}

theorem linesByFile_append (files : List (String × String)) (f : String × String) :
    linesByFile (files ++ [f]) = dictInsert f.1 (lineCount f.2 : Int) (linesByFile files) := by
  rw [linesByFile, List.foldl_append]
  rfl

theorem mem_keys_linesByFile {path : String} :
    path ∈ (linesByFile files).map Prod.fst ↔ path ∈ files.map Prod.fst := by
  induction files using List.reverseRecOn with
  | nil => rfl
  | append_singleton files f ih =>
    rw [linesByFile_append, mem_keys_dictInsert, ih, List.map_append, List.mem_append, or_comm,
      List.map_singleton, List.mem_singleton]

theorem nodup_keys_linesByFile : ((linesByFile files).map Prod.fst).Nodup := by
  induction files using List.reverseRecOn with
  | nil => exact List.nodup_nil
  | append_singleton files f ih =>
    rw [linesByFile_append]
    by_cases hmem : f.1 ∈ (linesByFile files).map Prod.fst
    · rwa [keys_dictInsert_of_mem hmem]
    · rw [dictInsert_of_not_mem hmem, List.map_append]
      exact ih.append (List.nodup_singleton _) (by simpa using hmem)

theorem lines_nonneg : ∀ p ∈ linesByFile files, 0 ≤ p.2 := by
  induction files using List.reverseRecOn with
  | nil => exact fun p h => absurd h List.not_mem_nil
  | append_singleton files f ih =>
    intro p hp
    rw [linesByFile_append] at hp
    rcases mem_dictInsert hp with rfl | hp
    · exact Int.natCast_nonneg _
    · exact ih p hp

/-- The lines that a path is charged for, those of its last content. -/
def chargedLines (files : List (String × String)) (path : String) : Int :=
  ((linesByFile files).lookup path).getD 0

/-- The lines of all paths, each counted once. -/
def totalLines (files : List (String × String)) : Int := ((linesByFile files).map Prod.snd).sum

/-- The lines that are charged again, for paths that are listed again. -/
def repeatedLines (files : List (String × String)) : Int :=
  ((linesByFile files).map fun p => (((files.map Prod.fst).count p.1 : Int) - 1) * p.2).sum

theorem lookup_linesByFile {p : String × Int} (h : p ∈ linesByFile files) :
    (linesByFile files).lookup p.1 = some p.2 :=
  lookup_of_mem_nodup nodup_keys_linesByFile h

theorem chargedLines_of_mem {p : String × Int} (h : p ∈ linesByFile files) :
    chargedLines files p.1 = p.2 := by
  rw [chargedLines, lookup_linesByFile h, Option.getD_some]

/-- The lines that the listed files are charged for. -/
theorem sum_chargedLines (files : List (String × String)) :
    (files.map fun f => chargedLines files f.1).sum = totalLines files + repeatedLines files := by
  have hpaths : (files.map fun f => chargedLines files f.1) =
      (files.map Prod.fst).map (chargedLines files) := by
    rw [List.map_map]
    rfl
  have hkeys : (files.map Prod.fst).toFinset = ((linesByFile files).map Prod.fst).toFinset := by
    ext path
    rw [List.mem_toFinset, List.mem_toFinset, mem_keys_linesByFile]
  rw [hpaths, Finset.sum_list_map_count, hkeys, List.sum_toFinset _ nodup_keys_linesByFile,
    List.map_map, totalLines, repeatedLines, ← List.sum_map_add]
  congr 1
  refine List.map_congr_left fun p hp => ?_
  rw [Function.comp_apply, chargedLines_of_mem hp, nsmul_eq_mul]
  ring

/-! ## The shares -/

/-- The exact shares of the listed files, in micro-dollars. -/
def shares (cost : ℚ) (files : List (String × String)) : List ℚ :=
  files.map fun f => cost * 10 ^ 6 * chargedLines files f.1 / totalLines files

theorem sum_shares {cost : ℚ} (hlines : 0 < totalLines files) :
    (shares cost files).sum =
      cost * 10 ^ 6 + cost * 10 ^ 6 * repeatedLines files / totalLines files := by
  have hne : (totalLines files : ℚ) ≠ 0 := by exact_mod_cast hlines.ne'
  have hsum : (files.map fun f => (chargedLines files f.1 : ℚ)).sum =
      totalLines files + repeatedLines files := by
    have h := congrArg (Int.cast : Int → ℚ) (sum_chargedLines files)
    rwa [Int.cast_list_sum, List.map_map, Int.cast_add] at h
  calc (shares cost files).sum
    _ = (files.map fun f => (chargedLines files f.1 : ℚ) * (cost * 10 ^ 6 / totalLines files)).sum :=
      congrArg List.sum (List.map_congr_left fun f _ => by ring)
    _ = (totalLines files + repeatedLines files) * (cost * 10 ^ 6 / totalLines files) := by
      rw [List.sum_map_mul_right, hsum]
    _ = cost * 10 ^ 6 + cost * 10 ^ 6 * repeatedLines files / totalLines files := by
      field_simp

/-- The costs of the paths, where all numbers of lines are natural. -/
theorem calculateLineCosts_linesByFile (cost : ℚ) (files : List (String × String)) :
    calculateLineCosts cost (linesByFile files) =
      if totalLines files ≤ 0 ∨ cost ≤ 0 then (linesByFile files).map fun p => (p.1, 0)
      else (linesByFile files).map fun p => (p.1, roundTo 6 (cost * p.2 / totalLines files)) := by
  have hmax : (linesByFile files).map (fun p => max p.2 0) = (linesByFile files).map Prod.snd :=
    List.map_congr_left fun p hp => max_eq_left (lines_nonneg p hp)
  rw [calculateLineCosts, hmax, ← totalLines]
  split
  · rfl
  · refine List.map_congr_left fun p hp => ?_
    rw [max_eq_left (lines_nonneg p hp)]

namespace CostTracker

variable (c : CostTracker T) (repo : String) (prNumber : Int) (taskId : String)
  (files : List (String × String)) (model : String)

theorem costs_attributePrCost :
    (c.attributePrCost repo prNumber taskId files model).map FileCost.costUsd =
      files.map fun f =>
        ((calculateLineCosts (c.getTaskCost taskId) (linesByFile files)).lookup f.1).getD 0 := by
  rw [attributePrCost]
  split
  · next hnil => rw [hnil]; rfl
  · rw [List.map_map]
    rfl

/-- Each listed file is charged its rounded share. -/
theorem costs_of_pos (hcost : 0 < c.getTaskCost taskId) (hlines : 0 < totalLines files) :
    (c.attributePrCost repo prNumber taskId files model).map FileCost.costUsd =
      (shares (c.getTaskCost taskId) files).map fun x => (roundHalfEven x : ℚ) / 10 ^ 6 := by
  have hnot : ¬ (totalLines files ≤ 0 ∨ c.getTaskCost taskId ≤ 0) := by
    rw [not_or, not_le, not_le]
    exact ⟨hlines, hcost⟩
  rw [costs_attributePrCost, calculateLineCosts_linesByFile, if_neg hnot, shares, List.map_map]
  refine List.map_congr_left fun f hf => ?_
  obtain ⟨p, hp, hpath⟩ := List.mem_map.mp (mem_keys_linesByFile.mpr (List.mem_map_of_mem hf))
  have hlookup := lookup_mapValues
    (fun n : Int => roundTo 6 (c.getTaskCost taskId * n / totalLines files)) f.1 (linesByFile files)
  have hshare : c.getTaskCost taskId * 10 ^ 6 * p.2 / totalLines files =
      c.getTaskCost taskId * p.2 / totalLines files * 10 ^ 6 := by ring
  rw [hlookup, ← hpath, lookup_linesByFile hp, Function.comp_apply, ← hpath, chargedLines_of_mem hp,
    hshare]
  rfl

/-- Nobody is charged for nothing. -/
theorem costs_of_not_pos (h : totalLines files ≤ 0 ∨ c.getTaskCost taskId ≤ 0) :
    ((c.attributePrCost repo prNumber taskId files model).map FileCost.costUsd).sum = 0 := by
  rw [costs_attributePrCost, calculateLineCosts_linesByFile, if_pos h]
  refine List.sum_eq_zero (List.forall_mem_map.mpr fun f _ => ?_)
  have hlookup := lookup_mapValues (fun _ => (0 : ℚ)) f.1 (linesByFile files)
  rw [hlookup]
  rcases (linesByFile files).lookup f.1 with _ | n
  · rfl
  · rfl

/-- The costs of the files add up to the cost of the task if and only if this is zero, or the parts
of micro-dollars that are rounded off add up to the shares that are rounded up and to what is
charged again for paths that are listed again. Both sides are computed from the cost and the numbers
of lines; nothing of the loop is left. -/
theorem attribution_iff :
    ((c.attributePrCost repo prNumber taskId files model).map FileCost.costUsd).sum =
        c.getTaskCost taskId ↔
      c.getTaskCost taskId = 0 ∨ 0 < c.getTaskCost taskId ∧ 0 < totalLines files ∧
        ((shares (c.getTaskCost taskId) files).map Int.fract).sum =
          (shares (c.getTaskCost taskId) files).countP (fun x => RoundsUp x) +
            c.getTaskCost taskId * 10 ^ 6 * repeatedLines files / totalLines files := by
  by_cases hpos : 0 < c.getTaskCost taskId ∧ 0 < totalLines files
  · obtain ⟨hcost, hlines⟩ := hpos
    -- The rounded shares are the exact ones, less their fractions, plus one for each that is
    -- rounded up.
    have hround := sum_roundHalfEven (shares (c.getTaskCost taskId) files)
    have hshares := @sum_shares files (c.getTaskCost taskId) hlines
    have hsum : ((c.attributePrCost repo prNumber taskId files model).map FileCost.costUsd).sum =
        ((shares (c.getTaskCost taskId) files).map roundHalfEven).sum / 10 ^ 6 := by
      simp only [costs_of_pos c repo prNumber taskId files model hcost hlines, Int.cast_list_sum,
        List.map_map, div_eq_mul_inv, List.sum_map_mul_right]
      rfl
    rw [hsum, or_iff_right hcost.ne', and_iff_right hcost, and_iff_right hlines,
      div_eq_iff (by norm_num)]
    constructor
    · intro h
      linarith
    · intro h
      linarith
  · have hzero := costs_of_not_pos c repo prNumber taskId files model (by
      rw [not_and_or, not_lt, not_lt] at hpos
      exact hpos.symm)
    rw [hzero]
    constructor
    · exact fun h => .inl h.symm
    · rintro (h | ⟨hcost, hlines, -⟩)
      · exact h.symm
      · exact absurd ⟨hcost, hlines⟩ hpos

end CostTracker

/-- A task that cost a dollar. -/
def dollarTask : CostTracker Int :=
  CostTracker.new.record ⟨false, false⟩
    (CostTracker.recordOf "acme" "t1" "openai" "gpt-4o" 400000 0 "" 0) ⟨2026, 1, 15⟩
    ⟨.ok, .ok, .ok, .ok, true⟩

/-- A dollar over three files of one line is 0.999999 USD, and over one file that is listed twice it
is two dollars. -/
theorem attribution_lost : dollarTask.getTaskCost "t1" = 1 ∧
    ((dollarTask.attributePrCost "acme/app" 7 "t1" [("a.py", "x"), ("b.py", "y"), ("c.py", "z")]
      "gpt-4o").map FileCost.costUsd).sum = 999999 / 1000000 ∧
    ((dollarTask.attributePrCost "acme/app" 7 "t1" [("a.py", "x"), ("a.py", "x")]
      "gpt-4o").map FileCost.costUsd).sum = 2 := by
  decide +kernel

end Noema.Billing
