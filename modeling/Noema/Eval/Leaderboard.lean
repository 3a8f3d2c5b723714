import Noema.Lib.Json
import Noema.Lib.PyRuntime
import Noema.Lib.Regex
import Noema.Lib.Rounding

/-!
# The leaderboard (`eval/leaderboard.py`)

`compute_leaderboard` merges the rows of all summaries, one by one, in the order in which the run
directories are enumerated. A mean is rounded after every merge, a worst score of zero counts as
none, and the pass rate of the sandbox is averaged with the next one, whatever the cells are. Each
of these can depend on the order.

- `filter_computeLeaderboard`: a row of the leaderboard depends on the runs of its provider and
  model only. The loop keeps one row per key, and the others do not touch it (`filter_mergeRow`).
- `RowCorrect`: what a row should say, in terms of all runs at once: means weighted by cells, to
  1/10000, the best and the worst score, and the mean of the pass rates.
- `ScoresFit`, `RatesFit`, `MeansFit`: conditions on the runs as a collection, one for each way to
  depend on the order. That they suffice is shown column by column (`isWorst_foldl`,
  `averaged_rates`, `total_mean`).
- **`reproducible`**: when the runs fit, their row is the same in every order, and right.
  Conversely, a row that is so has scores and pass rates that fit. For the means the other direction
  is not claimed: roundings of several merges may cancel out.
- `averaged_swap`: the reason why pass rates that differ can hardly fit. Of three and more,
  exchanging the last two changes the average.
- `meansFit_of_sublists`: the condition on the means is decided for concrete runs part by part.

Numbers are exact rationals, and `round(x, 4)` rounds ties to even on them.
-/

namespace Noema.Eval

open Noema.Lib PyJson

/-! ## The rows of the summaries -/

/-- A row of a `summary.json`, whose floats are exact. -/
abbrev RawRow := List (String × PyVal ℚ)

/-- What the interpreter makes of values: `str(v)` of what is no text, and `float(text)`. -/
structure Conversions where
  strOf : PyVal ℚ → String
  floatOf : String → Option ℚ

/-- What is read of a row. -/
structure SummaryRow where
  provider : String
  model : String
  n : ℕ
  score : ℚ
  latency : ℚ
  tokens : ℚ
  cost : ℚ
  errorRate : ℚ
  sandbox : Option ℚ
  pos : 1 ≤ n

/-- The provider and the model. -/
def SummaryRow.key (r : SummaryRow) : String × String := (r.provider, r.model)

section Reading

variable (c : Conversions)

/-- `str(v)`. -/
def textOf : PyVal ℚ → String
  | .str s => s
  | v => c.strOf v

/-- `_to_float`, with the default `0.0`. -/
def toFloat : PyVal ℚ → ℚ
  | .int i => i
  | .float q => q
  | .bool b => if b then 1 else 0
  | .str s => (c.floatOf s).getD 0
  | .none | .list _ | .dict _ | .other _ => 0

/-- `float(v)`, if `v` is an `int` or a `float`. -/
def numberOf : PyVal ℚ → Option ℚ
  | .int i => some i
  | .float q => some q
  | .bool b => some (if b then 1 else 0)
  | .none | .str _ | .list _ | .dict _ | .other _ => none

/-- `int(f)`. -/
def truncate (q : ℚ) : ℤ := if 0 ≤ q then ⌊q⌋ else ⌈q⌉

/-- `row.get(field)`. -/
def get (row : RawRow) (field : String) : PyVal ℚ := (row.lookup field).getD .none

/-- What `compute_leaderboard` reads of a row, unless it has no provider or no model. -/
def readRow (row : RawRow) : Option SummaryRow :=
  let provider := textOf c ((row.lookup "provider").getD (.str ""))
  let model := textOf c ((row.lookup "model").getD (.str ""))
  if provider = "" ∨ model = "" then none
  else some
    { provider, model
      n := (max 1 (truncate (toFloat c ((row.lookup "n").getD (.int 0))))).toNat
      score := toFloat c (get row "mean_judge_score")
      latency := toFloat c (get row "mean_latency_ms")
      tokens := toFloat c (get row "mean_total_tokens")
      cost := toFloat c (get row "mean_cost")
      errorRate := toFloat c (get row "error_rate")
      sandbox := numberOf (get row "sandbox_pass_rate")
      pos := by omega }

end Reading

/-! ## The leaderboard -/

/-- `LeaderboardRow`. -/
@[ext]
structure LeaderboardRow where
  provider : String
  model : String
  runs : ℕ := 0
  cells : ℕ := 0
  meanJudgeScore : ℚ := 0
  bestScore : ℚ := 0
  worstScore : ℚ := 0
  meanLatencyMs : ℚ := 0
  meanTotalTokens : ℚ := 0
  meanCost : ℚ := 0
  errorRate : ℚ := 0
  sandboxPassRate : Option ℚ := none

/-- `key`. -/
def LeaderboardRow.key (row : LeaderboardRow) : String × String := (row.provider, row.model)

/-- `LeaderboardRow(provider, model)`. -/
def newRow (key : String × String) : LeaderboardRow := { provider := key.1, model := key.2 }

/-- `_weighted`. -/
def weighted (current : ℚ) (currentN : ℕ) (value : ℚ) (newN : ℕ) : ℚ :=
  if currentN + newN ≤ 0 then 0
  else roundTo 4 ((current * currentN + value * newN) / ((currentN + newN : ℕ) : ℚ))

/-- The worst score, where zero is none. -/
def worse (worst score : ℚ) : ℚ := if worst = 0 then score else min worst score

/-- The pass rate of the sandbox after a run. -/
def rated (current sandbox : Option ℚ) : Option ℚ :=
  match sandbox with
  | some val => some (current.elim val fun rate => (rate + val) / 2)
  | none => current

/-- A run is merged into a row. -/
def LeaderboardRow.add (out : LeaderboardRow) (r : SummaryRow) : LeaderboardRow :=
  { out with
    runs := out.runs + 1
    cells := out.cells + r.n
    meanJudgeScore := weighted out.meanJudgeScore out.cells r.score r.n
    meanLatencyMs := weighted out.meanLatencyMs out.cells r.latency r.n
    meanTotalTokens := weighted out.meanTotalTokens out.cells r.tokens r.n
    meanCost := weighted out.meanCost out.cells r.cost r.n
    errorRate := weighted out.errorRate out.cells r.errorRate r.n
    bestScore := max out.bestScore r.score
    worstScore := worse out.worstScore r.score
    sandboxPassRate := rated out.sandboxPassRate r.sandbox }

/-- The body of the loop: `acc.setdefault(...)` and the merge. -/
def mergeRow : List LeaderboardRow → SummaryRow → List LeaderboardRow
  | [], r => [(newRow r.key).add r]
  | out :: acc, r => if out.key = r.key then out.add r :: acc else out :: mergeRow acc r

/-- The key of the ranking. -/
def rankKey (u : Unicode) (row : LeaderboardRow) : ℚ ×ₗ ℚ ×ₗ ℚ ×ₗ String ×ₗ String :=
  toLex (-row.meanJudgeScore, toLex (row.meanLatencyMs, toLex (row.meanCost,
    toLex (String.ofList (u.lower row.provider.toList), String.ofList (u.lower row.model.toList)))))

/-- `compute_leaderboard` (leaderboard.py:103), of the rows of the summaries in the order in which
the run directories are enumerated. -/
def computeLeaderboard (c : Conversions) (u : Unicode) (rows : List RawRow) (topN : ℤ) :
    List LeaderboardRow :=
  let acc := (rows.filterMap (readRow c)).foldl mergeRow []
  let ranked := sortedBy (rankKey u) acc
  if 0 < topN then ranked.take topN.toNat else ranked

/-! ## What a row should say -/

/-- The columns that hold means. -/
inductive Column where
  | score
  | latency
  | tokens
  | cost
  | errorRate

/-- The five columns. -/
def Column.all : List Column := [.score, .latency, .tokens, .cost, .errorRate]

theorem Column.mem_all (col : Column) : col ∈ Column.all := by
  cases col <;> simp [Column.all]

/-- The value of a run. -/
def Column.value : Column → SummaryRow → ℚ
  | .score => SummaryRow.score
  | .latency => SummaryRow.latency
  | .tokens => SummaryRow.tokens
  | .cost => SummaryRow.cost
  | .errorRate => SummaryRow.errorRate

/-- The mean in a row. -/
def Column.mean : Column → LeaderboardRow → ℚ
  | .score => LeaderboardRow.meanJudgeScore
  | .latency => LeaderboardRow.meanLatencyMs
  | .tokens => LeaderboardRow.meanTotalTokens
  | .cost => LeaderboardRow.meanCost
  | .errorRate => LeaderboardRow.errorRate

/-- The mean of values, each with its number of cells. -/
def cellMean (values : List (ℕ × ℚ)) : ℚ :=
  (values.map fun v => (v.1 : ℚ) * v.2).sum / ((values.map Prod.fst).sum : ℕ)

/-- The values of a column, with their cells. -/
def Column.values (col : Column) (runs : List SummaryRow) : List (ℕ × ℚ) :=
  runs.map fun r => (r.n, col.value r)

/-- The pass rates of the runs that have one, with their cells. -/
def rates (runs : List SummaryRow) : List (ℕ × ℚ) :=
  runs.filterMap fun r => r.sandbox.map fun rate => (r.n, rate)

/-- The row of the runs is right. -/
structure RowCorrect (runs : List SummaryRow) (row : LeaderboardRow) : Prop where
  means : ∀ col : Column, |col.mean row - cellMean (col.values runs)| ≤ 1 / 10000
  sandbox : row.sandboxPassRate = if rates runs = [] then none else some (cellMean (rates runs))
  best : (∃ r ∈ runs, r.score = row.bestScore) ∧ ∀ r ∈ runs, r.score ≤ row.bestScore
  worst : (∃ r ∈ runs, r.score = row.worstScore) ∧ ∀ r ∈ runs, row.worstScore ≤ r.score

section Order

variable (c : Conversions) (u : Unicode) (key : String × String)

/-- The runs of a provider and a model. -/
def runsOf (rows : List RawRow) : List SummaryRow :=
  rows.filterMap fun row => (readRow c row).filter fun r => r.key = key

/-- In whatever order the rows are enumerated, there is the same row, and it is right. -/
def Reproducible (raws : List RawRow) : Prop :=
  ∃ row, RowCorrect (runsOf c key raws) row ∧ ∀ rows : List RawRow, rows.Perm raws →
    (computeLeaderboard c u rows 0).filter (fun out => out.key = key) = [row]

end Order

/-- Some score is not negative; and some score is negative, or none is zero, or all are. -/
def ScoresFit (runs : List SummaryRow) : Prop :=
  (∃ r ∈ runs, 0 ≤ r.score) ∧
    ((∃ r ∈ runs, r.score < 0) ∨ (∀ r ∈ runs, r.score ≠ 0) ∨ ∀ r ∈ runs, r.score = 0)

/-- The pass rates are all the same, or there are two of them, with as many cells. -/
def RatesFit (runs : List SummaryRow) : Prop :=
  (∀ a ∈ rates runs, ∀ b ∈ rates runs, a.2 = b.2) ∨
    (rates runs).length = 2 ∧ ∀ a ∈ rates runs, ∀ b ∈ rates runs, a.1 = b.1

instance decidableScoresFit (runs : List SummaryRow) : Decidable (ScoresFit runs) :=
  inferInstanceAs (Decidable ((∃ r ∈ runs, 0 ≤ r.score) ∧
    ((∃ r ∈ runs, r.score < 0) ∨ (∀ r ∈ runs, r.score ≠ 0) ∨ ∀ r ∈ runs, r.score = 0)))

instance decidableRatesFit (runs : List SummaryRow) : Decidable (RatesFit runs) :=
  inferInstanceAs (Decidable ((∀ a ∈ rates runs, ∀ b ∈ rates runs, a.2 = b.2) ∨
    (rates runs).length = 2 ∧ ∀ a ∈ rates runs, ∀ b ∈ rates runs, a.1 = b.1))

/-- The mean of some of the runs has no more than four digits after the point. -/
def MeansFit (runs : List SummaryRow) : Prop :=
  ∀ (col : Column) (part : List SummaryRow), part.Subperm runs → part ≠ [] →
    part.length < runs.length → ∃ k : ℤ, cellMean (col.values part) = k / 10 ^ 4

/-! ## Orders -/

/-- What is selected of a list comes in any order if the list is put in order. -/
theorem exists_perm_filterMap {α β : Type} {f : α → Option β} {xs : List α} {ys : List β}
    (h : (xs.filterMap f).Perm ys) : ∃ xs' : List α, xs'.Perm xs ∧ xs'.filterMap f = ys := by
  generalize hzs : xs.filterMap f = zs at h
  induction h generalizing xs with
  | nil => exact ⟨xs, .refl _, hzs⟩
  | cons y _ ih =>
    obtain ⟨before, x, after, rfl, hbefore, hx, hafter⟩ := List.filterMap_eq_cons_iff.mp hzs
    obtain ⟨after', hperm, hafter'⟩ := ih hafter
    refine ⟨before ++ x :: after', (hperm.cons x).append_left before, ?_⟩
    rw [List.filterMap_append, List.filterMap_eq_nil_iff.mpr hbefore, List.filterMap_cons_some hx,
      hafter', List.nil_append]
  | swap y z ys =>
    obtain ⟨before, x, rest, rfl, hbefore, hx, hrest⟩ := List.filterMap_eq_cons_iff.mp hzs
    obtain ⟨between, x', after, rfl, hbetween, hx', hafter⟩ := List.filterMap_eq_cons_iff.mp hrest
    have hperm : ((between ++ [x']) ++ x :: after).Perm (x :: (between ++ x' :: after)) := by
      have hmiddle := @List.perm_middle _ x (between ++ [x']) after
      rwa [List.append_assoc between [x'] after] at hmiddle
    refine ⟨before ++ ((between ++ [x']) ++ x :: after), hperm.append_left before, ?_⟩
    simp only [List.filterMap_append, List.filterMap_eq_nil_iff.mpr hbefore,
      List.filterMap_eq_nil_iff.mpr hbetween, List.filterMap_cons_some hx,
      List.filterMap_cons_some hx', hafter, List.filterMap_nil, List.nil_append, List.cons_append]
  | trans _ _ ih ih' =>
    obtain ⟨xs₁, hperm₁, h₁⟩ := ih hzs
    obtain ⟨xs₂, hperm₂, h₂⟩ := ih' h₁
    exact ⟨xs₂, hperm₂.trans hperm₁, h₂⟩

/-! ## The row of a provider and a model -/

section Frame

variable {key : String × String}

/-- The row into which the runs are merged. -/
def total (key : String × String) (runs : List SummaryRow) : LeaderboardRow :=
  runs.foldl LeaderboardRow.add (newRow key)

/-- What a merge does to the row of a key. -/
theorem filter_mergeRow {acc : List LeaderboardRow} {row : Option LeaderboardRow}
    (hacc : acc.filter (fun out => out.key = key) = row.toList) (r : SummaryRow) :
    (mergeRow acc r).filter (fun out => out.key = key) =
      (if r.key = key then some ((row.getD (newRow key)).add r) else row).toList := by
  induction acc generalizing row with
  | nil =>
    cases row with
    | none =>
      by_cases hr : r.key = key
      · subst hr
        have hkey : ((newRow r.key).add r).key = r.key := rfl
        rw [if_pos rfl, mergeRow, List.filter_singleton, decide_eq_true hkey]
        rfl
      · have hkey : ((newRow r.key).add r).key ≠ key := hr
        rw [if_neg hr, mergeRow, List.filter_singleton, decide_eq_false hkey]
        rfl
    | some out => cases hacc
  | cons out acc ih =>
    -- The row of the key comes first, and later rows have other keys; or it is still to come.
    by_cases hout : out.key = key
    · rw [List.filter_cons_of_pos (by simpa using hout)] at hacc
      have hrow : row = some out := by
        cases row with
        | none => cases hacc
        | some out' => rw [(List.cons.inj hacc).1]
      subst hrow
      have hrest : acc.filter (fun out => out.key = key) = (none : Option LeaderboardRow).toList :=
        (List.cons.inj hacc).2
      rw [mergeRow]
      by_cases hr : out.key = r.key
      · have hkey : (out.add r).key = key := hout
        rw [if_pos hr, if_pos (hr.symm.trans hout), List.filter_cons_of_pos (by simpa using hkey), hrest]
        rfl
      · have hne : r.key ≠ key := fun heq => hr (hout.trans heq.symm)
        have hih := ih hrest
        rw [if_neg hne] at hih
        rw [if_neg hr, if_neg hne, List.filter_cons_of_pos (by simpa using hout), hih]
        rfl
    · rw [List.filter_cons_of_neg (by simpa using hout)] at hacc
      rw [mergeRow]
      by_cases hr : out.key = r.key
      · have hne : r.key ≠ key := fun heq => hout (hr.trans heq)
        have hkey : (out.add r).key ≠ key := hout
        rw [if_pos hr, if_neg hne, List.filter_cons_of_neg (by simpa using hkey), hacc]
      · rw [if_neg hr, List.filter_cons_of_neg (by simpa using hout)]
        exact ih hacc

theorem filter_foldl_mergeRow (rs : List SummaryRow) {acc : List LeaderboardRow}
    {row : LeaderboardRow} (hacc : acc.filter (fun out => out.key = key) = [row]) :
    (rs.foldl mergeRow acc).filter (fun out => out.key = key) =
      [(rs.filter fun r => r.key = key).foldl LeaderboardRow.add row] := by
  induction rs generalizing acc row with
  | nil => exact hacc
  | cons r rs ih =>
    have hmerge := @filter_mergeRow key acc (some row) hacc r
    rw [List.foldl_cons]
    by_cases hr : r.key = key
    · rw [if_pos hr] at hmerge
      rw [ih hmerge, List.filter_cons_of_pos (by simpa using hr), List.foldl_cons]
      rfl
    · rw [if_neg hr] at hmerge
      rw [ih hmerge, List.filter_cons_of_neg (by simpa using hr)]

/-- The merged rows have one row for the key if there are runs of it. -/
theorem filter_merged (rs : List SummaryRow) (hne : (rs.filter fun r => r.key = key) ≠ [])
    {acc : List LeaderboardRow} (hacc : acc.filter (fun out => out.key = key) = []) :
    (rs.foldl mergeRow acc).filter (fun out => out.key = key) =
      [total key (rs.filter fun r => r.key = key)] := by
  induction rs generalizing acc with
  | nil => exact absurd rfl hne
  | cons r rs ih =>
    have hmerge := @filter_mergeRow key acc none hacc r
    rw [List.foldl_cons]
    by_cases hr : r.key = key
    · rw [if_pos hr] at hmerge
      rw [filter_foldl_mergeRow rs hmerge, List.filter_cons_of_pos (by simpa using hr), total,
        List.foldl_cons]
      rfl
    · rw [if_neg hr] at hmerge
      rw [List.filter_cons_of_neg (by simpa using hr)] at hne ⊢
      exact ih hne hmerge

/-- The leaderboard has one row for a provider and a model, in which its runs are merged. -/
theorem filter_computeLeaderboard (c : Conversions) (u : Unicode) {rows : List RawRow}
    (hne : runsOf c key rows ≠ []) :
    (computeLeaderboard c u rows 0).filter (fun out => out.key = key) =
      [total key (runsOf c key rows)] := by
  have hruns : runsOf c key rows = (rows.filterMap (readRow c)).filter fun r => r.key = key := by
    rw [runsOf, List.filter_filterMap]
  rw [hruns] at hne ⊢
  have hperm := (sortedBy_perm (rankKey u) ((rows.filterMap (readRow c)).foldl mergeRow [])).filter
    fun out => decide (out.key = key)
  rw [filter_merged _ hne rfl] at hperm
  rw [computeLeaderboard]
  exact List.perm_singleton.mp hperm

/-- A row can be reproduced if the order of its runs does not matter, and it is right. -/
theorem reproducible_iff_total (c : Conversions) (u : Unicode) {raws : List RawRow}
    (hne : runsOf c key raws ≠ []) :
    Reproducible c u key raws ↔ ∃ row, RowCorrect (runsOf c key raws) row ∧
      ∀ runs : List SummaryRow, runs.Perm (runsOf c key raws) → total key runs = row := by
  refine exists_congr fun row => and_congr_right fun _ => ?_
  constructor
  · intro h runs hperm
    obtain ⟨rows, hrows, heq⟩ := exists_perm_filterMap hperm.symm
    have hruns : runsOf c key rows = runs := heq
    have hrow := h rows hrows
    have hne' : runs ≠ [] := fun hnil => hne (List.perm_nil.mp (hnil ▸ hperm.symm))
    rw [filter_computeLeaderboard c u (hruns ▸ hne'), hruns] at hrow
    exact List.cons.inj hrow |>.1
  · intro h rows hperm
    have hruns : (runsOf c key rows).Perm (runsOf c key raws) := hperm.filterMap _
    have hne' : runsOf c key rows ≠ [] := fun hnil => hne (List.perm_nil.mp (hnil ▸ hruns.symm))
    rw [filter_computeLeaderboard c u hne', h _ hruns]

end Frame

/-! ## The best and the worst score -/

section Scores

/-- The greatest of the values and of what there was before. -/
theorem foldl_max_spec {α : Type} [LinearOrder α] (values : List α) (b : α) :
    (b ≤ values.foldl max b ∧ ∀ x ∈ values, x ≤ values.foldl max b) ∧
      (values.foldl max b = b ∨ values.foldl max b ∈ values) := by
  induction values generalizing b with
  | nil => exact ⟨⟨le_refl b, by simp⟩, .inl rfl⟩
  | cons x values ih =>
    obtain ⟨⟨hb, hvalues⟩, hmem⟩ := ih (max b x)
    refine ⟨⟨(le_max_left b x).trans hb, ?_⟩, ?_⟩
    · exact List.forall_mem_cons.mpr ⟨(le_max_right b x).trans hb, hvalues⟩
    · rw [List.foldl_cons]
      rcases hmem with heq | hmem
      · rw [heq]
        rcases max_choice b x with h | h <;> rw [h]
        · exact .inl rfl
        · exact .inr List.mem_cons_self
      · exact .inr (List.mem_cons_of_mem x hmem)

/-- The least of the scores and of what there was before. -/
theorem foldl_min_spec (scores : List ℚ) (b : ℚ) :
    (scores.foldl min b ≤ b ∧ ∀ x ∈ scores, scores.foldl min b ≤ x) ∧
      (scores.foldl min b = b ∨ scores.foldl min b ∈ scores) :=
  @foldl_max_spec ℚᵒᵈ _ scores b

/-- A worst score that never is zero is the least one. -/
theorem foldl_worse_eq_foldl_min (scores : List ℚ) {w : ℚ} (hw : w ≠ 0)
    (h : w < 0 ∨ ∀ x ∈ scores, x ≠ 0) : scores.foldl worse w = scores.foldl min w := by
  induction scores generalizing w with
  | nil => rfl
  | cons x scores ih =>
    rw [List.foldl_cons, List.foldl_cons, worse, if_neg hw]
    rcases h with hneg | hne
    · have hmin : min w x < 0 := (min_le_left w x).trans_lt hneg
      exact ih hmin.ne (.inl hmin)
    · obtain ⟨hx, hscores⟩ := List.forall_mem_cons.mp hne
      refine ih ?_ (.inr hscores)
      rcases min_choice w x with h | h <;> rw [h]
      · exact hw
      · exact hx

theorem foldl_worse_nonneg (scores : List ℚ) {w : ℚ} (hw : 0 ≤ w) (h : ∀ x ∈ scores, 0 ≤ x) :
    0 ≤ scores.foldl worse w := by
  induction scores generalizing w with
  | nil => exact hw
  | cons x scores ih =>
    obtain ⟨hx, hscores⟩ := List.forall_mem_cons.mp h
    refine ih ?_ hscores
    rw [worse]
    split
    · exact hx
    · exact le_min hw hx

/-- What is right of a worst score. -/
def IsWorst (scores : List ℚ) (w : ℚ) : Prop := w ∈ scores ∧ ∀ x ∈ scores, w ≤ x

theorem isWorst_foldl_min (x : ℚ) (scores : List ℚ) :
    IsWorst (x :: scores) (scores.foldl min x) := by
  obtain ⟨⟨hx, hscores⟩, hmem⟩ := foldl_min_spec scores x
  exact ⟨List.mem_cons.mpr hmem, List.forall_mem_cons.mpr ⟨hx, hscores⟩⟩

/-- From the first negative score on, the worst score is negative. -/
theorem isWorst_of_neg {scores : List ℚ} (hneg : ∃ x ∈ scores, x < 0) {w : ℚ} (hw : 0 ≤ w) :
    IsWorst scores (scores.foldl worse w) := by
  induction scores generalizing w with
  | nil => exact absurd hneg (by simp)
  | cons x scores ih =>
    rw [List.foldl_cons]
    by_cases hx : x < 0
    · have hworse : worse w x = x := by
        rw [worse]
        split
        · rfl
        · exact min_eq_right (hx.le.trans hw)
      rw [hworse, foldl_worse_eq_foldl_min scores hx.ne (.inl hx)]
      exact isWorst_foldl_min x scores
    · obtain ⟨y, hy, hlt⟩ := hneg
      have hmem : y ∈ scores := (List.mem_cons.mp hy).resolve_left fun heq => hx (heq ▸ hlt)
      have hworse : 0 ≤ worse w x := by
        rw [worse]
        split
        · exact not_lt.mp hx
        · exact le_min hw (not_lt.mp hx)
      obtain ⟨hleast, hle⟩ := ih ⟨y, hmem, hlt⟩ hworse
      refine ⟨List.mem_cons_of_mem x hleast, List.forall_mem_cons.mpr ⟨?_, hle⟩⟩
      exact ((hle y hmem).trans_lt hlt).le.trans (not_lt.mp hx)

/-- The worst score is right when some score is negative, or none is zero, or all are. -/
theorem isWorst_foldl {scores : List ℚ} (hne : scores ≠ [])
    (h : (∃ x ∈ scores, x < 0) ∨ (∀ x ∈ scores, x ≠ 0) ∨ ∀ x ∈ scores, x = 0) :
    IsWorst scores (scores.foldl worse 0) := by
  obtain ⟨x, rest, rfl⟩ := List.exists_cons_of_ne_nil hne
  rcases h with hneg | hnone | hall
  · exact isWorst_of_neg hneg (le_refl 0)
  · obtain ⟨hx, hrest⟩ := List.forall_mem_cons.mp hnone
    rw [List.foldl_cons, worse, if_pos rfl, foldl_worse_eq_foldl_min rest hx (.inr hrest)]
    exact isWorst_foldl_min x rest
  · have hfold : ∀ scores : List ℚ, (∀ x ∈ scores, x = 0) → scores.foldl worse 0 = 0 := by
      intro scores hscores
      induction scores with
      | nil => rfl
      | cons y scores ih =>
        obtain ⟨hy, hscores⟩ := List.forall_mem_cons.mp hscores
        rw [List.foldl_cons, worse, if_pos rfl, hy, ih hscores]
    rw [hfold _ hall]
    exact ⟨hall x List.mem_cons_self ▸ List.mem_cons_self, fun y hy => (hall y hy).ge⟩

/-- Of scores that are not negative, zero is forgotten when another one follows. -/
theorem foldl_worse_forgets (rest : List ℚ) (h : ∀ x ∈ rest, 0 ≤ x) (p : ℚ) :
    (rest ++ [0, p]).foldl worse 0 = p := by
  have hw := foldl_worse_nonneg rest (le_refl 0) h
  have hzero : worse (rest.foldl worse 0) 0 = 0 := by
    rw [worse]
    split
    · rfl
    · exact min_eq_right hw
  rw [List.foldl_append, List.foldl_cons, hzero, List.foldl_cons, List.foldl_nil, worse, if_pos rfl]

end Scores

/-! ## The columns of a total -/

section Columns

variable (key : String × String) (runs : List SummaryRow)

theorem total_concat (r : SummaryRow) :
    total key (runs ++ [r]) = (total key runs).add r := by
  rw [total, List.foldl_append]
  rfl

theorem total_key : (total key runs).key = key := by
  induction runs using List.reverseRecOn with
  | nil => rfl
  | append_singleton runs r ih => rw [total_concat]; exact ih

theorem total_runs : (total key runs).runs = runs.length := by
  induction runs using List.reverseRecOn with
  | nil => rfl
  | append_singleton runs r ih => rw [total_concat, List.length_append, ← ih]; rfl

theorem total_cells (col : Column) : (total key runs).cells = ((col.values runs).map Prod.fst).sum := by
  induction runs using List.reverseRecOn with
  | nil => rfl
  | append_singleton runs r ih =>
    rw [total_concat, Column.values, List.map_append, List.map_append, List.sum_append]
    show (total key runs).cells + r.n = _
    rw [ih]
    simp [Column.values]

theorem total_bestScore : (total key runs).bestScore = (runs.map SummaryRow.score).foldl max 0 := by
  induction runs using List.reverseRecOn with
  | nil => rfl
  | append_singleton runs r ih => rw [total_concat, List.map_append, List.foldl_append, ← ih]; rfl

theorem total_worstScore : (total key runs).worstScore = (runs.map SummaryRow.score).foldl worse 0 := by
  induction runs using List.reverseRecOn with
  | nil => rfl
  | append_singleton runs r ih => rw [total_concat, List.map_append, List.foldl_append, ← ih]; rfl

/-- The running average of pass rates. -/
def averaged (values : List ℚ) : Option ℚ :=
  values.foldl (fun current val => rated current (some val)) none

theorem averaged_concat (values : List ℚ) (val : ℚ) :
    averaged (values ++ [val]) = rated (averaged values) (some val) := by
  rw [averaged, List.foldl_append]
  rfl

theorem total_sandboxPassRate :
    (total key runs).sandboxPassRate = averaged ((rates runs).map Prod.snd) := by
  induction runs using List.reverseRecOn with
  | nil => rfl
  | append_singleton runs r ih =>
    have hadd : ((total key runs).add r).sandboxPassRate =
        rated (total key runs).sandboxPassRate r.sandbox := rfl
    have hrates : rates (runs ++ [r]) =
        rates runs ++ (r.sandbox.map fun rate => (r.n, rate)).toList := by
      rw [rates, List.filterMap_append]
      cases hsandbox : r.sandbox <;> simp [rates, hsandbox]
    rw [total_concat, hadd, ih, hrates]
    cases r.sandbox with
    | none => simp [rated]
    | some val => simp [averaged_concat]

theorem total_mean_add (col : Column) (out : LeaderboardRow) (r : SummaryRow) :
    col.mean (out.add r) = weighted (col.mean out) out.cells (col.value r) r.n := by
  cases col <;> rfl

/-! ## The means -/

variable {key runs}

theorem cellMean_perm {values values' : List (ℕ × ℚ)} (h : values.Perm values') :
    cellMean values = cellMean values' := by
  rw [cellMean, cellMean, (h.map _).sum_eq, (h.map Prod.fst).sum_eq]

/-- One more run. -/
theorem cellMean_concat (col : Column) (r : SummaryRow)
    (hcells : 0 < ((col.values runs).map Prod.fst).sum) :
    cellMean (col.values (runs ++ [r])) =
      (cellMean (col.values runs) * ((col.values runs).map Prod.fst).sum + col.value r * r.n) /
        ((((col.values runs).map Prod.fst).sum + r.n : ℕ) : ℚ) := by
  have hne : ((((col.values runs).map Prod.fst).sum : ℕ) : ℚ) ≠ 0 := by exact_mod_cast hcells.ne'
  have hvalues : col.values (runs ++ [r]) = col.values runs ++ [(r.n, col.value r)] := by
    simp [Column.values]
  rw [hvalues, cellMean, cellMean, List.map_append, List.map_append, List.sum_append, List.sum_append,
    div_mul_cancel₀ _ hne]
  simp [mul_comm]

theorem cells_pos (col : Column) (hne : runs ≠ []) : 0 < ((col.values runs).map Prod.fst).sum := by
  obtain ⟨r, rest, rfl⟩ := List.exists_cons_of_ne_nil hne
  have hpos := r.pos
  simp only [Column.values, List.map_cons, List.sum_cons]
  omega

/-- When no merge but the last one rounds, the mean is rounded once. -/
theorem total_mean (col : Column) (hne : runs ≠ [])
    (h : ∀ part, part <+: runs → part ≠ [] → part.length < runs.length →
      ∃ k : ℤ, cellMean (col.values part) = k / 10 ^ 4) :
    col.mean (total key runs) = roundTo 4 (cellMean (col.values runs)) := by
  induction runs using List.reverseRecOn with
  | nil => exact absurd rfl hne
  | append_singleton runs r ih =>
    rw [total_concat, total_mean_add, total_cells key runs col]
    have hpos := r.pos
    by_cases hnil : runs = []
    · subst hnil
      have hn : (r.n : ℚ) ≠ 0 := by exact_mod_cast (show r.n ≠ 0 by omega)
      have hzero : r.n ≠ 0 := by omega
      simp [weighted, Column.values, cellMean, hzero, mul_div_cancel_left₀ _ hn,
        mul_div_cancel_right₀ _ hn]
    · have hpart : ∀ part, part <+: runs → part ≠ [] → part.length < runs.length →
          ∃ k : ℤ, cellMean (col.values part) = k / 10 ^ 4 := fun part hstart hpart hlength =>
        h part (hstart.trans (List.prefix_append runs [r])) hpart (by
          rw [List.length_append]
          omega)
      obtain ⟨k, hk⟩ := h runs (List.prefix_append runs [r]) hnil (by simp)
      rw [ih hnil hpart, hk, roundTo_intCast_div, ← hk, weighted, if_neg (by omega),
        cellMean_concat col r (cells_pos col hnil)]

end Columns

/-! ## The pass rates of the sandbox -/

section Rates

variable {values : List (ℕ × ℚ)}

/-- Pass rates that are all the same have this average and this mean. -/
theorem averaged_of_same {v : ℚ} (hne : values ≠ []) (hpos : ∀ a ∈ values, 1 ≤ a.1)
    (h : ∀ a ∈ values, a.2 = v) :
    averaged (values.map Prod.snd) = some v ∧ cellMean values = v := by
  constructor
  · obtain ⟨a, rest, rfl⟩ := List.exists_cons_of_ne_nil hne
    obtain ⟨ha, hrest⟩ := List.forall_mem_cons.mp h
    have hfold : ∀ rest : List (ℕ × ℚ), (∀ b ∈ rest, b.2 = v) →
        (rest.map Prod.snd).foldl (fun current val => rated current (some val)) (some v) = some v := by
      intro rest hrest
      induction rest with
      | nil => rfl
      | cons b rest ih =>
        obtain ⟨hb, hrest⟩ := List.forall_mem_cons.mp hrest
        rw [List.map_cons, List.foldl_cons, hb]
        have hstep : rated (some v) (some v) = some v := by simp [rated]
        rw [hstep, ih hrest]
    rw [averaged, List.map_cons, List.foldl_cons, ha]
    exact hfold rest hrest
  · have hsum : (values.map fun a => (a.1 : ℚ) * a.2).sum = ((values.map Prod.fst).sum : ℕ) * v := by
      rw [Nat.cast_list_sum, List.map_map, ← List.sum_map_mul_right]
      refine congrArg List.sum (List.map_congr_left fun a ha => ?_)
      rw [h a ha]
      rfl
    have hcells : (((values.map Prod.fst).sum : ℕ) : ℚ) ≠ 0 := by
      obtain ⟨a, rest, rfl⟩ := List.exists_cons_of_ne_nil hne
      have ha := hpos a List.mem_cons_self
      rw [List.map_cons, List.sum_cons]
      exact_mod_cast (show a.1 + (rest.map Prod.fst).sum ≠ 0 by omega)
    rw [cellMean, hsum, mul_div_cancel_left₀ _ hcells]

/-- Of two pass rates, the average is the mean only if they are the same or have as many cells. -/
theorem averaged_pair {a b : ℕ × ℚ} (ha : 1 ≤ a.1) (hb : 1 ≤ b.1) :
    averaged ([a, b].map Prod.snd) = some (cellMean [a, b]) ↔ a.2 = b.2 ∨ a.1 = b.1 := by
  have hcells : ((a.1 : ℚ) + b.1) ≠ 0 := by
    exact_mod_cast (show a.1 + b.1 ≠ 0 by omega)
  have hmean : cellMean [a, b] = (a.1 * a.2 + b.1 * b.2) / (a.1 + b.1) := by
    simp [cellMean]
  have haverage : averaged ([a, b].map Prod.snd) = some ((a.2 + b.2) / 2) := rfl
  rw [haverage, hmean, Option.some.injEq, div_eq_div_iff two_ne_zero hcells]
  constructor
  · intro h
    have hproduct : (a.2 - b.2) * ((a.1 : ℚ) - b.1) = 0 := by linear_combination -h
    rcases mul_eq_zero.mp hproduct with h | h
    · exact .inl (sub_eq_zero.mp h)
    · exact .inr (by exact_mod_cast sub_eq_zero.mp h)
  · rintro (h | h) <;> rw [h] <;> ring

/-- Of three pass rates and more, the last two cannot be exchanged, unless they are the same. -/
theorem averaged_swap {rest : List ℚ} (hne : rest ≠ []) {x y : ℚ}
    (h : averaged (rest ++ [x, y]) = averaged (rest ++ [y, x])) : x = y := by
  obtain ⟨current, hcurrent⟩ : ∃ current, averaged rest = some current := by
    obtain ⟨rest, z, rfl⟩ := List.eq_nil_or_concat rest |>.resolve_left hne
    rw [List.concat_eq_append, averaged_concat]
    exact ⟨_, rfl⟩
  have hlast : ∀ x y, averaged (rest ++ [x, y]) = some (((current + x) / 2 + y) / 2) := by
    intro x y
    rw [show rest ++ [x, y] = rest ++ [x] ++ [y] by simp, averaged_concat, averaged_concat, hcurrent]
    rfl
  rw [hlast, hlast, Option.some.injEq] at h
  linarith

end Rates

/-! ## When the row is right -/

section Main

variable {key : String × String} {runs : List SummaryRow}

variable (runs) in
theorem rates_pos : ∀ a ∈ rates runs, 1 ≤ a.1 := by
  intro a ha
  obtain ⟨r, -, hr⟩ := List.mem_filterMap.mp ha
  obtain ⟨rate, -, rfl⟩ := Option.map_eq_some_iff.mp hr
  exact r.pos

/-- The average of the pass rates is their mean, if they fit. -/
theorem averaged_rates (h : RatesFit runs) :
    averaged ((rates runs).map Prod.snd) =
      if rates runs = [] then none else some (cellMean (rates runs)) := by
  have hpos := rates_pos runs
  by_cases hnil : rates runs = []
  · rw [if_pos hnil, hnil]
    rfl
  rw [if_neg hnil]
  rcases h with hsame | ⟨htwo, hcells⟩
  · obtain ⟨a, ha⟩ := List.exists_mem_of_ne_nil _ hnil
    obtain ⟨haverage, hmean⟩ := averaged_of_same hnil hpos fun b hb => hsame b hb a ha
    rw [haverage, hmean]
  · obtain ⟨a, b, hab⟩ := List.length_eq_two.mp htwo
    rw [hab] at hcells hpos ⊢
    exact (averaged_pair (hpos a (by simp)) (hpos b (by simp))).mpr
      (.inr (hcells a (by simp) b (by simp)))

/-- The means of the parts of the runs are computed part by part. -/
theorem meansFit_of_sublists
    (h : ∀ col ∈ Column.all, ∀ part ∈ runs.sublists, part ≠ [] → part.length < runs.length →
      (cellMean (col.values part) * 10 ^ 4).den = 1) : MeansFit runs := by
  intro col part hpart hnil hlength
  obtain ⟨sub, hperm, hsub⟩ := hpart
  have hsubnil : sub ≠ [] := fun heq => hnil (List.perm_nil.mp (heq ▸ hperm.symm))
  have hden := h col col.mem_all sub (List.mem_sublists.mpr hsub) hsubnil
    (hperm.length_eq ▸ hlength)
  have hvalues : (col.values sub).Perm (col.values part) := hperm.map _
  refine ⟨(cellMean (col.values sub) * 10 ^ 4).num, ?_⟩
  rw [Rat.den_eq_one_iff _ |>.mp hden, ← cellMean_perm hvalues]
  exact (mul_div_cancel_right₀ _ (by norm_num)).symm

theorem ScoresFit.perm {runs' : List SummaryRow} (h : ScoresFit runs) (hperm : runs'.Perm runs) :
    ScoresFit runs' := by
  simpa only [ScoresFit, hperm.mem_iff] using h

theorem RatesFit.perm {runs' : List SummaryRow} (h : RatesFit runs) (hperm : runs'.Perm runs) :
    RatesFit runs' := by
  have hrates : (rates runs').Perm (rates runs) := hperm.filterMap _
  simpa only [RatesFit, hrates.mem_iff, hrates.length_eq] using h

/-- The means of runs in any order. -/
theorem MeansFit.total_mean {runs' : List SummaryRow} (h : MeansFit runs) (hne : runs ≠ [])
    (hperm : runs'.Perm runs) (col : Column) :
    col.mean (total key runs') = roundTo 4 (cellMean (col.values runs)) := by
  have hne' : runs' ≠ [] := fun hnil => hne (List.perm_nil.mp (hnil ▸ hperm.symm))
  have hvalues : (col.values runs').Perm (col.values runs) := hperm.map _
  rw [Eval.total_mean col hne', cellMean_perm hvalues]
  intro part hpart hnil hlength
  rw [hperm.length_eq] at hlength
  exact h col part (hpart.sublist.subperm.trans hperm.subperm) hnil hlength

variable (key) in
theorem isWorst_total {runs' : List SummaryRow} (h : ScoresFit runs) (hne : runs ≠ [])
    (hperm : runs'.Perm runs) :
    IsWorst (runs.map SummaryRow.score) (total key runs').worstScore := by
  have hne' : runs'.map SummaryRow.score ≠ [] := fun hnil =>
    hne (List.perm_nil.mp (List.map_eq_nil_iff.mp hnil ▸ hperm.symm))
  have hfit : (∃ x ∈ runs'.map SummaryRow.score, x < 0) ∨
      (∀ x ∈ runs'.map SummaryRow.score, x ≠ 0) ∨ ∀ x ∈ runs'.map SummaryRow.score, x = 0 := by
    simpa using (h.perm hperm).2
  have hworst := isWorst_foldl hne' hfit
  rw [← total_worstScore key] at hworst
  simpa only [IsWorst, (hperm.map SummaryRow.score).mem_iff] using hworst

/-- The order of the runs does not matter, if they fit. -/
theorem total_perm (hmeans : MeansFit runs) (hscores : ScoresFit runs) (hrates : RatesFit runs)
    (hne : runs ≠ []) {runs' : List SummaryRow} (hperm : runs'.Perm runs) :
    total key runs' = total key runs := by
  have hkey := (total_key key runs').trans (total_key key runs).symm
  have hmean : ∀ col : Column, col.mean (total key runs') = col.mean (total key runs) := fun col =>
    (hmeans.total_mean hne hperm col).trans (hmeans.total_mean hne (.refl _) col).symm
  have hvalues : (Column.score.values runs').Perm (Column.score.values runs) := hperm.map _
  apply LeaderboardRow.ext
  · exact congrArg Prod.fst hkey
  · exact congrArg Prod.snd hkey
  · rw [total_runs, total_runs, hperm.length_eq]
  · rw [total_cells _ _ .score, total_cells _ _ .score, (hvalues.map Prod.fst).sum_eq]
  · exact hmean .score
  · rw [total_bestScore, total_bestScore, (hperm.map SummaryRow.score).foldl_eq]
  · have hworst := isWorst_total key hscores hne hperm
    have hworst' := isWorst_total key hscores hne (.refl runs)
    exact le_antisymm (hworst.2 _ hworst'.1) (hworst'.2 _ hworst.1)
  · exact hmean .latency
  · exact hmean .tokens
  · exact hmean .cost
  · exact hmean .errorRate
  · have hrates' : (rates runs').Perm (rates runs) := hperm.filterMap _
    rw [total_sandboxPassRate, total_sandboxPassRate, averaged_rates hrates,
      averaged_rates (hrates.perm hperm), cellMean_perm hrates']
    simp only [← List.length_eq_zero_iff, hrates'.length_eq]

/-- The row of runs that fit is right. -/
theorem rowCorrect_total (hmeans : MeansFit runs) (hscores : ScoresFit runs) (hrates : RatesFit runs)
    (hne : runs ≠ []) : RowCorrect runs (total key runs) where
  means col := by
    rw [hmeans.total_mean hne (.refl _) col]
    exact (abs_roundTo_sub_le 4 _).trans (by norm_num)
  sandbox := by rw [total_sandboxPassRate, averaged_rates hrates]
  best := by
    obtain ⟨⟨hzero, hle⟩, hmem⟩ := foldl_max_spec (runs.map SummaryRow.score) 0
    rw [total_bestScore]
    refine ⟨?_, fun r hr => hle _ (List.mem_map_of_mem hr)⟩
    rcases hmem with heq | hmem
    · obtain ⟨r, hr, hnonneg⟩ := hscores.1
      refine ⟨r, hr, le_antisymm (hle _ (List.mem_map_of_mem hr)) ?_⟩
      rwa [heq]
    · obtain ⟨r, hr, heq⟩ := List.mem_map.mp hmem
      exact ⟨r, hr, heq⟩
  worst := by
    obtain ⟨hmem, hle⟩ := isWorst_total key hscores hne (.refl runs)
    obtain ⟨r, hr, heq⟩ := List.mem_map.mp hmem
    exact ⟨⟨r, hr, heq⟩, fun r' hr' => hle _ (List.mem_map_of_mem hr')⟩

/-- The scores of a row that is right in every order fit. -/
theorem scoresFit_of_total {row : LeaderboardRow} (hrow : RowCorrect runs row)
    (horder : ∀ runs' : List SummaryRow, runs'.Perm runs → total key runs' = row) :
    ScoresFit runs := by
  constructor
  · obtain ⟨r, hr, heq⟩ := hrow.best.1
    refine ⟨r, hr, ?_⟩
    rw [heq, ← horder runs (.refl _), total_bestScore]
    exact (foldl_max_spec (runs.map SummaryRow.score) 0).1.1
  · by_contra hfit
    push Not at hfit
    obtain ⟨hnonneg, ⟨z, hz, hzero⟩, p, hp, hne⟩ := hfit
    -- zero is forgotten when a positive score comes last
    have hz' : (0 : ℚ) ∈ runs.map SummaryRow.score := hzero ▸ List.mem_map_of_mem hz
    have hp' : p.score ∈ (runs.map SummaryRow.score).erase 0 :=
      (List.mem_erase_of_ne hne).mpr (List.mem_map_of_mem hp)
    have hperm : (runs.map SummaryRow.score).Perm
        (((runs.map SummaryRow.score).erase 0).erase p.score ++ [0, p.score]) :=
      ((List.perm_cons_erase hz').trans ((List.perm_cons_erase hp').cons 0)).trans
        (@List.perm_append_comm _ [0, p.score] _)
    rw [← List.filterMap_eq_map] at hperm
    obtain ⟨runs', hruns', hscores⟩ := exists_perm_filterMap hperm
    rw [List.filterMap_eq_map] at hscores
    have hworst : row.worstScore = p.score := by
      rw [← horder runs' hruns', total_worstScore, hscores]
      refine foldl_worse_forgets _ (fun x hx => ?_) _
      obtain ⟨r, hr, rfl⟩ := List.mem_map.mp (List.mem_of_mem_erase (List.mem_of_mem_erase hx))
      exact hnonneg r hr
    have hle := hrow.worst.2 z hz
    rw [hworst, hzero] at hle
    exact hne (le_antisymm hle (hnonneg p hp))

/-- The pass rates of a row that is right in every order fit. -/
theorem ratesFit_of_total {row : LeaderboardRow} (hrow : RowCorrect runs row)
    (horder : ∀ runs' : List SummaryRow, runs'.Perm runs → total key runs' = row) :
    RatesFit runs := by
  by_contra hfit
  rw [RatesFit, not_or] at hfit
  obtain ⟨hdiffer, hnotTwo⟩ := hfit
  push Not at hdiffer
  obtain ⟨a, ha, b, hb, hne⟩ := hdiffer
  -- Every order of the pass rates comes from an order of the runs, and so has the same average.
  have haverage : ∀ values : List (ℕ × ℚ), (rates runs).Perm values →
      averaged (values.map Prod.snd) = row.sandboxPassRate := by
    intro values hperm
    obtain ⟨runs', hruns', hrates⟩ := exists_perm_filterMap hperm
    rw [← horder runs' hruns', total_sandboxPassRate, rates, hrates]
  have hb' : b ∈ (rates runs).erase a :=
    (List.mem_erase_of_ne fun heq => hne (congrArg Prod.snd heq).symm).mpr hb
  have hpair : (rates runs).Perm (a :: b :: ((rates runs).erase a).erase b) :=
    (List.perm_cons_erase ha).trans ((List.perm_cons_erase hb').cons a)
  generalize ((rates runs).erase a).erase b = rest at hpair
  have hab : (rates runs).Perm (rest ++ [a, b]) := hpair.trans (@List.perm_append_comm _ [a, b] rest)
  -- If the two that differ are all, their average is the mean, which takes equal numbers of cells.
  -- Otherwise they can be put last in two orders.
  by_cases hnil : rest = []
  · subst hnil
    have hpos := rates_pos runs
    have hmean := haverage _ hab
    rw [List.nil_append, hrow.sandbox, if_neg (List.ne_nil_of_mem ha), cellMean_perm hab,
      List.nil_append, averaged_pair (hpos a ha) (hpos b hb)] at hmean
    have hcells := hmean.resolve_left hne
    refine hnotTwo ⟨hab.length_eq, fun x hx y hy => ?_⟩
    have hall : ∀ x ∈ rates runs, x.1 = b.1 := by
      intro x hx
      rcases List.mem_pair.mp (hab.mem_iff.mp hx) with rfl | rfl
      · exact hcells
      · rfl
    rw [hall x hx, hall y hy]
  · have hba : (rates runs).Perm (rest ++ [b, a]) :=
      hab.trans ((List.Perm.swap b a []).append_left rest)
    have hswap := (haverage _ hab).trans (haverage _ hba).symm
    rw [List.map_append, List.map_append] at hswap
    exact hne (averaged_swap (by simpa using hnil) hswap)

/-- When the runs of a provider and a model fit, their row can be reproduced and is right; and it
can only when their scores and their pass rates fit. -/
theorem reproducible (c : Conversions) (u : Unicode) (key : String × String)
    (raws : List RawRow) :
    (Reproducible c u key raws → ScoresFit (runsOf c key raws) ∧ RatesFit (runsOf c key raws)) ∧
      (MeansFit (runsOf c key raws) → ScoresFit (runsOf c key raws) →
        RatesFit (runsOf c key raws) → Reproducible c u key raws) := by
  by_cases hne : runsOf c key raws = []
  · refine ⟨fun h => ?_, fun _ hscores => ?_⟩
    · obtain ⟨row, hrow, -⟩ := h
      obtain ⟨r, hr, -⟩ := hrow.best.1
      exact absurd (hne ▸ hr) List.not_mem_nil
    · obtain ⟨r, hr, -⟩ := hscores.1
      exact absurd (hne ▸ hr) List.not_mem_nil
  rw [reproducible_iff_total c u hne]
  constructor
  · rintro ⟨row, hrow, horder⟩
    exact ⟨scoresFit_of_total hrow horder, ratesFit_of_total hrow horder⟩
  · intro hmeans hscores hrates
    exact ⟨total key (runsOf c key raws), rowCorrect_total hmeans hscores hrates hne,
      fun runs hperm => total_perm hmeans hscores hrates hne hperm⟩

end Main

/-! ## A score of zero -/

/-- Conversions that are not needed for numbers and texts. -/
def noConversions : Conversions := ⟨fun _ => "", fun _ => none⟩

/-- A row of a summary with a score. -/
def scored (score : ℚ) : RawRow :=
  [("provider", .str "openai"), ("model", .str "gpt-4o"), ("n", .int 1),
    ("mean_judge_score", .float score)]

/-- A row of a summary with cells, a score, a latency and a pass rate. -/
def measured (cells : ℤ) (score latency : ℚ) (sandbox : PyVal ℚ) : RawRow :=
  [("provider", .str "openai"), ("model", .str "gpt-4o"), ("n", .int cells),
    ("mean_judge_score", .float score), ("mean_latency_ms", .float latency),
    ("sandbox_pass_rate", sandbox)]

/-- Three runs, of two, two and six cells. The first two have pass rates that differ. -/
def threeRuns (sandbox : PyVal ℚ) : List RawRow :=
  [measured 2 (1 / 2) 120 (.float (1 / 2)), measured 2 1 250 (.float 1),
    measured 6 (1 / 4) 90 sandbox]

/-- Three runs can be reproduced when the third one has no pass rate, and cannot when it has one. -/
theorem reproducible_threeRuns :
    Reproducible noConversions .ascii ("openai", "gpt-4o") (threeRuns .none) ∧
      ¬ Reproducible noConversions .ascii ("openai", "gpt-4o") (threeRuns (.float 1)) := by
  constructor
  · refine (reproducible noConversions .ascii ("openai", "gpt-4o") (threeRuns .none)).2
      (meansFit_of_sublists ?_) ?_ ?_ <;> decide +kernel
  · intro h
    have hrates := ((reproducible noConversions .ascii ("openai", "gpt-4o")
      (threeRuns (.float 1))).1 h).2
    exact absurd hrates (by decide +kernel)

/-- Two runs, of which the first one has the score zero. -/
theorem zero_score_forgotten :
    ¬ ∀ (c : Conversions) (u : Unicode) (key : String × String) (raws : List RawRow),
      runsOf c key raws ≠ [] → Reproducible c u key raws := by
  intro h
  have hscores : (runsOf noConversions ("openai", "gpt-4o") [scored 0, scored (1 / 2)]).map
      SummaryRow.score = [0, 1 / 2] := by decide +kernel
  have hne : runsOf noConversions ("openai", "gpt-4o") [scored 0, scored (1 / 2)] ≠ [] := by
    intro hnil
    rw [hnil] at hscores
    cases hscores
  obtain ⟨row, hrow, horder⟩ := (reproducible_iff_total noConversions .ascii hne).mp
    (h noConversions .ascii ("openai", "gpt-4o") [scored 0, scored (1 / 2)] hne)
  have hfit := (scoresFit_of_total hrow horder).2
  have hmap : (∃ x ∈ [0, (1 / 2 : ℚ)], x < 0) ∨ (∀ x ∈ [0, (1 / 2 : ℚ)], x ≠ 0) ∨
      ∀ x ∈ [0, (1 / 2 : ℚ)], x = 0 := by
    rw [← hscores]
    simpa using hfit
  exact absurd hmap (by norm_num)

end Noema.Eval
