import Noema.Core.LevelRuns

/-!
# A schedule

`reasonInTurn` runs the tasks of a level one after the other, with the answers of an LLM that is a
function of its messages. It is a run (`reasons_reasonInTurn`), so `reason` can always return: the
relation `Reasons` that the other modules are about is not empty, for any request, budget and resume
context.

It is also a program, so runs can be computed, and the concrete runs of this development are its
values. Their logs are read off by `began_mem_runLevel`, without running the prompts: the budget
that the only step of a level is checked against is the one before the level.
-/

namespace Noema.Core

open Noema.Lib PyJson Noema.Budget Relation

variable {F B : Type} [PyInterp F] [PyFraction B]

section Schedule

variable (x : Executor) (llm : List LLMMessage → Except PyExc LLMResponse)

/-- All tasks of the level are created. -/
def LevelState.createAll : List StepName → LevelState F B → LevelState F B
  | [], ls => ls
  | name :: rest, ls => createAll rest (ls.createTask name rest)

/-- A task from its beginning to its end. -/
def LevelState.runTask (ls : LevelState F B) (name : StepName) : LevelState F B :=
  match (ls.beginTask x name).task name with
  | .awaiting messages => (ls.beginTask x name).finishTask name (llm messages)
  | _ => ls.beginTask x name

/-- The tasks of a level in turn. -/
def LevelState.runAll (ls : LevelState F B) : LevelState F B :=
  ls.created.foldl (LevelState.runTask x llm) ls

/-- A level, from its beginning to its end. -/
def runLevel (s : State F B) (level : List StepName) : State F B :=
  ((openLevel level s).createAll (openLevel level s).toCreate |>.runAll x llm).join

/-- `reason`, with the tasks of a level in turn. -/
def reasonInTurn (u : Unicode) (req : Request F) (resume : List (String × String))
    (budget : Option (TokenBudget B)) : State F B :=
  (topologicalLevels (plannedSteps u req)).foldl (runLevel x llm)
    (initialState u req resume budget)

end Schedule

variable {x : Executor} {llm : List LLMMessage → Except PyExc LLMResponse}

theorem createAll_run (todo : List StepName) (ls : LevelState F B) (htodo : ls.toCreate = todo) :
    ReflTransGen (LevelStep x) ls (ls.createAll todo) ∧ (ls.createAll todo).toCreate = [] ∧
      (ls.createAll todo).created = ls.created ++ todo ∧
      (∀ n ∈ todo, (ls.createAll todo).task n = .created) ∧
      ∀ n, n ∉ todo → (ls.createAll todo).task n = ls.task n := by
  induction todo generalizing ls with
  | nil => exact ⟨.refl, htodo, by simp [LevelState.createAll], by simp, fun _ _ => rfl⟩
  | cons m todo ih =>
    obtain ⟨hrun, hcreate, hcreated, htask, hothers⟩ := ih (ls.createTask m todo) rfl
    rw [LevelState.createAll]
    refine ⟨.head (.create htodo) hrun, hcreate, ?_, ?_, ?_⟩
    · rw [hcreated]
      simp [LevelState.createTask]
    · intro n hn
      by_cases hmem : n ∈ todo
      · exact htask n hmem
      · rw [hothers n hmem, (List.mem_cons.mp hn).resolve_right hmem]
        exact Function.update_self ..
    · intro n hn
      obtain ⟨hne, hmem⟩ := not_or.mp (mt List.mem_cons.mpr hn)
      rw [hothers n hmem]
      exact Function.update_of_ne hne ..

theorem runTask_run (hllm : ∀ messages, x.llm messages (llm messages)) {ls : LevelState F B}
    {n : StepName} (hcreated : ls.task n = .created) :
    ReflTransGen (LevelStep x) ls (ls.runTask x llm n) ∧
      (ls.runTask x llm n).toCreate = ls.toCreate ∧ (ls.runTask x llm n).created = ls.created ∧
      (∃ r, (ls.runTask x llm n).task n = .done r) ∧
      ∀ m ≠ n, (ls.runTask x llm n).task m = ls.task m := by
  have hbegin : LevelStep x ls (ls.beginTask x n) := .begin hcreated
  have htask : (ls.beginTask x n).task n = (beginStep x n ls.state).2 := Function.update_self ..
  have hothers : ∀ m ≠ n, (ls.beginTask x n).task m = ls.task m :=
    fun m hm => Function.update_of_ne hm ..
  have hbegan : Began n ls.state (beginStep x n ls.state).1 (beginStep x n ls.state).2 :=
    beginStep_began x n ls.state
  rw [LevelState.runTask]
  -- the task is over at once when the budget raises, and else awaits its answer
  rcases hbegan.log with ⟨e, hdone, -⟩ | ⟨p, hawait, -⟩
  · rw [htask, hdone]
    exact ⟨.single hbegin, rfl, rfl, ⟨_, htask.trans hdone⟩, hothers⟩
  · rw [htask, hawait]
    have hfinish : LevelStep x (ls.beginTask x n)
        ((ls.beginTask x n).finishTask n (llm (messagesOf ls.state.context n))) :=
      .finish (htask.trans hawait) (hllm _)
    refine ⟨(ReflTransGen.single hbegin).tail hfinish, ?_⟩
    dsimp only
    rcases llm (messagesOf ls.state.context n) with e | r
    · exact ⟨rfl, rfl, ⟨_, Function.update_self ..⟩, fun m hm =>
        (Function.update_of_ne hm ..).trans (hothers m hm)⟩
    · exact ⟨rfl, rfl, ⟨_, Function.update_self ..⟩, fun m hm =>
        (Function.update_of_ne hm ..).trans (hothers m hm)⟩

theorem runTasks_run (hllm : ∀ messages, x.llm messages (llm messages)) (todo : List StepName)
    (ls : LevelState F B) (htodo : todo.Nodup) (hcreated : ∀ n ∈ todo, ls.task n = .created) :
    ReflTransGen (LevelStep x) ls (todo.foldl (LevelState.runTask x llm) ls) ∧
      (todo.foldl (LevelState.runTask x llm) ls).toCreate = ls.toCreate ∧
      (todo.foldl (LevelState.runTask x llm) ls).created = ls.created ∧
      (∀ n ∈ todo, ∃ r, (todo.foldl (LevelState.runTask x llm) ls).task n = .done r) ∧
      ∀ m, m ∉ todo → (todo.foldl (LevelState.runTask x llm) ls).task m = ls.task m := by
  induction todo generalizing ls with
  | nil => exact ⟨.refl, rfl, rfl, by simp, fun _ _ => rfl⟩
  | cons n todo ih =>
    obtain ⟨hn, htodo⟩ := List.nodup_cons.mp htodo
    obtain ⟨hrun, hcreate, hsame, ⟨r, hdone⟩, hothers⟩ :=
      runTask_run hllm (hcreated n List.mem_cons_self)
    have hne : ∀ m ∈ todo, m ≠ n := fun m hm h => hn (h ▸ hm)
    obtain ⟨hrun', hcreate', hsame', hdone', hothers'⟩ := ih (ls.runTask x llm n) htodo fun m hm =>
      (hothers m (hne m hm)).trans (hcreated m (List.mem_cons_of_mem _ hm))
    rw [List.foldl_cons]
    refine ⟨hrun.trans hrun', hcreate'.trans hcreate, hsame'.trans hsame, ?_, ?_⟩
    · intro m hm
      rcases List.mem_cons.mp hm with rfl | hm
      · exact ⟨r, (hothers' m hn).trans hdone⟩
      · exact hdone' m hm
    · intro m hm
      obtain ⟨hmn, hmem⟩ := not_or.mp (mt List.mem_cons.mpr hm)
      exact (hothers' m hmem).trans (hothers m hmn)

/-- The tasks of a level, in turn, are a run of the level. -/
theorem runLevel_run (hllm : ∀ messages, x.llm messages (llm messages)) {level : List StepName}
    (hlevel : level.Nodup) (s : State F B) :
    ∃ ls, ReflTransGen (LevelStep x) (openLevel level s) ls ∧ ls.IsOver ∧
      ls.join = runLevel x llm s level := by
  obtain ⟨hrun, hcreate, hcreated, htask, -⟩ : ReflTransGen (LevelStep x) (openLevel level s) _ ∧ _ :=
    createAll_run (openLevel level s).toCreate (openLevel level s) rfl
  set ls := (openLevel level s).createAll (openLevel level s).toCreate
  have hsame : ls.created = (openLevel level s).toCreate := by
    rw [hcreated]
    rfl
  obtain ⟨hrun', hcreate', hcreated', hdone, -⟩ :=
    runTasks_run hllm ls.created ls (hsame ▸ hlevel.filter _) (hsame ▸ htask)
  refine ⟨ls.runAll x llm, hrun.trans hrun', ⟨hcreate'.trans hcreate, ?_⟩, rfl⟩
  intro n hn
  rw [LevelState.runAll, hcreated'] at hn
  exact hdone n hn

theorem runLevels_run (hllm : ∀ messages, x.llm messages (llm messages))
    {levels : List (List StepName)} (hlevels : ∀ level ∈ levels, level.Nodup) (s : State F B) :
    RunLevels x levels s (levels.foldl (runLevel x llm) s) := by
  induction levels generalizing s with
  | nil => exact .nil s
  | cons level levels ih =>
    obtain ⟨ls, hrun, hover, hjoin⟩ := runLevel_run hllm (hlevels level List.mem_cons_self) s
    have hrest := ih (fun level h => hlevels level (List.mem_cons_of_mem _ h)) (runLevel x llm s level)
    rw [← hjoin] at hrest
    exact .cons hrun hover (by simpa [hjoin] using hrest)

/-- The run in turn is a run of `reason`. -/
theorem reasons_reasonInTurn (hllm : ∀ messages, x.llm messages (llm messages)) (u : Unicode)
    (req : Request F) (resume : List (String × String)) (budget : Option (TokenBudget B)) :
    Reasons x u req resume budget (reasonInTurn x llm u req resume budget) := by
  refine runLevels_run hllm (fun level hlevel => ?_) _
  have hnodup : (topologicalLevels (plannedSteps u req)).flatten.Nodup :=
    (flatten_topologicalLevels _).nodup_iff.mpr (nodup_stepsOf _)
  exact (List.nodup_flatten.mp hnodup).1 level hlevel

/-! ## The log of the run in turn -/

omit [PyInterp F] [PyFraction B] in
theorem log_createAll (todo : List StepName) (ls : LevelState F B) :
    ls.state.log <+: (ls.createAll todo).state.log := by
  induction todo generalizing ls with
  | nil => exact List.prefix_rfl
  | cons n todo ih => exact (List.prefix_append _ _).trans (ih (ls.createTask n todo))

theorem log_beginStep (n : StepName) (s : State F B) : s.log <+: (beginStep x n s).1.log := by
  rcases (beginStep_began x n s).log with ⟨_, _, _, hlog⟩ | ⟨_, _, hlog⟩
  · rw [hlog]
    exact List.prefix_append _ _
  · rw [hlog]
    exact List.prefix_append _ _

theorem log_runTask (ls : LevelState F B) (n : StepName) :
    (beginStep x n ls.state).1.log <+: (ls.runTask x llm n).state.log := by
  rw [LevelState.runTask]
  split
  next messages _ =>
    rcases llm messages with e | r
    · exact List.prefix_rfl
    · exact List.prefix_rfl
  next => exact List.prefix_rfl

omit [PyInterp F] [PyFraction B] in
theorem log_joinTask (task : StepName → TaskState) (s : State F B) (n : StepName) :
    s.log <+: (joinTask task s n).log := by
  rw [joinTask]
  split
  · exact List.prefix_append _ _
  · split
    · exact List.prefix_append _ _
    · exact List.prefix_append _ _
  · exact List.prefix_rfl

omit [PyInterp F] [PyFraction B] in
/-- Entries are only added. -/
theorem log_foldl {α σ : Type} (log : σ → List (Entry B)) {f : σ → α → σ}
    (hf : ∀ s a, log s <+: log (f s a)) (as : List α) (s : σ) :
    log s <+: log (as.foldl f s) := by
  induction as generalizing s with
  | nil => exact List.prefix_rfl
  | cons a as ih => exact (hf s a).trans (ih (f s a))

theorem log_runAll (ls : LevelState F B) : ls.state.log <+: (ls.runAll x llm).state.log := by
  have htask : ∀ (ls : LevelState F B) n, ls.state.log <+: (ls.runTask x llm n).state.log := by
    intro ls n
    have hbegin : ls.state.log <+: (beginStep x n ls.state).1.log := log_beginStep n ls.state
    exact hbegin.trans (log_runTask ls n)
  rw [LevelState.runAll]
  exact log_foldl (fun ls => ls.state.log) htask ls.created ls

omit [PyInterp F] [PyFraction B] in
theorem log_join (ls : LevelState F B) : ls.state.log <+: ls.join.log := by
  rw [LevelState.join]
  exact log_foldl State.log (log_joinTask _) _ _

theorem log_runLevel (s : State F B) (level : List StepName) :
    s.log <+: (runLevel x llm s level).log := by
  rw [runLevel]
  exact ((log_createAll _ (openLevel level s)).trans (log_runAll _)).trans (log_join _)

theorem log_runLevels (levels : List (List StepName)) (s : State F B) :
    s.log <+: (levels.foldl (runLevel x llm) s).log :=
  log_foldl State.log log_runLevel levels s

theorem created_runTask (ls : LevelState F B) (n : StepName) :
    (ls.runTask x llm n).created = ls.created := by
  rw [LevelState.runTask]
  split
  next messages _ =>
    rcases llm messages with e | r
    · rfl
    · rfl
  next => rfl

/-- The budget that the only step of a level is checked against is the one before the level. -/
theorem began_mem_runLevel {s : State F B} {n : StepName}
    (hpending : (s.steps n).status = .pending) :
    .began n (estimatedCost s.context n) s.budget ∈ (runLevel x llm s [n]).log := by
  have htodo : (openLevel [n] s).toCreate = [n] := by simp [openLevel, hpending]
  let ls := (openLevel [n] s).createTask n []
  have hmem : .began n (estimatedCost s.context n) s.budget ∈ (beginStep x n ls.state).1.log := by
    rcases (beginStep_began x n ls.state).log with ⟨_, _, _, hlog⟩ | ⟨_, _, hlog⟩
    · rw [hlog]
      simp [ls, openLevel, LevelState.createTask]
    · rw [hlog]
      simp [ls, openLevel, LevelState.createTask]
  have hcreated : (ls.runTask x llm n).created = [n] := created_runTask ls n
  have hjoin : (runLevel x llm s [n]).log =
      (joinTask (ls.runTask x llm n).task (ls.runTask x llm n).state n).log := by
    have hall : ls.runAll x llm = ls.runTask x llm n := rfl
    rw [runLevel, htodo, LevelState.createAll, LevelState.createAll, hall, LevelState.join,
      hcreated]
    rfl
  rw [hjoin]
  exact (log_joinTask _ _ _).subset ((log_runTask ls n).subset hmem)

end Noema.Core
