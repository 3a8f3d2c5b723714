import Noema.Scaffolder.Placement

/-!
# What is left of the files of a solution

The places of two code blocks with different sanitized names may be the same, and the configuration,
the README and the manifest have places that a block may have too. What is written later stays, and
the result still counts every file.

- `spot`: the place of a block, from the directory of the project. `Clash` lists the ways in which
  two names lead to one place, and **`spot_eq_iff`** says that there are no others.
- `overwritten_iff`: when a block has the place of a file of the scaffolder (`Overwritten`).
- `Ran`, `ran_scaffold`: what is known of a run that returns: the texts that were written, in their
  order.
- `Ran.nothingLost_iff_nodup`: nothing is lost if and only if no location is written to twice.
- **`nothingLost_iff`**: a run that returns, for code blocks with different sanitized names, loses
  no code block and counts its files right, if and only if no block clashes with another one or is
  overwritten.
- `main_overwritten`: a module whose name in the package is the name of another block.
-/

namespace Noema.Scaffolder

open Noema.Lib Noema.Core Posix PyM

/-! ## Files of the scaffolder -/

section Own

variable (env : Surroundings)

/-- `ruff.toml` is written for a project that says that it is in Python. -/
def ruffNames (solution : Solution) : List String :=
  if firstLanguage env solution = some "python" then ["ruff.toml"] else []

/-- The manifest of a project. -/
def manifestNames (solution : Solution) : List String :=
  if language env solution = "python" then ["pyproject.toml"]
  else if language env solution = "typescript" then ["package.json"] else []

/-- The files that are written after the code blocks, all of them in the directory of the project.
-/
def ownNames (solution : Solution) : List String :=
  [".gitignore", ".env.example"] ++ ruffNames env solution ++ ["README.md"] ++
    manifestNames env solution

theorem ownNames_sublist (solution : Solution) : (ownNames env solution).Sublist
    [".gitignore", ".env.example", "ruff.toml", "README.md", "pyproject.toml", "package.json"] := by
  rw [ownNames, ruffNames, manifestNames]
  split_ifs
  all_goals simp

theorem nodup_ownNames (solution : Solution) : (ownNames env solution).Nodup :=
  (ownNames_sublist env solution).nodup (by simp)

theorem tests_not_mem_ownNames (solution : Solution) : "tests" ∉ ownNames env solution := fun h => by
  have hmem := (ownNames_sublist env solution).subset h
  simp at hmem

end Own

/-! ## The same place twice -/

section Clashes

variable (env : Surroundings) (solution : Solution) (root : Loc) {a b block : CodeBlock}

/-- The place of a block, from the directory of the project. -/
def spot (block : CodeBlock) : List String :=
  if isRooted block then (names block.filename).drop root.length else place env solution block

/-- The names of two blocks lead to one place. -/
inductive Clash (a b : CodeBlock) : Prop
  /-- Two tests: one of the names starts with two slashes, which is all that makes them differ. -/
  | tests (ha : isTest a = true) (hb : isTest b = true) (h : names a.filename = names b.filename)
  /-- A module, and the name that it gets in the package. -/
  | module (ha : isTest a = false) (hmodule : isModule env.u a = true) (hb : isTest b = false)
      (hrooted : isRooted b = false)
      (h : names b.filename = srcNames env solution ++ names a.filename)
  /-- An absolute path into the project. -/
  | rooted (ha : isRooted a = true) (hb : isRooted b = false)
      (h : names a.filename = root ++ place env solution b)

/-- The name of a block leads to a file of the scaffolder. -/
inductive Overwritten (block : CodeBlock) : Prop
  | plain {name : String} (htest : isTest block = false) (hmodule : isModule env.u block = false)
      (hrooted : isRooted block = false) (h : names block.filename = [name])
      (hown : name ∈ ownNames env solution)
  | rooted {name : String} (hrooted : isRooted block = true)
      (h : names block.filename = root ++ [name]) (hown : name ∈ ownNames env solution)

variable {env solution root}

theorem spot_of_not_rooted (h : isRooted block = false) :
    spot env solution root block = place env solution block := by
  rw [spot, h, if_neg Bool.false_ne_true]

/-- An absolute path into the project is that of its place. -/
theorem names_of_rooted (hrooted : isRooted block = true) (h : ¬ Escapes root block) :
    names block.filename = root ++ spot env solution root block := by
  obtain ⟨rest, hrest⟩ := not_not.mp fun hout => h ⟨hrooted, hout⟩
  rw [spot, hrooted, if_pos rfl, ← hrest, List.drop_left]

theorem isMarked_of_module (h : isModule env.u block = true) : isMarked block.filename = false := by
  rw [isModule, Bool.and_eq_true] at h
  rw [← isAbsolute_sanitizeFilename, isAbsolute_name h.2]

theorem sanitizeFilename_of_unmarked {raw : String} (h : isMarked raw = false) :
    sanitizeFilename raw = "/".intercalate (names raw) := by
  rw [sanitizeFilename_eq, h, if_neg Bool.false_ne_true, List.nil_append]

theorem isMarked_of_plain (hrooted : isRooted block = false) (htest : isTest block = false) :
    isMarked block.filename = false := by
  rwa [isRooted, htest, Bool.not_false, Bool.and_true] at hrooted

/-- A name without a slash is one name at most. -/
theorem length_names_of_module (h : isModule env.u block = true) :
    (names block.filename).length ≤ 1 := by
  rw [isModule, Bool.and_eq_true] at h
  rw [← parts_sanitizeFilename, parts, pathSegs, segments_eq_singleton (noSlash_iff.mp h.2)]
  exact List.length_filter_le ..

/-- The words of test names. -/
def testWords : List (List Char) :=
  [['t', 'e', 's', 't', '_'], ['_', 't', 'e', 's', 't'], ['s', 'p', 'e', 'c', '_']]

theorem isTestName_iff {fn : String} :
    isTestName fn = true ↔ ∃ word ∈ testWords, word <:+: fn.toList := by
  have hword : ∀ ind : String,
      (startsWith fn ind || decide (ind.toList <:+: fn.toList)) = true ↔ ind.toList <:+: fn.toList := by
    intro ind
    rw [Bool.or_eq_true, decide_eq_true_eq, startsWith, List.isPrefixOf_iff_prefix]
    exact or_iff_right_of_imp List.IsPrefix.isInfix
  rw [isTestName, List.any_eq_true]
  simp only [hword, testWords, List.mem_cons, List.not_mem_nil, or_false, exists_eq_or_imp,
    exists_eq_left]
  rfl

/-- What has no slash is found after a slash. -/
theorem infix_of_infix_slash {word text : List Char} (hne : word ≠ []) (hslash : '/' ∉ word)
    (h : word <:+: '/' :: text) : word <:+: text := by
  rcases List.infix_cons_iff.mp h with hpre | h
  · cases word with
    | nil => exact absurd rfl hne
    | cons c word =>
      rw [(List.cons_prefix_cons.mp hpre).1, List.mem_cons, not_or] at hslash
      exact absurd rfl hslash.1
  · exact h

/-- A test has the word in its names. -/
theorem isTestName_names {raw : String} (h : isTestName (sanitizeFilename raw) = true) :
    isTestName ("/".intercalate (names raw)) = true := by
  cases hmarked : isMarked raw with
  | false => rwa [← sanitizeFilename_of_unmarked hmarked]
  | true =>
    rw [sanitizeFilename_eq, hmarked, if_pos rfl, List.singleton_append] at h
    obtain ⟨word, hword, hwithin⟩ := isTestName_iff.mp h
    have hplain : ∀ word ∈ testWords, word ≠ [] ∧ '/' ∉ word := by decide
    obtain ⟨hne, hslash⟩ := hplain word hword
    refine isTestName_iff.mpr ⟨word, hword, ?_⟩
    have hroot : "//".toList = ['/', '/'] := rfl
    have hsep : "/".toList = ['/'] := rfl
    by_cases hnil : names raw = []
    · rw [hnil, String.intercalate_singleton, hroot] at hwithin
      have hempty := infix_of_infix_slash hne hslash (infix_of_infix_slash hne hslash hwithin)
      exact absurd (List.eq_nil_of_infix_nil hempty) hne
    · rw [String.intercalate_cons_of_ne_nil hnil, String.toList_append, String.toList_append, hroot,
        hsep] at hwithin
      exact infix_of_infix_slash hne hslash
        (infix_of_infix_slash hne hslash (infix_of_infix_slash hne hslash hwithin))

theorem isTestName_append {fn rest : String} (h : isTestName rest = true) :
    isTestName (fn ++ rest) = true := by
  obtain ⟨word, hword, hwithin⟩ := isTestName_iff.mp h
  refine isTestName_iff.mpr ⟨word, hword, ?_⟩
  rw [String.toList_append]
  exact hwithin.trans (List.suffix_append ..).isInfix

/-- What lies in the directory of the tests like a test is a test. -/
theorem isTest_of_names (ha : isTest a = true) (hb : isMarked b.filename = false)
    (h : names b.filename = "tests" :: names a.filename) : isTest b = true := by
  have hwords := isTestName_names ha
  rw [isTest, sanitizeFilename_of_unmarked hb, h]
  by_cases hnil : names a.filename = []
  · rw [hnil, String.intercalate_nil] at hwords
    obtain ⟨word, hword, hwithin⟩ := isTestName_iff.mp hwords
    have hne : ∀ word ∈ testWords, word ≠ [] := by decide
    exact absurd (List.eq_nil_of_infix_nil hwithin) (hne word hword)
  · rw [String.intercalate_cons_of_ne_nil hnil]
    exact isTestName_append hwords

theorem sanitizeFilename_congr (hmarked : isMarked a.filename = isMarked b.filename)
    (h : names a.filename = names b.filename) :
    sanitizeFilename a.filename = sanitizeFilename b.filename := by
  rw [sanitizeFilename_eq, sanitizeFilename_eq, hmarked, h]

theorem srcNames_cons (env : Surroundings) (solution : Solution) :
    ∃ rest, srcNames env solution = "src" :: rest := by
  rw [srcNames]
  split_ifs
  · exact ⟨_, rfl⟩
  · exact ⟨_, rfl⟩

/-- A test and another block have different places. -/
theorem place_ne_of_test (ha : isTest a = true) (hb : isTest b = false)
    (hrooted : isRooted b = false) : place env solution a ≠ place env solution b := by
  intro heq
  rw [place, place, ha, hb, if_pos rfl, if_neg Bool.false_ne_true] at heq
  split_ifs at heq
  · obtain ⟨rest, hsrc⟩ := srcNames_cons env solution
    rw [hsrc] at heq
    simp at heq
  · have htest := isTest_of_names ha (isMarked_of_plain hrooted hb) heq.symm
    cases htest.symm.trans hb

/-- Two blocks whose paths are relative, neither of them a test, have the same place if one is a
module and the other has its name in the package. -/
theorem place_eq_of_module (ha : isTest a = false) (hb : isTest b = false)
    (hrooted : isRooted b = false) (hmodule : isModule env.u a = true)
    (hne : sanitizeFilename a.filename ≠ sanitizeFilename b.filename)
    (heq : place env solution a = place env solution b) : Clash env solution root a b := by
  rw [place, place, ha, hb, if_neg Bool.false_ne_true, if_neg Bool.false_ne_true, hmodule,
    if_pos rfl] at heq
  split_ifs at heq with hboth
  · rw [List.append_cancel_left_eq] at heq
    have hmarked := (isMarked_of_module hmodule).trans (isMarked_of_module hboth).symm
    exact absurd (sanitizeFilename_congr hmarked heq) hne
  · exact .module ha hmodule hb hrooted heq.symm

/-- Two blocks whose paths are relative. -/
theorem clash_of_place_eq (ha : isRooted a = false) (hb : isRooted b = false)
    (hne : sanitizeFilename a.filename ≠ sanitizeFilename b.filename)
    (heq : place env solution a = place env solution b) :
    Clash env solution root a b ∨ Clash env solution root b a := by
  cases htesta : isTest a with
  | true =>
    cases htestb : isTest b with
    | true =>
      rw [place, place, htesta, htestb, if_pos rfl, if_pos rfl] at heq
      exact .inl (.tests htesta htestb (List.cons.inj heq).2)
    | false => exact absurd heq (place_ne_of_test htesta htestb hb)
  | false =>
    cases htestb : isTest b with
    | true => exact absurd heq.symm (place_ne_of_test htestb htesta ha)
    | false =>
      by_cases hmodulea : isModule env.u a = true
      · exact .inl (place_eq_of_module htesta htestb hb hmodulea hne heq)
      · by_cases hmoduleb : isModule env.u b = true
        · exact .inr (place_eq_of_module htestb htesta ha hmoduleb hne.symm heq.symm)
        · rw [place, place, htesta, htestb, if_neg Bool.false_ne_true, if_neg Bool.false_ne_true,
            if_neg hmodulea, if_neg hmoduleb] at heq
          have hmarked := (isMarked_of_plain ha htesta).trans (isMarked_of_plain hb htestb).symm
          exact absurd (sanitizeFilename_congr hmarked heq) hne

/-- Blocks that clash have one place. -/
theorem spot_eq_of_clash (ha : ¬ Escapes root a) (h : Clash env solution root a b) :
    spot env solution root a = spot env solution root b := by
  have hrooted_of_test : ∀ {c : CodeBlock}, isTest c = true → isRooted c = false := by
    intro c hc
    rw [isRooted, hc, Bool.not_true, Bool.and_false]
  cases h with
  | tests htesta htestb hnames =>
    rw [spot_of_not_rooted (hrooted_of_test htesta), spot_of_not_rooted (hrooted_of_test htestb),
      place, place, htesta, htestb, if_pos rfl, if_pos rfl, hnames]
  | module htesta hmodule htestb hrooted hnames =>
    have hrooteda : isRooted a = false := by
      rw [isRooted, isMarked_of_module hmodule, Bool.false_and]
    have hmoduleb : ¬ isModule env.u b = true := fun hboth => by
      have hlength := length_names_of_module hboth
      have hne := List.length_pos_iff.mpr (names_ne_nil (isMarked_of_module hmodule))
      obtain ⟨rest, hsrc⟩ := srcNames_cons env solution
      rw [hnames, hsrc, List.length_append, List.length_cons] at hlength
      omega
    rw [spot_of_not_rooted hrooteda, spot_of_not_rooted hrooted, place, place, htesta, htestb,
      if_neg Bool.false_ne_true, if_neg Bool.false_ne_true, hmodule, if_pos rfl, if_neg hmoduleb,
      hnames]
  | rooted hrooteda hrootedb hnames =>
    rw [spot_of_not_rooted hrootedb]
    have hspot := @names_of_rooted env solution root a hrooteda ha
    exact List.append_cancel_left (hspot.symm.trans hnames)

/-- Blocks with different sanitized names have one place if and only if they clash. -/
theorem spot_eq_iff (ha : ¬ Escapes root a) (hb : ¬ Escapes root b)
    (hne : sanitizeFilename a.filename ≠ sanitizeFilename b.filename) :
    spot env solution root a = spot env solution root b ↔
      Clash env solution root a b ∨ Clash env solution root b a := by
  refine ⟨fun heq => ?_, fun h => ?_⟩
  -- an absolute path into the project is that of its names, and a relative one is mapped
  · cases hrooteda : isRooted a with
    | true =>
      have hnamesa := @names_of_rooted env solution root a hrooteda ha
      cases hrootedb : isRooted b with
      | true =>
        have hnamesb := @names_of_rooted env solution root b hrootedb hb
        rw [isRooted, Bool.and_eq_true] at hrooteda hrootedb
        refine absurd (sanitizeFilename_congr (hrooteda.1.trans hrootedb.1.symm) ?_) hne
        rw [hnamesa, hnamesb, heq]
      | false =>
        rw [heq, spot_of_not_rooted hrootedb] at hnamesa
        exact .inl (.rooted hrooteda hrootedb hnamesa)
    | false =>
      rw [spot_of_not_rooted hrooteda] at heq
      cases hrootedb : isRooted b with
      | true =>
        have hnamesb := @names_of_rooted env solution root b hrootedb hb
        rw [← heq] at hnamesb
        exact .inr (.rooted hrootedb hrooteda hnamesb)
      | false =>
        rw [spot_of_not_rooted hrootedb] at heq
        exact clash_of_place_eq hrooteda hrootedb hne heq
  · rcases h with h | h
    · exact spot_eq_of_clash ha h
    · exact (spot_eq_of_clash hb h).symm

/-- The place of a block is that of a file of the scaffolder if and only if it is overwritten. -/
theorem overwritten_iff (h : ¬ Escapes root block) :
    (∃ name ∈ ownNames env solution, spot env solution root block = [name]) ↔
      Overwritten env solution root block := by
  constructor
  · rintro ⟨name, hown, hspot⟩
    cases hrooted : isRooted block with
    | true =>
      have hnames := @names_of_rooted env solution root block hrooted h
      exact .rooted hrooted (hspot ▸ hnames) hown
    | false =>
      rw [spot_of_not_rooted hrooted, place] at hspot
      split_ifs at hspot with htest hmodule
      · rw [← (List.cons.inj hspot).1] at hown
        exact absurd hown (tests_not_mem_ownNames env solution)
      · have hne := List.length_pos_iff.mpr (names_ne_nil (isMarked_of_module hmodule))
        obtain ⟨rest, hsrc⟩ := srcNames_cons env solution
        have hlength := congrArg List.length hspot
        rw [hsrc, List.length_append, List.length_cons, List.length_singleton] at hlength
        omega
      · exact .plain (Bool.eq_false_iff.mpr htest) (Bool.eq_false_iff.mpr hmodule) hrooted hspot hown
  · rintro (⟨htest, hmodule, hrooted, hnames, hown⟩ | ⟨hrooted, hnames, hown⟩)
    · refine ⟨_, hown, ?_⟩
      rw [spot_of_not_rooted hrooted, place, htest, hmodule, if_neg Bool.false_ne_true,
        if_neg Bool.false_ne_true, hnames]
    · refine ⟨_, hown, ?_⟩
      have hspot := @names_of_rooted env solution root block hrooted h
      exact List.append_cancel_left (hspot.symm.trans hnames)

end Clashes

/-! ## What a run writes -/

section Runs

variable {env : Surroundings} {projectDir : List String} {solution : Solution} {block : CodeBlock}
  {name lang content : String} {ws : List (Loc × String)} {blocks : List CodeBlock}

theorem wrote_createDirectory : Triple (Disk.Wrote ws) (createDirectory env projectDir lang name)
    (fun _ => Disk.Wrote ws) anything := by
  refine .bind wrote_mkdirs fun _ => .ite (fun _ => wrote_touchFile) fun _ => .keeps_pure

theorem wrote_createDirectories : Triple (Disk.Wrote ws) (createDirectories env projectDir solution)
    (fun dirs d => d.Wrote ws ∧ dirs = dirsOf env solution) anything := by
  refine .bind wrote_createDirectory fun _ => .bind wrote_createDirectory fun _ => ?_
  refine .bind wrote_createDirectory fun _ => .bind wrote_createDirectory fun _ => ?_
  exact .bind wrote_mkdirs fun _ => .pure fun _ hd => ⟨hd, rfl⟩

/-- The text that a block leaves. -/
def blockText (env : Surroundings) (solution : Solution) (root : Loc) (block : CodeBlock) :
    Loc × String :=
  (root ++ spot env solution root block, block.content)

/-- The name of a file of a block. -/
def blockFile (env : Surroundings) (solution : Solution) (root : Loc) (block : CodeBlock) : String :=
  "/".intercalate (spot env solution root block)

theorem target_eq_spot (h : ¬ Escapes (resolve [] projectDir) block) :
    resolve [] (joinPath projectDir (mapFilename env.u block (dirsOf env solution))) =
      resolve [] projectDir ++ spot env solution (resolve [] projectDir) block := by
  rw [target_eq]
  split_ifs with hrooted
  · exact names_of_rooted hrooted h
  · rw [spot_of_not_rooted (Bool.eq_false_iff.mpr hrooted)]

theorem wrote_writeBlock :
    Triple (Disk.Wrote ws) (writeBlock env projectDir (dirsOf env solution) block)
      (fun file d => d.Wrote (ws ++ [blockText env solution (resolve [] projectDir) block]) ∧
        file = blockFile env solution (resolve [] projectDir) block ∧
        ¬ Escapes (resolve [] projectDir) block) anything := by
  have hout := @not_below_iff env projectDir solution block
  have htarget := @target_eq_spot env projectDir solution block
  rw [writeBlock]
  generalize joinPath projectDir (mapFilename env.u block (dirsOf env solution)) = path at hout htarget ⊢
  refine .bind ((triple_resolvePath path).imp (fun _ hd => hd) (fun _ _ hd => hd)
    fun _ _ _ => trivial) fun target => .of_pure fun heq => ?_
  subst heq
  refine .ite (fun _ => .raise fun _ _ => trivial) fun hbelow => ?_
  have hsafe := mt hout.mpr hbelow
  refine .bind wrote_mkdirs fun _ => .bind wrote_writeText fun _ => .pure fun d hd => ⟨?_, ?_, hsafe⟩
  · rw [resolve_resolve, htarget hsafe] at hd
    exact hd
  · rw [htarget hsafe, List.drop_left]
    rfl

theorem wrote_writeBlocks :
    Triple (Disk.Wrote ws) (writeBlocks env projectDir (dirsOf env solution) blocks)
      (fun files d => d.Wrote (ws ++ blocks.map (blockText env solution (resolve [] projectDir))) ∧
        files = blocks.map (blockFile env solution (resolve [] projectDir)) ∧
        ∀ block ∈ blocks, ¬ Escapes (resolve [] projectDir) block) anything := by
  induction blocks generalizing ws with
  | nil =>
    refine .pure fun d hd => ⟨?_, rfl, fun _ h => by cases h⟩
    rwa [List.map_nil, List.append_nil]
  | cons block blocks ih =>
    refine .bind wrote_writeBlock fun file => .of_pure fun ⟨hfile, hblock⟩ => ?_
    refine .bind ih fun files => .of_pure fun ⟨hfiles, hblocks⟩ => .pure fun d hd => ⟨?_, ?_, ?_⟩
    · rwa [List.append_assoc] at hd
    · rw [hfile, hfiles]
      rfl
    · exact List.forall_mem_cons.mpr ⟨hblock, hblocks⟩

/-- Files of these names were written into the directory of the project, after these texts. -/
def WroteNames (root : Loc) (ws : List (Loc × String)) (names : List String) (d : Disk) : Prop :=
  ∃ own, d.Wrote (ws ++ own) ∧ own.map Prod.fst = names.map fun name => root ++ [name]

theorem wroteNames_writeOwn {names : List String} (hslash : noSlash name = true)
    (hname : isName name = true) :
    Triple (WroteNames (resolve [] projectDir) ws names) (writeOwn env projectDir name content)
      (fun files d => WroteNames (resolve [] projectDir) ws (names ++ [name]) d ∧ files = [name])
      anything := by
  rintro d ⟨own, hd, hown⟩
  have hpath : resolve [] (joinPath projectDir name) = resolve [] projectDir ++ [name] := by
    rw [joinPath, isAbsolute_name hslash, if_neg Bool.false_ne_true,
      parts_eq_singleton hslash hname, resolve_append]
    exact enter_name hname
  refine Triple.bind wrote_writeText (fun _ => .pure fun d' hd' => ⟨?_, rfl⟩) d hd
  refine ⟨own ++ [(resolve [] projectDir ++ [name], content)], ?_, ?_⟩
  · rw [hpath, List.append_assoc] at hd'
    exact hd'
  · rw [List.map_append, List.map_append, hown]
    rfl

theorem wroteNames_createConfigs {names : List String} :
    Triple (WroteNames (resolve [] projectDir) ws names) (createConfigs env projectDir solution)
      (fun files d => WroteNames (resolve [] projectDir) ws (names ++ files) d ∧
        files = [".gitignore", ".env.example"] ++ ruffNames env solution) anything := by
  have hruff {names : List String} : Triple (WroteNames (resolve [] projectDir) ws names)
      (createRuff env projectDir solution)
      (fun files d => WroteNames (resolve [] projectDir) ws (names ++ files) d ∧
        files = ruffNames env solution) anything := by
    rw [createRuff, ruffNames]
    split_ifs
    · exact (wroteNames_writeOwn rfl rfl).post fun files d hd => ⟨hd.2 ▸ hd.1, hd.2⟩
    · exact .pure fun d hd => ⟨(List.append_nil names).symm ▸ hd, rfl⟩
  refine .bind (wroteNames_writeOwn rfl rfl) fun files₁ => .of_pure fun h₁ => ?_
  refine .bind (wroteNames_writeOwn rfl rfl) fun files₂ => .of_pure fun h₂ => ?_
  refine .bind hruff fun files₃ => .of_pure fun h₃ => .pure fun d hd => ⟨?_, ?_⟩
  · rw [h₁, h₂]
    simpa using hd
  · rw [h₁, h₂, h₃]
    rfl

theorem wroteNames_createReadme {names : List String} {task : Task} :
    Triple (WroteNames (resolve [] projectDir) ws names) (createReadme env projectDir solution task)
      (fun files d => WroteNames (resolve [] projectDir) ws (names ++ files) d ∧
        files = ["README.md"]) anything := by
  refine .bind .keeps_get fun _ => ?_
  exact (wroteNames_writeOwn rfl rfl).post fun files d hd => ⟨hd.2 ▸ hd.1, hd.2⟩

theorem wroteNames_createProjectManifest {names : List String} :
    Triple (WroteNames (resolve [] projectDir) ws names)
      (createProjectManifest env projectDir solution)
      (fun files d => WroteNames (resolve [] projectDir) ws (names ++ files) d ∧
        files = manifestNames env solution) anything := by
  rw [createProjectManifest, manifestNames]
  split_ifs
  · exact (wroteNames_writeOwn rfl rfl).post fun files d hd => ⟨hd.2 ▸ hd.1, hd.2⟩
  · exact (wroteNames_writeOwn rfl rfl).post fun files d hd => ⟨hd.2 ▸ hd.1, hd.2⟩
  · exact .pure fun d hd => ⟨(List.append_nil names).symm ▸ hd, rfl⟩

/-- What is known of a run that returns: the texts of the blocks were written, then the other files,
and this is what it says. -/
structure Ran (env : Surroundings) (projectDir : List String) (solution : Solution)
    (result : Scaffolded) (d : Disk) : Prop where
  wrote : WroteNames (resolve [] projectDir)
    (solution.codeBlocks.map (blockText env solution (resolve [] projectDir)))
    (ownNames env solution) d
  safe : ∀ block ∈ solution.codeBlocks, ¬ Escapes (resolve [] projectDir) block
  files : result.files = solution.codeBlocks.map (blockFile env solution (resolve [] projectDir)) ++
    ownNames env solution
  filesCreated : result.filesCreated = result.files.length

theorem ran_scaffold {outputDir : List String} {task : Task} : Triple (Disk.Wrote [])
    (scaffold env outputDir solution task)
    (Ran env (joinPath outputDir (slugify env task.title)) solution) anything := by
  rw [scaffold]
  refine .bind wrote_createDirectories fun dirs => .of_pure fun hdirs => ?_
  subst hdirs
  refine .bind wrote_writeBlocks fun files => .of_pure fun hwritten => ?_
  obtain ⟨hfiles, hsafe⟩ := hwritten
  have hstart : ∀ ws d, d.Wrote ([] ++ ws) →
      WroteNames (resolve [] (joinPath outputDir (slugify env task.title))) ws [] d :=
    fun ws d hd => ⟨[], (List.append_nil ws).symm ▸ hd, rfl⟩
  refine .imp ?_ (hstart _) (fun _ _ h => h) fun _ _ h => h
  refine .bind wroteNames_createConfigs fun configs => .of_pure fun hconfigs => ?_
  refine .bind wroteNames_createReadme fun readme => .of_pure fun hreadme => ?_
  refine .bind wroteNames_createProjectManifest fun manifest => .of_pure fun hmanifest => ?_
  have hown : [] ++ configs ++ readme ++ manifest = ownNames env solution := by
    rw [hconfigs, hreadme, hmanifest]
    rfl
  refine .bind .keeps_get fun _ => .pure fun d hd => ⟨hown ▸ hd, hsafe, ?_, rfl⟩
  rw [← hown, hfiles]
  simp

end Runs

/-! ## What is left -/

section Left

variable {env : Surroundings} {outputDir projectDir : List String} {solution : Solution} {task : Task}
  {result : Scaffolded} {d : Disk}

/-- Every code block is there, where the run says that it is, and the number of files that the run
says is that of the files that were written. -/
structure NothingLost (projectDir : List String) (solution : Solution) (result : Scaffolded)
    (d : Disk) : Prop where
  texts : ∀ (i : Nat) (block : CodeBlock), solution.codeBlocks[i]? = some block →
    ∃ file, result.files[i]? = some file ∧ d.IsFile (resolve [] (joinPath projectDir file)) ∧
      d.text (resolve [] (joinPath projectDir file)) = block.content
  count : result.filesCreated = (d.log.filterMap FileOp.written).toFinset.card

/-- The locations that a run writes to, in order. -/
def writtenLocs (env : Surroundings) (solution : Solution) (root : Loc) : List Loc :=
  (solution.codeBlocks.map (spot env solution root) ++ (ownNames env solution).map ([·])).map
    (root ++ ·)

theorem filterMap_written (log : List FileOp) :
    log.filterMap FileOp.written = (log.filterMap FileOp.text?).map Prod.fst := by
  rw [List.map_filterMap]
  refine List.filterMap_congr fun op _ => ?_
  cases op with
  | touch loc => rfl
  | write loc text => rfl

theorem Ran.locs (h : Ran env projectDir solution result d) :
    d.log.filterMap FileOp.written = writtenLocs env solution (resolve [] projectDir) := by
  obtain ⟨own, ⟨-, htexts⟩, hown⟩ := h.wrote
  rw [filterMap_written, htexts, List.map_append, hown, writtenLocs, List.map_append, List.map_map,
    List.map_map, List.map_map]
  rfl

/-- The path that is reported for a block is that of its place. -/
theorem resolve_blockFile (block : CodeBlock) :
    resolve [] (joinPath projectDir (blockFile env solution (resolve [] projectDir) block)) =
      resolve [] projectDir ++ spot env solution (resolve [] projectDir) block := by
  have hnames : ∀ name ∈ spot env solution (resolve [] projectDir) block,
      noSlash name = true ∧ isName name = true := by
    intro name hname
    rw [spot] at hname
    split_ifs at hname
    · exact isName_names (List.mem_of_mem_drop hname)
    · exact isName_place env hname
  rw [joinPath, blockFile, isAbsolute_intercalate hnames, if_neg Bool.false_ne_true,
    parts_intercalate hnames, resolve_append, resolve_names fun name hname => (hnames name hname).2]

/-- Nothing is lost if no location is written to twice. -/
theorem Ran.nothingLost_iff_nodup (h : Ran env projectDir solution result d) :
    NothingLost projectDir solution result d ↔
      (writtenLocs env solution (resolve [] projectDir)).Nodup := by
  have hcount : result.filesCreated = (d.log.filterMap FileOp.written).toFinset.card ↔
      (writtenLocs env solution (resolve [] projectDir)).Nodup := by
    have hlength : result.filesCreated =
        (writtenLocs env solution (resolve [] projectDir)).length := by
      rw [h.filesCreated, h.files, writtenLocs]
      simp
    rw [h.locs, hlength, eq_comm]
    exact Multiset.toFinset_card_eq_card_iff_nodup
  refine ⟨fun hnone => hcount.mp hnone.count, fun hnodup => ⟨fun i block hblock => ?_, hcount.mpr hnodup⟩⟩
  have hmem := List.mem_of_getElem? hblock
  obtain ⟨own, hwrote, hown⟩ := h.wrote
  have hlocs := h.locs
  rw [filterMap_written, hwrote.2] at hlocs
  have htext : blockText env solution (resolve [] projectDir) block ∈
      solution.codeBlocks.map (blockText env solution (resolve [] projectDir)) ++ own :=
    List.mem_append_left _ (List.mem_map_of_mem hmem)
  have hread := hwrote.read (hlocs ▸ hnodup) htext
  refine ⟨blockFile env solution (resolve [] projectDir) block, ?_, ?_⟩
  · have hi := (List.getElem?_eq_some_iff.mp hblock).1
    rw [h.files, List.getElem?_append_left (by simpa using hi), List.getElem?_map, hblock]
    rfl
  · rwa [resolve_blockFile]

/-- **Overwritten files.** A run that returns, for code blocks with different sanitized names, loses
no code block and counts its files right if and only if no name leads to a file of the scaffolder
and no two names lead to one place. -/
theorem nothingLost_iff (w : World) (text : Loc → String)
    (hdistinct : solution.codeBlocks.Pairwise fun a b =>
      sanitizeFilename a.filename ≠ sanitizeFilename b.filename)
    (h : scaffold env outputDir solution task (fresh w text) = (.ok result, d)) :
    NothingLost (joinPath outputDir (slugify env task.title)) solution result d ↔
      (∀ block ∈ solution.codeBlocks,
        ¬ Overwritten env solution (projectRoot env outputDir task) block) ∧
      solution.codeBlocks.Pairwise fun a b =>
        ¬ Clash env solution (projectRoot env outputDir task) a b ∧
        ¬ Clash env solution (projectRoot env outputDir task) b a := by
  have hran := ran_scaffold.run ⟨(fresh_within [] w text).1, rfl⟩ h
  have hsafe := hran.safe
  have hown : ((ownNames env solution).map ([·])).Nodup :=
    (List.nodup_map_iff fun _ _ => List.singleton_inj.mp).mpr (nodup_ownNames env solution)
  rw [hran.nothingLost_iff_nodup, writtenLocs, List.nodup_map_iff fun _ _ => List.append_cancel_left,
    List.nodup_append', and_iff_right hown, and_comm]
  -- the locations of the blocks are apart from the others, and different among themselves
  refine and_congr ?_ ?_
  · rw [List.disjoint_iff_ne]
    refine ⟨fun hne block hblock hover => ?_, fun hnone => ?_⟩
    · obtain ⟨name, hname, hspot⟩ := (overwritten_iff (hsafe block hblock)).mpr hover
      exact hne _ (List.mem_map_of_mem hblock) _ (List.mem_map_of_mem hname) hspot
    · rintro _ hleft _ hright heq
      obtain ⟨block, hblock, rfl⟩ := List.mem_map.mp hleft
      obtain ⟨name, hname, rfl⟩ := List.mem_map.mp hright
      exact hnone block hblock ((overwritten_iff (hsafe block hblock)).mp ⟨name, hname, heq⟩)
  · rw [List.Nodup, List.pairwise_map]
    constructor
    · intro hspots
      refine (hdistinct.and hspots).imp_of_mem fun ha hb ⟨hne, hspot⟩ => ?_
      have hclash := mt (spot_eq_iff (hsafe _ ha) (hsafe _ hb) hne).mpr hspot
      exact not_or.mp hclash
    · intro hclashes
      refine (hdistinct.and hclashes).imp_of_mem fun ha hb ⟨hne, hclash⟩ hspot => ?_
      exact not_or.mpr hclash ((spot_eq_iff (hsafe _ ha) (hsafe _ hb) hne).mp hspot)

/-- Blocks with these names and languages. -/
def blocksWith (names : List (String × String)) : List CodeBlock :=
  names.map fun (filename, language) => { filename, language, content := filename }

/-- A solution with code blocks of its own. -/
def solutionOf (names : List (String × String)) : Solution where
  taskId := "t1"
  title := "App"
  summary := ""
  codeBlocks := blocksWith names

/-- A run in an empty directory. -/
def runOf (names : List (String × String)) : Except PyExc Scaffolded × Disk :=
  scaffold plainSurroundings ["out"] (solutionOf names) ⟨"App", ""⟩ (fresh bareWorld fun _ => "")

theorem runOf_ok {names : List (String × String)} (h : (runOf names).1.toOption.isSome = true) :
    ∃ result d, runOf names = (.ok result, d) := by
  rcases hrun : runOf names with ⟨_ | result, d⟩
  · rw [hrun] at h
    cases h
  · exact ⟨result, d, rfl⟩

/-- A module and its test. -/
theorem nothingLost_iff_module : ∃ result d,
    runOf [("main.py", "python"), ("test_main.py", "python")] = (.ok result, d) ∧
      NothingLost ["out", "app"] (solutionOf [("main.py", "python"), ("test_main.py", "python")])
        result d := by
  obtain ⟨result, d, hrun⟩ := runOf_ok
    (by decide +kernel : (runOf [("main.py", "python"), ("test_main.py", "python")]).1.toOption.isSome)
  refine ⟨result, d, hrun, ?_⟩
  have hdir : joinPath ["out"] (slugify plainSurroundings "App") = ["out", "app"] := by decide +kernel
  have hmain : isTest ⟨"main.py", "python", "main.py", ""⟩ = false ∧
      isModule Unicode.ascii ⟨"main.py", "python", "main.py", ""⟩ = true ∧
      isRooted ⟨"main.py", "python", "main.py", ""⟩ = false := by decide +kernel
  have htest : isTest ⟨"test_main.py", "python", "test_main.py", ""⟩ = true ∧
      isRooted ⟨"test_main.py", "python", "test_main.py", ""⟩ = false := by decide +kernel
  have hdistinct : (solutionOf [("main.py", "python"), ("test_main.py", "python")]).codeBlocks.Pairwise
      fun a b => sanitizeFilename a.filename ≠ sanitizeFilename b.filename := by decide +kernel
  rw [← hdir]
  refine (nothingLost_iff bareWorld _ hdistinct hrun).mpr ⟨?_, List.pairwise_pair.mpr ⟨?_, ?_⟩⟩
  · intro block hblock hover
    rcases List.mem_pair.mp hblock with rfl | rfl
    · rcases hover with ⟨-, hmodule, -⟩ | ⟨hrooted, -⟩
      · cases hmodule.symm.trans hmain.2.1
      · cases hrooted.symm.trans hmain.2.2
    · rcases hover with ⟨hplain, -⟩ | ⟨hrooted, -⟩
      · cases hplain.symm.trans htest.1
      · cases hrooted.symm.trans htest.2
  · rintro (⟨ha, -⟩ | ⟨-, -, hb, -⟩ | ⟨ha, -⟩)
    · cases ha.symm.trans hmain.1
    · cases hb.symm.trans htest.1
    · cases ha.symm.trans hmain.2.2
  · rintro (⟨-, hb, -⟩ | ⟨ha, -⟩ | ⟨ha, -⟩)
    · cases hb.symm.trans hmain.1
    · cases ha.symm.trans htest.1
    · cases ha.symm.trans htest.2

/-- A module whose name in the package is another block's name: five files are written, and six are
counted. -/
theorem main_overwritten :
    (blocksWith [("main.py", "python"), ("src/app/main.py", "python")]).Pairwise
      (fun a b => sanitizeFilename a.filename ≠ sanitizeFilename b.filename) ∧
    ∃ result d, runOf [("main.py", "python"), ("src/app/main.py", "python")] = (.ok result, d) ∧
      ¬ NothingLost ["out", "app"]
        (solutionOf [("main.py", "python"), ("src/app/main.py", "python")]) result d := by
  have hrun : (runOf [("main.py", "python"), ("src/app/main.py", "python")]).1.toOption.map
      Scaffolded.filesCreated = some 6 := by decide +kernel
  have hcard : ((runOf [("main.py", "python"), ("src/app/main.py", "python")]).2.log.filterMap
      FileOp.written).toFinset.card = 5 := by decide +kernel
  refine ⟨by decide +kernel, ?_⟩
  rcases heq : runOf [("main.py", "python"), ("src/app/main.py", "python")] with ⟨_ | result, d⟩
  · rw [heq] at hrun
    cases hrun
  · rw [heq] at hrun hcard
    refine ⟨result, d, rfl, fun hnone => ?_⟩
    have hcount := hnone.count
    rw [hcard, Option.some.inj hrun] at hcount
    cases hcount

end Left

end Noema.Scaffolder
