import Noema.Scaffolder.Generator

/-!
# Where the files of a project lie

The name of a code block is untrusted. Its parts are names (`isName_names`), so what they are joined
to is never left, with one exception: two slashes are a root that `_sanitize_filename` does not
know. A name that starts with them keeps it, and the path of the block is absolute unless the block
goes to the tests.

- `isAbsolute_sanitizeFilename`: a sanitized name is an absolute path if and only if it started with
  exactly two slashes.
- `target_eq`: where a block lies: below the directory of the project, or where its absolute path
  says.
- `Escapes`: the path of a block is absolute and does not lead into the project.
  `writeBlock_escapes`: such a block is refused.
- `within_writeBlock` and the lemmas after it: whatever else is written lies in the project. They
  are triples over the file system, for every way in which the system may refuse.
- **`safe_iff`**: a run stays in the project and does not refuse a file name, if and only if it
  comes upon no block that escapes (`Reaches`).
- `twoSlashes_refused`: `//etc/evil.py`. `safe_iff_traversal`: names that climb, have a drive or
  start at the root are harmless.
-/

namespace Noema.Scaffolder

open Noema.Lib Noema.Core Posix PyM

/-! ## The parts of a name -/

/-- The name starts with exactly two slashes. -/
def isMarked (raw : String) : Bool := rootParts (normalized raw).toList == ["//"]

/-- The parts of a name that are kept, its root apart. -/
def keptParts (raw : String) : List String := (parts (normalized raw)).filter isKept

/-- The names in a sanitized name. -/
def names (raw : String) : List String :=
  if isMarked raw = false ∧ keptParts raw = [] then ["generated.py"] else keptParts raw

section Names

variable {raw name : String}

theorem isName_of_isKept (h : isKept name = true) : isName name = true := by
  simp only [isKept, Bool.and_eq_true, decide_eq_true_eq, List.mem_cons, not_or] at h
  simp [isName, h.1]

theorem filter_rootParts (raw : String) :
    (rootParts (normalized raw).toList).filter isKept = if isMarked raw then ["//"] else [] := by
  rw [isMarked]
  generalize (normalized raw).toList = text
  fun_cases rootParts text
  · decide
  · decide
  · decide
  · rfl

theorem sanitizeFilename_eq (raw : String) :
    sanitizeFilename raw =
      "/".intercalate ((if isMarked raw then ["//"] else []) ++ names raw) := by
  rw [sanitizeFilename, pureParts, List.filter_append, filter_rootParts, names, keptParts]
  cases hmarked : isMarked raw with
  | true => simp
  | false => simp

theorem names_eq_or (raw : String) : names raw = ["generated.py"] ∨ names raw = keptParts raw := by
  rw [names]
  split_ifs
  · exact .inl rfl
  · exact .inr rfl

theorem generated_name : noSlash "generated.py" = true ∧ isName "generated.py" = true := by
  constructor
  · rfl
  · rfl

/-- The names are names. -/
theorem isName_names (h : name ∈ names raw) : noSlash name = true ∧ isName name = true := by
  rcases names_eq_or raw with hnames | hnames
  · rw [hnames, List.mem_singleton] at h
    rw [h]
    exact generated_name
  · rw [hnames, keptParts, List.mem_filter] at h
    exact ⟨noSlash_of_mem_parts h.1, isName_of_isKept h.2⟩

theorem names_ne_nil (h : isMarked raw = false) : names raw ≠ [] := by
  rw [names]
  by_cases hnone : keptParts raw = []
  · rw [if_pos ⟨h, hnone⟩]
    exact List.cons_ne_nil _ _
  · rwa [if_neg fun hboth => hnone hboth.2]

theorem parts_slashes : parts "//" = [] := by
  rw [parts, pathSegs]
  rfl

theorem parts_sanitizeFilename (raw : String) : parts (sanitizeFilename raw) = names raw := by
  have hnames : parts ("/".intercalate (names raw)) = names raw :=
    parts_intercalate fun _ => isName_names
  rw [sanitizeFilename_eq]
  cases isMarked raw with
  | false => rw [if_neg Bool.false_ne_true, List.nil_append, hnames]
  | true =>
    rw [if_pos rfl, List.singleton_append]
    by_cases hnil : names raw = []
    · rw [hnil, String.intercalate_singleton, parts_slashes]
    · rw [String.intercalate_cons_of_ne_nil hnil, parts_append, hnames, parts_slashes,
        List.nil_append]

theorem isAbsolute_append {text : String} (h : text ≠ "") (rest : String) :
    isAbsolute (text ++ rest) = isAbsolute text := by
  have hne : text.toList ≠ [] := fun hnil => h (String.toList_eq_nil_iff.mp hnil)
  rw [isAbsolute, isAbsolute, String.toList_append, List.head?_append_of_ne_nil _ hne]

theorem isAbsolute_name (h : noSlash name = true) : isAbsolute name = false := by
  have hnone : '/' ∉ name.toList := by simpa [noSlash] using h
  rw [isAbsolute, beq_eq_false_iff_ne]
  exact fun hhead => hnone (List.mem_of_head? hhead)

/-- The path of names is a relative one. -/
theorem isAbsolute_intercalate {names : List String}
    (h : ∀ name ∈ names, noSlash name = true ∧ isName name = true) :
    isAbsolute ("/".intercalate names) = false := by
  cases names with
  | nil =>
    rw [String.intercalate_nil]
    rfl
  | cons name rest =>
    obtain ⟨hslash, hname⟩ := h name List.mem_cons_self
    have hne : name ≠ "" := by
      rintro rfl
      cases hname
    by_cases hnil : rest = []
    · rw [hnil, String.intercalate_singleton, isAbsolute_name hslash]
    · rw [String.intercalate_cons_of_ne_nil hnil, String.append_assoc, isAbsolute_append hne,
        isAbsolute_name hslash]

/-- A sanitized name is an absolute path if it was marked. -/
theorem isAbsolute_sanitizeFilename (raw : String) :
    isAbsolute (sanitizeFilename raw) = isMarked raw := by
  rw [sanitizeFilename_eq]
  cases hmarked : isMarked raw with
  | true =>
    rw [if_pos rfl, List.singleton_append]
    by_cases hnil : names raw = []
    · rw [hnil, String.intercalate_singleton]
      rfl
    · rw [String.intercalate_cons_of_ne_nil hnil, String.append_assoc,
        isAbsolute_append (by decide)]
      rfl
  | false =>
    rw [if_neg Bool.false_ne_true, List.nil_append]
    exact isAbsolute_intercalate fun _ => isName_names

end Names

/-! ## Slugs -/

section Slugs

variable {env : Surroundings} {title : String} {c : Char} {text : List Char}

/-- The characters of a slug come after the slash, the dot and NUL. -/
theorem underscoreRuns_chars (inRun : Bool) (h : c ∈ underscoreRuns inRun text) : '0' ≤ c := by
  induction text generalizing inRun with
  | nil => cases h
  | cons d text ih =>
    rw [underscoreRuns] at h
    split_ifs at h with hslug hin
    · rcases List.mem_cons.mp h with rfl | h
      · simp only [Bool.or_eq_true, Bool.and_eq_true, decide_eq_true_eq] at hslug
        rcases hslug with hletter | hdigit
        · exact le_trans (by decide) hletter.1
        · exact hdigit.1
      · exact ih false h
    · exact ih true h
    · rcases List.mem_cons.mp h with rfl | h
      · decide
      · exact ih true h

theorem mem_of_mem_stripBy {p : Char → Bool} (h : c ∈ stripBy p text) : c ∈ text := by
  rw [stripBy] at h
  have hback := (List.dropWhile_sublist p).subset (List.mem_reverse.mp h)
  exact (List.dropWhile_sublist p).subset (List.mem_reverse.mp hback)

theorem slugify_chars (h : c ∈ (slugify env title).toList) : '0' ≤ c := by
  rw [slugify] at h
  split_ifs at h
  · have hproject : ∀ c ∈ ['p', 'r', 'o', 'j', 'e', 'c', 't'], '0' ≤ c := by simp
    exact hproject c h
  · rw [String.toList_ofList] at h
    exact underscoreRuns_chars false (mem_of_mem_stripBy h)

theorem slugify_ne_empty : slugify env title ≠ "" := by
  rw [slugify]
  split_ifs with hnil
  · decide
  · exact fun hempty => hnil (String.ofList_eq_empty_iff.mp hempty)

/-- A slug is a name. -/
theorem slugify_name (env : Surroundings) (title : String) :
    noSlash (slugify env title) = true ∧ isName (slugify env title) = true ∧
      hasNul (slugify env title) = false := by
  have hne : ∀ d < '0', d ∉ (slugify env title).toList := fun d hd hmem =>
    absurd (slugify_chars hmem) (not_le.mpr hd)
  have hdot : ∀ text : String, '.' ∈ text.toList → slugify env title ≠ text := by
    rintro text htext rfl
    exact hne '.' (by decide) htext
  refine ⟨?_, ?_, ?_⟩
  · simpa [noSlash] using hne '/' (by decide)
  · simp [isName, slugify_ne_empty, hdot "." (by decide), hdot ".." (by decide)]
  · simpa [hasNul] using hne '\x00' (by decide)

end Slugs

/-! ## Places -/

section Places

variable (env : Surroundings) {outputDir : List String} {solution : Solution} {block : CodeBlock}

/-- A test, by its sanitized name. -/
def isTest (block : CodeBlock) : Bool := isTestName (sanitizeFilename block.filename)

/-- A block for the package of a Python project: in Python, and with one name that is not that of a
file for the root. -/
def isModule (u : Unicode) (block : CodeBlock) : Bool :=
  !isRootName (sanitizeFilename block.filename) &&
    String.ofList (u.lower block.language.toList) == "python" &&
    noSlash (sanitizeFilename block.filename)

/-- Where the sources of a project are. -/
def srcNames (solution : Solution) : List String :=
  if language env solution = "python" then ["src", slugify env solution.title] else ["src"]

/-- The directories of a project. -/
def dirsOf (solution : Solution) : Dirs where
  src := if language env solution = "python" then "src/" ++ slugify env solution.title else "src"
  tests := "tests"
  docs := "docs"
  config := "config"

/-- The names in a mapped name. -/
def place (solution : Solution) (block : CodeBlock) : List String :=
  if isTest block then "tests" :: names block.filename
  else if isModule env.u block then srcNames env solution ++ names block.filename
  else names block.filename

/-- The path of a block is an absolute one. -/
def isRooted (block : CodeBlock) : Bool := isMarked block.filename && !isTest block

theorem parts_tests : parts "tests" = ["tests"] := by
  rw [parts, pathSegs]
  rfl

theorem parts_src : parts "src" = ["src"] := by
  rw [parts, pathSegs]
  rfl

theorem parts_dirsOf (solution : Solution) : parts (dirsOf env solution).src = srcNames env solution := by
  obtain ⟨hslash, hname, -⟩ := slugify_name env solution.title
  rw [dirsOf, srcNames]
  split_ifs
  · show parts ("src" ++ "/" ++ slugify env solution.title) = _
    rw [parts_append, parts_src, parts_eq_singleton hslash hname]
    rfl
  · exact parts_src

theorem noSlash_iff {text : String} : noSlash text = true ↔ '/' ∉ text.toList := by
  simp [noSlash]

theorem parts_mapFilename (solution : Solution) (block : CodeBlock) :
    parts (mapFilename env.u block (dirsOf env solution)) = place env solution block := by
  have hfn := parts_sanitizeFilename block.filename
  rw [mapFilename, place, isTest, isModule]
  generalize sanitizeFilename block.filename = fn at hfn ⊢
  by_cases htest : isTestName fn = true
  · rw [if_pos htest, if_pos htest]
    show parts ("tests" ++ "/" ++ fn) = _
    rw [parts_append, parts_tests, hfn]
    rfl
  · rw [if_neg htest, if_neg htest]
    by_cases hroot : isRootName fn = true
    · simp [hroot, hfn]
    · by_cases hlang : String.ofList (env.u.lower block.language.toList) = "python"
      · by_cases hslash : '/' ∈ fn.toList
        · simp [hroot, hslash, noSlash, hfn]
        · have hparts : parts ((dirsOf env solution).src ++ "/" ++ fn) =
              srcNames env solution ++ names block.filename := by
            rw [parts_append, parts_dirsOf, hfn]
          simpa [hroot, hlang, hslash, noSlash] using hparts
      · simp [hroot, hlang, hfn]

theorem isAbsolute_src (solution : Solution) : isAbsolute (dirsOf env solution).src = false := by
  rw [dirsOf]
  split_ifs
  · exact isAbsolute_append (by decide) _
  · rfl

theorem src_ne_empty (solution : Solution) : (dirsOf env solution).src ≠ "" := by
  rw [dirsOf]
  split_ifs
  · exact fun h => absurd (String.append_eq_empty_iff.mp h).1 (by decide)
  · exact (by decide : "src" ≠ "")

theorem isAbsolute_mapFilename (solution : Solution) (block : CodeBlock) :
    isAbsolute (mapFilename env.u block (dirsOf env solution)) = isRooted block := by
  have hfn := isAbsolute_sanitizeFilename block.filename
  rw [mapFilename, isRooted, isTest, ← hfn]
  generalize sanitizeFilename block.filename = fn
  by_cases htest : isTestName fn = true
  · rw [if_pos htest, htest, isAbsolute_append (by decide), Bool.not_true, Bool.and_false]
    rfl
  · rw [if_neg htest, Bool.eq_false_iff.mpr htest, Bool.not_false, Bool.and_true]
    split_ifs with hroot hlang hslash
    · rfl
    · rfl
    · rw [String.append_assoc, isAbsolute_append (src_ne_empty env solution), isAbsolute_src,
        isAbsolute_name (noSlash_iff.mpr hslash)]
    · rfl

theorem isName_srcNames {name : String} (h : name ∈ srcNames env solution) :
    noSlash name = true ∧ isName name = true := by
  rw [srcNames] at h
  split_ifs at h
  · rcases List.mem_cons.mp h with rfl | h
    · exact ⟨rfl, rfl⟩
    · rw [List.mem_singleton.mp h]
      obtain ⟨hslash, hname, -⟩ := slugify_name env solution.title
      exact ⟨hslash, hname⟩
  · rw [List.mem_singleton.mp h]
    exact ⟨rfl, rfl⟩

/-- The place of a block consists of names. -/
theorem isName_place {name : String} (h : name ∈ place env solution block) :
    noSlash name = true ∧ isName name = true := by
  rw [place] at h
  split_ifs at h
  · rcases List.mem_cons.mp h with rfl | h
    · exact ⟨rfl, rfl⟩
    · exact isName_names h
  · rcases List.mem_append.mp h with h | h
    · exact isName_srcNames env h
    · exact isName_names h
  · exact isName_names h

/-- The directory of a project. -/
def projectRoot (outputDir : List String) (task : Task) : Loc :=
  resolve [] (joinPath outputDir (slugify env task.title))

theorem isModule_of_rooted (h : isRooted block = true) : isModule env.u block = false := by
  rw [isRooted, Bool.and_eq_true] at h
  rw [isModule, Bool.and_eq_false_iff]
  refine .inr (Bool.eq_false_iff.mpr fun hslash => ?_)
  have habsolute := isAbsolute_sanitizeFilename block.filename
  rw [isAbsolute_name hslash, h.1] at habsolute
  cases habsolute

theorem place_of_rooted (h : isRooted block = true) :
    place env solution block = names block.filename := by
  have hmodule := isModule_of_rooted env h
  rw [isRooted, Bool.and_eq_true, Bool.not_eq_true'] at h
  rw [place, h.2, hmodule, if_neg Bool.false_ne_true, if_neg Bool.false_ne_true]

/-- Where a block lies: below the directory of the project, or where its absolute path says. -/
theorem target_eq (projectDir : List String) (solution : Solution) (block : CodeBlock) :
    resolve [] (joinPath projectDir (mapFilename env.u block (dirsOf env solution))) =
      if isRooted block then names block.filename
      else resolve [] projectDir ++ place env solution block := by
  rw [joinPath, isAbsolute_mapFilename, parts_mapFilename]
  split_ifs with hrooted
  · rw [place_of_rooted env hrooted, resolve_names fun _ h => (isName_names h).2, List.nil_append]
  · rw [resolve_append, resolve_names fun _ h => (isName_place env h).2]

end Places

/-! ## Runs -/

section Runs

variable {env : Surroundings} {projectDir : List String} {solution : Solution} {block : CodeBlock}
  {name lang : String} {d : Disk}

/-- The path of a name in the project leads below it. -/
theorem below_joinPath {extra : List String} (habsolute : isAbsolute name = false)
    (hparts : ∀ part ∈ parts name, isName part = true) (hextra : ∀ part ∈ extra, isName part = true) :
    resolve [] projectDir <+: resolve [] (joinPath projectDir name ++ extra) := by
  have hnames : ∀ part ∈ parts name ++ extra, isName part = true := fun part hpart =>
    (List.mem_append.mp hpart).elim (hparts part) (hextra part)
  have happend : resolve [] (projectDir ++ (parts name ++ extra)) =
      resolve [] projectDir ++ (parts name ++ extra) := by
    rw [resolve_append, resolve_names hnames]
  rw [joinPath, habsolute, if_neg Bool.false_ne_true, List.append_assoc, happend]
  exact List.prefix_append ..

theorem below_name (hslash : noSlash name = true) (hname : isName name = true) :
    resolve [] projectDir <+: resolve [] (joinPath projectDir name) := by
  rw [← List.append_nil (joinPath projectDir name)]
  refine below_joinPath (isAbsolute_name hslash) (fun part hpart => ?_) fun _ h => by cases h
  rw [parts_eq_singleton hslash hname, List.mem_singleton] at hpart
  rwa [hpart]

theorem within_createDirectory (habsolute : isAbsolute name = false)
    (hparts : ∀ part ∈ parts name, isName part = true) :
    Triple (Disk.Within (resolve [] projectDir)) (createDirectory env projectDir lang name)
      (fun _ => Disk.Within (resolve [] projectDir)) (Stopped (resolve [] projectDir)) := by
  refine .bind (appends_mkdirs.within fun _ h => by cases h) fun _ => .ite (fun _ => ?_) fun _ => ?_
  · refine appends_touchFile.within fun op hop => ?_
    rw [List.mem_singleton.mp hop]
    refine below_joinPath habsolute hparts fun part hpart => ?_
    rw [List.mem_singleton.mp hpart]
    rfl
  · exact .keeps_pure

theorem within_createDirectory_name (hslash : noSlash name = true) (hname : isName name = true) :
    Triple (Disk.Within (resolve [] projectDir)) (createDirectory env projectDir lang name)
      (fun _ => Disk.Within (resolve [] projectDir)) (Stopped (resolve [] projectDir)) := by
  refine within_createDirectory (isAbsolute_name hslash) fun part hpart => ?_
  rw [parts_eq_singleton hslash hname, List.mem_singleton] at hpart
  rwa [hpart]

theorem within_createDirectories :
    Triple (Disk.Within (resolve [] projectDir)) (createDirectories env projectDir solution)
      (fun dirs d => d.Within (resolve [] projectDir) ∧ dirs = dirsOf env solution)
      (Stopped (resolve [] projectDir)) := by
  refine .bind (within_createDirectory (isAbsolute_src env solution) ?_) fun _ => ?_
  · have hparts := parts_dirsOf env solution
    rw [dirsOf] at hparts
    rw [hparts]
    exact fun _ h => (isName_srcNames env h).2
  · refine .bind (within_createDirectory_name rfl rfl) fun _ => ?_
    refine .bind (within_createDirectory_name rfl rfl) fun _ => ?_
    refine .bind (within_createDirectory_name rfl rfl) fun _ => ?_
    refine .bind (appends_mkdirs.within fun _ h => by cases h) fun _ => ?_
    exact .pure fun _ hd => ⟨hd, rfl⟩

/-- The path of a block is absolute, and does not lead into the project. -/
def Escapes (root : Loc) (block : CodeBlock) : Prop :=
  isRooted block = true ∧ ¬ root <+: names block.filename

theorem not_below_iff : ¬ resolve [] projectDir <+:
      resolve [] (joinPath projectDir (mapFilename env.u block (dirsOf env solution))) ↔
    Escapes (resolve [] projectDir) block := by
  rw [target_eq, Escapes]
  split_ifs with hrooted
  · simp [hrooted]
  · simp [hrooted]

theorem triple_resolvePath {P : Disk → Prop} (path : List String) :
    Triple P (PyM.lift (resolvePath path)) (fun target d => P d ∧ target = resolve [] path)
      fun e d => P d ∧ Refusal e := by
  rw [resolvePath]
  split_ifs
  · exact .lift (fun _ _ h => by cases h) fun e d h hd => ⟨hd, .inl (Except.error.inj h).symm⟩
  · exact .lift (fun target d h hd => ⟨hd, (Except.ok.inj h).symm⟩) fun _ _ h => by cases h

/-- A block that does not escape is written into the project. -/
theorem within_writeBlock (hsafe : ¬ Escapes (resolve [] projectDir) block) :
    Triple (Disk.Within (resolve [] projectDir))
      (writeBlock env projectDir (dirsOf env solution) block)
      (fun _ => Disk.Within (resolve [] projectDir)) (Stopped (resolve [] projectDir)) := by
  have hbelow := not_not.mp (mt (@not_below_iff env projectDir solution block).mp hsafe)
  rw [writeBlock]
  generalize joinPath projectDir (mapFilename env.u block (dirsOf env solution)) = path at hbelow ⊢
  refine .bind ((triple_resolvePath path).imp (fun _ hd => hd) (fun _ _ hd => hd) fun e d hd => ?_)
    fun target => .of_pure fun htarget => ?_
  · exact ⟨hd.1.2, hd.2⟩
  · subst htarget
    rw [if_neg (not_not.mpr hbelow)]
    refine .bind (appends_mkdirs.within fun _ h => by cases h) fun _ => ?_
    refine .bind (appends_writeText.within fun op hop => ?_) fun _ => .keeps_pure
    rw [List.mem_singleton.mp hop]
    rwa [FileOp.loc, resolve_resolve]

theorem within_writeOwn {content : String} (hslash : noSlash name = true)
    (hname : isName name = true) :
    Triple (Disk.Within (resolve [] projectDir)) (writeOwn env projectDir name content)
      (fun _ => Disk.Within (resolve [] projectDir)) (Stopped (resolve [] projectDir)) := by
  refine .bind (appends_writeText.within fun op hop => ?_) fun _ => .keeps_pure
  rw [List.mem_singleton.mp hop]
  exact below_name hslash hname

theorem within_createConfigs :
    Triple (Disk.Within (resolve [] projectDir)) (createConfigs env projectDir solution)
      (fun _ => Disk.Within (resolve [] projectDir)) (Stopped (resolve [] projectDir)) := by
  refine .bind (within_writeOwn rfl rfl) fun _ => .bind (within_writeOwn rfl rfl) fun _ => ?_
  refine .bind (.ite (fun _ => ?_) fun _ => .keeps_pure) fun _ => .keeps_pure
  exact within_writeOwn rfl rfl

theorem within_createReadme {task : Task} :
    Triple (Disk.Within (resolve [] projectDir)) (createReadme env projectDir solution task)
      (fun _ => Disk.Within (resolve [] projectDir)) (Stopped (resolve [] projectDir)) := by
  refine .bind .keeps_get fun _ => ?_
  exact within_writeOwn rfl rfl

theorem within_createProjectManifest :
    Triple (Disk.Within (resolve [] projectDir)) (createProjectManifest env projectDir solution)
      (fun _ => Disk.Within (resolve [] projectDir)) (Stopped (resolve [] projectDir)) := by
  refine .ite (fun _ => ?_) fun _ => .ite (fun _ => ?_) fun _ => .keeps_pure
  · exact within_writeOwn rfl rfl
  · exact within_writeOwn rfl rfl

/-- An exception of the system says nothing about a file name. -/
theorem ne_unsafe_of_refusal {e : PyExc} (h : Refusal e) (filename : String) :
    e ≠ unsafeFilename env filename := by
  rintro rfl
  rcases h with h | h
  · have htext := congrArg (·.msg.toList.head?) h
    simp [unsafeFilename, PyExc.msg] at htext
  · exact h rfl

variable {dirs : Dirs} {pre blocks : List CodeBlock} {files : List String} {d' : Disk}

theorem writeBlocks_nil : writeBlocks env projectDir dirs [] d = (.ok [], d) := by
  rw [writeBlocks]
  rfl

theorem writeBlocks_cons {file : String} {d₁ : Disk}
    (hblock : writeBlock env projectDir dirs block d = (.ok file, d₁))
    (hrest : writeBlocks env projectDir dirs blocks d₁ = (.ok files, d')) :
    writeBlocks env projectDir dirs (block :: blocks) d = (.ok (file :: files), d') := by
  rw [writeBlocks, PyM.bind_ok hblock, PyM.bind_ok hrest]
  rfl

/-- The loop stops where a block raises. -/
theorem writeBlocks_stops {e : PyExc} {d₁ : Disk} (post : List CodeBlock)
    (hpre : writeBlocks env projectDir dirs pre d = (.ok files, d'))
    (hblock : writeBlock env projectDir dirs block d' = (.error e, d₁)) :
    writeBlocks env projectDir dirs (pre ++ block :: post) d = (.error e, d₁) := by
  induction pre generalizing d files with
  | nil =>
    rw [writeBlocks_nil] at hpre
    cases hpre
    rw [List.nil_append, writeBlocks, PyM.bind_error hblock]
  | cons b pre ih =>
    rw [writeBlocks] at hpre
    obtain ⟨file, d₂, hfile, hrest⟩ := PyM.bind_inv hpre
    obtain ⟨files', d₃, hfiles, hend⟩ := PyM.bind_inv hrest
    cases hend
    rw [List.cons_append, writeBlocks, PyM.bind_ok hfile, PyM.bind_error (ih hfiles)]

/-- A run of the loop that comes upon no block that escapes stays in the project. -/
theorem within_writeBlocks (hd : d.Within (resolve [] projectDir))
    (hsafe : ∀ pre block post files d', blocks = pre ++ block :: post →
      writeBlocks env projectDir (dirsOf env solution) pre d = (.ok files, d') →
      ¬ Escapes (resolve [] projectDir) block) :
    Triple (fun s => s = d) (writeBlocks env projectDir (dirsOf env solution) blocks)
      (fun _ => Disk.Within (resolve [] projectDir)) (Stopped (resolve [] projectDir)) := by
  induction blocks generalizing d with
  | nil =>
    rintro s rfl
    exact hd
  | cons block blocks ih =>
    rintro s rfl
    have hblock := @within_writeBlock env projectDir solution block
      (hsafe [] block blocks [] s rfl writeBlocks_nil) s hd
    rw [writeBlocks, PyM.bind_apply]
    rcases hrun : writeBlock env projectDir (dirsOf env solution) block s with ⟨e | file, d₁⟩
    · rw [hrun] at hblock
      exact hblock
    · rw [hrun] at hblock
      refine Triple.bind (ih hblock fun pre b post files d' heq hpre => ?_) (fun _ => .keeps_pure) d₁ rfl
      refine hsafe (block :: pre) b post (file :: files) d' ?_ (writeBlocks_cons hrun hpre)
      rw [heq, List.cons_append]

end Runs

/-! ## Safety -/

section Safety

variable {env : Surroundings} {outputDir : List String} {solution : Solution} {task : Task}

/-- Before the run nothing was done to files. -/
def fresh (w : World) (text : Loc → String) : Disk := ⟨w, text, []⟩

/-- A run does nothing to files outside the directory of the project, and does not end with the
exception for a file name. -/
def Safe (env : Surroundings) (outputDir : List String) (solution : Solution) (task : Task)
    (d : Disk) : Prop :=
  (∀ op ∈ (scaffold env outputDir solution task d).2.log, projectRoot env outputDir task <+: op.loc) ∧
    ∀ filename, (scaffold env outputDir solution task d).1 ≠ .error (unsafeFilename env filename)

/-- A run comes upon a block: it makes the directories and writes the blocks before it. -/
def Reaches (env : Surroundings) (outputDir : List String) (solution : Solution) (task : Task)
    (d : Disk) (block : CodeBlock) : Prop :=
  let projectDir := joinPath outputDir (slugify env task.title)
  ∃ dirs d₁ pre post files d₂, createDirectories env projectDir solution d = (.ok dirs, d₁) ∧
    solution.codeBlocks = pre ++ block :: post ∧
    writeBlocks env projectDir dirs pre d₁ = (.ok files, d₂)

theorem fresh_within (root : Loc) (w : World) (text : Loc → String) : (fresh w text).Within root := by
  refine ⟨fun loc text' hsurvives => ?_, fun op hop => by cases hop⟩
  obtain ⟨before, e, after, heq, -⟩ := hsurvives
  exact absurd heq.symm (List.append_ne_nil_of_right_ne_nil _ (List.cons_ne_nil _ _))

theorem mem_of_mem_strip {c : Char} {text : List Char} (h : c ∈ strip text) : c ∈ text := by
  rw [strip] at h
  have hback := (List.dropWhile_sublist isSpace).subset (List.mem_reverse.mp h)
  exact (List.dropWhile_sublist isSpace).subset (List.mem_reverse.mp hback)

theorem hasNul_normalized {raw : String} (h : hasNul raw = false) : hasNul (normalized raw) = false := by
  have hraw : '\x00' ∉ raw.toList := by simpa [hasNul] using h
  have hnone : '\x00' ∉ (normalized raw).toList := by
    rw [normalized, String.toList_ofList]
    intro hmem
    obtain ⟨c, hc, heq⟩ := List.mem_map.mp (mem_of_mem_strip hmem)
    split_ifs at heq
    · cases heq
    · exact hraw (heq ▸ hc)
  simpa [hasNul] using hnone

/-- The names in a name without NUL have none. -/
theorem hasNul_names {raw : String} (h : hasNul raw = false) : (names raw).any hasNul = false := by
  rw [List.any_eq_false]
  intro name hname
  rcases names_eq_or raw with hnames | hnames
  · rw [hnames, List.mem_singleton] at hname
    rw [hname]
    decide
  · rw [hnames, keptParts, List.mem_filter] at hname
    have hparts := any_hasNul_parts (normalized raw)
    rw [hasNul_normalized h, List.any_eq_false] at hparts
    exact hparts name hname.1

/-- A block that escapes is refused. -/
theorem writeBlock_escapes {projectDir : List String} {block : CodeBlock} {d : Disk}
    (hnul : hasNul block.filename = false) (h : Escapes (resolve [] projectDir) block) :
    writeBlock env projectDir (dirsOf env solution) block d =
      (.error (unsafeFilename env block.filename), d) := by
  have hout := (@not_below_iff env projectDir solution block).mpr h
  have hpath : joinPath projectDir (mapFilename env.u block (dirsOf env solution)) =
      names block.filename := by
    rw [joinPath, isAbsolute_mapFilename, h.1, if_pos rfl, parts_mapFilename,
      place_of_rooted env h.1]
  rw [hpath] at hout
  have hresolve : PyM.lift (resolvePath (names block.filename)) d =
      (.ok (resolve [] (names block.filename)), d) := by
    rw [resolvePath, hasNul_names hnul, if_neg Bool.false_ne_true]
    rfl
  rw [writeBlock, hpath, PyM.bind_ok hresolve, if_pos hout]
  rfl

/-- **Safety of scaffolding.** A run stays in the project, and does not refuse a file name, if and
only if it comes upon no block that escapes: none whose name starts with exactly two slashes once
backslashes are slashes and the spaces around it are gone, that is not the name of a test, and that
does not name a path in the project. -/
theorem safe_iff (w : World) (text : Loc → String)
    (hnul : ∀ block ∈ solution.codeBlocks, hasNul block.filename = false) :
    Safe env outputDir solution task (fresh w text) ↔
      ∀ block, Reaches env outputDir solution task (fresh w text) block →
        ¬ Escapes (projectRoot env outputDir task) block := by
  have hdirectories := @within_createDirectories env
    (joinPath outputDir (slugify env task.title)) solution (fresh w text) (fresh_within _ w text)
  constructor
  · rintro hsafe block ⟨dirs, d₁, pre, post, files, d₂, hdirs, hblocks, hpre⟩ hescapes
    rw [hdirs] at hdirectories
    obtain ⟨-, rfl⟩ := hdirectories
    have hmem : block ∈ solution.codeBlocks := by
      rw [hblocks]
      exact List.mem_append_right _ List.mem_cons_self
    -- the loop raises at the block that escapes, and so does the run
    have hstops := writeBlocks_stops post hpre (writeBlock_escapes (hnul block hmem) hescapes)
    refine hsafe.2 block.filename ?_
    rw [scaffold, PyM.bind_ok hdirs, hblocks, PyM.bind_error hstops]
  · intro hsafe
    -- every part of the run stays in the project, whether it returns or raises
    have hrun : Triple (fun d => d = fresh w text) (scaffold env outputDir solution task)
        (fun _ => Disk.Within (projectRoot env outputDir task))
        (Stopped (projectRoot env outputDir task)) := by
      rintro d rfl
      rw [scaffold, PyM.bind_apply]
      rcases hdirs : createDirectories env (joinPath outputDir (slugify env task.title)) solution
        (fresh w text) with ⟨e | dirs, d₁⟩
      · rw [hdirs] at hdirectories
        exact hdirectories
      · rw [hdirs] at hdirectories
        obtain ⟨hd₁, rfl⟩ := hdirectories
        refine Triple.bind (within_writeBlocks hd₁ fun pre block post files d' hblocks hpre =>
          hsafe block ⟨_, d₁, pre, post, files, d', hdirs, hblocks, hpre⟩) (fun _ => ?_) d₁ rfl
        refine .bind within_createConfigs fun _ => .bind within_createReadme fun _ => ?_
        exact .bind within_createProjectManifest fun _ => .bind .keeps_get fun _ => .keeps_pure
    have hend := hrun (fresh w text) rfl
    rw [Safe]
    rcases hscaffold : scaffold env outputDir solution task (fresh w text) with ⟨e | result, d⟩
    · rw [hscaffold] at hend
      refine ⟨hend.1, fun filename heq => ?_⟩
      exact ne_unsafe_of_refusal hend.2 filename (Except.error.inj heq)
    · rw [hscaffold] at hend
      exact ⟨hend.2, fun filename heq => by cases heq⟩

/-- A file system with nothing in it. -/
def bareWorld : World where
  tree := {
    kind := fun loc => if loc = [] then some .dir else none
    root := rfl
    parent := fun loc hloc => by
      have hroot : loc = [] := by
        by_contra hne
        exact hloc (if_neg hne)
      rw [hroot]
      rfl }
  created := []
  calls := 0

/-- Surroundings in which nothing is refused, for ASCII texts. -/
def plainSurroundings : Surroundings where
  u := Unicode.ascii
  upper := List.map Char.toUpper
  nfkd := id
  repr name := "'" ++ name ++ "'"
  fault := noFault
  tree _ _ := ""

/-- A solution with a code block of this name. -/
def solutionWith (filename : String) : Solution where
  taskId := "t1"
  title := "App"
  summary := ""
  codeBlocks := [{ filename, language := "python", content := "x = 1" }]

/-- Names that climb, have a drive or start at the root are harmless. -/
theorem safe_iff_traversal :
    Safe plainSurroundings ["out"] (solutionWith "\\..\\../C:/evil.py") ⟨"App", ""⟩
      (fresh bareWorld fun _ => "") := by
  have hnul : ∀ block ∈ (solutionWith "\\..\\../C:/evil.py").codeBlocks,
      hasNul block.filename = false := by decide +kernel
  refine (safe_iff bareWorld _ hnul).mpr fun block hreaches hescapes => ?_
  obtain ⟨dirs, d₁, pre, post, files, d₂, -, hblocks, -⟩ := hreaches
  have hmem : block ∈ (solutionWith "\\..\\../C:/evil.py").codeBlocks := by
    rw [hblocks]
    exact List.mem_append_right _ List.mem_cons_self
  have hrooted : ∀ block ∈ (solutionWith "\\..\\../C:/evil.py").codeBlocks,
      isRooted block = false := by decide +kernel
  cases (hrooted block hmem).symm.trans hescapes.1

/-- Two slashes at the start of a name are kept, and the name is refused. -/
theorem twoSlashes_refused :
    ¬ Safe plainSurroundings ["out"] (solutionWith "//etc/evil.py") ⟨"App", ""⟩
      (fresh bareWorld fun _ => "") := by
  have hrun : (scaffold plainSurroundings ["out"] (solutionWith "//etc/evil.py") ⟨"App", ""⟩
      (fresh bareWorld fun _ => "")).1 =
        .error (unsafeFilename plainSurroundings "//etc/evil.py") := by decide +kernel
  exact fun hsafe => hsafe.2 "//etc/evil.py" hrun

end Safety

end Noema.Scaffolder
