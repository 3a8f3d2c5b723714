import Noema.Lib.PyRuntime

/-!
# Text files

A directory is the list of its files, each a name and a text; files are only ever appended to.

- `iterLines`: `for line in f` in universal-newline mode, without the terminators; `strip`:
  `str.strip`; `contentLines`: the stripped lines that are not empty.
- `appendText`: `open(path, "a")` followed by one `write`.

`contentLines_flatMap` reads back what was written line by line, `contentLines_append` a line that
was appended to whole lines (after a line that was cut, the two would be read as one), and
`lookup_appendText` is the frame rule of `appendText`.

The last section is about a log that was split over files by a key: `flatMap_shards_perm` says that
the shards hold the log together, whatever the order of the listing, and with `sortedBy_eq_of_perm`
sorting by a stored position puts it together again.
-/

namespace Noema.Lib

/-- The characters for which `str.isspace` holds. -/
def isSpace (c : Char) : Bool :=
  (9 ≤ c.toNat && c.toNat ≤ 13) || (28 ≤ c.toNat && c.toNat ≤ 32) || c.toNat == 0x85 ||
    c.toNat == 0xa0 || c.toNat == 0x1680 || (0x2000 ≤ c.toNat && c.toNat ≤ 0x200a) ||
    c.toNat == 0x2028 || c.toNat == 0x2029 || c.toNat == 0x202f || c.toNat == 0x205f ||
    c.toNat == 0x3000

/-- `line.strip()`. -/
def strip (line : List Char) : List Char :=
  ((line.dropWhile isSpace).reverse.dropWhile isSpace).reverse

/-- The lines of a text from a position inside a line whose beginning, reversed,
is `cur`. -/
def iterLinesFrom (cur : List Char) : List Char → List (List Char)
  | [] => if cur = [] then [] else [cur.reverse]
  | '\r' :: '\n' :: cs => cur.reverse :: iterLinesFrom [] cs
  | c :: cs =>
    if c = '\n' ∨ c = '\r' then cur.reverse :: iterLinesFrom [] cs else iterLinesFrom (c :: cur) cs

/-- `for line in f`. -/
def iterLines (text : List Char) : List (List Char) := iterLinesFrom [] text

/-- The lines a reader keeps after `line = line.strip()` and `if line`. -/
def contentLines (text : List Char) : List (List Char) :=
  ((iterLines text).map strip).filter (· ≠ [])

/-- A directory of text files. -/
abbrev Directory := List (String × List Char)

/-- Append `text` to the file `name`, creating it if needed. -/
def appendText (name : String) (text : List Char) : Directory → Directory
  | [] => [(name, text)]
  | (n, t) :: fs => if n = name then (n, t ++ text) :: fs else (n, t) :: appendText name text fs

theorem strip_eq_self {line : List Char} (hhead : ∀ c ∈ line.head?, isSpace c = false)
    (hlast : ∀ c ∈ line.getLast?, isSpace c = false) : strip line = line := by
  have hdrop : ∀ {l : List Char}, (∀ c ∈ l.head?, isSpace c = false) → l.dropWhile isSpace = l := by
    intro l hl
    cases l with
    | nil => rfl
    | cons c cs => simp [hl c rfl]
  rw [strip, hdrop hhead, hdrop (by simpa using hlast), List.reverse_reverse]

theorem head?_strip (line : List Char) : ∀ c ∈ (strip line).head?, isSpace c = false := by
  intro c hc
  have hprefix : strip line <+: line.dropWhile isSpace := List.rdropWhile_prefix isSpace _
  have hhead : (line.dropWhile isSpace).head? = some c := by
    obtain ⟨rest, hrest⟩ := hprefix
    rw [← hrest, List.head?_append, Option.mem_def.mp hc]
    rfl
  have h := List.head?_dropWhile_not isSpace line
  rwa [hhead] at h

theorem getLast?_strip (line : List Char) : ∀ c ∈ (strip line).getLast?, isSpace c = false := by
  intro c hc
  have h := List.head?_dropWhile_not isSpace (line.dropWhile isSpace).reverse
  rw [strip, List.getLast?_reverse] at hc
  rwa [Option.mem_def.mp hc] at h

/-- Nothing is left to strip. -/
theorem strip_strip (line : List Char) : strip (strip line) = strip line :=
  strip_eq_self (head?_strip line) (getLast?_strip line)

theorem iterLinesFrom_line {line : List Char} (hline : ∀ c ∈ line, c ≠ '\n' ∧ c ≠ '\r')
    (cur rest : List Char) :
    iterLinesFrom cur (line ++ '\n' :: rest) = (cur.reverse ++ line) :: iterLinesFrom [] rest := by
  induction line generalizing cur with
  | nil => simp [iterLinesFrom]
  | cons c cs ih =>
    obtain ⟨hn, hr⟩ := hline c List.mem_cons_self
    have h := ih (fun d hd => hline d (List.mem_cons_of_mem _ hd)) (c :: cur)
    rw [List.cons_append, iterLinesFrom, if_neg (by simp [hn, hr]), h]
    · simp
    · rintro cs' rfl
      exact absurd rfl hr

/-- A line that reading gives back: no newline inside and no whitespace at either
end. -/
structure IsLine (line : List Char) : Prop where
  ne_nil : line ≠ []
  no_newline : ∀ c ∈ line, c ≠ '\n' ∧ c ≠ '\r'
  head : ∀ c ∈ line.head?, isSpace c = false
  last : ∀ c ∈ line.getLast?, isSpace c = false

/-- Reading gives back the lines that were written. -/
theorem contentLines_flatMap {lines : List (List Char)} (h : ∀ l ∈ lines, IsLine l) :
    contentLines (lines.flatMap (· ++ ['\n'])) = lines := by
  have hiter : iterLines (lines.flatMap (· ++ ['\n'])) = lines := by
    unfold iterLines
    induction lines with
    | nil => rfl
    | cons l ls ih =>
      rw [List.flatMap_cons, List.append_assoc]
      refine (iterLinesFrom_line (h l List.mem_cons_self).no_newline [] _).trans ?_
      exact congrArg (List.cons l) (ih fun l' hl' => h l' (List.mem_cons_of_mem _ hl'))
  have hstrip : lines.map strip = lines := by
    have hid := List.map_congr_left fun l hl => strip_eq_self (h l hl).head (h l hl).last
    exact hid.trans (List.map_id _)
  rw [contentLines, hiter, hstrip, List.filter_eq_self]
  exact fun l hl => by simpa using (h l hl).ne_nil

theorem iterLinesFrom_cons {cur cs : List Char} {c : Char}
    (h : ¬ (c = '\r' ∧ cs.head? = some '\n')) :
    iterLinesFrom cur (c :: cs) =
      if c = '\n' ∨ c = '\r' then cur.reverse :: iterLinesFrom [] cs
      else iterLinesFrom (c :: cur) cs := by
  rw [iterLinesFrom]
  rintro cs' rfl rfl
  exact h ⟨rfl, rfl⟩

theorem head?_append_ne {c : Char} {cs : List Char}
    (hcrlf : ∀ cs', c = '\r' → cs = '\n' :: cs' → False) (hlast : ¬ (c = '\r' ∧ cs = []))
    (rest : List Char) : ¬ (c = '\r' ∧ (cs ++ rest).head? = some '\n') := by
  rintro ⟨hc, hhead⟩
  cases cs with
  | nil => exact hlast ⟨hc, rfl⟩
  | cons d cs =>
    cases hhead
    exact hcrlf cs hc rfl

/-- The lines of a text after a line feed. -/
theorem iterLinesFrom_append (cur chars rest : List Char) :
    iterLinesFrom cur (chars ++ '\n' :: rest) =
      iterLinesFrom cur (chars ++ ['\n']) ++ iterLines rest := by
  induction cur, chars using iterLinesFrom.induct with
  | case1 => simp [iterLinesFrom, iterLines]
  | case2 cur _ => simp [iterLinesFrom, iterLines]
  | case3 cur cs ih => simp [iterLinesFrom, ih]
  | case4 cur c cs hcrlf hbreak ih =>
    by_cases hlast : c = '\r' ∧ cs = []
    · obtain ⟨rfl, rfl⟩ := hlast
      simp [iterLinesFrom, iterLines]
    · rw [List.cons_append, List.cons_append,
        iterLinesFrom_cons (head?_append_ne hcrlf hlast _), if_pos hbreak,
        iterLinesFrom_cons (head?_append_ne hcrlf hlast _), if_pos hbreak, ih]
      rfl
  | case5 cur c cs hcrlf hbreak ih =>
    have hlast : ¬ (c = '\r' ∧ cs = []) := fun h => hbreak (.inr h.1)
    rw [List.cons_append, List.cons_append,
      iterLinesFrom_cons (head?_append_ne hcrlf hlast _), if_neg hbreak,
      iterLinesFrom_cons (head?_append_ne hcrlf hlast _), if_neg hbreak, ih]

/-- A line that is appended is read after the others. -/
theorem contentLines_append {chars line : List Char}
    (hchars : chars = [] ∨ chars.getLast? = some '\n') (hline : IsLine line) :
    contentLines (chars ++ (line ++ ['\n'])) = contentLines chars ++ [line] := by
  have hlast : contentLines (line ++ ['\n']) = [line] := by
    simpa using contentLines_flatMap (List.forall_mem_singleton.mpr hline)
  rcases hchars with rfl | hchars
  · exact hlast
  · obtain ⟨chars, rfl⟩ := List.getLast?_eq_some_iff.mp hchars
    have hiter := iterLinesFrom_append [] chars (line ++ ['\n'])
    rw [contentLines] at hlast
    rw [contentLines, contentLines, iterLines, List.append_assoc, List.singleton_append, hiter,
      List.map_append, List.filter_append, hlast]
    rfl

/-- **Frame rule of `appendText`**: the named file grows, every other file is
unchanged. -/
theorem lookup_appendText (name : String) (text : List Char) (fs : Directory) (n : String) :
    (appendText name text fs).lookup n
      = if n = name then some ((fs.lookup n).getD [] ++ text) else fs.lookup n := by
  induction fs with
  | nil =>
    by_cases h : n = name
    · simp [appendText, List.lookup, h]
    · have hbeq : (n == name) = false := beq_eq_false_iff_ne.mpr h
      simp [appendText, List.lookup, h, hbeq]
  | cons f fs ih =>
    obtain ⟨m, t⟩ := f
    by_cases hn : n = m
    · subst hn
      by_cases hm : n = name <;> simp [appendText, hm]
    · have hbeq : (n == m) = false := beq_eq_false_iff_ne.mpr hn
      by_cases hm : m = name
      · subst hm
        simp [appendText, List.lookup, hbeq, hn]
      · rw [appendText, if_neg hm, List.lookup, List.lookup, hbeq]
        exact ih

theorem map_fst_appendText (name : String) (text : List Char) (fs : Directory) :
    (appendText name text fs).map Prod.fst
      = if name ∈ fs.map Prod.fst then fs.map Prod.fst else fs.map Prod.fst ++ [name] := by
  induction fs with
  | nil => rfl
  | cons f fs ih =>
    obtain ⟨m, t⟩ := f
    by_cases hm : m = name
    · simp [appendText, hm]
    · rw [appendText, if_neg hm, List.map_cons, ih]
      by_cases hmem : name ∈ fs.map Prod.fst <;> simp [hmem, Ne.symm hm]

theorem lookup_of_mem_nodup {α : Type} {fs : List (String × α)} (hnodup : (fs.map Prod.fst).Nodup)
    {f : String × α} (hf : f ∈ fs) : fs.lookup f.1 = some f.2 := by
  induction fs with
  | nil => cases hf
  | cons g fs ih =>
    obtain ⟨hnot, hrest⟩ := List.nodup_cons.mp hnodup
    rcases List.mem_cons.mp hf with rfl | hf
    · simp [List.lookup]
    · have hne : f.1 ≠ g.1 := fun h => hnot (h ▸ List.mem_map_of_mem hf)
      rw [List.lookup, beq_eq_false_iff_ne.mpr hne]
      exact ih hrest hf

theorem mem_names_of_lookup {fs : Directory} {name : String} {text : List Char}
    (h : fs.lookup name = some text) : name ∈ fs.map Prod.fst := by
  induction fs with
  | nil => cases h
  | cons g fs ih =>
    by_cases hg : name = g.1
    · simp [hg]
    · rw [List.lookup, beq_eq_false_iff_ne.mpr hg] at h
      exact List.mem_cons_of_mem _ (ih h)

/-! ## Sharded logs

A log split over files by a key, and put together again by sorting on a stored
position. -/

/-- The shards of a log hold, together, the log. -/
theorem flatMap_shards_perm {α : Type} (key : α → Option String) {names : List String}
    (hnodup : names.Nodup) {l : List α} (hcover : ∀ a ∈ l, ∃ n ∈ names, key a = some n) :
    (names.flatMap fun n => l.filter fun a => key a == some n).Perm l := by
  induction names generalizing l with
  | nil =>
    cases l with
    | nil => exact List.Perm.refl _
    | cons a l =>
      obtain ⟨n, hn, -⟩ := hcover a List.mem_cons_self
      cases hn
  | cons n ns ih =>
    obtain ⟨hn, hns⟩ := List.nodup_cons.mp hnodup
    -- the other shards only see what is not in the shard of `n`
    have hrest : (ns.flatMap fun m => l.filter fun a => key a == some m)
        = ns.flatMap fun m => (l.filter fun a => !(key a == some n)).filter fun a => key a == some m := by
      refine List.flatMap_congr ?_
      intro m hm
      rw [List.filter_filter]
      refine List.filter_congr ?_
      intro a _
      by_cases ha : key a = some m
      · have hmn : m ≠ n := fun h => hn (h ▸ hm)
        simp [ha, hmn]
      · simp [ha]
    have hcover' : ∀ a ∈ l.filter (fun a => !(key a == some n)), ∃ m ∈ ns, key a = some m := by
      intro a ha
      obtain ⟨hal, hne⟩ := List.mem_filter.mp ha
      obtain ⟨m, hm, hkey⟩ := hcover a hal
      rcases List.mem_cons.mp hm with rfl | hm
      · simp [hkey] at hne
      · exact ⟨m, hm, hkey⟩
    rw [List.flatMap_cons, hrest]
    exact ((ih hns hcover').append_left _).trans (List.filter_append_perm _ l)

end Noema.Lib
