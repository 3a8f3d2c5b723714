import Noema.Lib.TextFile

/-!
# Texts of the interpreter

The methods of `str` that several parsers of texts use, on lists of characters: prefixes and
suffixes, `splitlines` with all of Python's line breaks, `split`, `partition`, `strip` with a set of
characters, and the suffix of a path. `universalNewlines` is what reading a file in text mode does
to it, and `universalNewlines_eq_self` says when that is nothing.
-/

namespace Noema.Lib

/-- `text.endswith(suffix)`. -/
def endsWith (text suffix : String) : Bool := suffix.toList.isSuffixOf text.toList

/-- `text.startswith(start)`. -/
def startsWith (text start : String) : Bool := start.toList.isPrefixOf text.toList

/-- The characters at which `str.splitlines` breaks a line. -/
def isLineBreak (c : Char) : Bool :=
  (10 ≤ c.toNat && c.toNat ≤ 13) || (28 ≤ c.toNat && c.toNat ≤ 30) || c.toNat == 0x85 ||
    c.toNat == 0x2028 || c.toNat == 0x2029

/-- `text.splitlines()` from a position inside a line whose beginning, reversed, is `cur`. -/
def splitLinesFrom (cur : List Char) : List Char → List (List Char)
  | [] => if cur = [] then [] else [cur.reverse]
  | '\r' :: '\n' :: cs => cur.reverse :: splitLinesFrom [] cs
  | c :: cs =>
    if isLineBreak c then cur.reverse :: splitLinesFrom [] cs else splitLinesFrom (c :: cur) cs

/-- `text.split()`. -/
def splitWords (text : List Char) : List (List Char) :=
  (text.splitOnP isSpace).filter (· ≠ [])

/-- `text.partition(c)`, without the separator. -/
def partitionAt (c : Char) (text : List Char) : List Char × List Char :=
  (text.takeWhile (· ≠ c), (text.dropWhile (· ≠ c)).drop 1)

/-- `text.strip(chars)`, where `p` holds of the characters to strip. -/
def stripBy (p : Char → Bool) (text : List Char) : List Char :=
  (text.dropWhile p).rdropWhile p

/-- What is stripped does not end in a character to strip. -/
theorem getLast?_stripBy {p : Char → Bool} {text : List Char} {c : Char}
    (hc : (stripBy p text).getLast? = some c) : p c = false := by
  have hne : stripBy p text ≠ [] := by
    intro hnil
    rw [hnil] at hc
    cases hc
  rw [List.getLast?_eq_some_getLast hne] at hc
  obtain rfl := Option.some.inj hc
  exact Bool.eq_false_iff.mpr (List.rdropWhile_last_not p _ hne)

/-- `path.suffix`. -/
def suffix (name : String) : String :=
  let ext := name.toList.reverse.takeWhile (· ≠ '.')
  if 0 < ext.length ∧ ext.length + 1 < name.length then String.ofList ('.' :: ext.reverse) else ""

/-- `path.with_suffix`. -/
def withSuffix (name new : String) : String :=
  String.ofList (name.toList.take (name.length - (suffix name).length)) ++ new

theorem suffix_isSuffix (name : String) : (suffix name).toList <:+ name.toList := by
  dsimp only [suffix]
  split
  next h =>
    have hreverse := List.takeWhile_append_dropWhile (p := (· ≠ '.')) (l := name.toList.reverse)
    cases hdrop : name.toList.reverse.dropWhile (· ≠ '.') with
    | nil =>
      rw [hdrop, List.append_nil] at hreverse
      rw [hreverse, List.length_reverse, String.length_toList] at h
      omega
    | cons c rest =>
      have hc : c = '.' := by
        have hhead := List.head?_dropWhile_not (· ≠ '.') name.toList.reverse
        rw [hdrop] at hhead
        simpa using hhead
      refine ⟨rest.reverse, ?_⟩
      rw [String.toList_ofList, ← List.reverse_inj]
      rw [hdrop, hc] at hreverse
      simpa using hreverse
  · exact List.nil_suffix

/-- A longer suffix is put at the end. -/
theorem withSuffix_suffix (name new : String) : withSuffix name (suffix name ++ new) = name ++ new := by
  obtain ⟨stem, hname⟩ := suffix_isSuffix name
  have htake : name.toList.take (name.length - (suffix name).length) = stem := by
    rw [← String.length_toList, ← String.length_toList, ← hname, List.length_append,
      Nat.add_sub_cancel, List.take_left']
    rfl
  have happend : String.ofList stem ++ suffix name = name := by
    apply String.toList_injective
    rw [String.toList_append, String.toList_ofList, hname]
  rw [withSuffix, htake, ← String.append_assoc, happend]

/-- A text as `read_text` gives it, with universal newlines. -/
def universalNewlines : List Char → List Char
  | [] => []
  | '\r' :: '\n' :: cs => '\n' :: universalNewlines cs
  | c :: cs => (if c = '\r' then '\n' else c) :: universalNewlines cs

/-- A text without carriage returns is read as it was written. -/
theorem universalNewlines_eq_self {text : List Char} (h : '\r' ∉ text) :
    universalNewlines text = text := by
  induction text with
  | nil => rfl
  | cons c cs ih =>
    have hc : c ≠ '\r' := (List.ne_of_not_mem_cons h).symm
    rw [universalNewlines, if_neg hc, ih (List.not_mem_of_not_mem_cons h)]
    rintro cs' rfl
    exact absurd rfl hc

end Noema.Lib
