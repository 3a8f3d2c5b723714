import Noema.Lib.TextFile

/-!
# Regular expressions as Python's `re` matches them

The fragment without general repetition: a repeated item is a class of characters. That is what
hand-written patterns mostly are, and it makes matching a structural recursion on the pattern.

- `Pat`: patterns, `Unicode` the character data of the interpreter they refer to;
- `Pos`: a position knows the character before it, for `\b`, and a `Match` has the groups that were
  closed so far;
- `Pat.run`: all ways to match at a position, in the order in which the backtracking matcher tries
  them (repetitions take as much as they can). The first element is the match that `re.match`
  returns; the others are what it would fall back on;
- `Pat.search`: `re.search`, the first match of the leftmost position that has one.
-/

namespace Noema.Lib

/-- The character data of the interpreter: `\d`, `\w` and `str.lower`. -/
structure Unicode where
  isDecimal : Char → Bool
  isWord : Char → Bool
  lower : List Char → List Char

/-- The character data on ASCII text. -/
def Unicode.ascii : Unicode where
  isDecimal := Char.isDigit
  isWord c := c.isAlphanum || c == '_'
  lower := List.map Char.toLower

/-- A pattern. -/
inductive Pat where
  | eps
  | one (p : Char → Bool)
  | many (p : Char → Bool)
  | many1 (p : Char → Bool)
  | opt (r : Pat)
  | seq (r s : Pat)
  | alt (r s : Pat)
  | group (r : Pat)
  | boundary

namespace Pat

/-- A position in a text: the character before it and the text after it. -/
structure Pos where
  prev : Option Char
  rest : List Char

/-- The position after the first `n` characters. -/
def Pos.advance (pos : Pos) : Nat → Pos
  | 0 => pos
  | n + 1 =>
    match pos.rest with
    | [] => pos
    | c :: cs => Pos.advance ⟨some c, cs⟩ n

/-- A match so far: the position reached and the texts of the groups that are closed. -/
structure Match where
  pos : Pos
  groups : List (List Char)

/-- The positions after at least `least` and at most `n` characters, the farthest first. -/
def Pos.back (pos : Pos) (least : Nat) : Nat → List Pos
  | 0 => if least = 0 then [pos] else []
  | n + 1 => if least ≤ n + 1 then pos.advance (n + 1) :: pos.back least n else []

variable (u : Unicode)

/-- `\b`. -/
def Pos.isBoundary (pos : Pos) : Bool :=
  (pos.prev.map u.isWord).getD false != (pos.rest.head?.map u.isWord).getD false

/-- All matches at a position, in the order of the backtracking matcher. -/
def run : Pat → Match → List Match
  | .eps, m => [m]
  | .one p, m =>
    match m.pos.rest with
    | c :: cs => if p c then [⟨⟨some c, cs⟩, m.groups⟩] else []
    | [] => []
  | .many p, m =>
    (m.pos.back 0 (m.pos.rest.takeWhile p).length).map fun pos => ⟨pos, m.groups⟩
  | .many1 p, m =>
    (m.pos.back 1 (m.pos.rest.takeWhile p).length).map fun pos => ⟨pos, m.groups⟩
  | .opt r, m => run r m ++ [m]
  | .seq r s, m => (run r m).flatMap (run s)
  | .alt r s, m => run r m ++ run s m
  | .group r, m => (run r m).map fun m' =>
      ⟨m'.pos, m'.groups ++ [m.pos.rest.take (m.pos.rest.length - m'.pos.rest.length)]⟩
  | .boundary, m => if m.pos.isBoundary u then [m] else []

/-- The groups of the first match at the leftmost position that has one. -/
def searchFrom (r : Pat) (prev : Option Char) : List Char → Option (List (List Char))
  | [] => (run u r ⟨⟨prev, []⟩, []⟩).head?.map Match.groups
  | c :: cs =>
    match run u r ⟨⟨prev, c :: cs⟩, []⟩ with
    | m :: _ => some m.groups
    | [] => searchFrom r (some c) cs

/-- `re.search(r, text)`: the groups of the match. -/
def search (r : Pat) (text : List Char) : Option (List (List Char)) := searchFrom u r none text

/-- A literal text. -/
def lit (text : String) : Pat := text.toList.foldr (fun c r => .seq (.one (· = c)) r) .eps

/-- The concatenation of patterns. -/
def cat (rs : List Pat) : Pat := rs.foldr .seq .eps

/-- Words separated by `\s+`. -/
def words : List String → Pat
  | [] => .eps
  | [w] => lit w
  | w :: ws => .seq (lit w) (.seq (.many1 isSpace) (words ws))

end Pat

end Noema.Lib
