import Noema.Lib.PerfectTree

/-!
# Merkle levels that promote an odd node

A builder without padding combines the nodes of a level in pairs and hands the last node of an odd
level up unchanged, so a path has a step only where its node has a sibling.

- `parents`: the next level;
- `levels`: all levels, the leaves first, by recursion on the length of the level, which is halved;
- `path`: the siblings of a position in a list of levels, each with the flag "the sibling is on the
  left". A promoted node has none at its level.

**`climb_path`** is the completeness of these paths: the walk from a leaf along its path ends at the
one node of the last level. The step is `climb_level`, from a position of a level to its half in the
next one. **`climb_descends`** is the other direction, for untrusted paths: if every step of a walk
that ends at an inner node came from one of its children, then a walk that ends at the root ends
like the path of a leaf, or it is the path of an inner node from the start.
-/

namespace PromotingTree

open PerfectTree (climb stepUp climb_append climb_concat)

variable {α : Type} (comb : α → α → α)

/-- The next level. -/
def parents : List α → List α
  | [] => []
  | [a] => [a]
  | a :: b :: rest => comb a b :: parents rest

@[simp] theorem length_parents (l : List α) : (parents comb l).length = (l.length + 1) / 2 := by
  induction l using parents.induct with
  | case1 => simp [parents]
  | case2 a => simp [parents]
  | case3 a b rest ih =>
    rw [parents, List.length_cons, ih, List.length_cons, List.length_cons]
    omega

/-- The levels from `l` up. -/
def levels (l : List α) : List (List α) :=
  if l.length ≤ 1 then [l] else l :: levels (parents comb l)
termination_by l.length
decreasing_by
  rw [length_parents]
  omega

theorem levels_of_le {l : List α} (h : l.length ≤ 1) : levels comb l = [l] := by
  rw [levels, if_pos h]

theorem levels_of_lt {l : List α} (h : 1 < l.length) :
    levels comb l = l :: levels comb (parents comb l) := by
  rw [levels, if_neg (by omega)]

theorem levels_ne_nil (l : List α) : levels comb l ≠ [] := by
  rw [levels]
  split <;> simp

/-- The siblings of position `i`, from the first of the given levels up. -/
def path : List (List α) → Nat → List (α × Bool)
  | [], _ => []
  | level :: rest, i =>
    (if i % 2 = 0 then (level[i + 1]?.map fun s => (s, false)).toList
      else (level[i - 1]?.map fun s => (s, true)).toList) ++ path rest (i / 2)

/-- A node in terms of its two children, or of the promoted one. -/
theorem getElem?_parents : ∀ (l : List α) (i : Nat),
    (parents comb l)[i]? = l[2 * i]?.map fun a => (l[2 * i + 1]?.map (comb a)).getD a
  | [], _ => rfl
  | [_], 0 => rfl
  | [_], _ + 1 => rfl
  | _ :: _ :: _, 0 => rfl
  | _ :: _ :: rest, i + 1 => getElem?_parents rest i

/-- One level of a walk: the sibling of a node, if it has one, leads to its parent. -/
theorem climb_level {l : List α} {i : Nat} (h : i < l.length) (rest : List (List α))
    (hi : i / 2 < (parents comb l).length) :
    climb comb l[i] (path (l :: rest) i)
      = climb comb (parents comb l)[i / 2] (path rest (i / 2)) := by
  have hparent := getElem?_parents comb l (i / 2)
  rw [List.getElem?_eq_getElem hi] at hparent
  rw [path]
  by_cases heven : i % 2 = 0
  · have h2 : 2 * (i / 2) = i := by omega
    rw [h2, List.getElem?_eq_getElem h] at hparent
    rw [if_pos heven]
    cases hs : l[i + 1]? with
    | none =>
      rw [hs] at hparent
      rw [Option.some.inj hparent]
      rfl
    | some s =>
      rw [hs] at hparent
      rw [Option.some.inj hparent]
      rfl
  · have h2 : 2 * (i / 2) + 1 = i := by omega
    have hleft : 2 * (i / 2) = i - 1 := by omega
    rw [h2, hleft, List.getElem?_eq_getElem h, List.getElem?_eq_getElem (by omega)] at hparent
    rw [if_neg heven, List.getElem?_eq_getElem (by omega), Option.some.inj hparent]
    rfl

/-- **Completeness of paths**: the last level of a non-empty list is one node, and the
walk from every leaf ends there. -/
theorem climb_path (l : List α) (hne : l ≠ []) :
    ∃ r, (levels comb l).getLast? = some [r] ∧
      ∀ (i : Nat) (h : i < l.length), climb comb l[i] (path (levels comb l).dropLast i) = r := by
  induction l using levels.induct comb with
  | case1 l hle =>
    rw [levels_of_le comb hle]
    match l with
    | [] => exact absurd rfl hne
    | [a] =>
      refine ⟨a, rfl, fun i h => ?_⟩
      obtain rfl : i = 0 := by simpa using h
      rfl
    | a :: b :: rest => exact absurd hle (by simp)
  | case2 l hlt ih =>
    have hparents : parents comb l ≠ [] := by
      refine List.ne_nil_of_length_pos ?_
      rw [length_parents]
      omega
    -- the root of the next level is the root of this one
    obtain ⟨r, hlast, hclimb⟩ := ih hparents
    rw [levels_of_lt comb (by omega)]
    refine ⟨r, ?_, fun i h => ?_⟩
    · rw [List.getLast?_cons, hlast]
      rfl
    · have hi : i / 2 < (parents comb l).length := by
        rw [length_parents]
        omega
      rw [List.dropLast_cons_of_ne_nil (levels_ne_nil comb _), climb_level comb h _ hi]
      exact hclimb _ hi

/-- `Inner comb l a b p`: somewhere in the tree over `l` the nodes `a` and `b` are combined, and
`p` is the path from there up. -/
inductive Inner : List α → α → α → List (α × Bool) → Prop
  | here {l : List α} {i : Nat} {a b : α} (hlen : 1 < l.length) (ha : l[2 * i]? = some a)
      (hb : l[2 * i + 1]? = some b) : Inner l a b (path (levels comb (parents comb l)).dropLast i)
  | up {l : List α} {a b : α} {p : List (α × Bool)} (hlen : 1 < l.length)
      (h : Inner (parents comb l) a b p) : Inner l a b p

theorem getLast?_levels_of_lt {l : List α} (h : 1 < l.length) :
    (levels comb l).getLast? = (levels comb (parents comb l)).getLast? := by
  rw [levels_of_lt comb h, List.getLast?_cons, List.getLast?_eq_some_getLast (levels_ne_nil comb _)]
  rfl

theorem parents_ne_nil {l : List α} (h : 1 < l.length) : parents comb l ≠ [] := by
  refine List.ne_nil_of_length_pos ?_
  rw [length_parents]
  omega

/-- The walk from an inner node ends at the root. -/
theorem Inner.climb_eq {l : List α} {a b r : α} {p : List (α × Bool)} (h : Inner comb l a b p)
    (hroot : (levels comb l).getLast? = some [r]) : climb comb (comb a b) p = r := by
  induction h with
  | @here l i a b hlen ha hb =>
    obtain ⟨r', hlast, hclimb⟩ := climb_path comb (parents comb l) (parents_ne_nil comb hlen)
    rw [getLast?_levels_of_lt comb hlen, hlast] at hroot
    cases hroot
    have hparent : (parents comb l)[i]? = some (comb a b) := by
      rw [getElem?_parents, ha, hb]
      rfl
    obtain ⟨hi, hget⟩ := List.getElem?_eq_some_iff.mp hparent
    rw [← hget]
    exact hclimb i hi
  | up hlen _ ih => exact ih (by rwa [← getLast?_levels_of_lt comb hlen])

/-- **The descent rule** for untrusted paths. If a step that ends at an inner node came from one
of its children, then a walk that ends at the root has, from some point on, the path of a leaf,
or it is the path of an inner node from the start. -/
theorem climb_descends {l : List α} (hne : l ≠ []) {x r : α} {p : List (α × Bool)}
    (hpeel : ∀ pre s left, pre ++ [(s, left)] <+: p → ∀ a b q, Inner comb l a b q →
      stepUp comb (climb comb x pre) s left = comb a b →
        if left then s = a ∧ climb comb x pre = b else climb comb x pre = a ∧ s = b)
    (hroot : (levels comb l).getLast? = some [r]) (hclimb : climb comb x p = r) :
    (∃ (i : Nat) (hi : i < l.length) (pre : List (α × Bool)),
        p = pre ++ path (levels comb l).dropLast i ∧ climb comb x pre = l[i]) ∨
      ∃ a b, Inner comb l a b p ∧ x = comb a b := by
  induction l using levels.induct comb with
  | case1 l hle =>
    rw [levels_of_le comb hle] at hroot ⊢
    cases hroot
    exact .inl ⟨0, by simp, p, by simp [path], by simpa using hclimb⟩
  | case2 l hlt ih =>
    have hlen : 1 < l.length := by omega
    rcases ih (parents_ne_nil comb hlen) (fun pre s left hpre a b q hq =>
        hpeel pre s left hpre a b q (.up hlen hq)) (by rwa [← getLast?_levels_of_lt comb hlen])
      with ⟨j, hj, pre, hp, hpre⟩ | ⟨a, b, hinner, hx⟩
    · have hparent := getElem?_parents comb l j
      rw [List.getElem?_eq_getElem hj] at hparent
      obtain ⟨a, ha, hnode⟩ := Option.map_eq_some_iff.mp hparent.symm
      have hlevels : (levels comb l).dropLast = l :: (levels comb (parents comb l)).dropLast := by
        rw [levels_of_lt comb hlen, List.dropLast_cons_of_ne_nil (levels_ne_nil comb _)]
      obtain ⟨hi, hleft⟩ := List.getElem?_eq_some_iff.mp ha
      cases hb : l[2 * j + 1]? with
      | none =>
        -- a promoted node has no sibling at its level
        rw [hb] at hnode
        refine .inl ⟨2 * j, hi, pre, ?_, ?_⟩
        · have hhalf : 2 * j / 2 = j := by omega
          rw [hp, hlevels, path, if_pos (by omega), hb, hhalf]
          rfl
        · rw [hpre, hleft, ← hnode]
          rfl
      | some b =>
        rw [hb] at hnode
        obtain ⟨hi', hright⟩ := List.getElem?_eq_some_iff.mp hb
        rw [← hnode] at hpre
        rcases List.eq_nil_or_concat pre with rfl | ⟨pre', ⟨s, left⟩, rfl⟩
        · exact .inr ⟨a, b, hp ▸ .here hlen ha hb, hpre⟩
        · rw [List.concat_eq_append] at hp hpre
          rw [climb_concat] at hpre
          have hpeeled := hpeel pre' s left ⟨_, hp.symm⟩ a b _ (.here hlen ha hb) hpre
          cases left with
          | true =>
            obtain ⟨rfl, hcurrent⟩ := hpeeled
            refine .inl ⟨2 * j + 1, hi', pre', ?_, hcurrent.trans hright.symm⟩
            have hhalf : (2 * j + 1) / 2 = j := by omega
            have hback : 2 * j + 1 - 1 = 2 * j := by omega
            rw [hp, hlevels, path, if_neg (by omega), hback, ha, hhalf, List.append_assoc]
            rfl
          | false =>
            obtain ⟨hcurrent, rfl⟩ := hpeeled
            refine .inl ⟨2 * j, hi, pre', ?_, hcurrent.trans hleft.symm⟩
            have hhalf : 2 * j / 2 = j := by omega
            rw [hp, hlevels, path, if_pos (by omega), hb, hhalf, List.append_assoc]
            rfl
    · exact .inr ⟨a, b, .up hlen hinner, hx⟩

end PromotingTree
