import Mathlib

/-!
# Perfect binary trees over an unbounded leaf sequence

A Merkle builder that pads its leaves computes the nodes of a *perfect* binary tree. Reading the
leaves as a function `Nat → α` (defined past the last real leaf as well) makes every node
addressable by height and position, with no bound on either, so that growing a tree is no more than
looking at more of it:

- `node comb leaf k j`: the node of height `k` at position `j`;
- `authPath`: the siblings met on the way up from a position, each with the flag "the sibling is on
  the left";
- `climb`: the verifier's walk along a path.

**`climb_authPath`** is the completeness of authentication paths, by induction on the height.
`node_congr` says that a node depends on the leaves below it only, and `node_const` what a node over
equal leaves is; together they say what a change of the leaves can and cannot touch. Nothing is
asked of the way in which two nodes are combined: what follows from a path for the leaf, when
combining is injective, is with the builders.
-/

namespace PerfectTree

variable {α : Type} (comb : α → α → α) (leaf : Nat → α)

/-- The node of height `k` at position `j`: it covers the leaves
`j * 2 ^ k, …, (j + 1) * 2 ^ k - 1`. -/
def node : Nat → Nat → α
  | 0, j => leaf j
  | k + 1, j => comb (node k (2 * j)) (node k (2 * j + 1))

/-- The node of height `k` whose leaves all equal `x`. -/
def constNode (x : α) : Nat → α
  | 0 => x
  | k + 1 => comb (constNode x k) (constNode x k)

/-- The position of the sibling of position `i`. -/
def sibling (i : Nat) : Nat := if i % 2 = 0 then i + 1 else i - 1

/-- The authentication path of length `n` from position `i` at height `k`. -/
def authPath : Nat → Nat → Nat → List (α × Bool)
  | _, 0, _ => []
  | k, n + 1, i => (node comb leaf k (sibling i), i % 2 != 0) :: authPath (k + 1) n (i / 2)

/-- One step of a walk: a `true` flag puts the sibling on the left. -/
def stepUp (x s : α) (left : Bool) : α := if left then comb s x else comb x s

/-- Walk up a path. -/
def climb : α → List (α × Bool) → α
  | x, [] => x
  | x, (s, left) :: path => climb (stepUp comb x s left) path

@[simp] theorem node_zero (j : Nat) : node comb leaf 0 j = leaf j := rfl

theorem node_succ (k j : Nat) :
    node comb leaf (k + 1) j = comb (node comb leaf k (2 * j)) (node comb leaf k (2 * j + 1)) :=
  rfl

@[simp] theorem authPath_zero (k i : Nat) : authPath comb leaf k 0 i = [] := rfl

@[simp] theorem length_authPath (k n i : Nat) : (authPath comb leaf k n i).length = n := by
  induction n generalizing k i with
  | zero => rfl
  | succ n ih => simp [authPath, ih]

/-- A node depends on the leaves below it only. -/
theorem node_congr {leaf' : Nat → α} {k j : Nat}
    (h : ∀ i, j * 2 ^ k ≤ i → i < (j + 1) * 2 ^ k → leaf i = leaf' i) :
    node comb leaf k j = node comb leaf' k j := by
  induction k generalizing j with
  | zero => exact h j (by simp) (by simp)
  | succ k ih =>
    rw [node_succ, node_succ]
    have hpow : 2 ^ (k + 1) = 2 * 2 ^ k := by rw [pow_succ, mul_comm]
    congr 1
    · refine ih fun i h₁ h₂ => h i ?_ ?_ <;> rw [hpow] <;> nlinarith
    · refine ih fun i h₁ h₂ => h i ?_ ?_ <;> rw [hpow] <;> nlinarith

/-- A node all of whose leaves equal `x` is the constant node. -/
theorem node_const {x : α} {k j : Nat}
    (h : ∀ i, j * 2 ^ k ≤ i → i < (j + 1) * 2 ^ k → leaf i = x) :
    node comb leaf k j = constNode comb x k := by
  have hc : ∀ k j, node comb (fun _ => x) k j = constNode comb x k := by
    intro k
    induction k with
    | zero => intro j; rfl
    | succ k ih => intro j; rw [node_succ, ih, ih]; rfl
  have hsame : node comb leaf k j = node comb (fun _ => x) k j := node_congr comb leaf h
  rw [hsame, hc]

/-- Climbing one level first or last builds the same constant node. -/
theorem constNode_comb_self (x : α) (k : Nat) :
    constNode comb (comb x x) k = constNode comb x (k + 1) := by
  induction k with
  | zero => rfl
  | succ k ih =>
    rw [constNode, ih]
    rfl

/-- One step up from position `i` reaches the parent, on either side. -/
theorem climb_step (k i : Nat) :
    stepUp comb (node comb leaf k i) (node comb leaf k (sibling i)) (i % 2 != 0)
      = node comb leaf (k + 1) (i / 2) := by
  rw [node_succ, stepUp]
  rcases Nat.mod_two_eq_zero_or_one i with h | h
  · have hl : 2 * (i / 2) = i := by omega
    simp [sibling, h, hl]
  · have hl : 2 * (i / 2) = i - 1 := by omega
    have hr : i - 1 + 1 = i := by omega
    simp [sibling, h, hl, hr]

/-- **Completeness of authentication paths**: the walk along the path of
position `i` reaches the node `n` levels up. -/
theorem climb_authPath (k n i : Nat) :
    climb comb (node comb leaf k i) (authPath comb leaf k n i)
      = node comb leaf (k + n) (i / 2 ^ n) := by
  induction n generalizing k i with
  | zero => simp [climb]
  | succ n ih =>
    rw [authPath, climb, climb_step, ih (k + 1) (i / 2), Nat.div_div_eq_div_mul, ← pow_succ',
      show k + 1 + n = k + (n + 1) by omega]

theorem climb_append (x : α) (p q : List (α × Bool)) :
    climb comb x (p ++ q) = climb comb (climb comb x p) q := by
  induction p generalizing x with
  | nil => rfl
  | cons e p ih => exact ih _

theorem climb_concat (x : α) (path : List (α × Bool)) (s : α) (left : Bool) :
    climb comb x (path ++ [(s, left)]) = stepUp comb (climb comb x path) s left := by
  rw [climb_append]
  rfl

/-- **The descent rule** for untrusted paths. If the start is no inner node, no
step of the walk ends at a leaf, and a step that ends at an inner node came from
one of its children, then a walk that ends anywhere in the tree of height `d`
started at a leaf. -/
theorem climb_descends {d : Nat} {x : α} {path : List (α × Bool)}
    (hinner : ∀ k j, k < d → j < 2 ^ (d - (k + 1)) → x ≠ node comb leaf (k + 1) j)
    (hleaf : ∀ pre s left, pre ++ [(s, left)] <+: path →
      ∀ j, stepUp comb (climb comb x pre) s left ≠ leaf j)
    (hpeel : ∀ pre s left, pre ++ [(s, left)] <+: path →
      ∀ k j, k < d → j < 2 ^ (d - (k + 1)) →
        stepUp comb (climb comb x pre) s left = node comb leaf (k + 1) j →
          climb comb x pre = node comb leaf k (2 * j) ∨
          climb comb x pre = node comb leaf k (2 * j + 1))
    {k j : Nat} (hk : k ≤ d) (hj : j < 2 ^ (d - k)) (hend : climb comb x path = node comb leaf k j) :
    ∃ i, x = leaf i := by
  -- remove the last step of the walk and go one level down in the tree
  induction path using List.reverseRecOn generalizing k j with
  | nil =>
    cases k with
    | zero => exact ⟨j, hend⟩
    | succ k => exact absurd hend (hinner k j hk hj)
  | append_singleton path e ih =>
    obtain ⟨s, left⟩ := e
    have hlast : path ++ [(s, left)] <+: path ++ [(s, left)] := List.prefix_rfl
    rw [climb_concat] at hend
    cases k with
    | zero => exact absurd hend (hleaf path s left hlast j)
    | succ k =>
      have hpow : 2 ^ (d - k) = 2 * 2 ^ (d - (k + 1)) := by
        rw [← pow_succ', show d - (k + 1) + 1 = d - k by omega]
      have hext : ∀ {q : List (α × Bool)}, q <+: path → q <+: path ++ [(s, left)] :=
        fun hq => hq.trans (List.prefix_append _ _)
      have ih' := @ih (fun pre s left hpre => hleaf pre s left (hext hpre))
        (fun pre s left hpre => hpeel pre s left (hext hpre))
      rcases hpeel path s left hlast k j hk hj hend with h | h
      · exact ih' (by omega) (by omega) h
      · exact ih' (by omega) (by omega) h

end PerfectTree
