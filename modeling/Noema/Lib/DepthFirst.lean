import Mathlib

/-!
# Iterative depth-first search

The three-colour search for a cycle keeps a stack of vertices, each with a flag that says whether it
was expanded. An expanded vertex is gray until it is popped for the second time, and black from then
on. `succ v` lists the successors of `v`.

- `SearchInv`: the invariant of the loop, with one rule for each thing a turn can do
  (`SearchInv.finish`, `SearchInv.skip`, `SearchInv.expand`). Its two structural parts are stated on
  the stack alone: `Pending` (what an expanded vertex still waits for lies above it) and `Chained`
  (the expanded vertices form a path, `Chained.path`).
- `SearchInv.cycle`: a gray vertex that is popped unexpanded lies on a cycle. The path that closes
  it is the chain of expanded vertices above the gray one.
- `SearchInv.acyclic`: when nothing is left white and the stack is empty, there is no cycle. That is
  read off accessibility: a vertex only turns black when its successors are black, so black vertices
  are accessible, and no cycle passes through an accessible vertex.
- `searchCost`: what every turn decreases. A vertex may be pushed several times before it is
  expanded, so the measure counts the successors of the white vertices and not the vertices.
-/

namespace Noema.Lib

universe u

variable {V : Type u}

/-- The colours of the search. -/
inductive Color where
  | white
  | gray
  | black
  deriving DecidableEq, Repr

/-- `w` is a successor of `v`. -/
def Succ (succ : V → List V) (v w : V) : Prop := w ∈ succ v

/-- The vertex below which everything on top of the stack was pushed. -/
def openVertex : List (V × Bool) → Option V
  | [] => none
  | (v, true) :: _ => some v
  | (_, false) :: stack => openVertex stack

/-- Each successor of an expanded vertex is black or above it on the stack; `above` lists what is
above the stack. -/
def Pending (succ : V → List V) (color : V → Color) : List V → List (V × Bool) → Prop
  | _, [] => True
  | above, (v, expanded) :: stack =>
    (expanded = true → ∀ w ∈ succ v, color w = .black ∨ w ∈ above) ∧
      Pending succ color (v :: above) stack

/-- Each vertex on the stack is a successor of the expanded one below it. -/
def Chained (succ : V → List V) : List (V × Bool) → Prop
  | [] => True
  | (v, _) :: stack => (∀ u, openVertex stack = some u → Succ succ u v) ∧ Chained succ stack

/-- The invariant of the search. -/
structure SearchInv (succ : V → List V) (color : V → Color) (stack : List (V × Bool)) : Prop where
  gray_iff : ∀ v, color v = .gray ↔ (v, true) ∈ stack
  nodup : (stack.filter Prod.snd).Nodup
  finished : ∀ v, color v = .black → Acc (fun w v => Succ succ v w) v
  closed : ∀ v, color v = .black → ∀ w ∈ succ v, color w = .black
  pending : Pending succ color [] stack
  chained : Chained succ stack

variable {succ : V → List V} {color color' : V → Color} {stack : List (V × Bool)} {v : V}

/-! ## Stacks -/

theorem Pending.mono {above above' : List V} (h : Pending succ color above stack)
    (hcolor : ∀ w, color w = .black → color' w = .black)
    (habove : ∀ w ∈ above, color' w = .black ∨ w ∈ above') : Pending succ color' above' stack := by
  induction stack generalizing above above' with
  | nil => trivial
  | cons entry stack ih =>
    obtain ⟨v, expanded⟩ := entry
    obtain ⟨htop, hrest⟩ := h
    constructor
    · intro hexpanded w hw
      rcases htop hexpanded w hw with hblack | hmem
      · exact .inl (hcolor w hblack)
      · exact habove w hmem
    · refine ih hrest ?_
      intro w hw
      rcases List.mem_cons.mp hw with rfl | hw
      · exact .inr List.mem_cons_self
      · exact (habove w hw).imp_right (List.mem_cons_of_mem _)

/-- What is pushed unexpanded is above the rest. -/
theorem pending_push {pushed above : List V} :
    Pending succ color above (pushed.map (fun w => (w, false)) ++ stack) ↔
      Pending succ color (pushed.reverse ++ above) stack := by
  induction pushed generalizing above with
  | nil => rfl
  | cons w pushed ih =>
    rw [List.map_cons, List.cons_append, Pending, ih, List.reverse_cons, List.append_assoc]
    exact and_iff_right fun h => absurd h Bool.false_ne_true

theorem chained_push {pushed : List V} (hchained : Chained succ ((v, true) :: stack))
    (hpushed : ∀ w ∈ pushed, w ∈ succ v) :
    Chained succ (pushed.map (fun w => (w, false)) ++ (v, true) :: stack) ∧
      openVertex (pushed.map (fun w => (w, false)) ++ (v, true) :: stack) = some v := by
  induction pushed with
  | nil => exact ⟨hchained, rfl⟩
  | cons w pushed ih =>
    obtain ⟨hw, hpushed⟩ := List.forall_mem_cons.mp hpushed
    obtain ⟨hrest, hopen⟩ := ih hpushed
    refine ⟨⟨?_, hrest⟩, hopen⟩
    intro u hu
    cases hopen.symm.trans hu
    exact hw

/-- The expanded vertices of a stack form a path that ends in the topmost one. -/
theorem Chained.path (h : Chained succ stack) (hv : (v, true) ∈ stack) :
    ∃ u, openVertex stack = some u ∧ Relation.ReflTransGen (Succ succ) v u := by
  induction stack with
  | nil => cases hv
  | cons entry stack ih =>
    obtain ⟨w, expanded⟩ := entry
    obtain ⟨htop, hrest⟩ := h
    rcases List.mem_cons.mp hv with heq | hmem
    · cases heq
      exact ⟨v, rfl, .refl⟩
    · obtain ⟨u, hopen, hpath⟩ := ih hrest hmem
      cases expanded with
      | true => exact ⟨w, rfl, hpath.tail (htop u hopen)⟩
      | false => exact ⟨u, hopen, hpath⟩

/-! ## The turns -/

theorem not_rel_of_acc {r : V → V → Prop} (h : Acc r v) : ¬ r v v := by
  intro hself
  induction h with
  | intro v _ ih => exact ih v hself hself

/-- No cycle passes through an accessible vertex. -/
theorem not_transGen_of_acc (h : Acc (fun w v => Succ succ v w) v) :
    ¬ Relation.TransGen (Succ succ) v v :=
  fun hcycle => not_rel_of_acc h.transGen (Relation.transGen_swap.mpr hcycle)

namespace SearchInv

/-- Nothing is left of an earlier search on an empty stack. -/
theorem start (h : SearchInv succ color []) (v : V) : SearchInv succ color [(v, false)] where
  gray_iff w := (h.gray_iff w).trans (by simp)
  nodup := by simp
  finished := h.finished
  closed := h.closed
  pending := ⟨fun h => absurd h Bool.false_ne_true, trivial⟩
  chained := by
    refine ⟨?_, trivial⟩
    intro u hu
    cases hu

/-- A gray vertex that is popped unexpanded lies on a cycle. -/
theorem cycle (h : SearchInv succ color ((v, false) :: stack)) (hgray : color v = .gray) :
    Relation.TransGen (Succ succ) v v := by
  have hmem : (v, true) ∈ stack := by simpa using (h.gray_iff v).mp hgray
  obtain ⟨u, hopen, hpath⟩ := h.chained.2.path hmem
  exact Relation.TransGen.tail' hpath (h.chained.1 u hopen)

/-- A black vertex is not its own successor. -/
theorem not_succ_self (h : SearchInv succ color stack) (hblack : color v = .black) :
    v ∉ succ v :=
  fun hself => not_transGen_of_acc (h.finished v hblack) (.single hself)

/-- A black vertex may be popped: it was reached on another way. -/
theorem skip (h : SearchInv succ color ((v, false) :: stack)) (hblack : color v = .black) :
    SearchInv succ color stack where
  gray_iff w := (h.gray_iff w).trans (by simp)
  nodup := h.nodup
  finished := h.finished
  closed := h.closed
  pending := by
    refine h.pending.2.mono (fun _ hw => hw) ?_
    intro w hw
    rw [List.mem_singleton.mp hw]
    exact .inl hblack
  chained := h.chained.2

variable [DecidableEq V]

/-- A vertex whose successors are all black turns black. -/
theorem finish (h : SearchInv succ color ((v, true) :: stack)) :
    SearchInv succ (Function.update color v .black) stack := by
  -- all that the node leads to is finished, so the node is too
  have hsucc : ∀ w ∈ succ v, color w = .black := by
    intro w hw
    exact (h.pending.1 rfl w hw).resolve_right List.not_mem_nil
  have hgray : color v = .gray := (h.gray_iff v).mpr List.mem_cons_self
  have hnew : (v, true) ∉ stack := by
    have hnodup := h.nodup
    rw [List.filter_cons_of_pos rfl, List.nodup_cons] at hnodup
    exact fun hmem => hnodup.1 (List.mem_filter.mpr ⟨hmem, rfl⟩)
  have hblack : ∀ w, color w = .black → Function.update color v .black w = .black := by
    intro w hw
    rw [Function.update_apply]
    split
    · rfl
    · exact hw
  refine ⟨?_, ?_, ?_, ?_, ?_, h.chained.2⟩
  · intro w
    rw [Function.update_apply]
    split
    · next heq =>
      rw [heq]
      exact iff_of_false (by decide) hnew
    · next hne => simp [h.gray_iff w, hne]
  · have hnodup := h.nodup
    rw [List.filter_cons_of_pos rfl] at hnodup
    exact (List.nodup_cons.mp hnodup).2
  · intro w hw
    rw [Function.update_apply] at hw
    split at hw
    · next heq =>
      rw [heq]
      exact Acc.intro v fun x hx => h.finished x (hsucc x hx)
    · exact h.finished w hw
  · intro w hw x hx
    rw [Function.update_apply] at hw
    split at hw
    · next heq =>
      rw [heq] at hx
      exact hblack x (hsucc x hx)
    · exact hblack x (h.closed w hw x hx)
  · refine h.pending.2.mono hblack ?_
    intro w hw
    rw [List.mem_singleton.mp hw]
    exact .inl (Function.update_self v _ color)

/-- A white vertex turns gray, and its successors are pushed. -/
theorem expand (h : SearchInv succ color ((v, false) :: stack)) (hwhite : color v = .white)
    {pushed : List V} (hpushed : ∀ w ∈ pushed, w ∈ succ v)
    (hall : ∀ w ∈ succ v, color w = .black ∨ w ∈ pushed) :
    SearchInv succ (Function.update color v .gray)
      (pushed.map (fun w => (w, false)) ++ (v, true) :: stack) := by
  -- a white node is not on the path, so it is expanded for the first time
  have hnew : (v, true) ∉ stack := by
    intro hmem
    have hgray := (h.gray_iff v).mpr (List.mem_cons_of_mem _ hmem)
    rw [hwhite] at hgray
    cases hgray
  have hblack : ∀ w, Function.update color v .gray w = .black ↔ color w = .black := by
    intro w
    rw [Function.update_apply]
    split
    · next heq =>
      rw [heq, hwhite]
      decide
    · exact Iff.rfl
  refine ⟨?_, ?_, ?_, ?_, ?_, ?_⟩
  · intro w
    rw [Function.update_apply]
    split
    · next heq => simp [heq]
    · next hne => simp [h.gray_iff w, hne]
  · have hnone : (pushed.map fun w => (w, false)).filter Prod.snd = [] := by
      simp [List.filter_eq_nil_iff]
    rw [List.filter_append, hnone, List.nil_append, List.filter_cons_of_pos rfl]
    refine List.nodup_cons.mpr ⟨fun hmem => hnew (List.mem_filter.mp hmem).1, ?_⟩
    simpa using h.nodup
  · exact fun w hw => h.finished w ((hblack w).mp hw)
  · exact fun w hw x hx => (hblack x).mpr (h.closed w ((hblack w).mp hw) x hx)
  · rw [pending_push]
    constructor
    · intro _ w hw
      exact (hall w hw).imp (hblack w).mpr fun hw => by simpa using hw
    · refine h.pending.2.mono (fun w => (hblack w).mpr) ?_
      intro w hw
      rw [List.mem_singleton.mp hw]
      exact .inr List.mem_cons_self
  · exact (chained_push h.chained hpushed).1

omit [DecidableEq V]

/-- When the stack is empty and no vertex with a successor is white, there is no cycle. -/
theorem acyclic (h : SearchInv succ color []) (hwhite : ∀ v, succ v ≠ [] → color v ≠ .white)
    (v : V) : ¬ Relation.TransGen (Succ succ) v v := by
  intro hcycle
  obtain ⟨w, hw, -⟩ := Relation.TransGen.head'_iff.mp hcycle
  have hblack : color v = .black := by
    have hne := hwhite v (List.ne_nil_of_mem hw)
    have hgray : color v ≠ .gray := fun hgray => by simpa using (h.gray_iff v).mp hgray
    cases hcolor : color v with
    | white => exact absurd hcolor hne
    | gray => exact absurd hcolor hgray
    | black => rfl
  exact not_transGen_of_acc (h.finished v hblack) hcycle

end SearchInv

/-! ## Termination -/

/-- An entry of the stack takes a turn, and one more if it has to be expanded first; a white
vertex may push its successors. -/
def searchCost (succ : V → List V) (vs : Finset V) (color : V → Color) (stack : List (V × Bool)) :
    Nat :=
  (stack.map fun entry => if entry.2 then 1 else 2).sum +
    ∑ v ∈ vs with color v = .white, 2 * (succ v).length

variable {vs : Finset V}

theorem searchCost_pop {expanded : Bool} :
    searchCost succ vs color stack < searchCost succ vs color ((v, expanded) :: stack) := by
  rw [searchCost, searchCost, List.map_cons, List.sum_cons]
  split <;> omega

variable [DecidableEq V]

theorem searchCost_update_of_ne {c : Color} (hv : color v ≠ .white) (hc : c ≠ .white) :
    searchCost succ vs (Function.update color v c) stack = searchCost succ vs color stack := by
  have hwhite : ∀ w, Function.update color v c w = .white ↔ color w = .white := by
    intro w
    rw [Function.update_apply]
    split
    · next heq =>
      rw [heq]
      exact iff_of_false hc hv
    · exact Iff.rfl
  simp only [searchCost, hwhite]

theorem searchCost_expand (hmem : v ∈ vs) (hwhite : color v = .white) {pushed : List V}
    (hpushed : pushed.length ≤ (succ v).length) :
    searchCost succ vs (Function.update color v .gray)
      (pushed.map (fun w => (w, false)) ++ (v, true) :: stack) <
        searchCost succ vs color ((v, false) :: stack) := by
  have hsum : ∑ w ∈ vs with color w = .white, 2 * (succ w).length =
      2 * (succ v).length +
        ∑ w ∈ vs with Function.update color v .gray w = .white, 2 * (succ w).length := by
    rw [← Finset.add_sum_erase _ _ (Finset.mem_filter.mpr ⟨hmem, hwhite⟩)]
    congr 2
    ext w
    by_cases hw : w = v
    · simp [hw]
    · simp [hw]
  have hmap : (pushed.map fun _ : V => 2).sum = pushed.length * 2 := by simp
  rw [searchCost, searchCost, hsum, List.map_append, List.sum_append, List.map_map, List.map_cons,
    List.sum_cons, List.map_cons, List.sum_cons]
  simp only [Function.comp_def, Bool.false_eq_true, if_false, if_true]
  rw [hmap]
  omega

end Noema.Lib
