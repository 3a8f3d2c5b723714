import Mathlib

/-!
# A dict that changes while it is iterated over

A dict has its entries in slots, in the order in which the keys came in. A key that is removed
leaves an empty slot, until the dict compacts its slots when a key is added. An iterator has its
place among the slots, the size that the dict had, and the number of items to come; it refuses to go
on when the dict has another size, or has items where none should come.

- `LiveDict`: the slots, with the invariant that the keys are distinct. Whether an insertion
  compacts the slots is an argument, since it depends on how the table was allocated.
- `seek`: the iterator goes on to the next item that is wanted. It has three ends: the next item,
  the end of the dict, or `RuntimeError`.
- `seek_spec`: if the dict has the size that it had and the iterator knows how many items lie from
  its place on, it stops after the last item that is wanted, or comes to the next one and has
  skipped only items that are not. Values may have changed meanwhile.

The lemmas before `seek_spec` say for each operation which items of the dict are left, are new or
are in another slot, in terms of `items` alone.
-/

namespace Noema.Lib

universe u v

/-- The first item of some slots, with its place. The slots start at `i`. -/
def firstSlot {α : Type u} : List (Option α) → Nat → Option (Nat × α)
  | [], _ => none
  | none :: slots, i => firstSlot slots (i + 1)
  | some a :: _, i => some (i, a)

theorem firstSlot_eq_none {α : Type u} {slots : List (Option α)} {i : Nat}
    (h : firstSlot slots i = none) : slots.reduceOption = [] := by
  induction slots generalizing i with
  | nil => rfl
  | cons slot slots ih =>
    cases slot with
    | none => exact ih h
    | some a => cases h

/-- After the first item come the items of the slots after it. -/
theorem firstSlot_eq_some {α : Type u} {slots : List (Option α)} {i j : Nat} {a : α}
    (h : firstSlot slots i = some (j, a)) :
    ∃ n, j = i + n ∧ slots.reduceOption = a :: (slots.drop (n + 1)).reduceOption := by
  induction slots generalizing i with
  | nil => cases h
  | cons slot slots ih =>
    cases slot with
    | none =>
      obtain ⟨n, hj, hslots⟩ := ih h
      exact ⟨n + 1, by omega, hslots⟩
    | some b =>
      cases h
      exact ⟨0, rfl, List.reduceOption_cons_of_some ..⟩

/-- A dict, with keys that are distinct. -/
@[ext]
structure LiveDict (K : Type u) (V : Type v) where
  slots : List (Option (K × V))
  nodup : (slots.reduceOption.map Prod.fst).Nodup

/-- What an iterator comes to. -/
inductive Seek (K : Type u) (V : Type v) where
  | changed
  | stop
  | found (item : K × V) (pos left : Nat)

namespace LiveDict

variable {K : Type u} {V : Type v}

/-- `{}`. -/
def empty : LiveDict K V := ⟨[], List.nodup_nil⟩

/-- `d.items()`. -/
def items (d : LiveDict K V) : List (K × V) := d.slots.reduceOption

/-- `d.keys()`. -/
def keys (d : LiveDict K V) : List K := d.items.map Prod.fst

/-- The items in the slots from a place on. -/
def itemsFrom (d : LiveDict K V) (pos : Nat) : List (K × V) := (d.slots.drop pos).reduceOption

/-- The keys in the slots from a place on. -/
def keysFrom (d : LiveDict K V) (pos : Nat) : List K := (d.itemsFrom pos).map Prod.fst

theorem mem_items_of_itemsFrom {d : LiveDict K V} {pos : Nat} {item : K × V}
    (h : item ∈ d.itemsFrom pos) : item ∈ d.items :=
  List.reduceOption_mem_iff.mpr (List.mem_of_mem_drop (List.reduceOption_mem_iff.mp h))

theorem nodup_keysFrom (d : LiveDict K V) (pos : Nat) : (d.keysFrom pos).Nodup :=
  d.nodup.sublist (((List.drop_sublist pos d.slots).filterMap id).map Prod.fst)

/-- A key has one item. -/
theorem eq_of_fst_eq (d : LiveDict K V) {item item' : K × V} (h : item ∈ d.items)
    (h' : item' ∈ d.items) (hkey : item.1 = item'.1) : item = item' :=
  List.inj_on_of_nodup_map d.nodup h h' hkey

/-- The iterator goes on to the next item that is wanted. It is at `pos`, started when the dict had
`used` items, and has `left` items to come. -/
def seek (d : LiveDict K V) (wanted : K × V → Bool) (used : Nat) : Nat → Nat → Seek K V
  | 0, pos =>
    if d.items.length = used ∧ firstSlot (d.slots.drop pos) pos = none then .stop else .changed
  | left + 1, pos =>
    if d.items.length = used then
      match firstSlot (d.slots.drop pos) pos with
      | none => .stop
      | some (i, item) =>
        if wanted item then .found item (i + 1) left else seek d wanted used left (i + 1)
    else .changed

/-- What is left of the items when some are dropped from their slots. -/
theorem reduceOption_map_filter (slots : List (Option (K × V))) (keep : K × V → Bool) :
    (slots.map (Option.filter keep)).reduceOption = slots.reduceOption.filter keep := by
  induction slots with
  | nil => rfl
  | cons slot slots ih =>
    cases slot with
    | none => exact ih
    | some item =>
      rw [List.map_cons, List.reduceOption_cons_of_some, List.filter_cons, ← ih, Option.filter_some]
      cases keep item with
      | true => exact List.reduceOption_cons_of_some ..
      | false => exact List.reduceOption_cons_of_none ..

variable [DecidableEq K]

/-- `d.pop(key, None)`. -/
def erase (d : LiveDict K V) (key : K) : LiveDict K V where
  slots := d.slots.map (Option.filter fun item => item.1 ≠ key)
  nodup := by
    rw [reduceOption_map_filter]
    exact d.nodup.sublist (List.filter_sublist.map Prod.fst)

/-- An item with the new value of its key. -/
def assign (key : K) (value : V) (item : K × V) : K × V := if item.1 = key then (key, value) else item

theorem fst_assign (key : K) (value : V) (item : K × V) : (assign key value item).1 = item.1 := by
  rw [assign]
  split_ifs with h
  · exact h.symm
  · rfl

theorem map_fst_assign (key : K) (value : V) (items : List (K × V)) :
    (items.map (assign key value)).map Prod.fst = items.map Prod.fst := by
  rw [List.map_map]
  exact List.map_congr_left fun item _ => fst_assign key value item

/-- `d[key] = value`. A new key may make the dict compact its slots. -/
def insert (d : LiveDict K V) (key : K) (value : V) (compacts : Bool) : LiveDict K V :=
  if h : key ∈ d.keys then
    { slots := d.slots.map (Option.map (assign key value))
      nodup := by
        rw [List.reduceOption_map, map_fst_assign]
        exact d.nodup }
  else
    { slots := (if compacts then d.items.map some else d.slots) ++ [some (key, value)]
      nodup := by
        have hsame : (if compacts then d.items.map some else d.slots).reduceOption = d.items := by
          split_ifs
          · rw [List.reduceOption, List.filterMap_map]
            exact List.filterMap_some
          · rfl
        rw [List.reduceOption_append, hsame, List.map_append, List.nodup_append']
        refine ⟨d.nodup, List.nodup_singleton _, fun key' hkey' hsingle => h ?_⟩
        have hkey : key' = key := List.mem_singleton.mp hsingle
        rwa [← hkey] }

section Keep

variable {d : LiveDict K V} {key : K} {value : V} {compacts : Bool}

/-- To remove a key that is not there does nothing. -/
theorem erase_of_notMem (h : key ∉ d.keys) : d.erase key = d := by
  ext1
  refine (List.map_congr_left fun slot hslot => ?_).trans (List.map_id _)
  cases slot with
  | none => rfl
  | some item =>
    have hmem : item ∈ d.items := List.reduceOption_mem_iff.mpr hslot
    have hne : item.1 ≠ key := fun heq => h (heq ▸ List.mem_map_of_mem hmem)
    rw [Option.filter_some, if_pos (decide_eq_true hne), id]

/-- A new value leaves the keys where they are. -/
theorem keysFrom_insert (h : key ∈ d.keys) (pos : Nat) :
    (d.insert key value compacts).keysFrom pos = d.keysFrom pos := by
  rw [insert, dif_pos h, keysFrom, itemsFrom, ← List.map_drop, List.reduceOption_map, map_fst_assign]
  rfl

theorem length_insert (h : key ∈ d.keys) :
    (d.insert key value compacts).items.length = d.items.length := by
  rw [insert, dif_pos h, items, List.reduceOption_map, List.length_map]
  rfl

/-- The other items stay. -/
theorem mem_items_insert {item : K × V} (hmem : item ∈ d.items) (hne : item.1 ≠ key)
    (h : key ∈ d.keys) : item ∈ (d.insert key value compacts).items := by
  rw [insert, dif_pos h, items, List.reduceOption_map]
  exact List.mem_map.mpr ⟨item, hmem, if_neg hne⟩

/-- An item after an insertion is the new one or an old one. -/
theorem of_mem_items_insert {item : K × V} (hmem : item ∈ (d.insert key value compacts).items) :
    item = (key, value) ∨ item ∈ d.items := by
  rw [insert] at hmem
  split_ifs at hmem with h hcompacts
  · rw [items, List.reduceOption_map] at hmem
    obtain ⟨item', hitem', rfl⟩ := List.mem_map.mp hmem
    rw [assign]
    split_ifs
    · exact .inl rfl
    · exact .inr hitem'
  · rw [items, List.reduceOption_append, List.mem_append] at hmem
    rcases hmem with hold | hnew
    · refine .inr ?_
      rw [List.reduceOption_mem_iff] at hold
      simpa using hold
    · exact .inl (List.mem_singleton.mp hnew)
  · rw [items, List.reduceOption_append, List.mem_append] at hmem
    rcases hmem with hold | hnew
    · exact .inr hold
    · exact .inl (List.mem_singleton.mp hnew)

/-- An item that is left was there. -/
theorem mem_items_of_erase {item : K × V} (hmem : item ∈ (d.erase key).items) : item ∈ d.items := by
  rw [items, erase, reduceOption_map_filter] at hmem
  exact List.mem_of_mem_filter hmem

end Keep

omit [DecidableEq K] in
/-- An iterator over a dict whose keys have not changed stops after the last item that is wanted, or
comes to the next one. -/
theorem seek_spec (d : LiveDict K V) (wanted : K × V → Bool) {left pos : Nat}
    (hleft : (d.itemsFrom pos).length = left) :
    (d.seek wanted d.items.length left pos = .stop ∧ ∀ item ∈ d.itemsFrom pos, wanted item = false) ∨
    ∃ item pos' left' skipped, d.seek wanted d.items.length left pos = .found item pos' left' ∧
      wanted item = true ∧ d.itemsFrom pos = skipped ++ item :: d.itemsFrom pos' ∧
      (d.itemsFrom pos').length = left' ∧ ∀ item' ∈ skipped, wanted item' = false := by
  induction left generalizing pos with
  | zero =>
    have hnil : d.itemsFrom pos = [] := List.length_eq_zero_iff.mp hleft
    refine .inl ⟨?_, fun item hitem => by rw [hnil] at hitem; cases hitem⟩
    cases hfirst : firstSlot (d.slots.drop pos) pos with
    | none => rw [seek, if_pos ⟨rfl, hfirst⟩]
    | some found =>
      obtain ⟨n, -, hitems⟩ := firstSlot_eq_some hfirst
      cases hitems.symm.trans hnil
  | succ left ih =>
    rw [seek, if_pos rfl]
    cases hfirst : firstSlot (d.slots.drop pos) pos with
    | none =>
      have hnil : d.itemsFrom pos = [] := firstSlot_eq_none hfirst
      rw [hnil] at hleft
      cases hleft
    | some found =>
      obtain ⟨i, item⟩ := found
      obtain ⟨n, rfl, hitems⟩ := firstSlot_eq_some hfirst
      have hrest : d.itemsFrom pos = item :: d.itemsFrom (pos + n + 1) := by
        rw [itemsFrom, hitems, itemsFrom, List.drop_drop, Nat.add_assoc]
      rw [hrest, List.length_cons, Nat.add_right_cancel_iff] at hleft
      -- an item that is not wanted is skipped, and the search goes on behind it
      cases hwanted : wanted item with
      | true =>
        refine .inr ⟨item, pos + n + 1, left, [], ?_, hwanted, hrest, hleft, fun _ h => by cases h⟩
        simp only [hwanted, if_true]
      | false =>
        have hskip : (if wanted item = true then Seek.found item (pos + n + 1) left
            else d.seek wanted d.items.length left (pos + n + 1)) =
            d.seek wanted d.items.length left (pos + n + 1) := by
          rw [hwanted]
          rfl
        simp only [hskip]
        rcases ih hleft with ⟨hstop, hnone⟩ | ⟨item', pos', left', skipped, hfound, hrest'⟩
        · refine .inl ⟨hstop, ?_⟩
          rw [hrest]
          exact List.forall_mem_cons.mpr ⟨hwanted, hnone⟩
        · obtain ⟨hwanted', hitems', hleft', hskipped⟩ := hrest'
          refine .inr ⟨item', pos', left', item :: skipped, hfound, hwanted', ?_, hleft', ?_⟩
          · rw [hrest, hitems', List.cons_append]
          · exact List.forall_mem_cons.mpr ⟨hwanted, hskipped⟩

end LiveDict

end Noema.Lib
