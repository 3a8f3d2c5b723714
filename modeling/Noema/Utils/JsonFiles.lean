import Noema.Lib.JsonIndent
import Noema.Utils.AtomicIo

/-!
# Files of values

A value that `atomic_write_json` has written is read back from the file (`jsonLoad_dumpsIndent`).
The text that it writes is indented; the decoder skips the white space (`Lib.JsonIndent`), and the
text has no carriage return, so reading the file in text mode changes nothing. `file_of_dumped` is
the file after the write. The ontology and the knowledge store are kept this way.
-/

namespace Noema.Utils

open Noema.Lib PyJson

variable {F : Type}

/-- A list is well formed if its items are. -/
theorem wfItems_map {α : Type} {make : α → PyVal F} {xs : List α} (h : ∀ x ∈ xs, (make x).WF) :
    wfItems (xs.map make) := by
  induction xs with
  | nil => trivial
  | cons x xs ih =>
    obtain ⟨hx, hxs⟩ := List.forall_mem_cons.mp h
    exact ⟨hx, ih hxs⟩

theorem isJsonItems_map {α : Type} {make : α → PyVal F} {xs : List α}
    (h : ∀ x ∈ xs, (make x).isJson = true) : isJsonItems (xs.map make) = true := by
  induction xs with
  | nil => rfl
  | cons x xs ih =>
    obtain ⟨hx, hxs⟩ := List.forall_mem_cons.mp h
    rw [List.map_cons, isJsonItems, hx, ih hxs]
    rfl

variable [PyFloat F] {v : PyVal F}

/-- The text of a value has no carriage return, so reading it in text mode changes nothing. -/
theorem jsonLoad_dumpsIndent (hwf : v.WF) (hjson : v.isJson = true) :
    jsonLoad (dumpsIndent false 0 v) = some v := by
  rw [jsonLoad, universalNewlines_eq_self (carriageReturn_not_mem false v),
    loads_dumpsIndent false hwf, plain_eq_self _ hjson]

/-- The file after the value was written. -/
theorem file_of_dumped (path random : String) (d : Files) :
    (atomicWriteJson path true 5 ⟨random, .ok (dumpsIndent false 0 v)⟩ d).2 path =
      some (dumpsIndent false 0 v) :=
  (atomicWriteJson_ok rfl 0).trans Folder.write_self

end Noema.Utils
