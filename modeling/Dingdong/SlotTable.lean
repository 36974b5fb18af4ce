import Mathlib.Data.List.FinRange
import Mathlib.Data.List.Nodup
import Mathlib.Logic.Function.Basic

/-!
Fixed tables of slots, as C code keeps them: a function from slot numbers, searched
from the lowest slot up and written one slot at a time. The live entries of a table
are a list, and writing a slot changes that list by one entry each way.
-/

namespace SlotTable

variable {size : Nat} {σ : Type*}

/-- The lowest slot that passes: `for (i = 0; i < size; i++) if (...) return i`. -/
def first (passes : Fin size → Bool) : Option (Fin size) := (List.finRange size).find? passes

theorem first_passes {passes : Fin size → Bool} {slot : Fin size}
    (found : first passes = some slot) : passes slot = true :=
  List.find?_some found

theorem first_none {passes : Fin size → Bool} :
    first passes = none ↔ ∀ slot, passes slot = false := by
  simp [first, List.find?_eq_none]

theorem first_isSome {passes : Fin size → Bool} {slot : Fin size} (here : passes slot = true) :
    ∃ found, first passes = some found := by
  cases found : first passes with
  | none => simp [first_none.mp found slot] at here
  | some slot => exact ⟨slot, rfl⟩

/-- When only one slot passes, that is the slot found. -/
theorem first_unique {passes : Fin size → Bool} {slot : Fin size} (here : passes slot = true)
    (only : ∀ other, passes other = true → other = slot) : first passes = some slot := by
  obtain ⟨found, same⟩ := first_isSome here
  rw [same, only found (first_passes same)]

section Contents

variable (live : σ → Bool)

/-- The live entries, in slot order. -/
def contents (table : Fin size → σ) : List σ := ((List.finRange size).map table).filter live

/-- One entry as the list of what is live of it. -/
def occupant (entry : σ) : List σ := if live entry then [entry] else []

variable {live}

theorem mem_contents {table : Fin size → σ} {entry : σ} :
    entry ∈ contents live table ↔ live entry = true ∧ ∃ slot, table slot = entry := by
  simp [contents, and_comm]

theorem slot_mem_contents {table : Fin size → σ} {slot : Fin size}
    (here : live (table slot) = true) : table slot ∈ contents live table :=
  mem_contents.mpr ⟨here, slot, rfl⟩

theorem contents_length_le (live : σ → Bool) (table : Fin size → σ) :
    (contents live table).length ≤ size := by
  have := List.length_filter_le live ((List.finRange size).map table)
  simpa [contents] using this

theorem contents_full {table : Fin size → σ}
    (full : first (fun slot => !live (table slot)) = none) :
    (contents live table).length = size := by
  have all : contents live table = (List.finRange size).map table := by
    refine List.filter_eq_self.mpr fun entry member => ?_
    obtain ⟨slot, _, rfl⟩ := List.mem_map.mp member
    simpa using first_none.mp full slot
  simp [all]

/-- Writing one slot exchanges its old entry for the new one. -/
theorem contents_update (live : σ → Bool) (table : Fin size → σ) (slot : Fin size) (entry : σ) :
    (occupant live (table slot) ++ contents live (Function.update table slot entry)).Perm
      (occupant live entry ++ contents live table) := by
  obtain ⟨before, after, split⟩ := List.append_of_mem (List.mem_finRange slot)
  have nodup := List.nodup_finRange size
  rw [split, List.nodup_append, List.nodup_cons] at nodup
  have same (slots : List (Fin size)) (absent : slot ∉ slots) :
      slots.map (Function.update table slot entry) = slots.map table := by
    refine List.map_congr_left fun other member => Function.update_of_ne ?_ _ _
    rintro rfl
    exact absent member
  have beforeSame := same before fun member => nodup.2.2 slot member slot (by simp) rfl
  have afterSame := same after nodup.2.1.1
  have single (value : σ) (rest : List σ) :
      (value :: rest).filter live = occupant live value ++ rest.filter live := by
    rw [List.filter_cons, occupant]
    split <;> rfl
  rw [contents, contents, split]
  simp only [List.map_append, List.map_cons, List.filter_append, Function.update_self, beforeSame,
    afterSame, single]
  set front := (before.map table).filter live
  set back := (after.map table).filter live
  set old := occupant live (table slot)
  set new := occupant live entry
  have out := List.perm_append_comm_assoc old front (new ++ back)
  have swap := (List.perm_append_comm_assoc old new back).append_left front
  exact (out.trans swap).trans (List.perm_append_comm_assoc front new (old ++ back))

theorem contents_fill {table : Fin size → σ} {slot : Fin size} {entry : σ}
    (free : live (table slot) = false) (used : live entry = true) :
    (contents live (Function.update table slot entry)).Perm (entry :: contents live table) := by
  simpa [occupant, free, used] using contents_update live table slot entry

theorem contents_clear {table : Fin size → σ} {slot : Fin size} {entry : σ}
    (used : live (table slot) = true) (free : live entry = false) :
    (contents live table).Perm
      (table slot :: contents live (Function.update table slot entry)) := by
  simpa [occupant, free, used] using (contents_update live table slot entry).symm

/-- Writing over a live slot removes one entry and adds one. -/
theorem contents_replace {table : Fin size → σ} {slot : Fin size} {entry : σ}
    (used : live (table slot) = true) (usedNew : live entry = true) :
    (table slot :: contents live (Function.update table slot entry)).Perm
      (entry :: contents live table) := by
  simpa [occupant, used, usedNew] using contents_update live table slot entry

end Contents

end SlotTable
