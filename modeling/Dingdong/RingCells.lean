import Mathlib.Data.List.DropRight
import Mathlib.Data.List.Rotate

/-!
A circular array of cells: copies that go on at the front when they reach the end.
Read from the position of the next write on, the cells are in the order they were
written, so a write pushes as many out at one end as it adds at the other.
-/

namespace RingCells

variable {α : Type*} (cells : List α)

/-- `memcpy` into the cells from an offset on. -/
def copyAt (offset : Nat) (source : List α) : List α :=
  cells.take offset ++ source ++ cells.drop (offset + source.length)

/-- A copy that goes on at the front. -/
def writeAround (head : Nat) (source : List α) : List α :=
  if source.length ≤ cells.length - head then copyAt cells head source
  else
    copyAt (copyAt cells head (source.take (cells.length - head))) 0
      (source.drop (cells.length - head))

/-- A read that goes on at the front. -/
def readAround (start count : Nat) : List α :=
  if count ≤ cells.length - start then (cells.drop start).take count
  else cells.drop start ++ cells.take (count - (cells.length - start))

variable {cells} {head : Nat} {source : List α}

theorem copyAt_length (fits : head + source.length ≤ cells.length) :
    (copyAt cells head source).length = cells.length := by
  simp only [copyAt, List.length_append, List.length_take, List.length_drop]
  omega

theorem writeAround_length (inside : head ≤ cells.length) (fits : source.length ≤ cells.length) :
    (writeAround cells head source).length = cells.length := by
  rw [writeAround]
  split_ifs
  · exact copyAt_length (by omega)
  · have first : (copyAt cells head (source.take (cells.length - head))).length = cells.length := by
      refine copyAt_length ?_
      rw [List.length_take]
      omega
    rw [copyAt_length, first]
    rw [first, List.length_drop]
    omega

/-- A write behind the cells before it: the oldest cells go, the new ones come last. -/
theorem writeAround_rotate (inside : head < cells.length) (fits : source.length < cells.length) :
    (writeAround cells head source).rotate ((head + source.length) % cells.length) =
      (cells.rotate head).drop source.length ++ source := by
  have split := List.take_append_drop head cells
  generalize isFront : cells.take head = front at split
  generalize isBack : cells.drop head = back at split
  have frontLength : front.length = head := by
    rw [← isFront, List.length_take, min_eq_left inside.le]
  subst split
  subst frontLength
  rw [List.length_append] at inside fits ⊢
  have order : (front ++ back).rotate front.length = back ++ front := by
    rw [List.rotate_append_length_eq]
  rw [order, writeAround, List.length_append, Nat.add_sub_cancel_left]
  by_cases short : source.length ≤ back.length
  · rw [if_pos short]
    have written : copyAt (front ++ back) front.length source =
        (front ++ source) ++ back.drop source.length := by
      rw [copyAt, List.take_left, List.drop_length_add_append]
    have dropped : (back ++ front).drop source.length = back.drop source.length ++ front :=
      List.drop_append_of_le_length short
    rw [written, dropped]
    rcases short.lt_or_eq with less | equal
    · rw [Nat.mod_eq_of_lt (by omega), ← List.length_append, List.rotate_append_length_eq,
        List.append_assoc]
    · have empty : back.drop source.length = [] := List.drop_eq_nil_of_le equal.ge
      rw [equal, Nat.mod_self, List.rotate_zero, ← equal, empty, List.append_nil, List.nil_append]
  · rw [if_neg short]
    rw [not_le] at short
    have wrapped : (front.length + source.length) % (front.length + back.length) =
        source.length - back.length := by
      rw [Nat.mod_eq_sub_mod (by omega), Nat.mod_eq_of_lt (by omega)]
      omega
    have first : copyAt (front ++ back) front.length (source.take back.length) =
        front ++ source.take back.length := by
      rw [copyAt, List.take_left, List.drop_length_add_append, List.length_take,
        min_eq_left short.le, List.drop_length, List.append_nil]
    have rest : (source.drop back.length).length = source.length - back.length := List.length_drop
    have second : copyAt (front ++ source.take back.length) 0 (source.drop back.length) =
        source.drop back.length ++
          (front.drop (source.length - back.length) ++ source.take back.length) := by
      rw [copyAt, List.take_zero, List.nil_append, Nat.zero_add, rest,
        List.drop_append_of_le_length (by omega)]
    rw [first, second, wrapped, ← rest, List.rotate_append_length_eq, rest, List.append_assoc,
      List.take_append_drop, List.drop_append, List.drop_eq_nil_of_le short.le, List.nil_append]

/-- A read that ends where the next write goes takes the newest cells. -/
theorem readAround_rotate (inside : head < cells.length) {count : Nat}
    (fits : count ≤ cells.length) :
    readAround cells ((head + cells.length - count) % cells.length) count =
      (cells.rotate head).drop (cells.length - count) := by
  rw [List.rotate_eq_drop_append_take inside.le, readAround]
  have backLength : (cells.drop head).length = cells.length - head := List.length_drop
  by_cases whole : count ≤ head
  · have start : (head + cells.length - count) % cells.length = head - count := by
      have split : head + cells.length - count = head - count + cells.length := by omega
      rw [split, Nat.add_mod_right, Nat.mod_eq_of_lt (by omega)]
    have rest : cells.length - count - (cells.length - head) = head - count := by omega
    have last : head - (head - count) = count := by omega
    have gone : (cells.drop head).drop (cells.length - count) = [] :=
      List.drop_eq_nil_of_le (by omega)
    rw [start, if_pos (by omega), List.drop_append, gone, List.nil_append, backLength, rest,
      List.drop_take, last]
  · have start : (head + cells.length - count) % cells.length = head + (cells.length - count) := by
      rw [Nat.mod_eq_of_lt (by omega)]
      omega
    rw [start, List.drop_append_of_le_length (by omega), List.drop_drop]
    split_ifs with front
    · have zero : head = 0 := by omega
      subst zero
      rw [List.take_zero, List.append_nil, List.take_of_length_le]
      rw [List.length_drop]
      omega
    · have wrapped : count - (cells.length - (head + (cells.length - count))) = head := by omega
      rw [wrapped]

theorem rtake_reverse (text : List α) (count : Nat) :
    text.rtake count = (text.reverse.take count).reverse := List.rtake_eq_reverse_take_reverse ..

/-- Texts with the same end have the same shorter ends. -/
theorem rtake_shorter {first second : List α} {count shorter : Nat}
    (same : first.rtake count = second.rtake count) (less : shorter ≤ count) :
    first.rtake shorter = second.rtake shorter := by
  rw [rtake_reverse, rtake_reverse, List.reverse_inj] at same ⊢
  rw [← min_eq_left less, ← List.take_take, same, List.take_take]

theorem rtake_drop {text : List α} {count dropped : Nat} (room : count + dropped ≤ text.length) :
    (text.drop dropped).rtake count = text.rtake count := by
  rw [List.rtake, List.rtake, List.drop_drop, List.length_drop]
  congr 1
  omega

/-- What is added behind texts with the same end. -/
theorem rtake_append {first second : List α} {count : Nat}
    (same : first.rtake count = second.rtake count) (added : List α) {longer : Nat}
    (room : longer ≤ count + added.length) :
    (first ++ added).rtake longer = (second ++ added).rtake longer := by
  have before := rtake_shorter same (Nat.sub_le_iff_le_add.mpr room)
  rw [rtake_reverse, rtake_reverse, List.reverse_inj] at before ⊢
  rw [List.reverse_append, List.reverse_append, List.take_append, List.take_append,
    List.length_reverse, before]

end RingCells
