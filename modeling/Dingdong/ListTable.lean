import Mathlib.Data.List.Perm.Basic

/-!
Tables kept as lists: a search splits the list at the entry found, and writing or
removing that entry is said by the split.
-/

namespace ListTable

variable {σ : Type*}

/-- The entry a search finds, with what stands before and after it. -/
theorem findIdx?_split {passes : σ → Bool} {list : List σ} {index : Nat}
    (found : list.findIdx? passes = some index) :
    ∃ front entry back, list = front ++ entry :: back ∧ front.length = index ∧
      passes entry = true := by
  induction list generalizing index with
  | nil => simp at found
  | cons head rest ih =>
      rw [List.findIdx?_cons] at found
      split at found
      · rename_i here
        obtain rfl : 0 = index := by simpa using found
        exact ⟨[], head, rest, rfl, rfl, here⟩
      · obtain ⟨next, foundNext, rfl⟩ := Option.map_eq_some_iff.mp found
        obtain ⟨front, entry, back, rfl, rfl, here⟩ := ih foundNext
        exact ⟨head :: front, entry, back, rfl, by simp, here⟩

theorem find?_split {passes : σ → Bool} {list : List σ} {entry : σ}
    (found : list.find? passes = some entry) :
    ∃ front back, list = front ++ entry :: back ∧ front.length = list.findIdx passes ∧
      passes entry = true := by
  obtain ⟨here, front, back, rfl, before⟩ := List.find?_eq_some_iff_append.mp found
  refine ⟨front, back, rfl, ?_, here⟩
  clear found
  induction front with
  | nil => simp [List.findIdx_cons, here]
  | cons head front ih =>
      have absent : passes head = false := by simpa using before head (by simp)
      have later := ih fun other member => before other (List.mem_cons_of_mem _ member)
      rw [List.cons_append, List.findIdx_cons, absent, List.length_cons, later]
      rfl

theorem modify_split (front : List σ) (entry : σ) (back : List σ) (change : σ → σ) :
    (front ++ entry :: back).modify front.length change = front ++ change entry :: back := by
  induction front with
  | nil => rfl
  | cons head front ih => simp [ih]

theorem set_split (front : List σ) (entry : σ) (back : List σ) (value : σ) :
    (front ++ entry :: back).set front.length value = front ++ value :: back := by
  induction front with
  | nil => rfl
  | cons head front ih => simp [ih]

section Keys

variable {κ : Type*} {key : σ → κ} {list front back rest : List σ} {old new entry : σ}

theorem map_overwrite (split : list = front ++ old :: back) (same : key new = key old) :
    (front ++ new :: back).map key = list.map key := by
  rw [split, List.map_append, List.map_append, List.map_cons, List.map_cons, same]

/-- Writing an entry over by one of its key leaves the entries of the other keys. -/
theorem mem_overwrite (nodup : (list.map key).Nodup) (split : list = front ++ old :: back)
    (same : key new = key old) (member : entry ∈ front ++ new :: back) :
    entry = new ∨ entry ∈ list ∧ key entry ≠ key new := by
  subst split
  rw [List.map_append, List.map_cons, List.perm_middle.nodup_iff, List.nodup_cons,
    ← List.map_append] at nodup
  have other (kept : entry ∈ front ++ back) : key entry ≠ key new := by
    intro eq
    rw [← same, ← eq] at nodup
    exact nodup.1 (List.mem_map_of_mem kept)
  rcases List.mem_append.mp member with before | rest
  · exact .inr ⟨by simp [before], other (List.mem_append_left _ before)⟩
  · rcases List.mem_cons.mp rest with here | after
    · exact .inl here
    · exact .inr ⟨by simp [after], other (List.mem_append_right _ after)⟩

theorem nodup_add (nodup : (list.map key).Nodup) (absent : key new ∉ list.map key) :
    ((list ++ [new]).map key).Nodup := by
  rw [List.map_append, List.nodup_append]
  refine ⟨nodup, by simp, ?_⟩
  rintro name known other added rfl
  rw [List.map_singleton, List.mem_singleton] at added
  exact absent (added ▸ known)

theorem mem_add (absent : key new ∉ list.map key) (member : entry ∈ list ++ [new]) :
    entry = new ∨ entry ∈ list ∧ key entry ≠ key new := by
  rcases List.mem_append.mp member with known | added
  · exact .inr ⟨known, fun same => absent (same ▸ List.mem_map_of_mem known)⟩
  · exact .inl (List.mem_singleton.mp added)

theorem map_remove (split : list = front ++ old :: back) (perm : rest.Perm (front ++ back)) :
    (list.map key).Perm (key old :: rest.map key) := by
  rw [split, List.map_append, List.map_cons]
  refine List.perm_middle.trans (List.Perm.cons _ ?_)
  rw [← List.map_append]
  exact (perm.map _).symm

theorem mem_remove (nodup : (list.map key).Nodup) (split : list = front ++ old :: back)
    (perm : rest.Perm (front ++ back)) (member : entry ∈ rest) :
    entry ∈ list ∧ key entry ≠ key old := by
  rw [(map_remove split perm).nodup_iff, List.nodup_cons] at nodup
  refine ⟨?_, fun same => nodup.1 (same ▸ List.mem_map_of_mem member)⟩
  rw [split]
  rcases List.mem_append.mp (perm.mem_iff.mp member) with before | after <;> simp [*]

end Keys

section Keyed

variable {κ : Type*} [DecidableEq κ] {key : σ → κ} {name : κ} {list : List σ}

theorem keys_absent (absent : list.findIdx? (fun entry => key entry = name) = none) :
    name ∉ list.map key := by
  intro present
  obtain ⟨entry, member, same⟩ := List.mem_map.mp present
  exact of_decide_eq_false (List.findIdx?_eq_none_iff.mp absent entry member) same

/-- Without an entry of the key nothing is changed. -/
theorem map_absent (absent : list.findIdx? (fun entry => key entry = name) = none) (change : σ → σ) :
    (list.map fun entry => if key entry = name then change entry else entry) = list := by
  refine (List.map_congr_left fun entry member => if_neg ?_).trans (List.map_id list)
  rintro rfl
  exact keys_absent absent (List.mem_map_of_mem member)

/-- With one entry for each key, changing the first of the key changes all of them. -/
theorem map_found (nodup : (list.map key).Nodup) {index : Nat}
    (found : list.findIdx? (fun entry => key entry = name) = some index) (change : σ → σ) :
    (list.map fun entry => if key entry = name then change entry else entry) =
      list.modify index change := by
  obtain ⟨front, entry, back, rfl, rfl, here⟩ := findIdx?_split found
  have own : key entry = name := of_decide_eq_true here
  rw [List.map_append, List.map_cons, List.nodup_append, List.nodup_cons] at nodup
  have frontApart : ∀ other ∈ front, key other ≠ name := by
    rintro other member rfl
    exact nodup.2.2 _ (List.mem_map_of_mem member) _ List.mem_cons_self own.symm
  have backApart : ∀ other ∈ back, key other ≠ name := by
    rintro other member rfl
    exact nodup.2.1.1 (own ▸ List.mem_map_of_mem member)
  have same (part : List σ) (apart : ∀ other ∈ part, key other ≠ name) :
      (part.map fun entry => if key entry = name then change entry else entry) = part :=
    (List.map_congr_left fun other member => if_neg (apart other member)).trans (List.map_id part)
  rw [modify_split, List.map_append, List.map_cons, same front frontApart, same back backApart,
    if_pos own]

end Keyed

/-- The last entry moved into the place of the one removed. -/
def swapRemove (list : List σ) (index : Nat) : List σ :=
  match list.getLast? with
  | none => []
  | some last => (list.set index last).dropLast

/-- That removes the entry and keeps the others, up to their order. -/
theorem swapRemove_split (front : List σ) (entry : σ) (back : List σ) :
    (swapRemove (front ++ entry :: back) front.length).Perm (front ++ back) := by
  rcases List.eq_nil_or_concat back with rfl | ⟨rest, last, rfl⟩
  · simp [swapRemove]
  · have ends : (front ++ entry :: (rest ++ [last])).getLast? = some last := by
      rw [← List.cons_append, ← List.append_assoc, List.getLast?_concat]
    have moved : (front ++ last :: (rest ++ [last])).dropLast = front ++ last :: rest := by
      rw [← List.cons_append, ← List.append_assoc, List.dropLast_concat]
    rw [swapRemove, List.concat_eq_append, ends]
    simp only [set_split, moved]
    exact (List.perm_append_singleton last rest).symm.append_left front

end ListTable
