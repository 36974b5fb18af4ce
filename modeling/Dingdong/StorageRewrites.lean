import Dingdong.StorageDelete
import Dingdong.StorageRotation
import Mathlib.Algebra.Order.BigOperators.Group.List

/-!
The four operations of `dd_storage.c` that rewrite the log, whatever filesystem step
fails in them. Each is all or nothing as far as it looks at its results; a read error
looks like the end of the file, and what the recount and `unlink` return is not looked at.
-/

namespace LeanDingdong

open TextLines Substrings

section Delete

variable {faults : RewriteFaults} {store : Store} {file : Bytes} {hit : Bytes → Bool}

/-- A search that finds nothing in an empty buffer, and finds what it found before when
text is added behind. -/
structure Grows (hit : Bytes → Bool) : Prop where
  empty : hit [] = false
  longer : ∀ front text, front <+: text → hit front = true → hit text = true

theorem matchedBy_longer {needle stops front text : Bytes} (nonempty : needle ≠ [])
    (noNul : 0 ∉ stops) (prefixed : front <+: text) (matched : matchedBy needle stops front = true) :
    matchedBy needle stops text = true := by
  obtain ⟨rest, rfl⟩ := prefixed
  rw [matchedBy, afterMatch] at matched ⊢
  cases here : strstr needle front with
  | none =>
      rw [here] at matched
      cases matched
  | some found =>
      obtain ⟨same, inside⟩ := strstr_append nonempty here rest
      rw [here] at matched
      rw [same]
      simp only [Option.map_some, Option.any_some, List.contains_iff_mem] at matched ⊢
      obtain ⟨after, rfl⟩ := inside
      rw [List.drop_left] at matched
      rw [List.append_assoc, List.drop_left]
      cases after with
      | nil => exact absurd matched noNul
      | cons byte after => exact matched

theorem workerHit_grows (workerId : Nat) : Grows (workerHit workerId) where
  empty := workerHit_short (by decide)
  longer _ _ prefixed := matchedBy_longer (by simp [ascii]) (by decide) prefixed

theorem oneHit_grows (ts monoUs : Int) : Grows (oneHit ts monoUs) where
  empty := oneHit_short (by decide)
  longer _ _ prefixed := by
    rw [oneHit, oneHit, Bool.and_eq_true, Bool.and_eq_true]
    exact And.imp (matchedBy_longer (by simp [ascii]) (by decide) prefixed)
      (matchedBy_longer (by simp [ascii]) (by decide) prefixed)

/-- The strings the deletes read lines into. -/
def deleteBuffers (file : Bytes) : List Bytes :=
  (chunks newline (lineBufMax - 1) file).map cstr

/-- The line buffers of the log, each with where it begins. -/
def lineBuffers (file : Bytes) : List (Nat × Bytes) :=
  placed 0 (chunks newline (lineBufMax - 1) file)

/-- What the reads yield of a line buffer. -/
def readPart (stops : Option Nat) (piece : Nat × Bytes) : Bytes :=
  readable (stops.map (· - piece.1)) piece.2

theorem readPart_front (stops : Option Nat) (piece : Nat × Bytes) :
    readPart stops piece <+: piece.2 := by
  cases stops with
  | none => exact List.prefix_refl _
  | some stop => exact List.take_prefix _ _

theorem mem_lineBuffers {piece : Nat × Bytes} (member : piece ∈ lineBuffers file) :
    piece.2 ∈ chunks newline (lineBufMax - 1) file := by
  rw [← placed_snd 0 (chunks _ _ file)]
  exact List.mem_map_of_mem member

theorem chunks_readable (stops : Option Nat) (file : Bytes) :
    chunks newline (lineBufMax - 1) (readable stops file) =
      ((lineBuffers file).map (readPart stops)).filter fun read => !read.isEmpty := by
  cases stops with
  | none =>
      have whole : (lineBuffers file).map (readPart none) = chunks newline (lineBufMax - 1) file :=
        placed_snd 0 _
      rw [whole, readable, List.filter_eq_self.mpr]
      intro buffer member
      have nonempty := chunks_ne_nil newline (by decide) buffer member
      simpa using nonempty
  | some stop => exact chunks_take_placed newline (by decide) file stop

def keptBuffers (hit : Bytes → Bool) (file : Bytes) : List Bytes :=
  (deleteBuffers file).filter fun buffer => !hit buffer

/-- Every string read before an error is the start of one of the whole log. -/
theorem deleteBuffers_readable (stops : Option Nat) (file : Bytes) :
    ∀ buffer ∈ deleteBuffers (readable stops file), ∃ whole ∈ deleteBuffers file, buffer <+: whole := by
  intro buffer member
  cases stops with
  | none => exact ⟨buffer, member, List.prefix_refl _⟩
  | some stop =>
      obtain ⟨raw, inside, rfl⟩ := List.mem_map.mp member
      have room : 0 < lineBufMax - 1 := by decide
      obtain ⟨before, rest, split, ends⟩ := chunks_take newline room file stop
      have early (present : raw ∈ before) : ∃ whole ∈ deleteBuffers file, cstr raw <+: whole := by
        refine ⟨cstr raw, List.mem_map_of_mem ?_, List.prefix_refl _⟩
        rw [split]
        exact List.mem_append_left _ present
      rw [readable] at inside
      rcases ends with same | ⟨piece, whole, more, rfl, prefixed, same⟩
      · exact early (same ▸ inside)
      · rw [same] at inside
        rcases List.mem_append.mp inside with present | last
        · exact early present
        · rw [List.mem_singleton.mp last]
          refine ⟨cstr whole, List.mem_map_of_mem ?_, cstr_front prefixed⟩
          rw [split]
          simp

/-- Something is dropped from the whole log if it is from what was read of it. -/
theorem Grows.drops (grows : Grows hit) {stops : Option Nat}
    (drops : ∃ buffer ∈ deleteBuffers (readable stops file), hit buffer = true) :
    ∃ buffer ∈ deleteBuffers file, hit buffer = true := by
  obtain ⟨buffer, member, found⟩ := drops
  obtain ⟨whole, inside, prefixed⟩ := deleteBuffers_readable stops file buffer member
  exact ⟨whole, inside, grows.longer _ _ prefixed found⟩

theorem cstr_length_le (buffer : Bytes) : (cstr buffer).length ≤ buffer.length :=
  (List.takeWhile_prefix _).length_le

theorem deleteBuffers_length_le (file : Bytes) : (deleteBuffers file).flatten.length ≤ file.length := by
  have room : 0 < lineBufMax - 1 := by decide
  have whole := chunks_flatten newline room file
  have shrink (buffers : List Bytes) : (buffers.map cstr).flatten.length ≤ buffers.flatten.length := by
    induction buffers with
    | nil => exact le_rfl
    | cons buffer buffers ih =>
        have := cstr_length_le buffer
        simp only [List.map_cons, List.flatten_cons, List.length_append]
        omega
  have := shrink (chunks newline (lineBufMax - 1) file)
  rw [whole] at this
  exact this

theorem Grows.kept_shorter (grows : Grows hit) {buffers : List Bytes}
    (drops : ∃ buffer ∈ buffers, hit buffer = true) :
    (buffers.filter fun buffer => !hit buffer).flatten.length < buffers.flatten.length := by
  induction buffers with
  | nil =>
      obtain ⟨_, member, _⟩ := drops
      cases member
  | cons buffer buffers ih =>
      have kept : (buffers.filter fun buffer => !hit buffer).flatten.length ≤
          buffers.flatten.length := by
        have sublist := (List.filter_sublist (p := fun buffer => !hit buffer) (l := buffers)).flatten
        exact sublist.length_le
      by_cases found : hit buffer = true
      · have nonempty : buffer ≠ [] := by
          rintro rfl
          rw [grows.empty] at found
          cases found
        have := List.length_pos_of_ne_nil nonempty
        simp only [List.filter_cons, found, Bool.not_true, Bool.false_eq_true, if_false,
          List.flatten_cons, List.length_append]
        omega
      · have later : ∃ other ∈ buffers, hit other = true := by
          obtain ⟨other, member, isHit⟩ := drops
          rcases List.mem_cons.mp member with rfl | inside
          · exact absurd isHit found
          · exact ⟨other, inside, isHit⟩
        have := ih later
        rw [Bool.not_eq_true] at found
        simp only [List.filter_cons, found, Bool.not_false, if_true, List.flatten_cons,
          List.length_append]
        omega

theorem flatten_count_iff {buffers : List Bytes} (single : ∀ buffer ∈ buffers, buffer.count newline ≤ 1) :
    buffers.flatten.count newline ≤ buffers.length ∧
      (buffers.length = buffers.flatten.count newline ↔ ∀ buffer ∈ buffers, newline ∈ buffer) := by
  induction buffers with
  | nil => simp
  | cons buffer buffers ih =>
      rw [List.forall_mem_cons] at single
      obtain ⟨atMost, rest⟩ := ih single.2
      have here := single.1
      rw [List.forall_mem_cons, ← List.count_pos_iff, List.flatten_cons, List.count_append,
        List.length_cons]
      refine ⟨by omega, ?_⟩
      constructor
      · exact fun same => ⟨by omega, rest.mp (by omega)⟩
      · rintro ⟨found, later⟩
        have := rest.mpr later
        omega

/-- The strings kept have as many newlines as there are of them when each has one. -/
theorem kept_count_iff (hit : Bytes → Bool) (file : Bytes) :
    (keptBuffers hit file).length = (keptBuffers hit file).flatten.count newline ↔
      ∀ buffer ∈ keptBuffers hit file, newline ∈ buffer := by
  refine (flatten_count_iff fun buffer member => ?_).2
  obtain ⟨raw, inside, rfl⟩ := List.mem_map.mp (List.mem_of_mem_filter member)
  have shorter : (cstr raw).Sublist raw := (List.takeWhile_prefix _).sublist
  exact (shorter.count_le newline).trans (chunks_count_le_one newline (by decide) raw inside)

/-- Every line buffer of the text matches. -/
def AllHit (hit : Bytes → Bool) (text : Bytes) : Prop :=
  ∀ buffer ∈ deleteBuffers text, hit buffer = true

/-- A delete that finds something and writes what is left. -/
structure DeleteCommits (hit : Bytes → Bool) (faults : RewriteFaults) (file : Bytes) : Prop where
  opened : faults.openIn = false
  copies : faults.Copies (keptBuffers hit (readable faults.readStops file))
  drops : ∃ buffer ∈ deleteBuffers (readable faults.readStops file), hit buffer = true

/-- A line buffer comes through a copy: what is read of it matches, or holds its newline,
or none of it is read and it matches or is blank. -/
def Spared (hit : Bytes → Bool) (stops : Option Nat) (piece : Nat × Bytes) : Prop :=
  hit (cstr (readPart stops piece)) = true ∨ newline ∈ cstr (readPart stops piece) ∨
    readPart stops piece = [] ∧ (hit (cstr piece.2) = true ∨ cstr piece.2 = [])

/-- The log is removed only where all of it matches, and can be; a copy that replaces it
has every buffer come through. -/
structure DeleteClean (hit : Bytes → Bool) (faults : RewriteFaults) (file : Bytes) : Prop where
  removed : DeleteCommits hit faults file → AllHit hit (readable faults.readStops file) →
    faults.unlink = false → AllHit hit file
  stuck : DeleteCommits hit faults file → AllHit hit (readable faults.readStops file) →
    faults.unlink = true → newline ∉ file
  kept : DeleteCommits hit faults file → ¬ AllHit hit (readable faults.readStops file) →
    faults.rename = false → ∀ piece ∈ lineBuffers file, Spared hit faults.readStops piece

/-- A delete that removes or replaces the log sets the count. -/
def DeleteCounts (hit : Bytes → Bool) (faults : RewriteFaults) (file : Bytes) : Prop :=
  DeleteCommits hit faults file ∧
    (AllHit hit (readable faults.readStops file) ∨ faults.rename = false)

section Spared

/-- What a copy keeps of a line buffer. -/
def keptText (hit : Bytes → Bool) (raw : Bytes) : Bytes :=
  if hit (cstr raw) then [] else cstr raw

theorem keptBuffers_flatten (raws : List Bytes) :
    ((raws.map cstr).filter fun buffer => !hit buffer).flatten = raws.flatMap (keptText hit) := by
  induction raws with
  | nil => rfl
  | cons raw raws ih =>
      rw [List.map_cons, List.filter_cons, List.flatMap_cons, ← ih, keptText]
      cases hit (cstr raw) <;> simp

theorem keptBuffers_read_flatten (stops : Option Nat) (file : Bytes) :
    (keptBuffers hit (readable stops file)).flatten =
      (lineBuffers file).flatMap fun piece => keptText hit (readPart stops piece) := by
  have blank (raws : List Bytes) :
      (raws.filter fun read => !read.isEmpty).flatMap (keptText hit) = raws.flatMap (keptText hit) := by
    induction raws with
    | nil => rfl
    | cons raw raws ih =>
        cases raw with
        | nil => simpa [keptText, cstr] using ih
        | cons byte raw => simp [ih]
  rw [keptBuffers, deleteBuffers, chunks_readable, keptBuffers_flatten, blank, List.flatMap_map]

theorem keptBuffers_whole_flatten (file : Bytes) :
    (keptBuffers hit file).flatten = (lineBuffers file).flatMap fun piece => keptText hit piece.2 := by
  rw [keptBuffers, deleteBuffers, keptBuffers_flatten, ← placed_snd 0 (chunks _ _ file),
    List.flatMap_map]
  rfl

theorem mem_keptBuffers_read {stops : Option Nat} {buffer : Bytes} :
    buffer ∈ keptBuffers hit (readable stops file) ↔ ∃ piece ∈ lineBuffers file,
      readPart stops piece ≠ [] ∧ hit (cstr (readPart stops piece)) = false ∧
        buffer = cstr (readPart stops piece) := by
  rw [keptBuffers, deleteBuffers, chunks_readable]
  simp only [List.mem_filter, List.mem_map, Bool.not_eq_true', List.isEmpty_eq_false_iff]
  constructor
  · rintro ⟨⟨_, ⟨⟨piece, member, rfl⟩, nonempty⟩, rfl⟩, missed⟩
    exact ⟨piece, member, nonempty, missed, rfl⟩
  · rintro ⟨piece, member, nonempty, missed, rfl⟩
    exact ⟨⟨_, ⟨⟨piece, member, rfl⟩, nonempty⟩, rfl⟩, missed⟩

/-- A buffer is read to its newline or not at all as far as the newline goes. -/
theorem readPart_newline {stops : Option Nat} {piece : Nat × Bytes} (member : piece ∈ lineBuffers file)
    (found : newline ∈ readPart stops piece) : readPart stops piece = piece.2 := by
  have free := chunks_free newline (by decide) piece.2 (mem_lineBuffers member)
  obtain ⟨rest, split⟩ := readPart_front stops piece
  by_cases none : rest = []
  · rw [none, List.append_nil] at split
    exact split
  · rw [← split, List.dropLast_append_of_ne_nil none] at free
    exact absurd (List.mem_append_left _ found) free

theorem keptText_read (grows : Grows hit) {stops : Option Nat} {piece : Nat × Bytes}
    (member : piece ∈ lineBuffers file)
    (read : hit (cstr (readPart stops piece)) = true ∨ newline ∈ cstr (readPart stops piece)) :
    keptText hit (readPart stops piece) = keptText hit piece.2 := by
  rcases read with matched | found
  · have whole := grows.longer _ _ (cstr_front (readPart_front stops piece)) matched
    rw [keptText, keptText, if_pos matched, if_pos whole]
  · rw [readPart_newline member ((List.takeWhile_prefix _).subset found)]

/-- Texts put together from parts no longer than those of the same text have parts as
long. -/
theorem parts_length_eq {β : Type} {parts : List β} {short long : β → Bytes}
    (le : ∀ part ∈ parts, (short part).length ≤ (long part).length)
    (same : parts.flatMap short = parts.flatMap long) :
    ∀ part ∈ parts, (short part).length = (long part).length := by
  have total := congrArg List.length same
  rw [List.length_flatMap, List.length_flatMap] at total
  intro part member
  by_contra differs
  have less := List.sum_lt_sum (fun part => (short part).length) (fun part => (long part).length) le
    ⟨part, member, lt_of_le_of_ne (le part member) differs⟩
  exact absurd total (Nat.ne_of_lt less)

/-- A copy writes all that is kept of the log, line by line, when every buffer comes
through. -/
theorem spared_iff (grows : Grows hit) (stops : Option Nat) (file : Bytes) :
    ((keptBuffers hit (readable stops file)).flatten = (keptBuffers hit file).flatten ∧
        ∀ buffer ∈ keptBuffers hit (readable stops file), newline ∈ buffer) ↔
      ∀ piece ∈ lineBuffers file, Spared hit stops piece := by
  rw [keptBuffers_read_flatten, keptBuffers_whole_flatten]
  constructor
  · rintro ⟨same, lines⟩
    have read (piece) (member : piece ∈ lineBuffers file) (some : readPart stops piece ≠ []) :
        hit (cstr (readPart stops piece)) = true ∨ newline ∈ cstr (readPart stops piece) := by
      cases matched : hit (cstr (readPart stops piece)) with
      | true => exact .inl rfl
      | false =>
          exact .inr (lines _ (mem_keptBuffers_read.mpr ⟨piece, member, some, matched, rfl⟩))
    have nothing : keptText hit [] = [] := by simp [keptText, cstr]
    have lengths := parts_length_eq (fun piece member => by
      by_cases unread : readPart stops piece = []
      · rw [unread, nothing]
        exact Nat.zero_le _
      · rw [keptText_read grows member (read piece member unread)]) same
    intro piece member
    by_cases unread : readPart stops piece = []
    · have length := lengths piece member
      rw [unread, nothing, List.length_nil, eq_comm, List.length_eq_zero_iff, keptText] at length
      refine .inr (.inr ⟨unread, ?_⟩)
      cases matched : hit (cstr piece.2) with
      | true => exact .inl rfl
      | false =>
          rw [matched] at length
          exact .inr length
    · exact (read piece member unread).imp_right .inl
  · intro spared
    constructor
    · refine List.flatMap_congr fun piece member => ?_
      rcases spared piece member with matched | found | ⟨unread, dropped⟩
      · exact keptText_read grows member (.inl matched)
      · exact keptText_read grows member (.inr found)
      · have nothing : keptText hit piece.2 = [] := by
          rw [keptText]
          rcases dropped with matched | blank
          · rw [if_pos matched]
          · rw [blank, ite_self]
        rw [unread, nothing]
        simp [keptText, cstr]
    · intro buffer kept
      obtain ⟨piece, member, some, missed, rfl⟩ := mem_keptBuffers_read.mp kept
      rcases spared piece member with matched | found | ⟨unread, _⟩
      · rw [missed] at matched
        cases matched
      · exact found
      · exact absurd unread some

end Spared

section Clean

variable (commits : DeleteCommits hit faults file)
include commits

theorem deleteClean_all_iff (all : AllHit hit (readable faults.readStops file)) :
    DeleteClean hit faults file ↔
      (faults.unlink = false → AllHit hit file) ∧ (faults.unlink = true → newline ∉ file) :=
  ⟨fun clean => ⟨clean.removed commits all, clean.stuck commits all⟩,
    fun clean => ⟨fun _ _ => clean.1, fun _ _ => clean.2, fun _ kept => absurd all kept⟩⟩

theorem deleteClean_kept_iff (kept : ¬ AllHit hit (readable faults.readStops file)) :
    DeleteClean hit faults file ↔
      (faults.rename = false → ∀ piece ∈ lineBuffers file, Spared hit faults.readStops piece) :=
  ⟨fun clean => clean.kept commits kept,
    fun clean => ⟨fun _ all => absurd all kept, fun _ all => absurd all kept, fun _ _ => clean⟩⟩

end Clean

theorem dropped_iff (buffers : List Bytes) :
    (buffers.filter hit).length = 0 ↔ ¬ ∃ buffer ∈ buffers, hit buffer = true := by
  simp [List.filter_eq_nil_iff]

theorem deleteMatching_cases (hit : Bytes → Bool) (faults : RewriteFaults)
    (present : store.events = some file) :
    DeleteCommits hit faults file ∧ deleteMatching faults hit store =
        (if keptBuffers hit (readable faults.readStops file) = [] then
          (.ok, { events := if faults.unlink then store.events else none, eventCount := 0 })
        else if faults.rename then (.fail, store)
        else (.ok, { events := some (keptBuffers hit (readable faults.readStops file)).flatten
                     eventCount := (keptBuffers hit (readable faults.readStops file)).length })) ∨
      ¬ DeleteCommits hit faults file ∧ ∃ err, deleteMatching faults hit store = (err, store) := by
  simp only [deleteMatching, present]
  by_cases unopened : faults.openIn = true
  · refine .inr ⟨fun commits => ?_, .ok, by rw [if_pos unopened]⟩
    rw [commits.opened] at unopened
    cases unopened
  rw [if_neg unopened]
  rw [Bool.not_eq_true] at unopened
  by_cases copies : faults.Copies (keptBuffers hit (readable faults.readStops file))
  swap
  · exact .inr ⟨fun commits => copies commits.copies, .fail,
      RewriteFaults.copy_fails copies (EspErr.fail, store) _⟩
  have proceeds := copies.proceeds (EspErr.fail, store) fun written =>
    if ((deleteBuffers (readable faults.readStops file)).filter hit).length = 0 then (.ok, store)
    else if (keptBuffers hit (readable faults.readStops file)).length = 0 then
      (.ok, { events := if faults.unlink then some file else none, eventCount := 0 })
    else if faults.rename then (.fail, store)
    else (.ok, { events := some written
                 eventCount := (keptBuffers hit (readable faults.readStops file)).length })
  by_cases drops : ∃ buffer ∈ deleteBuffers (readable faults.readStops file), hit buffer = true
  · refine .inl ⟨⟨unopened, copies, drops⟩, proceeds.trans ?_⟩
    rw [if_neg (mt (dropped_iff _).mp (not_not.mpr drops))]
    simp only [List.length_eq_zero_iff]
  · exact .inr ⟨fun commits => drops commits.drops, .ok,
      proceeds.trans (if_pos ((dropped_iff _).mpr drops))⟩

/-- What a delete leaves when nothing fails. -/
theorem deleteMatching_none_events (present : store.events = some file)
    (drops : ∃ buffer ∈ deleteBuffers file, hit buffer = true) :
    (deleteMatching .none hit store).2.events =
      if keptBuffers hit file = [] then none else some (keptBuffers hit file).flatten := by
  have commits : DeleteCommits hit .none file := ⟨rfl, ⟨rfl, by simp [RewriteFaults.none], rfl⟩, drops⟩
  rcases deleteMatching_cases hit .none present with ⟨_, result⟩ | ⟨stays, _⟩
  · have whole : readable RewriteFaults.none.readStops file = file := rfl
    rw [whole] at result
    rw [result]
    split <;> rfl
  · exact absurd commits stays

theorem keptBuffers_eq_nil_iff : keptBuffers hit file = [] ↔ AllHit hit file := by
  simp [keptBuffers, AllHit, List.filter_eq_nil_iff]

/-- A delete that keeps nothing of what it read removes the log. -/
theorem deleteMatching_removes (present : store.events = some file)
    (commits : DeleteCommits hit faults file) (grows : Grows hit)
    (empty : keptBuffers hit (readable faults.readStops file) = [])
    (result : deleteMatching faults hit store =
      (.ok, { events := if faults.unlink then store.events else none, eventCount := 0 })) :
    AllOrNothing store (deleteMatching .none hit store).2.events (deleteMatching faults hit store) ↔
      DeleteClean hit faults file := by
  rw [result, deleteClean_all_iff commits (keptBuffers_eq_nil_iff.mp empty)]
  by_cases stuck : faults.unlink = true
  · have noNewline : 0 = store.file.count newline ↔ newline ∉ file := by
      rw [Store.file, present, Option.getD_some, eq_comm, List.count_eq_zero]
    simp only [stuck, if_true, Bool.true_eq_false, false_implies, true_and, forall_true_left]
    exact ⟨fun result => noNewline.mp result.counted,
      fun none => ⟨.inl rfl, fun _ => rfl, noNewline.mpr none⟩⟩
  · have differs : (none : Option Bytes) ≠ store.events := by simp [present]
    have allHit : (none : Option Bytes) =
        (if keptBuffers hit file = [] then none else some (keptBuffers hit file).flatten) ↔
          AllHit hit file := by
      rw [← keptBuffers_eq_nil_iff]
      split <;> simp_all
    rw [if_neg stuck, allOrNothing_replaced differs,
      deleteMatching_none_events present (grows.drops commits.drops), allHit]
    rw [Bool.not_eq_true] at stuck
    simp only [stuck, forall_true_left, Bool.false_eq_true, false_implies, and_true]
    exact and_iff_left rfl

/-- A delete that keeps something replaces the log by it. -/
theorem deleteMatching_replaces (present : store.events = some file)
    (commits : DeleteCommits hit faults file) (grows : Grows hit)
    (kept : keptBuffers hit (readable faults.readStops file) ≠ []) (renamed : faults.rename = false)
    (result : deleteMatching faults hit store =
      (.ok, { events := some (keptBuffers hit (readable faults.readStops file)).flatten
              eventCount := (keptBuffers hit (readable faults.readStops file)).length })) :
    AllOrNothing store (deleteMatching .none hit store).2.events (deleteMatching faults hit store) ↔
      DeleteClean hit faults file := by
  have differs : some (keptBuffers hit (readable faults.readStops file)).flatten ≠ store.events := by
    rw [present]
    intro same
    have length := congrArg List.length (Option.some.inj same)
    have shorter := grows.kept_shorter commits.drops
    have buffers := deleteBuffers_length_le (readable faults.readStops file)
    have read := readable_length_le faults.readStops file
    rw [keptBuffers] at length
    omega
  rw [result, deleteClean_kept_iff commits (keptBuffers_eq_nil_iff.not.mp kept),
    forall_prop_of_true renamed,
    allOrNothing_replaced differs, deleteMatching_none_events present (grows.drops commits.drops),
    Option.getD_some, kept_count_iff, ← spared_iff grows]
  refine and_congr_left fun lines => ?_
  -- what is kept is not empty, so a log that keeps the same keeps something
  have written : (keptBuffers hit (readable faults.readStops file)).flatten ≠ [] := by
    obtain ⟨buffer, more, split⟩ := List.exists_cons_of_ne_nil kept
    have inside : buffer ∈ keptBuffers hit (readable faults.readStops file) := by simp [split]
    have terminated : newline ∈ (keptBuffers hit (readable faults.readStops file)).flatten :=
      List.mem_flatten.mpr ⟨buffer, inside, lines buffer inside⟩
    exact List.ne_nil_of_mem terminated
  split
  · rename_i none
    rw [none]
    exact iff_of_false (by simp) written
  · rw [Option.some.injEq]

/-- A delete is all or nothing, and the count is right, when it is clean; where it changes
nothing the count stays what it was. -/
theorem deleteMatching_allOrNothing (grows : Grows hit) :
    AllOrNothing store (deleteMatching .none hit store).2.events (deleteMatching faults hit store) ↔
      (∀ file ∈ store.events, DeleteClean hit faults file) ∧
        ((∃ file ∈ store.events, DeleteCounts hit faults file) ∨ store.Counted) := by
  cases present : store.events with
  | none =>
      have result : deleteMatching faults hit store = (.ok, store) := by
        simp only [deleteMatching, present]
      rw [result]
      exact allOrNothing_unchanged (by simp) (by simp) _
  | some file =>
      simp only [Option.mem_def, Option.some.injEq, forall_eq', exists_eq_left']
      rcases deleteMatching_cases hit faults present with ⟨commits, result⟩ | ⟨stays, err, result⟩
      · by_cases empty : keptBuffers hit (readable faults.readStops file) = []
        · rw [if_pos empty] at result
          rw [and_iff_left (.inl ⟨commits, .inl (keptBuffers_eq_nil_iff.mp empty)⟩)]
          exact deleteMatching_removes present commits grows empty result
        rw [if_neg empty] at result
        by_cases unrenamed : faults.rename = true
        · rw [if_pos unrenamed] at result
          have kept := keptBuffers_eq_nil_iff.not.mp empty
          rw [result, deleteClean_kept_iff commits kept]
          refine allOrNothing_unchanged (fun renamed => ?_) ?_ _
          · rw [renamed] at unrenamed
            cases unrenamed
          · rintro ⟨_, all | renamed⟩
            · exact kept all
            · rw [renamed] at unrenamed
              cases unrenamed
        · rw [if_neg unrenamed] at result
          have renamed : faults.rename = false := Bool.not_eq_true _ ▸ unrenamed
          rw [and_iff_left (.inl ⟨commits, .inr renamed⟩)]
          exact deleteMatching_replaces present commits grows empty renamed result
      · rw [result]
        exact allOrNothing_unchanged ⟨fun commits => absurd commits stays,
          fun commits => absurd commits stays, fun commits => absurd commits stays⟩
          (fun counts => stays counts.1) _

end Delete

section Operations

/-- The operations that rewrite the log. -/
inductive Rewrite where
  | rotate
  | rotateByTime (cutoffUnix : Int)
  | deleteByWorker (workerId : Nat)
  | deleteOne (ts monoUs : Int)

def Rewrite.perform (faults : RotateFaults) (store : Store) : Rewrite → EspErr × Store
  | .rotate => rotateChecked faults.toRewriteFaults store
  | .rotateByTime cutoffUnix => eventRotateByTime faults cutoffUnix store
  | .deleteByWorker workerId => eventDeleteByWorker faults.toRewriteFaults workerId store
  | .deleteOne ts monoUs => eventDeleteOne faults.toRewriteFaults ts monoUs store

/-- The content an operation leaves when nothing fails. -/
def Rewrite.intended (store : Store) (rewrite : Rewrite) : Option Bytes :=
  (rewrite.perform .none store).2.events

/-- The failures an operation does not look at do no harm. -/
def Rewrite.Clean (faults : RotateFaults) (store : Store) : Rewrite → Prop
  | .rotate => ∀ file ∈ store.events, ddEventsMaxBytes < file.length →
      RotationClean faults.toRewriteFaults file
  | .rotateByTime cutoffUnix => ∀ file, Searches faults cutoffUnix store file →
      ByTimeClean faults cutoffUnix file
  | .deleteByWorker workerId => workerId ≠ 0 → ∀ file ∈ store.events,
      DeleteClean (workerHit workerId) faults.toRewriteFaults file
  | .deleteOne ts monoUs => ∀ file ∈ store.events,
      DeleteClean (oneHit ts monoUs) faults.toRewriteFaults file

/-- The operation gets to where it sets the cached count. -/
def Rewrite.Counts (faults : RotateFaults) (store : Store) : Rewrite → Prop
  | .rotate => Rotates store
  | .rotateByTime cutoffUnix => ∃ file, Searches faults cutoffUnix store file ∧
      ByTimeCounts faults cutoffUnix file
  | .deleteByWorker workerId => workerId ≠ 0 ∧ ∃ file ∈ store.events,
      DeleteCounts (workerHit workerId) faults.toRewriteFaults file
  | .deleteOne ts monoUs => ∃ file ∈ store.events,
      DeleteCounts (oneHit ts monoUs) faults.toRewriteFaults file

/-- Three events of which the first is the one at `ts` 1 and `mono_us` 2. -/
def threeEvents : Store where
  events := some (ascii "\x7b\"ts\":1,\"mono_us\":2\x7d\n\x7b\"ts\":3,\"mono_us\":4\x7d\n" ++
    ascii "\x7b\"ts\":5,\"mono_us\":6\x7d\n")
  eventCount := 3

end Operations

end LeanDingdong
