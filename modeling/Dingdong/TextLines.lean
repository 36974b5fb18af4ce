import Mathlib.Data.List.Basic
import Mathlib.Data.List.Infix
import Mathlib.Tactic.Linarith

/-!
Text as a sequence of symbols in which one symbol ends a line. The readers here
are the ones of a buffered C stream: `fgets` with a bounded buffer, `fread` with
a bounded buffer, and the loop that skips to the next line. The main result is
`chunks_append`: reading commutes with concatenation where the first part ends
on a buffer boundary.
-/

namespace TextLines

variable {α : Type*} (nl : α)

/-- Every line followed by one terminator. -/
def encode (lines : List (List α)) : List α :=
  lines.flatMap fun line => line ++ [nl]

@[simp] theorem encode_nil : encode nl ([] : List (List α)) = [] := rfl

@[simp] theorem encode_cons (line : List α) (lines : List (List α)) :
    encode nl (line :: lines) = line ++ nl :: encode nl lines := by
  simp [encode]

@[simp] theorem encode_append (first second : List (List α)) :
    encode nl (first ++ second) = encode nl first ++ encode nl second := by
  simp [encode]

theorem encode_eq_nil {lines : List (List α)} : encode nl lines = [] ↔ lines = [] := by
  cases lines <;> simp

/-- The blocks of `while ((n = fread(buf, 1, size, in)) > 0)`, at most `fuel` of them. -/
def freadBlocksFrom (size : Nat) : Nat → List α → List (List α)
  | 0, _ => []
  | _ + 1, [] => []
  | fuel + 1, symbol :: stream =>
      (symbol :: stream).take size :: freadBlocksFrom size fuel ((symbol :: stream).drop size)

/-- The blocks of a whole stream. -/
def freadBlocks (size : Nat) (stream : List α) : List (List α) :=
  freadBlocksFrom size stream.length stream

theorem freadBlocksFrom_flatten {size : Nat} (positive : 0 < size) {fuel : Nat} {stream : List α}
    (enough : stream.length ≤ fuel) : (freadBlocksFrom size fuel stream).flatten = stream := by
  induction fuel generalizing stream with
  | zero => simpa [freadBlocksFrom] using (List.length_eq_zero_iff.mp (by omega)).symm
  | succ fuel ih =>
      cases stream with
      | nil => rfl
      | cons symbol stream =>
          simp only [List.length_cons] at enough
          rw [freadBlocksFrom, List.flatten_cons,
            ih (by simp only [List.length_drop, List.length_cons]; omega), List.take_append_drop]

/-- A block copy writes what it reads. -/
theorem freadBlocks_flatten {size : Nat} (positive : 0 < size) (stream : List α) :
    (freadBlocks size stream).flatten = stream :=
  freadBlocksFrom_flatten positive (Nat.le_refl _)

/-- Buffers, each with where it begins. -/
def placed : Nat → List (List α) → List (Nat × List α)
  | _, [] => []
  | offset, buffer :: buffers => (offset, buffer) :: placed (offset + buffer.length) buffers

theorem placed_snd (offset : Nat) (buffers : List (List α)) :
    (placed offset buffers).map Prod.snd = buffers := by
  induction buffers generalizing offset with
  | nil => rfl
  | cons buffer buffers ih => rw [placed, List.map_cons, ih]

theorem placed_add (shift offset : Nat) (buffers : List (List α)) :
    placed (shift + offset) buffers =
      (placed offset buffers).map fun piece => (shift + piece.1, piece.2) := by
  induction buffers generalizing offset with
  | nil => rfl
  | cons buffer buffers ih =>
      simp only [placed, List.map_cons, List.cons.injEq, true_and]
      rw [Nat.add_assoc, ih]

theorem placed_ge {offset : Nat} {buffers : List (List α)} :
    ∀ piece ∈ placed offset buffers, offset ≤ piece.1 := by
  induction buffers generalizing offset with
  | nil => simp [placed]
  | cons buffer buffers ih =>
      rw [placed, List.forall_mem_cons]
      exact ⟨le_rfl, fun piece later => (Nat.le_add_right _ _).trans (ih piece later)⟩

variable [DecidableEq α]

theorem count_encode {lines : List (List α)} (free : ∀ line ∈ lines, nl ∉ line) :
    (encode nl lines).count nl = lines.length := by
  induction lines with
  | nil => rfl
  | cons line lines ih =>
      have head : line.count nl = 0 := List.count_eq_zero.mpr (free line (by simp))
      have tail := ih fun other member => free other (by simp [member])
      simp [encode_cons, List.count_append, head, tail]

/-- One `fgets` with room for `room` symbols: the buffer it fills and the rest of
the stream. It stops after a terminator or when the buffer is full. -/
def fgets : Nat → List α → List α × List α
  | _, [] => ([], [])
  | 0, stream => ([], stream)
  | room + 1, symbol :: stream =>
      if symbol = nl then ([symbol], stream)
      else
        let (buffer, rest) := fgets room stream
        (symbol :: buffer, rest)

theorem fgets_concat (room : Nat) (stream : List α) :
    (fgets nl room stream).1 ++ (fgets nl room stream).2 = stream := by
  induction room generalizing stream with
  | zero => cases stream <;> rfl
  | succ room ih =>
      cases stream with
      | nil => rfl
      | cons symbol stream =>
          simp only [fgets]
          split
          · rfl
          · simpa using ih stream

theorem fgets_rest_length {room : Nat} (positive : 0 < room) {stream : List α}
    (nonempty : stream ≠ []) : (fgets nl room stream).2.length < stream.length := by
  have whole := congrArg List.length (fgets_concat nl room stream)
  rw [List.length_append] at whole
  have filled : 0 < (fgets nl room stream).1.length := by
    obtain ⟨room, rfl⟩ := Nat.exists_eq_succ_of_ne_zero (Nat.ne_of_gt positive)
    obtain ⟨symbol, stream, rfl⟩ := List.exists_cons_of_ne_nil nonempty
    simp only [fgets]
    split <;> simp
  omega

/-- A line that leaves room for its terminator is read in one piece. -/
theorem fgets_line {room : Nat} {line : List α} (free : nl ∉ line) (fits : line.length < room)
    (rest : List α) : fgets nl room (line ++ nl :: rest) = (line ++ [nl], rest) := by
  induction line generalizing room with
  | nil =>
      obtain ⟨room, rfl⟩ := Nat.exists_eq_succ_of_ne_zero (Nat.ne_of_gt fits)
      simp [fgets]
  | cons symbol line ih =>
      simp only [List.mem_cons, not_or] at free
      simp only [List.length_cons] at fits
      obtain ⟨room, rfl⟩ := Nat.exists_eq_succ_of_ne_zero (Nat.ne_of_gt (Nat.zero_lt_of_lt fits))
      have fewer : line.length < room := by omega
      simp only [List.cons_append, fgets, Ne.symm free.1, if_false, ih free.2 fewer]

/-- Without a terminator in reach the buffer fills up and the line is cut. -/
theorem fgets_full {room : Nat} {line : List α} (free : nl ∉ line) (long : room ≤ line.length)
    (rest : List α) : fgets nl room (line ++ rest) = (line.take room, line.drop room ++ rest) := by
  induction room generalizing line with
  | zero => cases line <;> cases rest <;> simp [fgets]
  | succ room ih =>
      cases line with
      | nil => simp at long
      | cons symbol line =>
          simp only [List.mem_cons, not_or] at free
          simp only [List.length_cons] at long
          simp [fgets, Ne.symm free.1, ih free.2 (by omega)]

/-- The buffers of `while (fgets(..))`, at most `fuel` of them. -/
def chunksFrom (room : Nat) : Nat → List α → List (List α)
  | 0, _ => []
  | _ + 1, [] => []
  | fuel + 1, symbol :: stream =>
      (fgets nl room (symbol :: stream)).1 ::
        chunksFrom room fuel (fgets nl room (symbol :: stream)).2

/-- The buffers `while (fgets(..))` sees on a whole stream: every call consumes a
symbol, so the stream's length is enough fuel. -/
def chunks (room : Nat) (stream : List α) : List (List α) :=
  chunksFrom nl room stream.length stream

theorem chunksFrom_eq {room : Nat} (positive : 0 < room) {fuel : Nat} {stream : List α}
    (enough : stream.length ≤ fuel) : chunksFrom nl room fuel stream = chunks nl room stream := by
  induction fuel using Nat.strongRecOn generalizing stream with
  | ind fuel ih =>
      cases stream with
      | nil => cases fuel <;> rfl
      | cons symbol stream =>
          have shorter := fgets_rest_length nl positive (List.cons_ne_nil symbol stream)
          simp only [List.length_cons] at enough shorter
          obtain ⟨fuel, rfl⟩ := Nat.exists_eq_succ_of_ne_zero (by omega : fuel ≠ 0)
          simp only [chunks, chunksFrom, List.length_cons]
          rw [ih fuel (by omega) (by omega), ih stream.length (by omega) (by omega)]

@[simp] theorem chunks_nil (room : Nat) : chunks nl room ([] : List α) = [] := rfl

theorem chunks_step {room : Nat} (positive : 0 < room) {stream : List α}
    (nonempty : stream ≠ []) :
    chunks nl room stream =
      (fgets nl room stream).1 :: chunks nl room (fgets nl room stream).2 := by
  obtain ⟨symbol, stream, rfl⟩ := List.exists_cons_of_ne_nil nonempty
  have shorter := fgets_rest_length nl positive (List.cons_ne_nil symbol stream)
  simp only [List.length_cons] at shorter
  simp only [chunks, List.length_cons, chunksFrom]
  rw [chunksFrom_eq nl positive (by omega)]
  rfl

/-- What `fgets` makes of a stream that breaks off after `count` symbols. -/
theorem fgets_take (room count : Nat) (stream : List α) :
    fgets nl room (stream.take count) =
      if count < (fgets nl room stream).1.length then (stream.take count, [])
      else ((fgets nl room stream).1,
        (fgets nl room stream).2.take (count - (fgets nl room stream).1.length)) := by
  induction room generalizing stream count with
  | zero => cases stream <;> cases count <;> simp [fgets]
  | succ room ih =>
      cases stream with
      | nil => simp [fgets]
      | cons symbol stream =>
          cases count with
          | zero =>
              have filled : 0 < (fgets nl (room + 1) (symbol :: stream)).1.length := by
                simp only [fgets]
                split <;> simp
              rw [if_pos filled]
              rfl
          | succ count =>
              by_cases ended : symbol = nl
              · simp [fgets, ended]
              · simp only [List.take_succ_cons, fgets, ended, if_false, ih count stream,
                  List.length_cons, Nat.succ_lt_succ_iff, Nat.add_sub_add_right]
                split <;> rfl

/-- A buffer holds a terminator at most once. -/
theorem fgets_count_le_one (room : Nat) (stream : List α) :
    (fgets nl room stream).1.count nl ≤ 1 := by
  induction room generalizing stream with
  | zero => cases stream <;> simp [fgets]
  | succ room ih =>
      cases stream with
      | nil => simp [fgets]
      | cons symbol stream =>
          by_cases ended : symbol = nl
          · simp [fgets, ended]
          · simpa [fgets, ended] using ih stream

theorem chunks_count_le_one {room : Nat} (positive : 0 < room) {stream : List α} :
    ∀ buffer ∈ chunks nl room stream, buffer.count nl ≤ 1 := by
  generalize size : stream.length = length
  induction length using Nat.strongRecOn generalizing stream with
  | ind length ih =>
      by_cases empty : stream = []
      · simp [empty]
      have shorter := fgets_rest_length nl positive empty
      rw [chunks_step nl positive empty]
      intro buffer member
      rcases List.mem_cons.mp member with rfl | later
      · exact fgets_count_le_one nl room stream
      · exact ih _ (size ▸ shorter) rfl buffer later

/-- In a buffer a terminator comes last. -/
theorem fgets_free (room : Nat) (stream : List α) : nl ∉ (fgets nl room stream).1.dropLast := by
  induction room generalizing stream with
  | zero => cases stream <;> simp [fgets]
  | succ room ih =>
      cases stream with
      | nil => simp [fgets]
      | cons symbol stream =>
          by_cases ended : symbol = nl
          · simp [fgets, ended]
          · have free := ih stream
            simp only [fgets, ended, if_false]
            cases read : (fgets nl room stream).1 with
            | nil => simp
            | cons next buffer =>
                rw [read] at free
                rw [List.dropLast_cons_cons, List.mem_cons, not_or]
                exact ⟨Ne.symm ended, free⟩

theorem chunks_free {room : Nat} (positive : 0 < room) {stream : List α} :
    ∀ buffer ∈ chunks nl room stream, nl ∉ buffer.dropLast := by
  generalize size : stream.length = length
  induction length using Nat.strongRecOn generalizing stream with
  | ind length ih =>
      by_cases empty : stream = []
      · simp [empty]
      have shorter := fgets_rest_length nl positive empty
      rw [chunks_step nl positive empty]
      intro buffer member
      rcases List.mem_cons.mp member with rfl | later
      · exact fgets_free nl room stream
      · exact ih _ (size ▸ shorter) rfl buffer later

theorem chunks_flatten {room : Nat} (positive : 0 < room) (stream : List α) :
    (chunks nl room stream).flatten = stream := by
  generalize size : stream.length = length
  induction length using Nat.strongRecOn generalizing stream with
  | ind length ih =>
      by_cases empty : stream = []
      · simp [empty]
      have shorter := fgets_rest_length nl positive empty
      rw [chunks_step nl positive empty, List.flatten_cons, ih _ (size ▸ shorter) _ rfl,
        fgets_concat]

/-- The buffers of a stream that breaks off are those of the whole stream up to the
break, and a piece of the one it is in. -/
theorem chunks_take {room : Nat} (positive : 0 < room) (stream : List α) (count : Nat) :
    ∃ whole rest, chunks nl room stream = whole ++ rest ∧
      (chunks nl room (stream.take count) = whole ∨
        ∃ piece buffer more, rest = buffer :: more ∧ piece <+: buffer ∧
          chunks nl room (stream.take count) = whole ++ [piece]) := by
  generalize size : stream.length = length
  induction length using Nat.strongRecOn generalizing stream count with
  | ind length ih =>
      by_cases none : stream.take count = []
      · exact ⟨[], _, rfl, .inl (by rw [none, chunks_nil])⟩
      have nonempty : stream ≠ [] := by
        rintro rfl
        exact none List.take_nil
      have shorter := fgets_rest_length nl positive nonempty
      have concat := fgets_concat nl room stream
      have read := fgets_take nl room count stream
      rw [chunks_step nl positive nonempty, chunks_step nl positive none, read]
      by_cases inside : count < (fgets nl room stream).1.length
      · rw [if_pos inside, chunks_nil]
        refine ⟨[], _, rfl, .inr ⟨stream.take count, _, _, rfl, ?_, rfl⟩⟩
        have taken : stream.take count = (fgets nl room stream).1.take count := by
          conv_lhs => rw [← concat]
          exact List.take_append_of_le_length (Nat.le_of_lt inside)
        rw [taken]
        exact List.take_prefix _ _
      · rw [if_neg inside]
        obtain ⟨whole, rest, split, ends⟩ := ih _ (size ▸ shorter) (fgets nl room stream).2
          (count - (fgets nl room stream).1.length) rfl
        refine ⟨(fgets nl room stream).1 :: whole, rest, by rw [split, List.cons_append], ?_⟩
        rcases ends with same | ⟨piece, buffer, more, restIs, prefixed, same⟩
        · exact .inl (by rw [same])
        · exact .inr ⟨piece, buffer, more, restIs, prefixed, by rw [same, List.cons_append]⟩

theorem chunks_ne_nil {room : Nat} (positive : 0 < room) {stream : List α} :
    ∀ buffer ∈ chunks nl room stream, buffer ≠ [] := by
  generalize size : stream.length = length
  induction length using Nat.strongRecOn generalizing stream with
  | ind length ih =>
      by_cases empty : stream = []
      · simp [empty]
      have shorter := fgets_rest_length nl positive empty
      have concat := congrArg List.length (fgets_concat nl room stream)
      rw [chunks_step nl positive empty]
      intro buffer member
      rcases List.mem_cons.mp member with rfl | later
      · rintro none
        rw [List.length_append, none, List.length_nil] at concat
        omega
      · exact ih _ (size ▸ shorter) rfl buffer later

/-- Of each buffer a stream that breaks off yields what lies before the break. -/
theorem chunks_take_placed {room : Nat} (positive : 0 < room) (stream : List α) (count : Nat) :
    chunks nl room (stream.take count) =
      ((placed 0 (chunks nl room stream)).map fun piece => piece.2.take (count - piece.1)).filter
        fun read => !read.isEmpty := by
  generalize size : stream.length = length
  induction length using Nat.strongRecOn generalizing stream count with
  | ind length ih =>
      by_cases empty : stream = []
      · simp [empty, placed]
      have shorter := fgets_rest_length nl positive empty
      have concat := fgets_concat nl room stream
      have first : (fgets nl room stream).1 ≠ [] :=
        chunks_ne_nil nl positive _ (by rw [chunks_step nl positive empty]; exact List.mem_cons_self)
      rw [chunks_step nl positive empty, placed, Nat.zero_add, List.map_cons, Nat.sub_zero]
      by_cases inside : count < (fgets nl room stream).1.length
      · -- the break is in the first buffer: nothing of the others is read
        have unread : (((placed (fgets nl room stream).1.length
            (chunks nl room (fgets nl room stream).2)).map
              fun piece => piece.2.take (count - piece.1)).filter fun read => !read.isEmpty) = [] := by
          rw [List.filter_eq_nil_iff]
          rintro _ member
          obtain ⟨piece, later, rfl⟩ := List.mem_map.mp member
          have behind := placed_ge piece later
          rw [Nat.sub_eq_zero_of_le (by omega), List.take_zero]
          simp
        have taken : stream.take count = (fgets nl room stream).1.take count := by
          conv_lhs => rw [← concat]
          exact List.take_append_of_le_length (Nat.le_of_lt inside)
        rw [List.filter_cons, unread, ← taken]
        by_cases none : stream.take count = []
        · simp [none]
        · rw [chunks_step nl positive none, fgets_take nl room count stream, if_pos inside, chunks_nil]
          simp [none]
      · have nonempty : stream.take count ≠ [] := by
          intro none
          rcases List.take_eq_nil_iff.mp none with zero | nil
          · have := List.length_pos_of_ne_nil first
            omega
          · exact empty nil
        have whole : (fgets nl room stream).1.take count = (fgets nl room stream).1 :=
          List.take_of_length_le (not_lt.mp inside)
        have moved := placed_add (fgets nl room stream).1.length 0
          (chunks nl room (fgets nl room stream).2)
        rw [Nat.add_zero] at moved
        rw [chunks_step nl positive nonempty, fgets_take nl room count stream, if_neg inside, whole,
          ih _ (size ▸ shorter) _ _ rfl, moved, List.map_map, List.filter_cons]
        simp [first, Function.comp_def, Nat.sub_sub]

/-- The number of symbols after the last terminator. -/
def column : List α → Nat
  | [] => 0
  | symbol :: stream => if nl ∈ symbol :: stream then column stream else stream.length + 1

theorem column_free {stream : List α} (free : nl ∉ stream) : column nl stream = stream.length := by
  cases stream with
  | nil => rfl
  | cons symbol stream => simp [column, free]

/-- After a terminator the column is counted from there. -/
theorem column_append_line (stream rest : List α) :
    column nl (stream ++ nl :: rest) = column nl rest := by
  induction stream with
  | nil => simp [column]
  | cons symbol stream ih => simp [column, ih]

theorem column_append_of_zero {stream : List α} (start : column nl stream = 0) (rest : List α) :
    column nl (stream ++ rest) = column nl rest := by
  induction stream with
  | nil => rfl
  | cons symbol stream ih =>
      simp only [column] at start
      split at start
      · rename_i inside
        have outer : nl ∈ symbol :: (stream ++ rest) := by
          simpa using (List.mem_cons.mp inside).imp id Or.inl
        simp [column, outer, ih start]
      · omega

/-- The terminators split a stream into whole lines and an unfinished one. -/
theorem exists_line_split (stream : List α) :
    nl ∉ stream ∨ ∃ line rest, nl ∉ line ∧ stream = line ++ nl :: rest := by
  by_cases inside : nl ∈ stream
  · exact Or.inr (List.eq_append_cons_of_mem inside |>.imp fun line rest =>
      rest.imp fun _ facts => ⟨facts.2, facts.1⟩)
  · exact Or.inl inside

/-- Reading commutes with concatenation where the first part ends on a buffer
boundary: at the start of a line, or a whole number of buffers into one. -/
theorem chunks_append {room : Nat} (positive : 0 < room) {first : List α}
    (aligned : column nl first % room = 0) (second : List α) :
    chunks nl room (first ++ second) = chunks nl room first ++ chunks nl room second := by
  generalize size : first.length = length
  induction length using Nat.strongRecOn generalizing first with
  | ind length ih =>
      by_cases empty : first = []
      · simp [empty]
      -- one fgets call on the concatenation reads the same buffer as on `first`
      have read : ∃ buffer rest, first = buffer ++ rest ∧ buffer ≠ [] ∧
          fgets nl room first = (buffer, rest) ∧
          fgets nl room (first ++ second) = (buffer, rest ++ second) ∧
          column nl rest % room = 0 := by
        rcases exists_line_split nl first with free | ⟨line, rest, free, rfl⟩
        · rw [column_free nl free] at aligned
          have long : room ≤ first.length :=
            Nat.le_of_dvd (List.length_pos_iff.mpr empty) (Nat.dvd_of_mod_eq_zero aligned)
          have whole := fgets_full nl free long []
          simp only [List.append_nil] at whole
          refine ⟨first.take room, first.drop room, (List.take_append_drop _ _).symm, ?_, whole,
            fgets_full nl free long second, ?_⟩
          · simp [List.take_eq_nil_iff, empty, Nat.ne_of_gt positive]
          · rw [column_free nl (fun inside => free (List.mem_of_mem_drop inside)),
              List.length_drop, ← Nat.mod_eq_sub_mod long]
            exact aligned
        · rw [column_append_line] at aligned
          by_cases fits : line.length < room
          · refine ⟨line ++ [nl], rest, by simp, by simp, fgets_line nl free fits rest, ?_, aligned⟩
            simpa using fgets_line nl free fits (rest ++ second)
          · have long : room ≤ line.length := Nat.le_of_not_lt fits
            refine ⟨line.take room, line.drop room ++ nl :: rest, ?_, ?_,
              fgets_full nl free long _, ?_, ?_⟩
            · rw [← List.append_assoc, List.take_append_drop]
            · have nonempty : line ≠ [] := by
                rintro rfl
                simp only [List.length_nil] at long
                omega
              simp [List.take_eq_nil_iff, nonempty, Nat.ne_of_gt positive]
            · simpa using fgets_full nl free long (nl :: rest ++ second)
            · rw [column_append_line]
              exact aligned
      obtain ⟨buffer, rest, split, nonempty, alone, joined, next⟩ := read
      have shorter : rest.length < length := by
        rw [← size, split, List.length_append]
        have := List.length_pos_iff.mpr nonempty
        omega
      rw [chunks_step nl positive (by simp [empty] : first ++ second ≠ []),
        chunks_step nl positive empty, alone, joined]
      simp only [List.cons_append]
      rw [ih rest.length shorter next rfl]

/-- The buffers of one terminated line. -/
def lineChunks (room : Nat) (line : List α) : List (List α) :=
  chunks nl room (line ++ [nl])

theorem chunks_encode {room : Nat} (positive : 0 < room) (lines : List (List α)) :
    chunks nl room (encode nl lines) = lines.flatMap (lineChunks nl room) := by
  induction lines with
  | nil => rfl
  | cons line lines ih =>
      have aligned : column nl (line ++ [nl]) % room = 0 := by
        rw [column_append_line]
        simp [column]
      have split : encode nl (line :: lines) = (line ++ [nl]) ++ encode nl lines := by simp
      rw [split, chunks_append nl positive aligned, ih, List.flatMap_cons, lineChunks]

theorem lineChunks_short {room : Nat} {line : List α} (free : nl ∉ line)
    (fits : line.length < room) : lineChunks nl room line = [line ++ [nl]] := by
  rw [lineChunks, chunks_step nl (by omega) (by simp), fgets_line nl free fits []]
  simp

theorem lineChunks_cut {room : Nat} (positive : 0 < room) {line : List α} (free : nl ∉ line)
    (long : room ≤ line.length) :
    lineChunks nl room line = line.take room :: lineChunks nl room (line.drop room) := by
  rw [lineChunks, chunks_step nl positive (by simp), fgets_full nl free long [nl]]
  rfl

/-- Skip through the next terminator: `while ((c = fgetc(f)) != EOF && c != nl) {}`. -/
def skipLine : List α → List α
  | [] => []
  | symbol :: stream => if symbol = nl then stream else skipLine stream

theorem skipLine_free {stream : List α} (free : nl ∉ stream) : skipLine nl stream = [] := by
  induction stream with
  | nil => rfl
  | cons symbol stream ih =>
      simp only [List.mem_cons, not_or] at free
      simp [skipLine, Ne.symm free.1, ih free.2]

theorem skipLine_line {line : List α} (free : nl ∉ line) (rest : List α) :
    skipLine nl (line ++ nl :: rest) = rest := by
  induction line with
  | nil => simp [skipLine]
  | cons symbol line ih =>
      simp only [List.mem_cons, not_or] at free
      simp [skipLine, Ne.symm free.1, ih free.2]

/-- Skipping drops everything, or a part that ends with a terminator. -/
theorem skipLine_cases (stream : List α) :
    skipLine nl stream = [] ∨
      ∃ line, nl ∉ line ∧ stream = line ++ nl :: skipLine nl stream := by
  rcases exists_line_split nl stream with free | ⟨line, rest, free, rfl⟩
  · exact Or.inl (skipLine_free nl free)
  · exact Or.inr ⟨line, free, by rw [skipLine_line nl free]⟩

theorem skipLine_suffix (stream : List α) : skipLine nl stream <:+ stream := by
  rcases skipLine_cases nl stream with nothing | ⟨line, _, whole⟩
  · rw [nothing]
    exact List.nil_suffix
  · exact ⟨line ++ [nl], by rw [List.append_assoc]; exact whole.symm⟩

/-- Nothing follows the first line when no terminator stands before the last symbol. -/
theorem skipLine_eq_nil_iff (stream : List α) : skipLine nl stream = [] ↔ nl ∉ stream.dropLast := by
  rcases exists_line_split nl stream with free | ⟨line, rest, free, rfl⟩
  · rw [skipLine_free nl free]
    exact iff_of_true rfl fun member => free (List.mem_of_mem_dropLast member)
  · rw [skipLine_line nl free]
    cases rest with
    | nil => simpa using free
    | cons symbol rest =>
        rw [List.dropLast_append_of_ne_nil (List.cons_ne_nil _ _), List.dropLast_cons_of_ne_nil
          (List.cons_ne_nil _ _)]
        simp

/-- Skipping a line in a stream that breaks off leaves the same rest when the stream is
there in full or nothing follows the line. -/
theorem skipLine_take_iff (stream : List α) (count : Nat) :
    skipLine nl (stream.take count) = skipLine nl stream ↔
      stream.length ≤ count ∨ skipLine nl stream = [] := by
  by_cases whole : stream.length ≤ count
  · rw [List.take_of_length_le whole]
    exact iff_of_true rfl (.inl whole)
  rw [or_iff_right whole]
  rcases skipLine_cases nl stream with nothing | ⟨line, free, split⟩
  · rw [nothing]
    refine iff_of_true ?_ rfl
    -- at most the terminator is cut off
    rcases skipLine_cases nl (stream.take count) with nothing | ⟨front, frontFree, frontSplit⟩
    · exact nothing
    · have again : stream = front ++ nl ::
          (skipLine nl (stream.take count) ++ stream.drop count) := by
        conv_lhs => rw [← List.take_append_drop count stream, frontSplit]
        simp
      rw [again, skipLine_line nl frontFree] at nothing
      exact (List.append_eq_nil_iff.mp nothing).1
  · generalize skipLine nl stream = rest at split ⊢
    subst split
    by_cases inside : count ≤ line.length
    · have cut : skipLine nl ((line ++ nl :: rest).take count) = [] := by
        rw [List.take_append_of_le_length inside]
        exact skipLine_free nl fun member => free (List.mem_of_mem_take member)
      rw [cut, eq_comm]
    · obtain ⟨more, rfl⟩ := Nat.exists_eq_add_of_lt (Nat.lt_of_not_le inside)
      have cut : (line ++ nl :: rest).take (line.length + more + 1) =
          line ++ nl :: rest.take more := by
        rw [Nat.add_assoc, List.take_length_add_append, List.take_succ_cons]
      rw [cut, skipLine_line nl free]
      simp only [List.length_append, List.length_cons] at whole
      constructor
      · intro same
        have := congrArg List.length same
        rw [List.length_take] at this
        omega
      · intro nothing
        rw [nothing, List.take_nil]

/-- From anywhere inside a text of whole lines, skipping to the next line leaves
whole lines, and passes over at most the rest of one line. -/
theorem skipLine_encode {bound : Nat} {lines : List (List α)}
    (free : ∀ line ∈ lines, nl ∉ line) (short : ∀ line ∈ lines, line.length ≤ bound)
    {stream : List α} (inside : stream <:+ encode nl lines) :
    ∃ kept, kept <:+ lines ∧ skipLine nl stream = encode nl kept ∧
      stream.length ≤ (encode nl kept).length + bound + 1 := by
  induction lines with
  | nil =>
      have empty : stream = [] := List.suffix_nil.mp inside
      exact ⟨[], List.suffix_refl _, by simp [empty, skipLine], by simp [empty]⟩
  | cons line lines ih =>
      have lineFree := free line (by simp)
      have lineShort := short line (by simp)
      rw [encode_cons] at inside
      obtain ⟨before, whole⟩ := inside
      rcases List.append_eq_append_iff.mp whole with ⟨middle, lineEq, streamEq⟩ | ⟨middle, beforeEq, restEq⟩
      · -- the stream starts inside the first line
        subst streamEq
        have middleFree : nl ∉ middle := fun present => lineFree (by simp [lineEq, present])
        refine ⟨lines, List.suffix_cons _ _, skipLine_line nl middleFree _, ?_⟩
        have := congrArg List.length lineEq
        simp only [List.length_append, List.length_cons] at this ⊢
        omega
      · -- the stream starts at the terminator or in a later line
        cases middle with
        | nil =>
            simp only [List.nil_append] at restEq
            subst restEq
            exact ⟨lines, List.suffix_cons _ _, by simp [skipLine], by simp⟩
        | cons first middle =>
            simp only [List.cons_append, List.cons.injEq] at restEq
            obtain ⟨kept, suffix, same, length⟩ := ih
              (fun other member => free other (by simp [member]))
              (fun other member => short other (by simp [member])) ⟨middle, restEq.2.symm⟩
            exact ⟨kept, suffix.trans (List.suffix_cons _ _), same, length⟩

end TextLines
