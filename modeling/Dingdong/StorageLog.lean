import Dingdong.Runs
import Dingdong.StorageCore

/-!
The event log as a list of lines. `Holds` relates the byte-level store to the
lines it holds; every operation without an I/O failure keeps it, and the lines
change as the abstract `LogStep` says.
-/

namespace LeanDingdong

open TextLines Runs

/-- A line callers may append: one to `LINE_BUF_MAX` bytes, no newline, no NUL. -/
structure EventLine where
  bytes : Bytes
  nonempty : bytes ≠ []
  short : bytes.length ≤ lineBufMax
  noNewline : newline ∉ bytes
  noNul : 0 ∉ bytes

@[simp] theorem EventLine.cstr_bytes (line : EventLine) : cstr line.bytes = line.bytes :=
  cstr_of_noNul line.noNul

theorem EventLine.length_pos (line : EventLine) : 0 < line.bytes.length :=
  List.length_pos_iff.mpr line.nonempty

/-- The texts of a list of lines. -/
def texts (lines : List EventLine) : List Bytes := lines.map EventLine.bytes

theorem texts_noNewline {lines : List EventLine} : ∀ line ∈ texts lines, newline ∉ line := by
  simp only [texts, List.mem_map]
  rintro _ ⟨line, _, rfl⟩
  exact line.noNewline

theorem texts_short {lines : List EventLine} :
    ∀ line ∈ texts lines, line.length ≤ lineBufMax := by
  simp only [texts, List.mem_map]
  rintro _ ⟨line, _, rfl⟩
  exact line.short

/-- The store holds exactly these lines. -/
structure Holds (store : Store) (lines : List EventLine) : Prop where
  file : store.file = encode newline (texts lines)
  count : store.eventCount = lines.length

theorem Holds.empty : Holds Store.empty [] := ⟨rfl, rfl⟩

theorem Holds.of_events {store : Store} {lines : List EventLine} {file : Bytes}
    (holds : Holds store lines) (present : store.events = some file) :
    file = encode newline (texts lines) := by
  rw [← holds.file, Store.file, present]
  rfl

theorem Holds.of_missing {store : Store} {lines : List EventLine} (holds : Holds store lines)
    (missing : store.events = none) : lines = [] := by
  have empty := holds.file.symm
  rw [Store.file, missing, Option.getD_none, encode_eq_nil] at empty
  simpa [texts] using empty

theorem writeBlocks_none (blocks : List Bytes) : writeBlocks none blocks = some blocks.flatten := by
  induction blocks with
  | nil => rfl
  | cons block rest ih => simp [writeBlocks, ih]

/-- Without an I/O failure a rotation replaces the file by its newest half, from
the next line boundary on. -/
theorem rotateEvents_none {store : Store} {file : Bytes} (present : store.events = some file) :
    rotateEvents .none store = (.ok, { store with
      events := some (skipLine newline (file.drop (file.length - file.length / 2))) }) := by
  simp [rotateEvents, present, RewriteFaults.none, readable, writeBlocks_none, freadBlocks_flatten]

theorem scanEventCount_none (file : Bytes) :
    scanEventCount .none (some file) = file.count newline := rfl

/-- A rotation drops an oldest prefix of the lines, keeps more than half the old
size minus 1026 bytes, and the recount makes the cached count exact. -/
theorem rotateEvents_holds {store : Store} {lines : List EventLine} (holds : Holds store lines)
    (full : ddEventsMaxBytes < store.file.length) :
    ∃ dropped kept, lines = dropped ++ kept ∧
      rotateEvents .none store =
        (.ok, { store with events := some (encode newline (texts kept)) }) ∧
      store.file.length < 2 * ((encode newline (texts kept)).length + 1026) := by
  obtain ⟨file, present⟩ : ∃ file, store.events = some file := by
    cases present : store.events with
    | none => simp [Store.file, present] at full
    | some file => exact ⟨file, rfl⟩
  have fileEq := holds.of_events present
  have inside : file.drop (file.length - file.length / 2) <:+ encode newline (texts lines) := by
    rw [← fileEq]
    exact List.drop_suffix _ _
  obtain ⟨keptTexts, suffix, same, length⟩ :=
    skipLine_encode newline texts_noNewline texts_short inside
  -- a suffix of the texts is the texts of a suffix
  obtain ⟨droppedTexts, split⟩ := suffix
  obtain ⟨dropped, kept, linesEq, _, rfl⟩ := List.map_eq_append_iff.mp split.symm
  refine ⟨dropped, kept, linesEq, ?_, ?_⟩
  · rw [rotateEvents_none present, same]
    rfl
  · have sizeEq : store.file.length = file.length := by simp [Store.file, present]
    simp only [List.length_drop, lineBufMax, texts] at length ⊢
    omega

/-- The size check of an append: afterwards the file is at most the cap and holds
a suffix of the lines. -/
theorem rotateIfOver_holds {store : Store} {lines : List EventLine} (holds : Holds store lines)
    (bounded : store.file.length ≤ ddEventsMaxBytes + 1025) :
    ∃ kept, kept <:+ lines ∧ Holds (rotateIfOver .none store) kept ∧
      (rotateIfOver .none store).file.length ≤ ddEventsMaxBytes := by
  cases present : store.events with
  | none =>
      refine ⟨lines, List.suffix_refl _, by simpa [rotateIfOver, present] using holds, ?_⟩
      simp [rotateIfOver, present, Store.file]
  | some file =>
      have sizeEq : store.file.length = file.length := by simp [Store.file, present]
      by_cases full : ddEventsMaxBytes < file.length
      · obtain ⟨dropped, kept, linesEq, rotated, _⟩ :=
          rotateEvents_holds holds (by rw [sizeEq]; exact full)
        have halved : (rotateEvents .none store).2.file.length ≤ ddEventsMaxBytes := by
          have skipped := (skipLine_suffix newline
            (file.drop (file.length - file.length / 2))).length_le
          have room : 1025 ≤ ddEventsMaxBytes := by decide
          rw [List.length_drop] at skipped
          simp only [rotateEvents_none present, Store.file, Option.getD_some]
          omega
        rw [rotated] at halved
        refine ⟨kept, ⟨dropped, linesEq.symm⟩, ?_, ?_⟩
        · simp only [rotateIfOver, present, full, if_true, rotated]
          refine ⟨rfl, ?_⟩
          rw [scanEventCount_none, count_encode newline texts_noNewline]
          exact List.length_map _
        · simp only [rotateIfOver, present, full, if_true, rotated]
          exact halved
      · refine ⟨lines, List.suffix_refl _, ?_, ?_⟩
        · simpa [rotateIfOver, present, full] using holds
        · rw [rotateIfOver, present]
          simp only [full, if_false]
          rw [sizeEq]
          exact Nat.le_of_not_lt full

theorem eventAppend_none (line : EventLine) (store : Store) :
    eventAppend .none line.bytes store =
      (.ok, { events := some ((rotateIfOver .none store).file ++ (line.bytes ++ [newline]))
              eventCount := (rotateIfOver .none store).eventCount + 1 }) := by
  have long := line.short
  have short := line.length_pos
  simp only [eventAppend, EventLine.cstr_bytes]
  rw [if_neg (by omega)]
  simp only [AppendFaults.none, Bool.false_eq_true, if_false]
  rfl

/-- An append adds its line at the end, after dropping an oldest prefix when the
file was over the cap. -/
theorem eventAppend_holds {store : Store} {lines : List EventLine} (holds : Holds store lines)
    (bounded : store.file.length ≤ ddEventsMaxBytes + 1025) (line : EventLine) :
    ∃ kept, kept <:+ lines ∧ Holds (eventAppend .none line.bytes store).2 (kept ++ [line]) ∧
      (eventAppend .none line.bytes store).2.file.length ≤ ddEventsMaxBytes + 1025 := by
  obtain ⟨kept, suffix, rotated, size⟩ := rotateIfOver_holds holds bounded
  have short := line.short
  refine ⟨kept, suffix, ⟨?_, ?_⟩, ?_⟩
  · simp [eventAppend_none, Store.file, texts]
    simpa [Store.file, texts] using rotated.file
  · simp [eventAppend_none, rotated.count]
  · rw [eventAppend_none]
    simp only [Store.file, Option.getD_some, List.length_append, List.length_cons,
      List.length_nil, lineBufMax] at size short ⊢
    omega

theorem stripNewline_line {line : Bytes} (free : newline ∉ line) : stripNewline line = line := by
  rw [stripNewline, if_neg]
  intro last
  exact free (List.mem_of_getLast? last)

theorem stripNewline_terminated (line : Bytes) : stripNewline (line ++ [newline]) = line := by
  simp [stripNewline]

theorem stripNewline_free {buffer : Bytes} (free : newline ∉ buffer.dropLast) :
    newline ∉ stripNewline buffer := by
  rw [stripNewline]
  split_ifs with ended
  · exact free
  · intro member
    have nonempty : buffer ≠ [] := List.ne_nil_of_mem member
    rw [← List.dropLast_append_getLast nonempty, List.mem_append, List.mem_singleton] at member
    rcases member with inside | last
    · exact free inside
    · exact ended (by rw [last, List.getLast?_eq_some_getLast nonempty])

/-- What the iterator hands out is part of a line. -/
theorem iterLines_free (file : Bytes) : ∀ line ∈ iterLines file, newline ∉ line ∧ line ≠ [] := by
  intro line member
  obtain ⟨listed, nonempty⟩ := List.mem_filter.mp member
  obtain ⟨buffer, inside, rfl⟩ := List.mem_map.mp listed
  refine ⟨stripNewline_free ?_, by simpa using nonempty⟩
  have free := chunks_free newline (by decide) buffer inside
  obtain ⟨rest, whole⟩ : cstr buffer <+: buffer := List.takeWhile_prefix _
  intro here
  refine free ?_
  rw [← whole]
  cases rest with
  | nil => rwa [List.append_nil]
  | cons byte rest =>
      rw [List.dropLast_append_cons]
      exact List.mem_append_left _ (List.mem_of_mem_dropLast here)

/-- The iterator hands out a line whole and once, also when it fills the buffer
and its newline is read by a call of its own. -/
theorem iterLines_line (line : EventLine) :
    iterLines (line.bytes ++ [newline]) = [line.bytes] := by
  have noNul : 0 ∉ line.bytes ++ [newline] := by simp [line.noNul, newline]
  change ((lineChunks newline lineBufMax line.bytes).map _).filter _ = _
  rcases Nat.lt_or_eq_of_le line.short with fits | full
  · rw [lineChunks_short newline line.noNewline fits]
    simp [cstr_of_noNul noNul, stripNewline_terminated, line.nonempty]
  · rw [lineChunks_cut newline (by decide) line.noNewline (Nat.le_of_eq full.symm),
      List.take_of_length_le (Nat.le_of_eq full), List.drop_of_length_le (Nat.le_of_eq full),
      lineChunks_short newline (by simp) (by decide)]
    have terminator : stripNewline (cstr [newline]) = [] := by decide
    simp [terminator, cstr_of_noNul line.noNul, stripNewline_line line.noNewline, line.nonempty]

theorem iterLines_append {first : Bytes} (aligned : column newline first % lineBufMax = 0)
    (second : Bytes) : iterLines (first ++ second) = iterLines first ++ iterLines second := by
  simp [iterLines, chunks_append newline (by decide) aligned second]

theorem iterLines_encode (lines : List EventLine) :
    iterLines (encode newline (texts lines)) = texts lines := by
  induction lines with
  | nil => rfl
  | cons line lines ih =>
      have split : encode newline (texts (line :: lines)) =
          (line.bytes ++ [newline]) ++ encode newline (texts lines) := by simp [texts]
      rw [split, iterLines_append (by simp [column_append_line, column]), iterLines_line, ih]
      rfl

/-- The iterator calls back with exactly the lines held. -/
theorem eventIter_holds {store : Store} {lines : List EventLine} (holds : Holds store lines)
    {σ : Type} (cb : Bytes → σ → EspErr × σ) (state : σ) :
    eventIter cb state store = callEach cb (texts lines) state := by
  cases present : store.events with
  | none =>
      rw [holds.of_missing present, eventIter, present]
      rfl
  | some file =>
      rw [← iterLines_encode, ← holds.of_events present, eventIter, present]

/-- The calls of a run; an iteration leaves the store as it is. -/
inductive StorageOp where
  | append (line : EventLine)
  | wipe
  | iter

def StorageOp.step (store : Store) : StorageOp → Store
  | .append line => (eventAppend .none line.bytes store).2
  | .wipe => (eventWipe false store).2
  | .iter => store

/-- What one call does to the lines the log is for: an append may drop an oldest
prefix and puts its line last, a wipe drops all. -/
inductive LogStep : List EventLine → StorageOp → List EventLine → Prop
  | append {lines kept} (line) : kept <:+ lines → LogStep lines (.append line) (kept ++ [line])
  | wipe (lines) : LogStep lines .wipe []
  | iter (lines) : LogStep lines .iter lines

/-- The store refines the list of lines: each call is a step of the abstract log. -/
theorem step_refines {store : Store} {lines : List EventLine} (holds : Holds store lines)
    (bounded : store.file.length ≤ ddEventsMaxBytes + 1025) (op : StorageOp) :
    ∃ next, LogStep lines op next ∧ Holds (op.step store) next ∧
      (op.step store).file.length ≤ ddEventsMaxBytes + 1025 := by
  cases op with
  | append line =>
      obtain ⟨kept, suffix, appended, size⟩ := eventAppend_holds holds bounded line
      exact ⟨kept ++ [line], .append line suffix, appended, size⟩
  | wipe =>
      refine ⟨[], .wipe lines, ?_, ?_⟩ <;>
        cases present : store.events <;>
        simp [StorageOp.step, eventWipe, present, Store.file]
      · exact ⟨by simp [Store.file, texts], rfl⟩
      · exact ⟨rfl, rfl⟩
  | iter => exact ⟨lines, .iter lines, holds, bounded⟩

/-- The lines a run appended since its last wipe. -/
def appendedSinceWipe (ops : List StorageOp) : List EventLine :=
  run (fun lines op => match op with
    | .append line => lines ++ [line]
    | .wipe => []
    | .iter => lines) [] ops

/-- A step of the abstract log keeps a suffix of what was appended since the last
wipe, the newest line included. -/
theorem LogStep.suffix {ops : List StorageOp} {lines next : List EventLine} {op : StorageOp}
    (step : LogStep lines op next) (suffix : lines <:+ appendedSinceWipe ops)
    (newest : lines.getLast? = (appendedSinceWipe ops).getLast?) :
    next <:+ appendedSinceWipe (ops ++ [op]) ∧
      next.getLast? = (appendedSinceWipe (ops ++ [op])).getLast? := by
  simp only [appendedSinceWipe, run_append, run_cons, run_nil]
  cases step with
  | append line kept =>
      have longer := kept.trans suffix
      obtain ⟨dropped, whole⟩ := longer
      refine ⟨⟨dropped, ?_⟩, by simp⟩
      rw [← List.append_assoc, whole]
      rfl
  | wipe => exact ⟨List.suffix_refl _, rfl⟩
  | iter => exact ⟨suffix, newest⟩

/-- The store after a run of calls on a fresh file system. -/
def runStore (ops : List StorageOp) : Store := run StorageOp.step Store.empty ops

theorem runStore_holds (ops : List StorageOp) :
    ∃ kept, kept <:+ appendedSinceWipe ops ∧
      kept.getLast? = (appendedSinceWipe ops).getLast? ∧
      Holds (runStore ops) kept ∧ (runStore ops).file.length ≤ ddEventsMaxBytes + 1025 := by
  have everyStep : Guarded StorageOp.step (fun _ _ => True) Store.empty ops := by
    generalize Store.empty = store
    induction ops generalizing store with
    | nil => trivial
    | cons op ops ih => exact ⟨trivial, ih _⟩
  refine run_history (fun past store => ∃ kept,
    kept <:+ appendedSinceWipe past ∧ kept.getLast? = (appendedSinceWipe past).getLast? ∧
      Holds store kept ∧ store.file.length ≤ ddEventsMaxBytes + 1025) ?_ ?_ everyStep
  · rintro past store op ⟨kept, suffix, newest, holds, bounded⟩ _
    obtain ⟨next, step, nextHolds, nextBounded⟩ := step_refines holds bounded op
    obtain ⟨nextSuffix, nextNewest⟩ := step.suffix suffix newest
    exact ⟨next, nextSuffix, nextNewest, nextHolds, nextBounded⟩
  · exact ⟨[], List.suffix_refl _, rfl, Holds.empty, by simp [Store.file, Store.empty]⟩

/-- Every run of appends, wipes and iterations leaves a file that is the lines
appended since the last wipe, less an oldest part, and every reader sees those. -/
theorem eventLog_refines (ops : List StorageOp) :
    ∃ kept : List EventLine,
      kept <:+ appendedSinceWipe ops ∧
      kept.getLast? = (appendedSinceWipe ops).getLast? ∧
      (runStore ops).file = encode newline (texts kept) ∧
      (runStore ops).file.length ≤ ddEventsMaxBytes + 1025 ∧
      (ddEventsMaxBytes < (runStore ops).file.length →
        ∃ dropped rest, kept = dropped ++ rest ∧
          rotateEvents .none (runStore ops) =
            (.ok, { runStore ops with events := some (encode newline (texts rest)) }) ∧
          (runStore ops).file.length < 2 * ((encode newline (texts rest)).length + 1026)) ∧
      (runStore ops).eventCount = kept.length ∧
      ∀ (σ : Type) (cb : Bytes → σ → EspErr × σ) (state : σ),
        eventIter cb state (runStore ops) = callEach cb (texts kept) state := by
  obtain ⟨kept, suffix, newest, holds, bounded⟩ := runStore_holds ops
  exact ⟨kept, suffix, newest, holds.file, bounded, rotateEvents_holds holds, holds.count,
    fun σ cb state => eventIter_holds holds cb state⟩

end LeanDingdong
