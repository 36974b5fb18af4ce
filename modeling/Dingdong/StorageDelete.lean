import Dingdong.EventCore

/-!
The two deletes of `dd_storage.c`, which rewrite the event log leaving out the
buffers that match. A line longer than the buffer is seen as two pieces, and only
the first can match; the pieces are what the cached count counts.
-/

namespace LeanDingdong

open TextLines

/-- Whether `dd_storage_event_delete_by_worker` drops the buffer. -/
def workerHit (workerId : Nat) (buf : Bytes) : Bool :=
  matchedBy (ascii "\"worker_id\":" ++ decimal workerId) (ascii ",\x7d ") buf

def eventDeleteByWorker (faults : RewriteFaults) (workerId : Nat) (store : Store) :
    EspErr × Store :=
  if workerId = 0 then (.invalidArg, store) else deleteMatching faults (workerHit workerId) store

/-- Whether `dd_storage_event_delete_one` drops the buffer. -/
def oneHit (ts monoUs : Int) (buf : Bytes) : Bool :=
  matchedBy (ascii "\"ts\":" ++ signedDecimal ts) (ascii ",\x7d") buf &&
    matchedBy (ascii "\"mono_us\":" ++ signedDecimal monoUs) (ascii ",\x7d") buf

def eventDeleteOne (faults : RewriteFaults) (ts monoUs : Int) (store : Store) : EspErr × Store :=
  deleteMatching faults (oneHit ts monoUs) store

section Rewrite

/-- The line and its newline fill the delete's buffer. -/
def EventLine.Cut (line : EventLine) : Prop := lineBufMax - 1 ≤ line.bytes.length

instance (line : EventLine) : Decidable line.Cut := inferInstanceAs (Decidable (_ ≤ _))

/-- The buffers a line is read into. -/
def EventLine.buffers (line : EventLine) : List Bytes :=
  if line.Cut then
    [line.bytes.take (lineBufMax - 1), line.bytes.drop (lineBufMax - 1) ++ [newline]]
  else [line.bytes ++ [newline]]

theorem EventLine.lineChunks_buffers (line : EventLine) :
    (lineChunks newline (lineBufMax - 1) line.bytes).map cstr = line.buffers := by
  have ending {bytes : Bytes} (noNul : 0 ∉ bytes) : cstr (bytes ++ [newline]) = bytes ++ [newline] :=
    cstr_of_noNul (by simpa [newline] using noNul)
  rw [buffers]
  split
  · rename_i cut
    have short := line.short
    have rest : (line.bytes.drop (lineBufMax - 1)).length < lineBufMax - 1 := by
      rw [List.length_drop, lineBufMax]
      rw [lineBufMax] at short
      omega
    have free : newline ∉ line.bytes.drop (lineBufMax - 1) :=
      fun member => line.noNewline (List.mem_of_mem_drop member)
    rw [lineChunks_cut newline (by decide) line.noNewline cut, lineChunks_short newline free rest,
      List.map_cons, List.map_singleton, ending fun member => line.noNul (List.mem_of_mem_drop member),
      cstr_of_noNul fun member => line.noNul (List.mem_of_mem_take member)]
  · rename_i whole
    rw [lineChunks_short newline line.noNewline (Nat.lt_of_not_le whole), List.map_singleton,
      ending line.noNul]

/-- The search finds the line in its first buffer, or nowhere. -/
structure Decides (hit : Bytes → Bool) (drop : EventLine → Bool) (line : EventLine) : Prop where
  front : ∀ front, front <+: line.bytes ++ [newline] →
    EventRecord.headRoom ≤ front.length ∨ front = line.bytes ++ [newline] → hit front = drop line
  rest : hit (line.bytes.drop (lineBufMax - 1) ++ [newline]) = false

variable {hit : Bytes → Bool} {drop : EventLine → Bool} {line : EventLine}

theorem Decides.whole (decides : Decides hit drop line) :
    hit (line.bytes ++ [newline]) = drop line :=
  decides.front _ (List.prefix_refl _) (.inr rfl)

theorem Decides.first (decides : Decides hit drop line) (cut : line.Cut) :
    hit (line.bytes.take (lineBufMax - 1)) = drop line := by
  have taken := List.take_prefix (lineBufMax - 1) line.bytes
  refine decides.front _ (taken.trans (List.prefix_append _ _)) (.inl ?_)
  rw [List.length_take, Nat.min_eq_left cut]
  decide

/-- One buffer of a dropped line is dropped, and none of a kept one. -/
theorem Decides.dropped_length (decides : Decides hit drop line) :
    (line.buffers.filter hit).length = if drop line then 1 else 0 := by
  rw [EventLine.buffers]
  split
  · rename_i cut
    cases found : drop line <;> simp [decides.first cut, decides.rest, found]
  · cases found : drop line <;> simp [decides.whole, found]

/-- A cut line leaves one buffer too many behind. -/
theorem Decides.kept_length (decides : Decides hit drop line) :
    (line.buffers.filter fun buffer => !hit buffer).length =
      (if drop line then 0 else 1) + if line.Cut then 1 else 0 := by
  rw [EventLine.buffers]
  split
  · rename_i cut
    cases found : drop line <;> simp [decides.first cut, decides.rest, found]
  · cases found : drop line <;> simp [decides.whole, found]

theorem Decides.kept_whole (decides : Decides hit drop line) (whole : ¬ line.Cut) :
    (line.buffers.filter fun buffer => !hit buffer) =
      if drop line then [] else [line.bytes ++ [newline]] := by
  rw [EventLine.buffers, if_neg whole]
  cases found : drop line <;> simp [decides.whole, found]

variable {lines : List EventLine}

theorem buffers_dropped_length (decides : ∀ line ∈ lines, Decides hit drop line) :
    ((lines.flatMap EventLine.buffers).filter hit).length = lines.countP drop := by
  induction lines with
  | nil => rfl
  | cons line lines ih =>
      rw [List.flatMap_cons, List.filter_append, List.length_append,
        (decides line (by simp)).dropped_length, ih fun other member => decides other (by simp [member]),
        List.countP_cons]
      omega

theorem buffers_kept_length (decides : ∀ line ∈ lines, Decides hit drop line) :
    ((lines.flatMap EventLine.buffers).filter fun buffer => !hit buffer).length =
      (lines.filter fun line => !drop line).length + lines.countP fun line => line.Cut := by
  induction lines with
  | nil => rfl
  | cons line lines ih =>
      rw [List.flatMap_cons, List.filter_append, List.length_append,
        (decides line (by simp)).kept_length, ih fun other member => decides other (by simp [member]),
        List.countP_cons, List.filter_cons]
      cases drop line <;> simp only [Bool.not_true, Bool.not_false, if_true, if_false,
        Bool.false_eq_true, List.length_cons, decide_eq_true_eq] <;> omega

theorem buffers_kept_whole (decides : ∀ line ∈ lines, Decides hit drop line)
    (whole : ∀ line ∈ lines, ¬ line.Cut) :
    ((lines.flatMap EventLine.buffers).filter fun buffer => !hit buffer).flatten =
      encode newline (texts (lines.filter fun line => !drop line)) := by
  induction lines with
  | nil => rfl
  | cons line lines ih =>
      rw [List.flatMap_cons, List.filter_append, List.flatten_append,
        (decides line (by simp)).kept_whole (whole line (by simp)),
        ih (fun other member => decides other (by simp [member]))
          (fun other member => whole other (by simp [member]))]
      cases found : drop line <;> simp [found, texts]

/-- The delete left exactly these lines, and the count of their newlines. -/
structure LeavesExactly (result : EspErr × Store) (lines : List EventLine) : Prop where
  ok : result.1 = .ok
  file : result.2.file = encode newline (texts lines)
  count : result.2.eventCount = result.2.file.count newline

theorem count_texts (lines : List EventLine) :
    (encode newline (texts lines)).count newline = lines.length := by
  rw [count_encode newline texts_noNewline, texts, List.length_map]

/-- A rewrite leaves exactly the lines it does not match, when no line is longer than
its buffer or it matches none, and otherwise it does not. -/
theorem deleteMatching_exact (drop : EventLine → Bool) {store : Store} (holds : Holds store lines)
    (decides : ∀ line ∈ lines, Decides hit drop line) :
    LeavesExactly (deleteMatching .none hit store) (lines.filter fun line => !drop line) ↔
      (∀ line ∈ lines, ¬ line.Cut) ∨ ∀ line ∈ lines, drop line = false := by
  have droppedLength := buffers_dropped_length decides
  have keptLength := buffers_kept_length decides
  have kept := buffers_kept_whole decides
  cases present : store.events with
  | none =>
      have empty : lines = [] := by
        have file := holds.file
        rw [Store.file, present, Option.getD_none, eq_comm, encode_eq_nil, texts,
          List.map_eq_nil_iff] at file
        exact file
      subst empty
      simp only [deleteMatching, present, List.filter_nil, List.not_mem_nil, false_implies,
        implies_true, or_self, iff_true]
      exact ⟨rfl, holds.file, by rw [holds.count, holds.file]; rfl⟩
  | some file =>
      have buffers : (chunks newline (lineBufMax - 1) file).map cstr =
          lines.flatMap EventLine.buffers := by
        rw [holds.of_events present, chunks_encode newline (by decide), List.map_flatMap, texts,
          List.flatMap_map]
        exact List.flatMap_congr fun line _ => line.lineChunks_buffers
      simp only [deleteMatching, present, RewriteFaults.none, readable, writeBlocks_none, buffers,
        Bool.false_eq_true, if_false, droppedLength, List.countP_eq_zero]
      by_cases unmatched : ∀ line ∈ lines, drop line = false
      · -- nothing matches: the store is left alone
        have all : lines.filter (fun line => !drop line) = lines :=
          List.filter_eq_self.mpr fun line member => by simp [unmatched line member]
        rw [if_pos (by simpa using unmatched), all, iff_true_right (.inr unmatched)]
        exact ⟨rfl, holds.file, by rw [holds.count, holds.file, count_texts]⟩
      · rw [if_neg (by simpa using unmatched), or_iff_left unmatched]
        constructor
        · intro leaves
          have count := leaves.count
          rw [leaves.file, count_texts] at count
          have keptCount : ((lines.flatMap EventLine.buffers).filter fun buffer =>
              !hit buffer).length = (lines.filter fun line => !drop line).length := by
            split at count
            · rename_i none
              exact none.trans count
            · exact count
          rw [keptCount, eq_comm, Nat.add_eq_left, List.countP_eq_zero] at keptLength
          simpa using keptLength
        · intro whole
          have noCut : lines.countP (fun line => line.Cut) = 0 := by
            simpa [List.countP_eq_zero] using whole
          rw [noCut, Nat.add_zero] at keptLength
          split
          · rename_i none
            have empty : lines.filter (fun line => !drop line) = [] :=
              List.length_eq_zero_iff.mp (keptLength.symm.trans none)
            rw [empty]
            exact ⟨rfl, rfl, rfl⟩
          · have file := kept whole
            refine ⟨rfl, file, ?_⟩
            rw [keptLength, Store.file, Option.getD_some, file, count_texts]

end Rewrite

section Events

/-- An event whose line the append accepts. -/
structure LoggedEvent where
  record : EventRecord
  accepted : record.line.length ≤ lineBufMax

def LoggedEvent.line (event : LoggedEvent) : EventLine where
  bytes := event.record.line
  nonempty := event.record.line_ne_nil
  short := event.accepted
  noNewline := event.record.line_noNewline
  noNul := event.record.line_noNul

/-- The two fields `dd_storage_event_delete_one` looks at. -/
def EventRecord.stamp (record : EventRecord) : Int × Int := (record.ts, record.monoUs)

theorem worker_needle (workerId : Nat) :
    ascii "\"worker_id\":" ++ decimal workerId =
      keyNeedle (ascii "worker_id") (signedDecimal workerId) := by
  have positive : ¬ (workerId : Int) < 0 := by omega
  rw [signedDecimal, if_neg positive, Int.natAbs_natCast]
  rfl

theorem workerHit_front {workerId : Nat} (positive : 0 < workerId) (record : EventRecord)
    {front : Bytes} (prefixed : front <+: record.line ++ [newline])
    (covers : EventRecord.headRoom ≤ front.length ∨ front = record.line ++ [newline]) :
    workerHit workerId front = decide (record.workerId = workerId) := by
  rw [workerHit, worker_needle, Bool.eq_iff_iff, decide_eq_true_iff,
    record.matchedBy_front (by decide) (by decide) (by decide) prefixed covers,
    record.mem_head_workerId positive, eq_comm]

theorem oneHit_front {ts monoUs : Int} (record : EventRecord) {front : Bytes}
    (prefixed : front <+: record.line ++ [newline])
    (covers : EventRecord.headRoom ≤ front.length ∨ front = record.line ++ [newline]) :
    oneHit ts monoUs front = decide (record.stamp = (ts, monoUs)) := by
  have tsNeedle : ascii "\"ts\":" ++ signedDecimal ts =
    keyNeedle (ascii "ts") (signedDecimal ts) := rfl
  have monoNeedle : ascii "\"mono_us\":" ++ signedDecimal monoUs =
    keyNeedle (ascii "mono_us") (signedDecimal monoUs) := rfl
  rw [oneHit, tsNeedle, monoNeedle, Bool.eq_iff_iff, Bool.and_eq_true, decide_eq_true_iff,
    record.matchedBy_front (by decide) (by decide) (by decide) prefixed covers,
    record.matchedBy_front (by decide) (by decide) (by decide) prefixed covers,
    record.mem_head_ts, record.mem_head_monoUs, EventRecord.stamp, Prod.mk.injEq]
  exact and_congr eq_comm eq_comm

theorem matchedBy_short {needle stops text : Bytes} (longer : text.length < needle.length) :
    matchedBy needle stops text = false := by
  have absent : ¬ needle <:+: text := fun present => by
    have := present.length_le
    omega
  have nonempty : needle ≠ [] := by
    rintro rfl
    simp at longer
  rw [matchedBy, afterMatch, (Substrings.strstr_none_iff nonempty).mpr absent]
  rfl

theorem workerHit_short {workerId : Nat} {text : Bytes} (short : text.length ≤ 2) :
    workerHit workerId text = false := by
  apply matchedBy_short
  have : (ascii "\"worker_id\":").length = 12 := rfl
  rw [List.length_append]
  omega

theorem oneHit_short {ts monoUs : Int} {text : Bytes} (short : text.length ≤ 2) :
    oneHit ts monoUs text = false := by
  rw [oneHit, matchedBy_short, Bool.false_and]
  have : (ascii "\"ts\":").length = 5 := rfl
  rw [List.length_append]
  omega

/-- A search for a field decides the line of every event. -/
theorem LoggedEvent.decides {hit : Bytes → Bool} {field : EventRecord → Prop}
    [DecidablePred field]
    (front : ∀ (record : EventRecord) (front : Bytes), front <+: record.line ++ [newline] →
      EventRecord.headRoom ≤ front.length ∨ front = record.line ++ [newline] →
        hit front = decide (field record))
    (short : ∀ text : Bytes, text.length ≤ 2 → hit text = false) (event : LoggedEvent) :
    Decides hit (fun line => hit (line.bytes ++ [newline])) event.line := by
  have whole : hit (event.line.bytes ++ [newline]) = decide (field event.record) :=
    front event.record _ (List.prefix_refl _) (.inr rfl)
  refine ⟨fun text prefixed covers => ?_, short _ ?_⟩
  · rw [front event.record text prefixed covers, whole]
  · have := event.accepted
    simp only [List.length_append, List.length_drop, List.length_singleton, lineBufMax,
      LoggedEvent.line] at this ⊢
    omega

/-- What holds of a rewrite that tests a field of the events. -/
theorem deleteMatching_events {hit : Bytes → Bool} {field : EventRecord → Prop}
    [DecidablePred field]
    (front : ∀ (record : EventRecord) (front : Bytes), front <+: record.line ++ [newline] →
      EventRecord.headRoom ≤ front.length ∨ front = record.line ++ [newline] →
        hit front = decide (field record))
    (short : ∀ text : Bytes, text.length ≤ 2 → hit text = false)
    {store : Store} {events : List LoggedEvent}
    (holds : Holds store (events.map LoggedEvent.line)) :
    LeavesExactly (deleteMatching .none hit store)
        ((events.filter fun event => ¬ field event.record).map LoggedEvent.line) ↔
      (∀ event ∈ events, event.record.line.length ≤ 1022) ∨
        ∀ event ∈ events, ¬ field event.record := by
  have whole (event : LoggedEvent) :
      hit (event.line.bytes ++ [newline]) = decide (field event.record) :=
    front event.record _ (List.prefix_refl _) (.inr rfl)
  have exact := deleteMatching_exact (fun line => hit (line.bytes ++ [newline])) holds (by
    intro line member
    obtain ⟨event, _, rfl⟩ := List.mem_map.mp member
    exact event.decides front short)
  have cut (event : LoggedEvent) : ¬ event.line.Cut ↔ event.record.line.length ≤ 1022 := by
    show ¬ 1024 - 1 ≤ event.record.line.length ↔ _
    omega
  have kept : (events.map LoggedEvent.line).filter (fun line => !hit (line.bytes ++ [newline])) =
      (events.filter fun event => ¬ field event.record).map LoggedEvent.line := by
    rw [List.filter_map]
    congr 1
    exact List.filter_congr fun event _ => by simp [whole]
  rw [kept] at exact
  simpa [cut, whole] using exact

/-- Each delete leaves exactly the events it should, and their count, if and only if
every line fits the delete's buffer with its newline or there is nothing to delete. -/
theorem eventDeletes_exact {store : Store} {events : List LoggedEvent}
    (holds : Holds store (events.map LoggedEvent.line)) :
    (∀ workerId, 0 < workerId →
      (LeavesExactly (eventDeleteByWorker .none workerId store)
          ((events.filter fun event => event.record.workerId ≠ workerId).map LoggedEvent.line) ↔
        (∀ event ∈ events, event.record.line.length ≤ 1022) ∨
          ∀ event ∈ events, event.record.workerId ≠ workerId)) ∧
    ∀ ts monoUs,
      (LeavesExactly (eventDeleteOne .none ts monoUs store)
          ((events.filter fun event => event.record.stamp ≠ (ts, monoUs)).map LoggedEvent.line) ↔
        (∀ event ∈ events, event.record.line.length ≤ 1022) ∨
          ∀ event ∈ events, event.record.stamp ≠ (ts, monoUs)) := by
  constructor
  · intro workerId positive
    rw [eventDeleteByWorker, if_neg (by omega)]
    exact deleteMatching_events (fun record _ => workerHit_front positive record)
      (fun _ => workerHit_short) holds
  · intro ts monoUs
    exact deleteMatching_events (fun record _ => oneHit_front record) (fun _ => oneHit_short) holds

/-- An event of worker 7 at `ts` 1 with a note of the given number of letters. -/
def notedRecord (letters : Nat) : EventRecord where
  ts := 1
  monoUs := 2
  type := .evIn
  src := .srcManualWeb
  peer := some (⟨1, 2, 3, 4, 5, 6⟩, 7)
  reason := 0
  note := List.replicate letters 97
  tsPlain := by decide
  monoPlain := by decide
  noteNoNul := by simp [List.mem_replicate]

/-- A log of that one event. -/
def notedStore (letters : Nat) : Store where
  events := some ((notedRecord letters).line ++ [newline])
  eventCount := 1

/-- The event as a line the append accepts. -/
def notedEvent (letters : Nat) (accepted : (notedRecord letters).line.length ≤ lineBufMax) :
    LoggedEvent :=
  { record := notedRecord letters, accepted := accepted }

theorem notedStore_holds {letters : Nat}
    (accepted : (notedRecord letters).line.length ≤ lineBufMax) :
    Holds (notedStore letters) ([notedEvent letters accepted].map LoggedEvent.line) :=
  ⟨by simp [notedStore, Store.file, texts, notedEvent, LoggedEvent.line], rfl⟩

/-- Both deletes on a short line. -/
theorem eventDeletes_exact_short :
    LeavesExactly (eventDeleteByWorker .none 7 (notedStore 1)) [] ∧
      LeavesExactly (eventDeleteOne .none 1 2 (notedStore 1)) [] := by
  have accepted : (notedRecord 1).line.length ≤ lineBufMax := by decide
  have short : ∀ event ∈ [notedEvent 1 accepted], event.record.line.length ≤ 1022 := by
    intro event member
    rw [List.mem_singleton.mp member]
    show (notedRecord 1).line.length ≤ 1022
    decide
  have exact := eventDeletes_exact (notedStore_holds accepted)
  exact ⟨(exact.1 7 (by decide)).mpr (.inl short), (exact.2 1 2).mpr (.inl short)⟩

/-- A line of 1023 bytes is deleted up to its newline, which stays in the file. -/
theorem eventDelete_leaves_residue :
    ¬ ∀ (store : Store) (events : List LoggedEvent),
      Holds store (events.map LoggedEvent.line) →
      (∀ workerId, 0 < workerId → LeavesExactly (eventDeleteByWorker .none workerId store)
        ((events.filter fun event => event.record.workerId ≠ workerId).map LoggedEvent.line)) ∧
      ∀ ts monoUs, LeavesExactly (eventDeleteOne .none ts monoUs store)
        ((events.filter fun event => event.record.stamp ≠ (ts, monoUs)).map LoggedEvent.line) := by
  intro claimed
  have length : (notedRecord 921).line.length = 1023 := by decide +kernel
  have accepted : (notedRecord 921).line.length ≤ lineBufMax := by
    rw [length]
    decide
  have holds := notedStore_holds accepted
  have leaves := (claimed _ _ holds).2 1 2
  rw [eventDeleteOne] at leaves
  have condition := (deleteMatching_events (fun record _ => oneHit_front record)
    (fun _ => oneHit_short) holds).mp leaves
  rcases condition with fits | unmatched
  · have := fits (notedEvent 921 accepted) (List.mem_singleton.mpr rfl)
    rw [notedEvent, length] at this
    omega
  · exact unmatched (notedEvent 921 accepted) (List.mem_singleton.mpr rfl) rfl

end Events

end LeanDingdong
