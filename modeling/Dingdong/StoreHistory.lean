import Dingdong.StorageRetention

/-!
The events file over its whole life: events are recorded, deleted one by one or by worker,
retired by the daily retention, wiped, and found again after a reboot, in any order. What
an event needs to be still there at the end, and what a deletion leaves for good.
-/

namespace LeanDingdong

open Runs TextLines

def ddEventsRetentionDays : Nat := 90

/-- The time the retention goes back to. -/
def retentionCutoff (nowUnix : Int) : Int := nowUnix - ddEventsRetentionDays * 86400

/-- `retention_cb` -/
def retentionCb (synced : Bool) (nowUnix : Int) (store : Store) : Store :=
  if synced then
    if retentionCutoff nowUnix ≤ 0 then store
    else (eventRotateByTime .none (retentionCutoff nowUnix) store).2
  else store

inductive StoreEvent where
  | record (event : LoggedEvent)
  | wipe
  | deleteByWorker (workerId : Nat)
  | deleteOne (ts monoUs : Int)
  | retention (synced : Bool) (nowUnix : Int)
  /-- the count is taken again by `dd_storage_init` -/
  | reboot

namespace StoreEvent

/-- The event with no failing call. -/
def step (store : Store) : StoreEvent → Store
  | .record event => (eventAppend .none event.record.line store).2
  | .wipe => (eventWipe false store).2
  | .deleteByWorker workerId => (eventDeleteByWorker .none workerId store).2
  | .deleteOne ts monoUs => (eventDeleteOne .none ts monoUs store).2
  | .retention synced nowUnix => retentionCb synced nowUnix store
  | .reboot => { store with eventCount := scanEventCount .none store.events }

/-- The operation is there to take the event away. -/
def Targets (logged : LoggedEvent) : StoreEvent → Prop
  | .wipe => True
  | .deleteByWorker workerId => 0 < workerId ∧ logged.record.workerId = workerId
  | .deleteOne ts monoUs => logged.record.stamp = (ts, monoUs)
  | .retention synced nowUnix =>
      synced = true ∧ logged.record.ts < retentionCutoff nowUnix ∧ 0 < retentionCutoff nowUnix
  | .record _ => False
  | .reboot => False

/-- What the operation adds to the log. -/
def recorded : StoreEvent → List LoggedEvent
  | .record event => [event]
  | _ => []

/-- The lines fit the buffer of the deletes with their newline. -/
def Whole (event : StoreEvent) : Prop := ∀ logged ∈ event.recorded, logged.record.line.length ≤ 1022

end StoreEvent

/-- The bytes of the events' lines. -/
def fileBytes (events : List LoggedEvent) : Nat := (eventsFile events).length

/-- What one operation does to the events the log is for. -/
inductive LogMove : List LoggedEvent → StoreEvent → List LoggedEvent → Prop
  | record {events kept} (event) : kept <:+ events →
      (kept = events ∨ ddEventsMaxBytes < 2 * (fileBytes kept + 1026)) →
      LogMove events (.record event) (kept ++ [event])
  | wipe (events) : LogMove events .wipe []
  | deleteByWorker {workerId} (events) : 0 < workerId →
      LogMove events (.deleteByWorker workerId)
        (events.filter fun event => event.record.workerId ≠ workerId)
  | deleteOne {ts monoUs : Int} (events) :
      LogMove events (.deleteOne ts monoUs)
        (events.filter fun event => event.record.stamp ≠ (ts, monoUs))
  | retention {nowUnix : Int} (events) : 0 < retentionCutoff nowUnix →
      LogMove events (.retention true nowUnix)
        (events.dropWhile (LoggedEvent.older (retentionCutoff nowUnix)))
  | idle {op} (events) : (∀ event, ¬ op.Targets event) → op.recorded = [] → LogMove events op events

/-- A run of moves. -/
inductive LogMoves : List LoggedEvent → List StoreEvent → List LoggedEvent → Prop
  | nil (events) : LogMoves events [] events
  | cons {events mid next op ops} : LogMove events op mid → LogMoves mid ops next →
      LogMoves events (op :: ops) next

/-- What a run of operations adds to the log. -/
def recordedBy (ops : List StoreEvent) : List LoggedEvent := ops.flatMap StoreEvent.recorded

section Log

variable {events mid next : List LoggedEvent} {op : StoreEvent} {ops : List StoreEvent}
  {event : LoggedEvent}

theorem recordedBy_cons (op : StoreEvent) (ops : List StoreEvent) :
    recordedBy (op :: ops) = op.recorded ++ recordedBy ops := List.flatMap_cons

theorem fileBytes_append (first second : List LoggedEvent) :
    fileBytes (first ++ second) = fileBytes first + fileBytes second := by
  rw [fileBytes, eventsFile_append, List.length_append]
  rfl

theorem fileBytes_cons (event : LoggedEvent) (events : List LoggedEvent) :
    fileBytes (event :: events) = fileBytes [event] + fileBytes events :=
  fileBytes_append [event] events

theorem fileBytes_sublist {kept : List LoggedEvent} (sublist : kept.Sublist events) :
    fileBytes kept ≤ fileBytes events := by
  induction sublist with
  | slnil => exact le_rfl
  | cons event _ ih =>
      rw [fileBytes_cons event]
      exact ih.trans (Nat.le_add_left _ _)
  | @cons_cons kept events event _ ih =>
      rw [fileBytes_cons event kept, fileBytes_cons event events]
      exact Nat.add_le_add_left ih _

theorem LogMove.sublist (move : LogMove events op next) : next.Sublist (events ++ op.recorded) := by
  cases move with
  | record event suffix _ => exact suffix.sublist.append (List.Sublist.refl _)
  | wipe => exact List.nil_sublist _
  | deleteByWorker _ => exact List.filter_sublist.trans (List.sublist_append_left _ _)
  | deleteOne => exact List.filter_sublist.trans (List.sublist_append_left _ _)
  | retention _ => exact (List.dropWhile_sublist _).trans (List.sublist_append_left _ _)
  | idle => exact List.sublist_append_left _ _

theorem LogMoves.sublist (moves : LogMoves events ops next) :
    next.Sublist (events ++ recordedBy ops) := by
  induction moves with
  | nil => exact List.sublist_append_left _ _
  | cons move _ ih =>
      refine ih.trans ?_
      rw [recordedBy_cons, ← List.append_assoc]
      exact move.sublist.append (List.Sublist.refl _)

theorem LogMoves.split {past rest : List StoreEvent} (moves : LogMoves events (past ++ rest) next) :
    ∃ mid, LogMoves events past mid ∧ LogMoves mid rest next := by
  induction past generalizing events with
  | nil => exact ⟨events, .nil events, moves⟩
  | cons op past ih =>
      cases moves with
      | cons move later =>
          obtain ⟨mid, first, second⟩ := ih later
          exact ⟨mid, .cons move first, second⟩

/-- A delete or a wipe leaves nothing it was there to take. -/
def StoreEvent.Deletes : StoreEvent → Prop
  | .wipe => True
  | .deleteByWorker _ => True
  | .deleteOne _ _ => True
  | _ => False

theorem LogMove.deleted (move : LogMove events op next) (deletes : op.Deletes) :
    ∀ event ∈ next, ¬ op.Targets event := by
  intro event member targets
  cases move with
  | record | retention => exact deletes
  | wipe => cases member
  | deleteByWorker _ => exact of_decide_eq_true (List.mem_filter.mp member).2 targets.2
  | deleteOne => exact of_decide_eq_true (List.mem_filter.mp member).2 targets
  | idle _ untargeted _ => exact untargeted event targets

/-- An event stays through a move that does not target it, when not too much stands behind
it. -/
theorem LogMove.keeps {before after : List LoggedEvent}
    (move : LogMove (before ++ event :: after) op next) (untargeted : ¬ op.Targets event)
    (room : 2 * (fileBytes after + 1026) ≤ ddEventsMaxBytes) :
    ∃ before' after', next = before' ++ event :: after' ∧
      fileBytes after' ≤ fileBytes after + fileBytes op.recorded := by
  have filtered (keep : LoggedEvent → Bool) (stays : keep event = true) :
      ∃ before' after', (before ++ event :: after).filter keep = before' ++ event :: after' ∧
        fileBytes after' ≤ fileBytes after + fileBytes op.recorded := by
    refine ⟨before.filter keep, after.filter keep, by simp [stays], ?_⟩
    exact (fileBytes_sublist List.filter_sublist).trans (Nat.le_add_right _ _)
  cases move with
  | @record _ kept new suffix whole =>
      have size : fileBytes (after ++ [new]) = fileBytes after + fileBytes [new] :=
        fileBytes_append after [new]
      -- a rotation that drops the event leaves no more than what stands behind it
      have inside : event :: after <:+ kept := by
        rcases List.suffix_or_suffix_of_suffix (List.suffix_append before (event :: after)) suffix with
          longer | shorter
        · exact longer
        · rcases whole with all | half
          · rw [all]
            exact List.suffix_append _ _
          · rcases List.suffix_cons_iff.mp shorter with same | cut
            · rw [same]
            · have less := fileBytes_sublist cut.sublist
              omega
      obtain ⟨first, rfl⟩ := inside
      exact ⟨first, after ++ [new], by simp, size.le⟩
  | wipe => exact absurd trivial untargeted
  | deleteByWorker _ positive =>
      exact filtered _ (decide_eq_true fun same => untargeted ⟨positive, same⟩)
  | deleteOne => exact filtered _ (decide_eq_true untargeted)
  | @retention nowUnix _ positive =>
      have recent : event.older (retentionCutoff nowUnix) = false :=
        decide_eq_false fun older => untargeted ⟨rfl, older, positive⟩
      refine ⟨before.dropWhile (LoggedEvent.older (retentionCutoff nowUnix)), after,
        ?_, Nat.le_add_right _ _⟩
      rw [List.dropWhile_append]
      split_ifs with none
      · rw [List.isEmpty_iff.mp none, List.dropWhile_cons_of_neg (by simp [recent])]
        rfl
      · rfl
  | idle => exact ⟨before, after, rfl, Nat.le_add_right _ _⟩

theorem LogMoves.keeps {before after : List LoggedEvent}
    (moves : LogMoves (before ++ event :: after) ops next)
    (untargeted : ∀ op ∈ ops, ¬ op.Targets event)
    (room : 2 * (fileBytes after + fileBytes (recordedBy ops) + 1026) ≤ ddEventsMaxBytes) :
    event ∈ next := by
  induction ops generalizing before after with
  | nil =>
      cases moves
      exact List.mem_append_right _ List.mem_cons_self
  | cons op ops ih =>
      rw [recordedBy_cons, fileBytes_append] at room
      cases moves with
      | cons move later =>
          have fits : 2 * (fileBytes after + 1026) ≤ ddEventsMaxBytes :=
            (Nat.mul_le_mul_left 2 (Nat.add_le_add_right (Nat.le_add_right _ _) _)).trans room
          obtain ⟨before', after', rfl, size⟩ :=
            move.keeps (untargeted op List.mem_cons_self) fits
          rw [← Nat.add_assoc] at room
          exact ih later (fun other member => untargeted other (List.mem_cons_of_mem _ member))
            ((Nat.mul_le_mul_left 2 (Nat.add_le_add_right (Nat.add_le_add_right size _) _)).trans room)

end Log

section Simulation

variable {store : Store} {events : List LoggedEvent}

/-- The store holds the events, each whole, in a file of bounded size. -/
structure HoldsEvents (store : Store) (events : List LoggedEvent) : Prop where
  holds : Holds store (events.map LoggedEvent.line)
  whole : ∀ event ∈ events, event.record.line.length ≤ 1022
  bounded : store.file.length ≤ ddEventsMaxBytes + 1025

theorem HoldsEvents.empty : HoldsEvents Store.empty [] :=
  ⟨Holds.empty, by simp, by simp [Store.file, Store.empty]⟩

/-- A rotation before an append leaves the file alone or keeps half of it. -/
theorem rotateIfOver_size (store : Store) : rotateIfOver .none store = store ∨
    ∀ lines, Holds store lines →
      ddEventsMaxBytes < 2 * ((rotateIfOver .none store).file.length + 1026) := by
  cases present : store.events with
  | none => exact .inl (by rw [rotateIfOver, present])
  | some file =>
      by_cases full : ddEventsMaxBytes < file.length
      · refine .inr fun lines holds => ?_
        have sizeEq : store.file.length = file.length := by simp [Store.file, present]
        obtain ⟨dropped, kept, _, rotated, size⟩ :=
          rotateEvents_holds holds (by rw [sizeEq]; exact full)
        simp only [rotateIfOver, present, full, if_true, rotated, Store.file, Option.getD_some]
        omega
      · exact .inl (by rw [rotateIfOver, present]; simp [full])

/-- A part of the lines of some events is the lines of a part of them. -/
theorem suffix_events {kept : List EventLine} (suffix : kept <:+ events.map LoggedEvent.line) :
    ∃ rest, rest <:+ events ∧ kept = rest.map LoggedEvent.line := by
  obtain ⟨dropped, same⟩ := suffix
  obtain ⟨first, rest, rfl, _, rfl⟩ := List.map_eq_append_iff.mp same.symm
  exact ⟨rest, List.suffix_append _ _, rfl⟩

theorem HoldsEvents.present (held : HoldsEvents store events) (nonempty : events ≠ []) :
    store.events = some (eventsFile events) := by
  cases present : store.events with
  | none => exact absurd (List.map_eq_nil_iff.mp (held.holds.of_missing present)) nonempty
  | some file => rw [held.holds.of_events present, eventsFile]

/-- A rewrite that leaves exactly some of the events keeps the store as it should be. -/
theorem HoldsEvents.rewritten {kept : List LoggedEvent} {next : Store}
    (held : HoldsEvents store events) (sublist : kept.Sublist events)
    (holds : Holds next (kept.map LoggedEvent.line)) : HoldsEvents next kept := by
  refine ⟨holds, fun event member => held.whole event (sublist.subset member), ?_⟩
  have longer := fileBytes_sublist sublist
  have bounded := held.bounded
  rw [holds.file]
  rw [held.holds.file] at bounded
  exact longer.trans bounded

/-- A delete of whole lines leaves exactly the others. -/
theorem HoldsEvents.deleted {kept : List LoggedEvent} {result : EspErr × Store}
    (held : HoldsEvents store events) (sublist : kept.Sublist events)
    (leaves : LeavesExactly result (kept.map LoggedEvent.line)) : HoldsEvents result.2 kept := by
  refine held.rewritten sublist ⟨leaves.file, ?_⟩
  rw [leaves.count, leaves.file, count_texts]

/-- The append after the rotation it may begin with. -/
theorem eventAppend_rotated {kept : List EventLine} (line : EventLine)
    (rotated : Holds (rotateIfOver .none store) kept) :
    Holds (eventAppend .none line.bytes store).2 (kept ++ [line]) := by
  rw [eventAppend_none]
  refine ⟨?_, by simp [rotated.count]⟩
  rw [Store.file, Option.getD_some, rotated.file]
  simp [texts]

theorem HoldsEvents.record (held : HoldsEvents store events) (event : LoggedEvent)
    (whole : event.record.line.length ≤ 1022) :
    ∃ next, LogMove events (.record event) next ∧
      HoldsEvents (StoreEvent.step store (.record event)) next := by
  have appended {kept : List LoggedEvent} (suffix : kept <:+ events)
      (rotated : Holds (rotateIfOver .none store) (kept.map LoggedEvent.line)) :
      HoldsEvents (StoreEvent.step store (.record event)) (kept ++ [event]) := by
    refine ⟨?_, fun logged member => ?_, ?_⟩
    · rw [List.map_append]
      exact eventAppend_rotated event.line rotated
    · rcases List.mem_append.mp member with old | new
      · exact held.whole logged (suffix.subset old)
      · rwa [List.mem_singleton.mp new]
    · obtain ⟨_, _, _, bounded⟩ := eventAppend_holds held.holds held.bounded event.line
      exact bounded
  rcases rotateIfOver_size store with same | size
  · have rotated : Holds (rotateIfOver .none store) (events.map LoggedEvent.line) := by
      rw [same]
      exact held.holds
    exact ⟨_, .record event (List.suffix_refl _) (.inl rfl), appended (List.suffix_refl _) rotated⟩
  · obtain ⟨lines, suffix, rotated, _⟩ := rotateIfOver_holds held.holds held.bounded
    obtain ⟨kept, inside, rfl⟩ := suffix_events suffix
    have large := size _ held.holds
    rw [rotated.file] at large
    exact ⟨_, .record event inside (.inr large), appended inside rotated⟩

theorem HoldsEvents.rotateByTime (held : HoldsEvents store events) {cutoffUnix : Int}
    (positive : 0 < cutoffUnix) :
    HoldsEvents (eventRotateByTime .none cutoffUnix store).2
      (events.dropWhile (LoggedEvent.older cutoffUnix)) := by
  refine held.rewritten (List.dropWhile_sublist _) ?_
  cases present : store.events with
  | none =>
      obtain rfl := List.map_eq_nil_iff.mp (held.holds.of_missing present)
      rw [eventRotateByTime, if_neg positive.not_ge, present]
      exact held.holds
  | some file =>
      have whole : store.events = some (eventsFile events) :=
        present.trans (congrArg some (held.holds.of_events present))
      rw [eventRotateByTime_events whole positive]
      split_ifs with nothing all
      · rw [nothing]
        exact Holds.empty
      · have same := List.takeWhile_append_dropWhile (p := LoggedEvent.older cutoffUnix) (l := events)
        rw [all, List.nil_append] at same
        rw [same]
        exact held.holds
      · refine ⟨rfl, ?_⟩
        rw [List.length_map]

theorem HoldsEvents.retention (held : HoldsEvents store events) (synced : Bool) (nowUnix : Int) :
    ∃ next, LogMove events (.retention synced nowUnix) next ∧
      HoldsEvents (StoreEvent.step store (.retention synced nowUnix)) next := by
  have idle (untargeted : ∀ event, ¬ (StoreEvent.retention synced nowUnix).Targets event)
      (same : StoreEvent.step store (.retention synced nowUnix) = store) :
      ∃ next, LogMove events (.retention synced nowUnix) next ∧
        HoldsEvents (StoreEvent.step store (.retention synced nowUnix)) next := by
    rw [same]
    exact ⟨events, .idle events untargeted rfl, held⟩
  cases synced with
  | false => exact idle (by simp [StoreEvent.Targets]) rfl
  | true =>
      rw [StoreEvent.step, retentionCb, if_pos rfl] at idle ⊢
      by_cases early : retentionCutoff nowUnix ≤ 0
      · rw [if_pos early] at idle ⊢
        exact idle (fun event targets => absurd targets.2.2 early.not_gt) rfl
      rw [if_neg early]
      have positive := lt_of_not_ge early
      exact ⟨_, .retention events positive, held.rotateByTime positive⟩

/-- The store refines the log of events: every operation is a move of the log. -/
theorem HoldsEvents.step (held : HoldsEvents store events) (op : StoreEvent) (whole : op.Whole) :
    ∃ next, LogMove events op next ∧ HoldsEvents (op.step store) next := by
  cases op with
  | record event => exact held.record event (whole event (List.mem_singleton_self event))
  | wipe =>
      refine ⟨[], .wipe events, ?_⟩
      have empty : (eventWipe false store).2 = { events := none, eventCount := 0 } := by
        cases present : store.events <;> simp [eventWipe, present]
      rw [StoreEvent.step, empty]
      exact HoldsEvents.empty
  | deleteByWorker workerId =>
      by_cases positive : 0 < workerId
      · refine ⟨_, .deleteByWorker events positive, ?_⟩
        rw [StoreEvent.step, eventDeleteByWorker, if_neg (Nat.ne_of_gt positive)]
        exact held.deleted List.filter_sublist
          ((deleteMatching_events (fun record _ => workerHit_front positive record)
            (fun _ => workerHit_short) held.holds).mpr (.inl held.whole))
      · refine ⟨events, .idle events (fun _ targets => positive targets.1) rfl, ?_⟩
        rw [StoreEvent.step, eventDeleteByWorker, if_pos (by omega)]
        exact held
  | deleteOne ts monoUs =>
      refine ⟨_, .deleteOne events, ?_⟩
      exact held.deleted List.filter_sublist
        ((deleteMatching_events (fun record _ => oneHit_front record)
          (fun _ => oneHit_short) held.holds).mpr (.inl held.whole))
  | retention synced nowUnix => exact held.retention synced nowUnix
  | reboot =>
      refine ⟨events, .idle events (fun _ targets => targets) rfl, ⟨held.holds.file, ?_⟩,
        held.whole, held.bounded⟩
      have counted : scanEventCount .none store.events = store.file.count newline := by
        rw [Store.file]
        cases store.events <;> rfl
      rw [StoreEvent.step, counted, held.holds.file, count_texts]

end Simulation

/-- Every run of operations on a fresh file is a run of moves. -/
theorem StoreEvent.run_moves {store : Store} {events : List LoggedEvent} {ops : List StoreEvent}
    (held : HoldsEvents store events) (whole : ∀ op ∈ ops, op.Whole) :
    ∃ next, LogMoves events ops next ∧ HoldsEvents (run StoreEvent.step store ops) next := by
  induction ops generalizing store events with
  | nil => exact ⟨events, .nil events, held⟩
  | cons op ops ih =>
      obtain ⟨mid, move, after⟩ := held.step op (whole op List.mem_cons_self)
      obtain ⟨next, moves, last⟩ := ih after fun other member =>
        whole other (List.mem_cons_of_mem _ member)
      exact ⟨next, .cons move moves, last⟩

/-- An event of the first second of Unix time. -/
def firstEvent : LoggedEvent := ⟨agedRecord 1 firstSecond_plain, agedRecord_first⟩

end LeanDingdong
