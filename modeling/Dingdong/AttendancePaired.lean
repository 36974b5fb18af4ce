import Dingdong.AttendanceCore
import Dingdong.Runs

/-!
The paired view against its purpose: one segment for each IN event, closed by the
worker's next event when that is an OUT. The table of open slots holds the workers
with an open IN as long as they all fit.
-/

namespace LeanDingdong

open SlotTable Runs

/-- The OUT that closes an IN of the worker, looking at the events after it. -/
def closing (workerId : Nat) : List LogEvent → Option (Int × Bytes)
  | [] => none
  | event :: rest =>
      if event.workerId = workerId then
        match event.type with
        | .evIn => none
        | .evOut => some (event.ts, event.srcText)
      else closing workerId rest

/-- The segments the view should report, in the order of their IN events. -/
def segmentsOf : List LogEvent → List Segment
  | [] => []
  | event :: rest =>
      match event.type with
      | .evIn =>
          { workerId := event.workerId
            peer := event.peer.bind scanMac
            inTs := event.ts
            inSrc := event.srcText.take 15
            out := closing event.workerId rest } :: segmentsOf rest
      | .evOut => segmentsOf rest

/-- The workers with an IN that no later event of theirs has ended, newest first. -/
def openStep (workers : List Nat) (event : LogEvent) : List Nat :=
  match event.type with
  | .evIn => event.workerId :: workers.filter (· ≠ event.workerId)
  | .evOut => workers.filter (· ≠ event.workerId)

/-- No more workers are in after the event than the view has slots. -/
def Fits (workers : List Nat) (event : LogEvent) : Prop :=
  (openStep workers event).length ≤ pairMaxOpen

instance (workers : List Nat) (event : LogEvent) : Decidable (Fits workers event) :=
  inferInstanceAs (Decidable (_ ≤ _))

/-- The open INs of the table. -/
def PairCtx.openEntries (ctx : PairCtx) : List PairOpen := contents PairOpen.live ctx.opens

theorem findOpenSlot_worker {opens : Fin pairMaxOpen → PairOpen} {workerId : Nat}
    (positive : 0 < workerId) (addr : Addr) (hasAddr : Bool) :
    findOpenSlot opens workerId addr hasAddr =
      first fun slot => (opens slot).live && (opens slot).workerId == workerId := by
  have named : workerId ≠ 0 := by omega
  simp [findOpenSlot, named]

/-- Closing a live slot sends its segment and takes its entry out of the table. -/
theorem PairCtx.close_entries {ctx : PairCtx} {slot : Fin pairMaxOpen}
    (used : (ctx.opens slot).live = true) (out : Option (Int × Bytes)) :
    ctx.openEntries.Perm (ctx.opens slot :: (ctx.close slot out).openEntries) :=
  contents_clear used rfl

section Step

variable {ctx : PairCtx} {event : LogEvent}

/-- Looking for the worker finds its open entry, or there is none. -/
theorem findOpenSlot_cases (ctx : PairCtx) (event : LogEvent) :
    (∃ slot, findOpenSlot ctx.opens event.workerId event.opened.addr event.opened.hasAddr =
        some slot ∧ (ctx.opens slot).live = true ∧ (ctx.opens slot).workerId = event.workerId) ∨
      findOpenSlot ctx.opens event.workerId event.opened.addr event.opened.hasAddr = none ∧
        ∀ entry ∈ ctx.openEntries, entry.workerId ≠ event.workerId := by
  rw [findOpenSlot_worker event.workerPos]
  cases found : first fun slot => (ctx.opens slot).live &&
      (ctx.opens slot).workerId == event.workerId with
  | some slot =>
      have passes := first_passes found
      simp only [Bool.and_eq_true, beq_iff_eq] at passes
      exact .inl ⟨slot, rfl, passes⟩
  | none =>
      refine .inr ⟨rfl, fun entry member same => ?_⟩
      obtain ⟨used, slot, rfl⟩ := mem_contents.mp member
      simpa [used, same] using first_none.mp found slot

/-- Filling a slot adds the entry, unless all slots are taken: then one entry is lost. -/
theorem fill_cases (ctx : PairCtx) {entry : PairOpen} (used : entry.live = true) :
    (ctx.openEntries.length < pairMaxOpen ∧
        (ctx.fill entry).openEntries.Perm (entry :: ctx.openEntries)) ∨
      (ctx.openEntries.length = pairMaxOpen ∧
        (ctx.fill entry).openEntries.length = pairMaxOpen) := by
  cases free : findFreeSlot ctx.opens with
  | some found =>
      have unused : (ctx.opens found).live = false := by simpa using first_passes free
      have perm := contents_fill unused used
      have bound := contents_length_le PairOpen.live (Function.update ctx.opens found entry)
      rw [perm.length_eq, List.length_cons] at bound
      refine .inl ⟨bound, ?_⟩
      simpa only [PairCtx.fill, PairCtx.openEntries, free, Option.getD_some] using perm
  | none =>
      have full : ctx.openEntries.length = pairMaxOpen := contents_full free
      have taken (slot : Fin pairMaxOpen) : (ctx.opens slot).live = true := by
        simpa using first_none.mp free slot
      have perm := (contents_replace (taken (oldestSlot ctx.opens)) used).length_eq
      simp only [List.length_cons, Nat.add_right_cancel_iff] at perm
      refine .inr ⟨full, ?_⟩
      simpa only [PairCtx.fill, PairCtx.openEntries, free, Option.getD_none] using perm.trans full

/-- What an IN event does to the table and the segments. -/
theorem pairIn_cases (ctx : PairCtx) (event : LogEvent) :
    (∃ stale rest, ctx.openEntries.Perm (stale :: rest) ∧ stale.workerId = event.workerId ∧
      (pairIn ctx event.opened).openEntries.Perm (event.opened :: rest) ∧
      (pairIn ctx event.opened).segments = ctx.segments ++ [stale.segment none]) ∨
    ((∀ entry ∈ ctx.openEntries, entry.workerId ≠ event.workerId) ∧
      (pairIn ctx event.opened).segments = ctx.segments ∧
      ((ctx.openEntries.length < pairMaxOpen ∧
          (pairIn ctx event.opened).openEntries.Perm (event.opened :: ctx.openEntries)) ∨
        (ctx.openEntries.length = pairMaxOpen ∧
          (pairIn ctx event.opened).openEntries.length = pairMaxOpen))) := by
  rcases findOpenSlot_cases ctx event with ⟨slot, found, used, worker⟩ | ⟨found, others⟩
  · have after : pairIn ctx event.opened = (ctx.close slot none).fill event.opened := by
      rw [pairIn, show findOpenSlot ctx.opens event.opened.workerId _ _ = _ from found]
    have perm := ctx.close_entries used none
    rw [after]
    refine .inl ⟨_, (ctx.close slot none).openEntries, perm, worker, ?_, rfl⟩
    rcases fill_cases (ctx.close slot none) event.opened_live with ⟨_, filled⟩ | ⟨full, _⟩
    · exact filled
    · -- the closed slot is free again
      have bound : ctx.openEntries.length ≤ pairMaxOpen := contents_length_le _ ctx.opens
      rw [perm.length_eq, List.length_cons, full] at bound
      omega
  · have after : pairIn ctx event.opened = ctx.fill event.opened := by
      rw [pairIn, show findOpenSlot ctx.opens event.opened.workerId _ _ = _ from found]
    rw [after]
    exact .inr ⟨others, rfl, fill_cases ctx event.opened_live⟩

/-- What an OUT event does to the table and the segments. -/
theorem pairOut_cases (ctx : PairCtx) (event : LogEvent) (out : Int × Bytes) :
    let after := pairOut ctx event.workerId event.opened.addr event.opened.hasAddr out
    (∃ entry, entry.workerId = event.workerId ∧
      ctx.openEntries.Perm (entry :: after.openEntries) ∧
      after.segments = ctx.segments ++ [entry.segment (some out)]) ∨
    ((∀ entry ∈ ctx.openEntries, entry.workerId ≠ event.workerId) ∧ after = ctx) := by
  intro after
  rcases findOpenSlot_cases ctx event with ⟨slot, found, used, worker⟩ | ⟨found, others⟩
  · refine .inl ⟨ctx.opens slot, worker, ?_, ?_⟩
    · simpa [after, pairOut, found] using ctx.close_entries used (some out)
    · simp [after, pairOut, found, PairCtx.close]
  · exact .inr ⟨others, by simp [after, pairOut, found]⟩

end Step

section Run

variable {ctx : PairCtx} {workers : List Nat} {event : LogEvent} {log rest : List LogEvent}

/-- The entry an event adds to the table. -/
def LogEvent.adds (event : LogEvent) : List PairOpen :=
  match event.type with
  | .evIn => [event.opened]
  | .evOut => []

/-- The end an event gives the open entry of its worker. -/
def LogEvent.closes (event : LogEvent) : Option (Int × Bytes) :=
  match event.type with
  | .evIn => none
  | .evOut => some (event.ts, event.srcText)

theorem closing_same (event : LogEvent) (rest : List LogEvent) :
    closing event.workerId (event :: rest) = event.closes := by
  simp [closing, LogEvent.closes]

/-- The segment an open entry gets from the events to come. -/
def PairOpen.settled (log : List LogEvent) (entry : PairOpen) : Segment :=
  entry.segment (closing entry.workerId log)

theorem settled_same {entry : PairOpen} (same : entry.workerId = event.workerId) :
    entry.settled (event :: rest) = entry.segment event.closes := by
  rw [PairOpen.settled, same, closing_same]

theorem settled_other {entry : PairOpen} (other : entry.workerId ≠ event.workerId) :
    entry.settled (event :: rest) = entry.settled rest := by
  rw [PairOpen.settled, closing, if_neg (Ne.symm other), PairOpen.settled]

theorem segmentsOf_cons (event : LogEvent) (rest : List LogEvent) :
    segmentsOf (event :: rest) = event.adds.map (PairOpen.settled rest) ++ segmentsOf rest := by
  cases type : event.type with
  | evOut => simp [segmentsOf, LogEvent.adds, type]
  | evIn =>
      have peer : (if (readPeer event.peer).2 = true then some (readPeer event.peer).1 else none) =
          event.peer.bind scanMac := by
        rw [readPeer]
        cases event.peer.bind scanMac <;> rfl
      simp [segmentsOf, LogEvent.adds, type, PairOpen.settled, PairOpen.segment, LogEvent.opened,
        peer]

theorem openStep_eq (workers : List Nat) (event : LogEvent) :
    openStep workers event =
      event.adds.map PairOpen.workerId ++ workers.filter (· ≠ event.workerId) := by
  cases type : event.type <;> simp [openStep, LogEvent.adds, type, LogEvent.opened]

theorem openStep_nodup (nodup : workers.Nodup) (event : LogEvent) :
    (openStep workers event).Nodup := by
  rw [openStep_eq, List.nodup_append]
  refine ⟨?_, nodup.filter _, ?_⟩
  · rw [LogEvent.adds]
    split <;> simp
  · intro worker added other kept
    have : worker = event.workerId := by
      rw [LogEvent.adds] at added
      split at added
      · simpa [LogEvent.opened] using added
      · simp at added
    rintro rfl
    simp [this] at kept

/-- The table holds the open INs of exactly these workers. -/
structure Tracks (ctx : PairCtx) (workers : List Nat) : Prop where
  perm : (ctx.openEntries.map PairOpen.workerId).Perm workers
  nodup : workers.Nodup

/-- What an event does as long as the workers fit: the worker's entry leaves the table
as a segment, and an IN adds its own. -/
structure Moves (ctx after : PairCtx) (event : LogEvent) (old kept : List PairOpen) : Prop where
  tableBefore : ctx.openEntries.Perm (old ++ kept)
  same : ∀ entry ∈ old, entry.workerId = event.workerId
  other : ∀ entry ∈ kept, entry.workerId ≠ event.workerId
  tableAfter : after.openEntries.Perm (event.adds ++ kept)
  sent : after.segments = ctx.segments ++ old.map fun entry => entry.segment event.closes

theorem Tracks.other (tracks : Tracks ctx workers) {entry : PairOpen} {entries : List PairOpen}
    (perm : ctx.openEntries.Perm (entry :: entries)) (worker : entry.workerId = event.workerId) :
    ∀ other ∈ entries, other.workerId ≠ event.workerId := by
  have nodup := (((perm.map PairOpen.workerId).symm.trans tracks.perm).nodup_iff).mpr tracks.nodup
  rw [List.map_cons, List.nodup_cons] at nodup
  intro other member same
  exact nodup.1 (List.mem_map.mpr ⟨other, member, same.trans worker.symm⟩)

/-- A worker without an open entry is not among the workers tracked. -/
theorem Tracks.filter_absent (tracks : Tracks ctx workers)
    (others : ∀ entry ∈ ctx.openEntries, entry.workerId ≠ event.workerId) :
    workers.filter (· ≠ event.workerId) = workers := by
  refine List.filter_eq_self.mpr fun worker member => ?_
  obtain ⟨entry, inside, rfl⟩ := List.mem_map.mp (tracks.perm.mem_iff.mpr member)
  simpa using others entry inside

theorem pairStep_moves (tracks : Tracks ctx workers) (fits : Fits workers event) :
    ∃ old kept, Moves ctx (pairStep ctx event) event old kept := by
  cases type : event.type with
  | evIn =>
      have adds : event.adds = [event.opened] := by rw [LogEvent.adds, type]
      have closes : event.closes = none := by rw [LogEvent.closes, type]
      rw [pairStep, type]
      rcases pairIn_cases ctx event with
        ⟨stale, kept, before, worker, after, segments⟩ | ⟨others, segments, room | full⟩
      · refine ⟨[stale], kept, before, by simpa using worker, tracks.other before worker, ?_, ?_⟩
        · rwa [adds]
        · rw [segments, closes]
          rfl
      · refine ⟨[], ctx.openEntries, .refl _, by simp, others, ?_, by simpa using segments⟩
        rw [adds]
        exact room.2
      · -- the worker is one more than the slots
        have count := tracks.perm.length_eq
        rw [Fits, openStep_eq, adds, tracks.filter_absent others, List.length_append, ← count,
          List.length_map, List.length_map, full.1] at fits
        simp at fits
  | evOut =>
      have adds : event.adds = [] := by rw [LogEvent.adds, type]
      have closes : event.closes = some (event.ts, event.srcText) := by rw [LogEvent.closes, type]
      rw [pairStep, type]
      rcases pairOut_cases ctx event (event.ts, event.srcText) with
        ⟨entry, worker, before, segments⟩ | ⟨others, same⟩
      · refine ⟨[entry], _, before, by simpa using worker, tracks.other before worker, ?_, ?_⟩
        · rw [adds]
          exact .refl _
        · rw [segments, closes]
          rfl
      · refine ⟨[], ctx.openEntries, .refl _, by simp, others, ?_, ?_⟩
        · rw [adds, same]
          exact .refl _
        · rw [same]
          simp

theorem Moves.tracks {after : PairCtx} {old kept : List PairOpen}
    (moves : Moves ctx after event old kept) (tracks : Tracks ctx workers) :
    Tracks after (openStep workers event) := by
  have filtered : (kept.map PairOpen.workerId).Perm (workers.filter (· ≠ event.workerId)) := by
    have perm := ((moves.tableBefore.map PairOpen.workerId).symm.trans tracks.perm).filter
      (· ≠ event.workerId)
    have none : (old.map PairOpen.workerId).filter (· ≠ event.workerId) = [] := by
      simp only [List.filter_eq_nil_iff, List.mem_map]
      rintro _ ⟨entry, member, rfl⟩
      simpa using moves.same entry member
    have all : (kept.map PairOpen.workerId).filter (· ≠ event.workerId) =
        kept.map PairOpen.workerId := by
      simp only [List.filter_eq_self, List.mem_map]
      rintro _ ⟨entry, member, rfl⟩
      simpa using moves.other entry member
    rwa [List.map_append, List.filter_append, none, all, List.nil_append] at perm
  have perm := moves.tableAfter.map PairOpen.workerId
  rw [List.map_append] at perm
  replace perm := perm.trans (filtered.append_left (event.adds.map PairOpen.workerId))
  rw [← openStep_eq] at perm
  exact ⟨perm, openStep_nodup tracks.nodup event⟩

/-- Segments sent and segments to come are the same before and after an event. -/
theorem Moves.settled {after : PairCtx} {old kept : List PairOpen}
    (moves : Moves ctx after event old kept) (rest : List LogEvent) :
    (after.segments ++ (after.openEntries.map (PairOpen.settled rest) ++ segmentsOf rest)).Perm
      (ctx.segments ++
        (ctx.openEntries.map (PairOpen.settled (event :: rest)) ++ segmentsOf (event :: rest))) := by
  have oldSame : old.map (PairOpen.settled (event :: rest)) =
      old.map fun entry => entry.segment event.closes :=
    List.map_congr_left fun entry member => settled_same (moves.same entry member)
  have keptSame : kept.map (PairOpen.settled (event :: rest)) = kept.map (PairOpen.settled rest) :=
    List.map_congr_left fun entry member => settled_other (moves.other entry member)
  have now := moves.tableAfter.map (PairOpen.settled rest)
  have before := moves.tableBefore.map (PairOpen.settled (event :: rest))
  rw [List.map_append] at now
  rw [List.map_append, oldSame, keptSame] at before
  rw [moves.sent, List.append_assoc, segmentsOf_cons]
  refine List.Perm.append_left _ ?_
  refine ((now.append_right _).append_left _).trans ?_
  refine List.Perm.trans ?_ (before.append_right _).symm
  rw [List.append_assoc, List.append_assoc]
  exact (List.perm_append_comm_assoc _ _ _).append_left _

/-- As long as the workers fit, the view sends exactly the segments of the log. -/
theorem run_finish_perm (tracks : Tracks ctx workers) (fits : Guarded openStep Fits workers log) :
    (run pairStep ctx log).finish.Perm
      (ctx.segments ++ (ctx.openEntries.map (PairOpen.settled log) ++ segmentsOf log)) := by
  induction log generalizing ctx workers with
  | nil =>
      rw [segmentsOf, List.append_nil]
      exact .refl _
  | cons event rest ih =>
      obtain ⟨old, kept, moves⟩ := pairStep_moves tracks fits.1
      exact (ih (moves.tracks tracks) fits.2).trans (moves.settled rest)

/-- Segments sent and open entries, which the last pass sends. -/
def PairCtx.size (ctx : PairCtx) : Nat := ctx.segments.length + ctx.openEntries.length

theorem PairCtx.finish_length (ctx : PairCtx) : ctx.finish.length = ctx.size := by
  simp [PairCtx.finish, PairCtx.size, PairCtx.openEntries]

theorem pairStep_size_le (ctx : PairCtx) (event : LogEvent) :
    (pairStep ctx event).size ≤ ctx.size + event.adds.length := by
  cases type : event.type with
  | evIn =>
      rw [pairStep, LogEvent.adds, type]
      rcases pairIn_cases ctx event with
        ⟨stale, kept, before, _, after, sent⟩ | ⟨_, sent, room | full⟩
      · simp only [PairCtx.size, before.length_eq, after.length_eq, sent, List.length_append,
          List.length_cons, List.length_nil]
        omega
      · simp only [PairCtx.size, room.2.length_eq, sent, List.length_cons, List.length_nil]
        omega
      · simp only [PairCtx.size, full.1, full.2, sent]
        omega
  | evOut =>
      rw [pairStep, LogEvent.adds, type]
      rcases pairOut_cases ctx event (event.ts, event.srcText) with
        ⟨entry, _, before, sent⟩ | ⟨_, same⟩
      · simp only [PairCtx.size, before.length_eq, sent, List.length_append, List.length_cons,
          List.length_nil]
        omega
      · rw [same]
        exact Nat.le_add_right _ _

/-- An IN of one worker too many costs a segment. -/
theorem pairStep_size_lt (tracks : Tracks ctx workers) (overfull : ¬ Fits workers event) :
    (pairStep ctx event).size < ctx.size + event.adds.length := by
  have bound : ctx.openEntries.length ≤ pairMaxOpen := contents_length_le _ ctx.opens
  have count : ctx.openEntries.length = workers.length := by
    simpa using tracks.perm.length_eq
  have fewer := List.length_filter_le (· ≠ event.workerId) workers
  rw [Fits, openStep_eq, List.length_append, List.length_map] at overfull
  cases type : event.type with
  | evOut =>
      rw [LogEvent.adds, type, List.length_nil] at overfull
      omega
  | evIn =>
      rw [LogEvent.adds, type, List.length_singleton] at overfull
      rw [pairStep, LogEvent.adds, type]
      rcases pairIn_cases ctx event with
        ⟨stale, kept, before, worker, _, _⟩ | ⟨_, sent, room | full⟩
      · -- the worker is among those tracked
        have inside : stale.workerId ∈ workers :=
          tracks.perm.mem_iff.mp (List.mem_map_of_mem (before.mem_iff.mpr (by simp)))
        have strict : (workers.filter (· ≠ event.workerId)).length < workers.length :=
          List.length_filter_lt_length_iff_exists.mpr ⟨_, inside, by simp [worker]⟩
        omega
      · omega
      · simp only [PairCtx.size, full.1, full.2, sent, List.length_singleton]
        omega

theorem run_size_le (ctx : PairCtx) (log : List LogEvent) :
    (run pairStep ctx log).size ≤ ctx.size + (segmentsOf log).length := by
  induction log generalizing ctx with
  | nil => exact Nat.le_add_right _ _
  | cons event rest ih =>
      have step := pairStep_size_le ctx event
      have later := ih (pairStep ctx event)
      rw [run_cons, segmentsOf_cons, List.length_append, List.length_map]
      omega

theorem run_size_lt (tracks : Tracks ctx workers)
    (overfull : ¬ Guarded openStep Fits workers log) :
    (run pairStep ctx log).size < ctx.size + (segmentsOf log).length := by
  induction log generalizing ctx workers with
  | nil => exact absurd trivial overfull
  | cons event rest ih =>
      rw [run_cons, segmentsOf_cons, List.length_append, List.length_map]
      by_cases fits : Fits workers event
      · obtain ⟨old, kept, moves⟩ := pairStep_moves tracks fits
        have later := ih (moves.tracks tracks) fun guarded => overfull ⟨fits, guarded⟩
        have step := pairStep_size_le ctx event
        omega
      · have step := pairStep_size_lt tracks fits
        have later := run_size_le (pairStep ctx event) rest
        omega

theorem start_openEntries (fromTs toTs : Int) : (PairCtx.start fromTs toTs).openEntries = [] := by
  rw [PairCtx.openEntries, contents, List.filter_eq_nil_iff]
  intro entry member
  obtain ⟨slot, _, rfl⟩ := List.mem_map.mp member
  simp [PairCtx.start, PairOpen.live, PairOpen.zero]

theorem start_tracks (fromTs toTs : Int) : Tracks (PairCtx.start fromTs toTs) [] :=
  ⟨by rw [start_openEntries]; exact .refl _, List.nodup_nil⟩

theorem pairedView_run (log : List LogEvent) :
    pairedView (logLines log) = (run pairStep (PairCtx.start 0 0) log).finish := by
  rw [pairedView, pairedRun, foldl_pairedIterCb fun event _ => ⟨.inl rfl, rfl⟩]
  rfl

/-- The paired view reports one segment for each IN, closed by its own OUT, if and only
if at no moment of the log more than 16 workers have an open IN. -/
theorem pairedView_perm_iff (log : List LogEvent) :
    (pairedView (logLines log)).Perm (segmentsOf log) ↔ Guarded openStep Fits [] log := by
  rw [pairedView_run]
  constructor
  · intro perm
    by_contra overfull
    have lost := run_size_lt (start_tracks 0 0) overfull
    rw [← PairCtx.finish_length, perm.length_eq, PairCtx.size, start_openEntries] at lost
    simp [PairCtx.start] at lost
  · intro fits
    have perm := run_finish_perm (start_tracks 0 0) fits
    rwa [start_openEntries] at perm

/-- Worker `id` arrives at time `id`. -/
def arrival (id : Fin 17) : LogEvent where
  type := .evIn
  ts := id.val + 1
  workerId := id.val + 1
  monoUs := none
  peer := none
  src := none
  tsPos := by omega
  workerPos := by omega
  workerShort := by omega

/-- Seventeen workers of a registry of 32 come in: the first one's segment is lost. -/
theorem pairedView_loses_arrival :
    ¬ ∀ log : List LogEvent, (log.map LogEvent.workerId).dedup.length ≤ 32 →
      (pairedView (logLines log)).Perm (segmentsOf log) := by
  intro claimed
  have perm := claimed ((List.finRange 17).map arrival) (by decide)
  have overfull : ¬ Guarded openStep Fits [] ((List.finRange 17).map arrival) := by decide
  have lost := run_size_lt (start_tracks 0 0) overfull
  rw [pairedView_run] at perm
  rw [← PairCtx.finish_length, perm.length_eq, PairCtx.size, start_openEntries] at lost
  simp [PairCtx.start] at lost

end Run

end LeanDingdong
