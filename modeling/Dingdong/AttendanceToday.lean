import Dingdong.AttendancePaired
import Dingdong.ListTable

/-!
The summary of the day against the paired view. Both folds keep, for each worker,
what `visits` says of the worker's own events: the open IN, the seconds spent in
closed segments and how many there were.
-/

namespace LeanDingdong

open SlotTable Runs

/-- One worker's attendance: the IN still open, the time of the closed segments and
their number. -/
structure Visits where
  inTs : Option Int
  spent : Int
  closed : Nat

def Visits.none : Visits := { inTs := Option.none, spent := 0, closed := 0 }

def Visits.step (visits : Visits) (event : LogEvent) : Visits :=
  match event.type, visits.inTs with
  | .evIn, _ => { visits with inTs := some event.ts }
  | .evOut, Option.none => visits
  | .evOut, some ts =>
      { inTs := Option.none, spent := visits.spent + (event.ts - ts), closed := visits.closed + 1 }

/-- The attendance of one worker after a log. -/
def visitsOf (workerId : Nat) (log : List LogEvent) : Visits :=
  (log.filter (·.workerId = workerId)).foldl Visits.step Visits.none

section Visits

variable {workerId : Nat} {past : List LogEvent} {event : LogEvent}

theorem visitsOf_same (past : List LogEvent) (event : LogEvent) :
    visitsOf event.workerId (past ++ [event]) = (visitsOf event.workerId past).step event := by
  simp [visitsOf, List.filter_append]

theorem visitsOf_other (other : workerId ≠ event.workerId) :
    visitsOf workerId (past ++ [event]) = visitsOf workerId past := by
  simp [visitsOf, List.filter_append, Ne.symm other]

theorem visitsOf_absent (absent : workerId ∉ past.map LogEvent.workerId) :
    visitsOf workerId past = Visits.none := by
  have empty : past.filter (·.workerId = workerId) = [] := by
    simp only [List.filter_eq_nil_iff, decide_eq_true_eq]
    intro event member same
    exact absent (List.mem_map.mpr ⟨event, member, same⟩)
  rw [visitsOf, empty, List.foldl_nil]

/-- An open IN is one of the log's events. -/
theorem visitsOf_inTs_mem {ts : Int} (inside : (visitsOf workerId past).inTs = some ts) :
    ∃ event ∈ past, event.ts = ts := by
  induction past using List.reverseRecOn with
  | nil => simp [visitsOf, Visits.none] at inside
  | append_singleton past event ih =>
      by_cases same : workerId = event.workerId
      · subst same
        rw [visitsOf_same, Visits.step] at inside
        split at inside
        · exact ⟨event, by simp, by simpa using inside⟩
        · obtain ⟨other, member, ts⟩ := ih inside
          exact ⟨other, by simp [member], ts⟩
        · simp at inside
      · rw [visitsOf_other same] at inside
        obtain ⟨other, member, ts⟩ := ih inside
        exact ⟨other, by simp [member], ts⟩

end Visits

/-- A log of one local day: events in order, no more workers than the summary lists. -/
structure DayLog (cutoff : Int) (log : List LogEvent) : Prop where
  inDay : ∀ event ∈ log, cutoff ≤ event.ts ∧ event.ts < cutoff + 86400
  sorted : log.Pairwise fun first second => first.ts ≤ second.ts
  few : (log.map LogEvent.workerId).dedup.length ≤ todayMaxWorkers

namespace DayLog

variable {cutoff : Int} {past : List LogEvent} {event : LogEvent}

theorem init (day : DayLog cutoff (past ++ [event])) : DayLog cutoff past where
  inDay other member := day.inDay other (by simp [member])
  sorted := (List.pairwise_append.mp day.sorted).1
  few := by
    have fewer : (past.map LogEvent.workerId).dedup.length ≤
        ((past ++ [event]).map LogEvent.workerId).dedup.length := by
      refine (List.subperm_of_subset (List.nodup_dedup _) fun worker member => ?_).length_le
      rw [List.mem_dedup] at member ⊢
      simp only [List.map_append, List.mem_append]
      exact .inl member
    exact fewer.trans day.few

/-- An open IN lies in the day and not after the next event. -/
theorem open_bounds (day : DayLog cutoff (past ++ [event])) {workerId : Nat} {ts : Int}
    (inside : (visitsOf workerId past).inTs = some ts) :
    0 < ts ∧ 0 ≤ event.ts - ts ∧ event.ts - ts < 86400 := by
  obtain ⟨other, member, rfl⟩ := visitsOf_inTs_mem inside
  have first := day.inDay other (by simp [member])
  have last := day.inDay event (by simp)
  have order := (List.pairwise_append.mp day.sorted).2.2 other member event (by simp)
  have := other.tsPos
  omega

/-- Distinct workers of the log are no more than the lists hold. -/
theorem nodup_length_le {log : List LogEvent} (day : DayLog cutoff log) {workers : List Nat}
    (nodup : workers.Nodup) (inside : ∀ worker ∈ workers, worker ∈ log.map LogEvent.workerId) :
    workers.length ≤ todayMaxWorkers := by
  refine le_trans (List.subperm_of_subset nodup fun worker member => ?_).length_le day.few
  rw [List.mem_dedup]
  exact inside worker member

end DayLog

section Paired

/-- The worker's segments with an OUT. -/
def closedOf (workerId : Nat) (segments : List Segment) : List Segment :=
  segments.filter fun segment => segment.workerId = workerId ∧ segment.out.isSome

/-- `duration_s` -/
def Segment.duration (segment : Segment) : Int :=
  match segment.out with
  | none => 0
  | some (outTs, _) => outTs - segment.inTs

def closedSeconds (workerId : Nat) (segments : List Segment) : Int :=
  ((closedOf workerId segments).map Segment.duration).sum

/-- The table and the segments say what the worker's own events say. -/
structure PairAgrees (ctx : PairCtx) (past : List LogEvent) : Prop where
  tracks : Tracks ctx (run openStep [] past)
  openIn : ∀ entry ∈ ctx.openEntries, (visitsOf entry.workerId past).inTs = some entry.inTs
  openAll : ∀ workerId, (visitsOf workerId past).inTs.isSome →
    ∃ entry ∈ ctx.openEntries, entry.workerId = workerId
  spent : ∀ workerId, closedSeconds workerId ctx.segments = (visitsOf workerId past).spent
  closed : ∀ workerId, (closedOf workerId ctx.segments).length = (visitsOf workerId past).closed

theorem openRun_mem {log : List LogEvent} {worker : Nat}
    (inside : worker ∈ run openStep [] log) : worker ∈ log.map LogEvent.workerId := by
  induction log using List.reverseRecOn with
  | nil => simp at inside
  | append_singleton past event ih =>
      rw [run_append, run_cons, run_nil, openStep_eq, List.mem_append, List.mem_filter] at inside
      rw [List.map_append, List.mem_append]
      rcases inside with added | ⟨kept, _⟩
      · right
        rw [LogEvent.adds] at added
        split at added
        · simpa [LogEvent.opened] using added
        · simp at added
      · exact .inl (ih kept)

variable {cutoff : Int} {ctx : PairCtx} {past : List LogEvent} {event : LogEvent}

theorem DayLog.fits (day : DayLog cutoff (past ++ [event]))
    (tracks : Tracks ctx (run openStep [] past)) : Fits (run openStep [] past) event := by
  have after : openStep (run openStep [] past) event = run openStep [] (past ++ [event]) := by
    rw [run_append, run_cons, run_nil]
  rw [Fits]
  refine day.nodup_length_le (openStep_nodup tracks.nodup event) fun worker inside => ?_
  rw [after] at inside
  exact openRun_mem inside

/-- A worker has one open entry at most. -/
theorem Moves.old_cases {after : PairCtx} {workers : List Nat} {old kept : List PairOpen}
    (moves : Moves ctx after event old kept) (tracks : Tracks ctx workers) :
    old = [] ∨ ∃ entry, old = [entry] := by
  match old, moves with
  | [], _ => exact .inl rfl
  | [entry], _ => exact .inr ⟨entry, rfl⟩
  | first :: second :: rest, moves =>
      have nodup := (((moves.tableBefore.map PairOpen.workerId).symm.trans tracks.perm).nodup_iff).mpr
        tracks.nodup
      simp [moves.same first (by simp), moves.same second (by simp)] at nodup

/-- What an event's segments add to a worker's closed ones. -/
theorem Moves.closedOf {after : PairCtx} {old kept : List PairOpen}
    (moves : Moves ctx after event old kept) (workerId : Nat) :
    LeanDingdong.closedOf workerId after.segments =
      LeanDingdong.closedOf workerId ctx.segments ++
        if workerId = event.workerId ∧ event.type = .evOut then
          old.map fun entry => entry.segment event.closes
        else [] := by
  rw [moves.sent, LeanDingdong.closedOf, LeanDingdong.closedOf, List.filter_append]
  congr 1
  split
  · rename_i condition
    refine List.filter_eq_self.mpr fun segment member => ?_
    obtain ⟨entry, inside, rfl⟩ := List.mem_map.mp member
    simp [PairOpen.segment, LogEvent.closes, condition.1, condition.2, moves.same entry inside]
  · rename_i condition
    refine List.filter_eq_nil_iff.mpr fun segment member => ?_
    obtain ⟨entry, inside, rfl⟩ := List.mem_map.mp member
    have worker : (entry.segment event.closes).workerId = event.workerId := moves.same entry inside
    cases type : event.type with
    | evIn => simp [PairOpen.segment, LogEvent.closes, type]
    | evOut =>
        have other : event.workerId ≠ workerId := fun same => condition ⟨same.symm, type⟩
        simp [worker, other]

/-- The entry an event takes out of the table is its worker's open IN. -/
theorem PairAgrees.old_inTs {after : PairCtx} {old kept : List PairOpen}
    (agrees : PairAgrees ctx past) (moves : Moves ctx after event old kept) :
    (visitsOf event.workerId past).inTs = old.head?.map PairOpen.inTs := by
  rcases moves.old_cases agrees.tracks with rfl | ⟨entry, rfl⟩
  · by_contra some
    obtain ⟨entry, inside, worker⟩ := agrees.openAll _ (Option.isSome_iff_ne_none.mpr some)
    exact moves.other entry (by simpa using moves.tableBefore.mem_iff.mp inside) worker
  · rw [← moves.same entry (by simp)]
    exact agrees.openIn entry (moves.tableBefore.mem_iff.mpr (by simp))

theorem PairAgrees.tally {after : PairCtx} {old kept : List PairOpen}
    (agrees : PairAgrees ctx past) (moves : Moves ctx after event old kept) (workerId : Nat) :
    closedSeconds workerId after.segments = (visitsOf workerId (past ++ [event])).spent ∧
      (closedOf workerId after.segments).length =
        (visitsOf workerId (past ++ [event])).closed := by
  have spent := agrees.spent workerId
  have closed := agrees.closed workerId
  have oldIn := agrees.old_inTs moves
  rw [closedSeconds] at spent ⊢
  rw [moves.closedOf]
  by_cases worker : workerId = event.workerId
  · subst worker
    rw [visitsOf_same, Visits.step]
    cases type : event.type with
    | evIn => simp [spent, closed]
    | evOut =>
        rcases moves.old_cases agrees.tracks with rfl | ⟨entry, rfl⟩
        · simp only [List.head?_nil, Option.map_none] at oldIn
          simp [oldIn, spent, closed]
        · simp only [List.head?_cons, Option.map_some] at oldIn
          simp [oldIn, spent, closed, Segment.duration, PairOpen.segment, LogEvent.closes, type]
  · rw [visitsOf_other worker]
    simp [worker, spent, closed]

theorem PairAgrees.step (day : DayLog cutoff (past ++ [event])) (agrees : PairAgrees ctx past) :
    PairAgrees (pairStep ctx event) (past ++ [event]) := by
  obtain ⟨old, kept, moves⟩ := pairStep_moves agrees.tracks (day.fits agrees.tracks)
  have keptBefore {entry : PairOpen} (member : entry ∈ kept) : entry ∈ ctx.openEntries :=
    moves.tableBefore.mem_iff.mpr (List.mem_append_right _ member)
  have same : visitsOf event.workerId (past ++ [event]) =
      (visitsOf event.workerId past).step event := visitsOf_same past event
  have oldIn := agrees.old_inTs moves
  refine ⟨?_, ?_, ?_, fun workerId => (agrees.tally moves workerId).1,
    fun workerId => (agrees.tally moves workerId).2⟩
  · rw [run_append, run_cons, run_nil]
    exact moves.tracks agrees.tracks
  · intro entry member
    rcases List.mem_append.mp (moves.tableAfter.mem_iff.mp member) with added | stays
    · cases type : event.type with
      | evOut => simp [LogEvent.adds, type] at added
      | evIn =>
          rw [LogEvent.adds, type, List.mem_singleton] at added
          subst added
          simp only [LogEvent.opened, same, Visits.step, type]
    · rw [visitsOf_other (moves.other entry stays)]
      exact agrees.openIn entry (keptBefore stays)
  · intro workerId inside
    by_cases worker : workerId = event.workerId
    · subst worker
      cases type : event.type with
      | evIn =>
          refine ⟨event.opened, moves.tableAfter.mem_iff.mpr ?_, rfl⟩
          simp [LogEvent.adds, type]
      | evOut =>
          rw [same, Visits.step, type] at inside
          split at inside <;> simp_all
    · rw [visitsOf_other worker] at inside
      obtain ⟨entry, present, named⟩ := agrees.openAll workerId inside
      refine ⟨entry, moves.tableAfter.mem_iff.mpr (List.mem_append_right _ ?_), named⟩
      rcases List.mem_append.mp (moves.tableBefore.mem_iff.mp present) with gone | stays
      · exact absurd (named.symm.trans (moves.same entry gone)) worker
      · exact stays

theorem PairAgrees.run {log : List LogEvent} (day : DayLog cutoff log) (fromTs : Int) :
    PairAgrees (Runs.run pairStep (PairCtx.start fromTs 0) log) log := by
  induction log using List.reverseRecOn with
  | nil =>
      refine ⟨start_tracks _ _, ?_, ?_, fun _ => rfl, fun _ => rfl⟩
      · simp [start_openEntries]
      · simp [visitsOf, Visits.none]
  | append_singleton past event ih =>
      rw [run_append, run_cons, run_nil]
      exact (ih day.init).step day

end Paired

section Today

/-- The entry says what the worker's own events say. -/
structure TodayWorker.Agrees (entry : TodayWorker) (past : List LogEvent) : Prop where
  inTs : entry.inTs = (visitsOf entry.workerId past).inTs.getD 0
  currentlyIn : entry.currentlyIn = (visitsOf entry.workerId past).inTs.isSome
  spent : entry.totalSeconds = (visitsOf entry.workerId past).spent
  closed : entry.segments = (visitsOf entry.workerId past).closed

/-- The summary lists the log's workers once each, and agrees with their events. -/
structure TodayAgrees (list : List TodayWorker) (past : List LogEvent) : Prop where
  nodup : (list.map TodayWorker.workerId).Nodup
  workers : ∀ workerId, workerId ∈ list.map TodayWorker.workerId ↔
    workerId ∈ past.map LogEvent.workerId
  entries : ∀ entry ∈ list, entry.Agrees past

variable {cutoff : Int} {list : List TodayWorker} {past : List LogEvent} {event : LogEvent}

/-- A duration inside the day passes the cast and the guard. -/
theorem countedSeconds_day {dur : Int} (lower : 0 ≤ dur) (upper : dur < 86400) :
    countedSeconds (castInt dur) = dur := by
  rw [castInt_exact (by omega) (by omega), countedSeconds]
  split <;> omega

theorem TodayWorker.event_workerId (isIn : Bool) (ts : Int) (src : Option Bytes)
    (entry : TodayWorker) : (entry.event isIn ts src).workerId = entry.workerId := by
  unfold TodayWorker.event
  split
  · rfl
  · split <;> rfl

/-- The event's own entry agrees again after it. -/
theorem TodayWorker.Agrees.step {entry : TodayWorker}
    (day : DayLog cutoff (past ++ [event])) (agrees : entry.Agrees past)
    (worker : entry.workerId = event.workerId) :
    (entry.event (event.type = .evIn) event.ts event.src).Agrees (past ++ [event]) := by
  have inTs := agrees.inTs
  have currentlyIn := agrees.currentlyIn
  have spent := agrees.spent
  have closed := agrees.closed
  rw [worker] at inTs currentlyIn spent closed
  constructor
  all_goals
    rw [TodayWorker.event_workerId, worker, visitsOf_same, Visits.step]
    unfold TodayWorker.event
    cases type : event.type with
    | evIn => simp [spent, closed]
    | evOut =>
        cases inside : (visitsOf event.workerId past).inTs with
        | none => simp_all
        | some ts =>
            have inDay := day.open_bounds inside
            rw [inside, Option.getD_some] at inTs
            simp [inTs, inDay.1, spent, closed, countedSeconds_day inDay.2.1 inDay.2.2]

theorem TodayWorker.Agrees.other {entry : TodayWorker} (agrees : entry.Agrees past)
    (other : entry.workerId ≠ event.workerId) : entry.Agrees (past ++ [event]) := by
  have same : visitsOf entry.workerId (past ++ [event]) = visitsOf entry.workerId past :=
    visitsOf_other other
  exact ⟨same ▸ agrees.inTs, same ▸ agrees.currentlyIn, same ▸ agrees.spent, same ▸ agrees.closed⟩

/-- One event changes the entry of its worker, which is made first when there is none
and the list has room. -/
theorem todayIterCb_json (inDay : cutoff ≤ event.ts)
    (room : event.workerId ∉ list.map TodayWorker.workerId → list.length < todayMaxWorkers) :
    ∃ front entry back,
      todayIterCb cutoff list (some event.json) =
        front ++ entry.event (event.type = .evIn) event.ts event.src :: back ∧
      entry.workerId = event.workerId ∧
      (list = front ++ entry :: back ∨
        event.workerId ∉ list.map TodayWorker.workerId ∧ list = front ∧ back = [] ∧
          ∃ addr hasAddr, entry = TodayWorker.new event.workerId addr hasAddr) := by
  have worker := event.readWorkerId_json
  have isIn : decide (eventTypeStr event.type = ascii "in") = decide (event.type = .evIn) := by
    cases event.type <;> decide
  have named : event.workerId ≠ 0 := event.workerPos.ne'
  simp only [LogEvent.json] at worker
  simp only [todayIterCb, LogEvent.json, worker, isIn, if_neg (not_lt.mpr inDay), todayGetOrCreate]
  set passes : TodayWorker → Bool := fun entry =>
    (decide (event.workerId ≠ 0) && entry.workerId == event.workerId) ||
      (decide (event.workerId = 0) && (readPeer event.peer).2 && entry.hasAddr &&
        entry.addr == (readPeer event.peer).1)
  have passes_iff (entry : TodayWorker) : passes entry = true ↔ entry.workerId = event.workerId := by
    simp [passes, named]
  cases found : list.findIdx? passes with
  | some index =>
      obtain ⟨front, entry, back, rfl, rfl, here⟩ := ListTable.findIdx?_split found
      exact ⟨front, entry, back, ListTable.modify_split front entry back _,
        (passes_iff entry).mp here, .inl rfl⟩
  | none =>
      have absent : event.workerId ∉ list.map TodayWorker.workerId := by
        intro member
        obtain ⟨entry, inside, same⟩ := List.mem_map.mp member
        have := List.findIdx?_eq_none_iff.mp found entry inside
        rw [(passes_iff entry).mpr same] at this
        exact absurd this (by decide)
      have free : ¬ todayMaxWorkers ≤ list.length := not_le.mpr (room absent)
      refine ⟨list, TodayWorker.new event.workerId (readPeer event.peer).1 (readPeer event.peer).2,
        [], ?_, rfl, .inr ⟨absent, rfl, rfl, _, _, rfl⟩⟩
      simp [if_neg free, List.modify_eq_take_cons_drop]

theorem TodayWorker.new_agrees {workerId : Nat} {addr : Addr} {hasAddr : Bool}
    (absent : workerId ∉ past.map LogEvent.workerId) :
    (TodayWorker.new workerId addr hasAddr).Agrees past := by
  have none := visitsOf_absent absent
  constructor <;> simp [TodayWorker.new, none, Visits.none]

/-- Only the entry of the event's worker changes. -/
theorem entries_step {front back : List TodayWorker} {entry : TodayWorker}
    (day : DayLog cutoff (past ++ [event]))
    (nodup : ((front ++ entry :: back).map TodayWorker.workerId).Nodup)
    (worker : entry.workerId = event.workerId)
    (entries : ∀ other ∈ front ++ entry :: back, other.Agrees past) :
    ∀ other ∈ front ++ entry.event (event.type = .evIn) event.ts event.src :: back,
      other.Agrees (past ++ [event]) := by
  have outside {other : TodayWorker} (member : other ∈ front ∨ other ∈ back) :
      other.workerId ≠ event.workerId := by
    rw [List.map_append, List.map_cons, List.nodup_append, List.nodup_cons] at nodup
    rw [← worker]
    rcases member with before | after
    · exact nodup.2.2 _ (List.mem_map_of_mem before) _ (by simp)
    · exact fun same => nodup.2.1.1 (same ▸ List.mem_map_of_mem after)
  intro other member
  rcases List.mem_append.mp member with before | rest
  · exact (entries other (by simp [before])).other (outside (.inl before))
  · rcases List.mem_cons.mp rest with rfl | after
    · exact (entries entry (by simp)).step day worker
    · exact (entries other (by simp [after])).other (outside (.inr after))

theorem TodayAgrees.step (day : DayLog cutoff (past ++ [event])) (agrees : TodayAgrees list past) :
    TodayAgrees (todayIterCb cutoff list (some event.json)) (past ++ [event]) := by
  have room (absent : event.workerId ∉ list.map TodayWorker.workerId) :
      list.length < todayMaxWorkers := by
    have bound := day.nodup_length_le (List.nodup_cons.mpr ⟨absent, agrees.nodup⟩) (by
      intro worker member
      rw [List.map_append, List.mem_append]
      rcases List.mem_cons.mp member with rfl | listed
      · exact .inr (by simp)
      · exact .inl ((agrees.workers worker).mp listed))
    simpa using bound
  obtain ⟨front, entry, back, result, worker, found | ⟨absent, rfl, rfl, addr, hasAddr, rfl⟩⟩ :=
    todayIterCb_json (day.inDay event (by simp)).1 room
  · subst found
    rw [result]
    refine ⟨?_, ?_, entries_step day agrees.nodup worker agrees.entries⟩
    · simpa [TodayWorker.event_workerId] using agrees.nodup
    · intro workerId
      have listed := agrees.workers workerId
      have own := (agrees.workers event.workerId).mp (by simp [worker])
      simp only [List.map_append, List.map_cons, TodayWorker.event_workerId, List.mem_append,
        List.mem_singleton, List.map_nil] at listed ⊢
      rw [listed]
      constructor
      · exact .inl
      · rintro (inside | rfl)
        · exact inside
        · exact own
  · have unseen : event.workerId ∉ past.map LogEvent.workerId :=
      fun seen => absent ((agrees.workers _).mpr seen)
    have nodup : ((list ++ [TodayWorker.new event.workerId addr hasAddr]).map
        TodayWorker.workerId).Nodup := ListTable.nodup_add agrees.nodup absent
    rw [result]
    refine ⟨?_, ?_, entries_step day nodup worker ?_⟩
    · simpa [TodayWorker.event_workerId] using nodup
    · intro workerId
      have listed := agrees.workers workerId
      simp only [List.map_append, List.map_cons, TodayWorker.event_workerId, List.mem_append,
        List.mem_singleton, List.map_nil, listed, worker]
    · intro other member
      rcases List.mem_append.mp member with known | new
      · exact agrees.entries other known
      · rw [List.mem_singleton.mp new]
        exact TodayWorker.new_agrees unseen

theorem TodayAgrees.run {log : List LogEvent} (day : DayLog cutoff log) :
    TodayAgrees (todayRun cutoff (logLines log)) log := by
  induction log using List.reverseRecOn with
  | nil => exact ⟨List.nodup_nil, by simp [todayRun, logLines], by simp [todayRun, logLines]⟩
  | append_singleton past event ih =>
      rw [todayRun, logLines, List.map_append, List.foldl_append]
      exact (ih day.init).step day

/-- `now - in_ts` of the slot the paired view ends with for the worker, 0 without one. -/
def PairCtx.runningSeconds (ctx : PairCtx) (workerId : Nat) (now : Int) : Int :=
  match findOpenSlot ctx.opens workerId Addr.zero false with
  | some slot => now - (ctx.opens slot).inTs
  | none => 0

/-- The paired view ends with a slot for the worker exactly when the worker's last IN is
open, and the slot holds its time. -/
theorem PairAgrees.open_slot {ctx : PairCtx} (agrees : PairAgrees ctx past) {workerId : Nat}
    (positive : 0 < workerId) :
    (findOpenSlot ctx.opens workerId Addr.zero false).map (fun slot => (ctx.opens slot).inTs) =
      (visitsOf workerId past).inTs := by
  rw [findOpenSlot_worker positive]
  cases found : first fun slot => (ctx.opens slot).live && (ctx.opens slot).workerId == workerId with
  | some slot =>
      have passes := first_passes found
      simp only [Bool.and_eq_true, beq_iff_eq] at passes
      rw [Option.map_some, ← passes.2]
      exact (agrees.openIn _ (slot_mem_contents passes.1)).symm
  | none =>
      rw [Option.map_none, eq_comm, ← Option.not_isSome_iff_eq_none]
      intro inside
      obtain ⟨entry, member, same⟩ := agrees.openAll workerId inside
      obtain ⟨used, slot, rfl⟩ := mem_contents.mp member
      simpa [used, same] using first_none.mp found slot

section UpToNow

variable (now : Int) (entry : TodayWorker)

theorem TodayWorker.upToNow_workerId : (entry.upToNow now).workerId = entry.workerId := by
  unfold TodayWorker.upToNow
  split <;> rfl

theorem TodayWorker.upToNow_segments : (entry.upToNow now).segments = entry.segments := by
  unfold TodayWorker.upToNow
  split <;> rfl

theorem TodayWorker.upToNow_currentlyIn :
    (entry.upToNow now).currentlyIn = entry.currentlyIn := by
  unfold TodayWorker.upToNow
  split <;> rfl

end UpToNow

/-- For each worker of a day's log the summary and the paired view give the same time,
the same number of closed segments and the same presence. -/
theorem todayGet_agrees_paired {cutoff now : Int} {log : List LogEvent}
    (day : DayLog cutoff log) (notBefore : ∀ event ∈ log, event.ts ≤ now)
    (today : now < cutoff + 86400) :
    let paired := pairedRun cutoff 0 (logLines log)
    let list := todayGet cutoff now (logLines log)
    (list.map TodayWorker.workerId).Nodup ∧
    (∀ workerId, workerId ∈ list.map TodayWorker.workerId ↔
      workerId ∈ log.map LogEvent.workerId) ∧
    ∀ entry ∈ list,
      entry.totalSeconds = closedSeconds entry.workerId paired.segments +
        paired.runningSeconds entry.workerId now ∧
      entry.segments = (closedOf entry.workerId paired.segments).length ∧
      (entry.currentlyIn = true ↔
        (findOpenSlot paired.opens entry.workerId Addr.zero false).isSome) := by
  intro paired list
  have pairedEq : paired = run pairStep (PairCtx.start cutoff 0) log :=
    foldl_pairedIterCb fun event member => ⟨.inr (day.inDay event member).1, rfl⟩
  have pairAgrees : PairAgrees paired log := pairedEq ▸ PairAgrees.run day cutoff
  have todayAgrees := TodayAgrees.run day
  have workers : list.map TodayWorker.workerId =
      (todayRun cutoff (logLines log)).map TodayWorker.workerId := by
    refine (List.map_map ..).trans (List.map_congr_left fun entry _ => ?_)
    exact entry.upToNow_workerId now
  refine ⟨workers ▸ todayAgrees.nodup, workers ▸ todayAgrees.workers, fun shown member => ?_⟩
  obtain ⟨entry, inside, rfl⟩ := List.mem_map.mp member
  have agrees := todayAgrees.entries entry inside
  have registered : 0 < entry.workerId := by
    obtain ⟨event, _, same⟩ :=
      List.mem_map.mp ((todayAgrees.workers _).mp (List.mem_map_of_mem inside))
    exact same ▸ event.workerPos
  have slot := pairAgrees.open_slot registered
  have running : paired.runningSeconds entry.workerId now =
      match (visitsOf entry.workerId log).inTs with
      | some ts => now - ts
      | none => 0 := by
    rw [← slot, PairCtx.runningSeconds]
    cases findOpenSlot paired.opens entry.workerId Addr.zero false <;> rfl
  rw [entry.upToNow_workerId now, running, pairAgrees.spent, pairAgrees.closed,
    ← Option.isSome_map (f := fun slot => (paired.opens slot).inTs), slot, ← agrees.spent,
    ← agrees.closed, ← agrees.currentlyIn]
  refine ⟨?_, entry.upToNow_segments now, by rw [entry.upToNow_currentlyIn now]⟩
  have inTs := agrees.inTs
  cases stillIn : (visitsOf entry.workerId log).inTs with
  | none =>
      rw [stillIn, Option.getD_none] at inTs
      simp [TodayWorker.upToNow, inTs]
  | some ts =>
      obtain ⟨event, known, rfl⟩ := visitsOf_inTs_mem stillIn
      have first := (day.inDay event known).1
      have last := notBefore event known
      have counted : countedSeconds (castInt (now - event.ts)) = now - event.ts :=
        countedSeconds_day (by omega) (by omega)
      rw [stillIn, Option.getD_some] at inTs
      simp [TodayWorker.upToNow, inTs, event.tsPos, counted]

/-- Workers 1 and 2 come in, worker 1 leaves. -/
def visitLog : List LogEvent :=
  [arrival 0, arrival 1, { arrival 0 with type := .evOut, ts := 5, tsPos := by decide }]

theorem todayGet_agrees_paired_visit :
    DayLog 1 visitLog ∧ ∀ entry ∈ todayGet 1 7 (logLines visitLog),
      entry.totalSeconds =
        closedSeconds entry.workerId (pairedRun 1 0 (logLines visitLog)).segments +
          (pairedRun 1 0 (logLines visitLog)).runningSeconds entry.workerId 7 ∧
      entry.segments =
        (closedOf entry.workerId (pairedRun 1 0 (logLines visitLog)).segments).length ∧
      (entry.currentlyIn = true ↔
        (findOpenSlot (pairedRun 1 0 (logLines visitLog)).opens entry.workerId Addr.zero
          false).isSome) :=
  have day : DayLog 1 visitLog := ⟨by decide, by decide, by decide⟩
  ⟨day, (todayGet_agrees_paired day (by decide) (by decide)).2.2⟩

end Today

end LeanDingdong
