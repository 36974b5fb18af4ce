import Dingdong.AttendanceReplies
import Dingdong.AttendanceToday
import Dingdong.BleLog
import Dingdong.DebounceFilter
import Dingdong.WorkerRegistry

/-!
From the radio to the page of visits. The presence machine writes an IN and an OUT for each
stay of a phone; the records of these lines are printed into the event log, read back by
`events_paired_get`, and come out as the stays of each worker, in order.
-/

namespace LeanDingdong

open Runs Presence

/-- The elements two by two; the last one alone when their number is odd. -/
def twoByTwo {α : Type*} : List α → List (α × Option α)
  | [] => []
  | [last] => [(last, none)]
  | first :: second :: rest => (first, some second) :: twoByTwo rest

/-- When a stay began and, once it has ended, when. -/
def Segment.stay (segment : Segment) : Int × Option Int :=
  (segment.inTs, segment.out.map Prod.fst)

/-- The lines of one peer, in file order. -/
def ownEvents (addr : Addr) (log : List PeerEvent) : List PeerEvent :=
  log.filter fun line => line.src = .srcBleAuto ∧ line.peer = some addr

/-- The stays of a peer: its lines two by two, an arrival and the departure that ends it. -/
def staysOf (addr : Addr) (log : List PeerEvent) : List (Int × Option Int) :=
  twoByTwo ((ownEvents addr log).map fun line => (line.ts : Int))

/-- A record `dd_event_record` makes of a line, each peer having the worker it is given. -/
structure EventRecord.Records (number : Addr → UInt16) (line : PeerEvent) (record : EventRecord) :
    Prop where
  ts : record.ts = line.ts
  monoUs : record.monoUs = line.monoUs
  type : record.type = line.type
  src : record.src = line.src
  peer : record.peer = line.peer.map fun addr => (addr, number addr)

section Stamps

variable {ble : Ble} {index : Fin presenceMax}

/-- Every line carries a time and a peer. -/
def Ble.Stamped (ble : Ble) : Prop :=
  ∀ line ∈ ble.events.log, 0 < line.ts ∧ line.peer.isSome = true

namespace Ble.Stamped

/-- Nothing is written without a clock. -/
theorem record (stamped : ble.Stamped) (clock : 0 < ble.nowUnix) (type : EventType) (addr : Addr) :
    (ble.record type addr).Stamped := by
  intro line member
  have log := eventRecord_cases ble.clockUs ble.nowUnix type addr ble.events
  rcases log with same | same
  · exact stamped line (same ▸ member)
  · have written : line ∈ ble.events.log ++
        [⟨ble.nowUnix, ble.clockUs, type, .srcBleAuto, some addr⟩] := same ▸ member
    rcases List.mem_append.mp written with old | new
    · exact stamped line old
    · rw [List.mem_singleton] at new
      rw [new]
      exact ⟨clock, rfl⟩

theorem acknowledge (stamped : ble.Stamped) : (ble.acknowledge index).Stamped := by
  rcases ble.acknowledge_cases index with same | ⟨_, clock, same⟩ <;> rw [same]
  · exact stamped
  · exact stamped.record clock .evIn _

theorem leave (stamped : ble.Stamped) : (ble.leave index).Stamped := by
  rw [Ble.leave]
  split_ifs with requests
  · have noted : (ble.note
        (.left (ble.presence index).addr (ble.presence index).ackEvent)).Stamped := stamped
    exact noted.record requests.2 .evOut _
  · exact stamped

theorem presenceSeenAddr (stamped : ble.Stamped) (addr : Addr) :
    (ble.presenceSeenAddr addr).Stamped := by
  rcases ble.presenceSeenAddr_cases addr with
    same | ⟨index, _, same⟩ | ⟨index, type, _, _, _, same⟩ <;> rw [same]
  · exact stamped
  · have touched : (ble.touch index).Stamped := stamped
    exact touched.acknowledge
  · have touched : ((ble.claimSeen index addr type).touch index).Stamped := stamped
    exact touched.acknowledge

theorem presenceProbeStart (stamped : ble.Stamped) (radio : Radio) :
    (Ble.presenceProbeStart radio ble index).Stamped := by
  rcases Ble.presenceProbeStart_cases radio ble index with
    ⟨_, same⟩ | ⟨_, _, ⟨_, same⟩ | ⟨_, _, same⟩ | ⟨_, _, same⟩⟩ <;> rw [same] <;> exact stamped

theorem tickSlot (stamped : ble.Stamped) (radio : Radio) :
    (Ble.tickSlot radio ble index).Stamped := by
  refine Ble.tickSlot_kept ?_ (fun _ _ _ kept => kept.acknowledge)
    (fun _ _ _ kept => kept.presenceProbeStart radio) (fun _ _ _ _ _ kept => kept.leave) stamped
  intro next _ kept
  rw [Ble.geofence]
  split_ifs <;> exact kept

theorem gapConnected (stamped : ble.Stamped) (peer : Addr) : (ble.gapConnected peer).Stamped := by
  have seen := stamped.presenceSeenAddr peer
  rw [Ble.gapConnected]
  dsimp only
  split <;> exact seen

theorem preallocateBond (stamped : ble.Stamped) (bond : Bond) :
    (ble.preallocateBond bond).Stamped := by
  rcases ble.preallocateBond_cases bond with same | ⟨index, _, _, _, same⟩ <;> rw [same]
  · exact stamped
  · rw [Ble.claimBonded]
    split_ifs <;> exact stamped

theorem bondRevoke (stamped : ble.Stamped) (addr : Addr) (deleted : Bool) :
    (ble.bondRevoke addr deleted).Stamped := by
  rcases ble.bondRevoke_cases addr deleted with same | ⟨_, _, same⟩ | ⟨_, same⟩ <;> rw [same] <;>
    exact stamped

theorem perform (stamped : ble.Stamped) (radio : Radio) (event : BleEvent) :
    (ble.perform radio event).Stamped := by
  have preallocated : ble.presencePreallocateBonded.Stamped :=
    run_kept Ble.Stamped (fun _ bond kept => kept.preallocateBond bond) stamped
  cases event with
  | adv addr => exact stamped.presenceSeenAddr addr
  | tick => exact run_kept Ble.Stamped (fun _ _ kept => kept.tickSlot radio) stamped
  | probeUp connect handle =>
      have linked : (((ble.connectEnds connect).linkUp
        ⟨handle, connect.peer, some connect.slot⟩).setSlot connect.slot
          { ble.presence connect.slot with
            probeHandle := handle, connected := true, probing := false }).Stamped := stamped
      exact linked.presenceSeenAddr _
  | probeDown connect => exact stamped
  | hidUp handle peer =>
      have linked : (ble.linkUp ⟨handle, peer, none⟩).Stamped := stamped
      exact linked.gapConnected peer
  | linkDown link =>
      obtain ⟨handle, peer, owner⟩ := link
      cases owner with
      | some index =>
          show (Ble.probeDisconnected _ _ _).Stamped
          rw [Ble.probeDisconnected]
          dsimp only
          split_ifs <;> exact stamped
      | none =>
          show (Ble.gapDisconnected _ _).Stamped
          rw [Ble.gapDisconnected]
          split <;> exact stamped
  | wipe => exact fun _ member => absurd member List.not_mem_nil
  | encChange => exact preallocated
  | hostSync => exact preallocated
  | revoke addr deleted => exact stamped.bondRevoke addr deleted
  | synced | unsynced | setTimeout | pairingStart | pairingCancel | bondStore | scanRestart =>
      exact stamped

end Ble.Stamped

end Stamps

section Pairs

variable {α : Type*}

/-- The last element is alone if and only if their number is odd. -/
theorem twoByTwo_alone (elements : List α) :
    (twoByTwo elements).countP (fun pair => pair.2.isNone) = elements.length % 2 := by
  induction elements using List.twoStepInduction with
  | nil => rfl
  | singleton last => simp [twoByTwo]
  | cons_cons first second rest ih _ =>
      rw [twoByTwo, List.countP_cons, ih]
      simp only [Option.isNone_some, Bool.false_eq_true, if_false, List.length_cons]
      omega

end Pairs

section Page

variable {ctx : PairCtx} {workers : List Nat} {event : LogEvent} {log rest : List LogEvent}
  {workerId : Nat}

/-- The segments of one worker. -/
def ofWorker (workerId : Nat) (segments : List Segment) : List Segment :=
  segments.filter fun segment => segment.workerId = workerId

theorem ofWorker_append (first second : List Segment) :
    ofWorker workerId (first ++ second) = ofWorker workerId first ++ ofWorker workerId second :=
  List.filter_append ..

/-- A worker has one open entry at most, so a reordering of the table keeps its place. -/
theorem Tracks.ofWorker_eq (tracks : Tracks ctx workers) {entries : List PairOpen}
    (perm : ctx.openEntries.Perm entries) (settle : PairOpen → Segment)
    (same : ∀ entry, (settle entry).workerId = entry.workerId) (workerId : Nat) :
    ofWorker workerId (ctx.openEntries.map settle) = ofWorker workerId (entries.map settle) := by
  have shorten (entries : List PairOpen) : ofWorker workerId (entries.map settle) =
      (entries.filter fun entry => entry.workerId = workerId).map settle := by
    rw [ofWorker, List.filter_map]
    congr 2
    funext entry
    simp [same]
  have single : (ctx.openEntries.filter fun entry => entry.workerId = workerId).length ≤ 1 := by
    have nodup := tracks.perm.nodup_iff.mpr tracks.nodup
    have counted := List.nodup_iff_count_le_one.mp nodup workerId
    rw [List.count, List.countP_map, List.countP_eq_length_filter] at counted
    refine le_of_eq_of_le (congrArg List.length (List.filter_congr fun entry _ => ?_)) counted
    by_cases here : entry.workerId = workerId <;> simp [here]
  have moved := perm.filter fun entry => decide (entry.workerId = workerId)
  rw [shorten, shorten]
  congr 1
  rcases Nat.le_one_iff_eq_zero_or_eq_one.mp single with none | one
  · rw [List.length_eq_zero_iff] at none
    rw [none] at moved ⊢
    exact (List.perm_nil.mp moved.symm).symm
  · obtain ⟨entry, alone⟩ := List.length_eq_one_iff.mp one
    rw [alone] at moved ⊢
    exact (List.perm_singleton.mp moved.symm).symm

theorem adds_worker {entry : PairOpen} (added : entry ∈ event.adds) :
    entry.workerId = event.workerId := by
  cases type : event.type with
  | evOut => simp [LogEvent.adds, type] at added
  | evIn =>
      rw [LogEvent.adds, type, List.mem_singleton] at added
      rw [added]
      rfl

theorem ofWorker_none {entries : List PairOpen} (settle : PairOpen → Segment)
    (same : ∀ entry, (settle entry).workerId = entry.workerId)
    (other : ∀ entry ∈ entries, entry.workerId ≠ workerId) :
    ofWorker workerId (entries.map settle) = [] := by
  refine List.filter_eq_nil_iff.mpr fun segment member => ?_
  obtain ⟨entry, inside, rfl⟩ := List.mem_map.mp member
  simpa [same] using other entry inside

/-- For each worker, the segments sent and those to come keep their order over an event. -/
theorem Moves.ofWorker_settled {after : PairCtx} {old kept : List PairOpen}
    (moves : Moves ctx after event old kept) (tracks : Tracks ctx workers) (rest : List LogEvent)
    (workerId : Nat) :
    ofWorker workerId (after.segments ++
        (after.openEntries.map (PairOpen.settled rest) ++ segmentsOf rest)) =
      ofWorker workerId (ctx.segments ++
        (ctx.openEntries.map (PairOpen.settled (event :: rest)) ++
          segmentsOf (event :: rest))) := by
  have oldSame : old.map (PairOpen.settled (event :: rest)) =
      old.map fun entry => entry.segment event.closes :=
    List.map_congr_left fun entry member => settled_same (moves.same entry member)
  have keptSame : kept.map (PairOpen.settled (event :: rest)) = kept.map (PairOpen.settled rest) :=
    List.map_congr_left fun entry member => settled_other (moves.other entry member)
  have before := tracks.ofWorker_eq moves.tableBefore (PairOpen.settled (event :: rest))
    (fun _ => rfl) workerId
  have now := (moves.tracks tracks).ofWorker_eq moves.tableAfter (PairOpen.settled rest)
    (fun _ => rfl) workerId
  rw [List.map_append, oldSame, keptSame, ofWorker_append] at before
  rw [List.map_append, ofWorker_append] at now
  -- the event is the worker's own, or it adds nothing of the worker
  have apart : ofWorker workerId (event.adds.map (PairOpen.settled rest)) ++
      ofWorker workerId (kept.map (PairOpen.settled rest)) =
        ofWorker workerId (kept.map (PairOpen.settled rest)) ++
          ofWorker workerId (event.adds.map (PairOpen.settled rest)) := by
    by_cases own : event.workerId = workerId
    · have noneKept : ofWorker workerId (kept.map (PairOpen.settled rest)) = [] :=
        ofWorker_none _ (fun _ => rfl) fun entry member => own ▸ moves.other entry member
      rw [noneKept, List.append_nil, List.nil_append]
    · have noneAdded : ofWorker workerId (event.adds.map (PairOpen.settled rest)) = [] :=
        ofWorker_none _ (fun _ => rfl) fun entry member => (adds_worker member).trans_ne own
      rw [noneAdded, List.append_nil, List.nil_append]
  rw [moves.sent, segmentsOf_cons]
  simp only [ofWorker_append, before, now, apart, List.append_assoc]

/-- As long as the workers fit, the view sends each worker's segments in the log's order. -/
theorem run_finish_worker (tracks : Tracks ctx workers)
    (fits : Guarded openStep Fits workers log) (workerId : Nat) :
    ofWorker workerId (run pairStep ctx log).finish =
      ofWorker workerId (ctx.segments ++
        (ctx.openEntries.map (PairOpen.settled log) ++ segmentsOf log)) := by
  induction log generalizing ctx workers with
  | nil =>
      rw [segmentsOf, List.append_nil]
      rfl
  | cons event rest ih =>
      obtain ⟨old, kept, moves⟩ := pairStep_moves tracks fits.1
      exact (ih (moves.tracks tracks) fits.2).trans
        (moves.ofWorker_settled tracks rest workerId)

theorem pairedView_worker (fits : Guarded openStep Fits [] log) (workerId : Nat) :
    ofWorker workerId (pairedView (logLines log)) = ofWorker workerId (segmentsOf log) := by
  rw [pairedView_run, run_finish_worker (start_tracks 0 0) fits, start_openEntries]
  rfl

theorem closing_filter (workerId : Nat) (log : List LogEvent) :
    closing workerId (log.filter fun event => event.workerId = workerId) =
      closing workerId log := by
  induction log with
  | nil => rfl
  | cons event rest ih =>
      by_cases own : event.workerId = workerId
      · rw [List.filter_cons_of_pos (by simpa using own), ← own, closing_same, closing_same]
      · rw [List.filter_cons_of_neg (by simpa using own), ih, closing, if_neg own]

/-- A worker's segments are those of its own events. -/
theorem ofWorker_segmentsOf (workerId : Nat) (log : List LogEvent) :
    ofWorker workerId (segmentsOf log) =
      segmentsOf (log.filter fun event => event.workerId = workerId) := by
  induction log with
  | nil => rfl
  | cons event rest ih =>
      rw [segmentsOf_cons, ofWorker_append, ih]
      by_cases own : event.workerId = workerId
      · have settled : ofWorker workerId (event.adds.map (PairOpen.settled rest)) =
            event.adds.map (PairOpen.settled
              (rest.filter fun event => event.workerId = workerId)) := by
          rw [ofWorker, List.filter_eq_self.mpr]
          · refine List.map_congr_left fun entry added => ?_
            rw [PairOpen.settled, PairOpen.settled, (adds_worker added).trans own, closing_filter]
          · intro segment member
            obtain ⟨entry, added, rfl⟩ := List.mem_map.mp member
            exact decide_eq_true ((adds_worker added).trans own)
        rw [settled, List.filter_cons_of_pos (by simpa using own), segmentsOf_cons]
      · have none : ofWorker workerId (event.adds.map (PairOpen.settled rest)) = [] :=
          ofWorker_none _ (fun _ => rfl) fun entry added => (adds_worker added).trans_ne own
        rw [none, List.filter_cons_of_neg (by simpa using own), List.nil_append]

/-- Where one worker's events alternate from an IN on, its segments are their times two by
two. -/
theorem segmentsOf_twoByTwo (own : ∀ event ∈ log, event.workerId = workerId)
    (alternates : Alternates .evIn (log.map LogEvent.type)) :
    (segmentsOf log).map Segment.stay = twoByTwo (log.map LogEvent.ts) := by
  induction log using List.twoStepInduction with
  | nil => rfl
  | singleton arrival =>
      have isIn : arrival.type = .evIn := alternates.1
      simp [segmentsOf, isIn, closing, Segment.stay, twoByTwo]
  | cons_cons arrival departure rest ih _ =>
      have isIn : arrival.type = .evIn := alternates.1
      have isOut : departure.type = .evOut := alternates.2.1
      have same : departure.workerId = arrival.workerId :=
        (own departure (by simp)).trans (own arrival (by simp)).symm
      have later := ih (fun event member => own event (by simp [member])) alternates.2.2
      simp [segmentsOf, isIn, isOut, closing, same, Segment.stay, twoByTwo, ← later]

/-- A crew of at most 16 workers fits the table. -/
theorem fits_crew {crew : Finset Nat} (small : crew.card ≤ pairMaxOpen)
    (inside : ∀ event ∈ log, event.workerId ∈ crew) : Guarded openStep Fits [] log := by
  refine guarded_of_prefixes fun past event within => ?_
  have after : openStep (run openStep [] past) event = run openStep [] (past ++ [event]) := by
    rw [run_append, run_cons, run_nil]
  have nodup : (run openStep [] (past ++ [event])).Nodup :=
    run_kept List.Nodup (fun _ event nodup => openStep_nodup nodup event) List.nodup_nil
  rw [Fits, after, ← List.toFinset_card_of_nodup nodup]
  refine (Finset.card_le_card fun worker member => ?_).trans small
  obtain ⟨event, listed, rfl⟩ := List.mem_map.mp (openRun_mem (List.mem_toFinset.mp member))
  exact inside event (within.subset listed)

end Page

section Reading

namespace EventRecord

variable (record : EventRecord)

/-- The event a view reads, of a record of a registered worker. -/
def event (stamped : 0 < record.ts) (known : 0 < record.workerId) : LogEvent where
  type := record.type
  ts := record.ts
  workerId := record.workerId
  monoUs := some record.monoUs
  peer := record.peer.map fun peer => formatMac peer.1
  src := some (eventSourceStr record.src)
  tsPos := by omega
  workerPos := known
  workerShort := by
    rw [workerId]
    split
    · decide
    · exact UInt16.toNat_lt _

/-- The members a view reads stand before the others. -/
theorem tree_split {addr : Addr} {id : UInt16} (peer : record.peer = some (addr, id))
    (known : 0 < record.workerId) : ∃ others, record.tree = .object
      ([(ascii "ts", .number record.ts), (ascii "mono_us", .number record.monoUs),
        (ascii "type", .text (eventTypeStr record.type)),
        (ascii "src", .text (eventSourceStr record.src)),
        (ascii "peer", .text (formatMac addr)),
        (ascii "worker_id", .number record.workerId)] ++ others) := by
  refine ⟨((if record.type = .evOut then
    [(⟨ascii "reason", .number record.reason.toInt⟩ : Member)] else []) ++
      if record.note = [] then [] else [record.noteMember]).map Member.entry, ?_⟩
  rw [tree, members, head, peer, if_neg (by omega), List.append_assoc, List.map_append]
  rfl

theorem tree_pairEvent (stamped : 0 < record.ts) (known : 0 < record.workerId) :
    record.tree.pairEvent = (record.event stamped known).json := by
  obtain ⟨addr, id, peer⟩ : ∃ addr id, record.peer = some (addr, id) := by
    cases peer : record.peer with
    | none =>
        rw [workerId, peer] at known
        exact absurd known (by decide)
    | some pair => exact ⟨pair.1, pair.2, rfl⟩
  obtain ⟨others, split⟩ := record.tree_split peer known
  have type : 0 ∉ eventTypeStr record.type := by cases record.type <;> decide
  have src : 0 ∉ eventSourceStr record.src := by cases record.src <;> decide
  rw [JsonTree.pairEvent, split]
  simp only [LogEvent.json, event, peer, Option.map_some]
  congr 1
  · exact congrArg some (cstr_of_noNul type)
  · exact congrArg some (cstr_of_noNul (formatMac_noNul addr))
  · exact congrArg some (cstr_of_noNul src)

end EventRecord

/-- The event is what a view reads in the line. -/
structure LogEvent.Reads (number : Addr → UInt16) (line : PeerEvent) (event : LogEvent) :
    Prop where
  type : event.type = line.type
  ts : event.ts = line.ts
  worker : ∃ addr, line.peer = some addr ∧ event.workerId = (number addr).toNat

section Lines

variable {number : Addr → UInt16} {lines : List PeerEvent} {log : List LogEvent}
  {records : List LoggedEvent}

/-- The views read every line of a log with times and registered workers. -/
theorem records_read (stamped : ∀ line ∈ lines, 0 < line.ts ∧ line.peer.isSome = true)
    (numbered : ∀ line ∈ lines, ∀ addr, line.peer = some addr → number addr ≠ 0)
    (recorded : List.Forall₂ (fun line logged => logged.record.Records number line) lines records) :
    ∃ log, (records.map fun logged => some logged.record.tree.pairEvent) = logLines log ∧
      List.Forall₂ (LogEvent.Reads number) lines log := by
  induction recorded with
  | nil => exact ⟨[], rfl, .nil⟩
  | @cons line logged lines records same _ ih =>
      obtain ⟨log, shown, reads⟩ := ih (fun other member => stamped other (by simp [member]))
        fun other member => numbered other (by simp [member])
      obtain ⟨clock, named⟩ := stamped line (by simp)
      obtain ⟨addr, peer⟩ := Option.isSome_iff_exists.mp named
      have worker : logged.record.workerId = (number addr).toNat := by
        rw [EventRecord.workerId, same.peer, peer]
        rfl
      have time : 0 < logged.record.ts := same.ts ▸ clock
      have known : 0 < logged.record.workerId := by
        have nonzero := numbered line (by simp) addr peer
        rw [worker, Nat.pos_iff_ne_zero]
        exact fun zero => nonzero (UInt16.toNat_inj.mp zero)
      refine ⟨logged.record.event time known :: log, ?_, .cons ⟨same.type, ?_, addr, peer, worker⟩
        reads⟩
      · rw [List.map_cons, shown, logged.record.tree_pairEvent time known]
        rfl
      · exact congrArg Nat.cast same.ts

/-- The events of a peer's worker are read from the peer's own lines. -/
theorem own_reads {addr : Addr} (sources : ∀ line ∈ lines, line.src = .srcBleAuto)
    (apart : ∀ line ∈ lines, ∀ other, line.peer = some other → number other = number addr →
      other = addr)
    (reads : List.Forall₂ (LogEvent.Reads number) lines log) :
    List.Forall₂ (LogEvent.Reads number) (ownEvents addr lines)
      (log.filter fun event => event.workerId = (number addr).toNat) := by
  induction reads with
  | nil => exact .nil
  | @cons line event lines log here _ ih =>
      have later := ih (fun other member => sources other (by simp [member]))
        fun other member => apart other (by simp [member])
      have source := sources line (by simp)
      obtain ⟨peer, named, worker⟩ := here.worker
      by_cases own : peer = addr
      · rw [ownEvents, List.filter_cons_of_pos (by simp [source, named, own]),
          List.filter_cons_of_pos (by simp [worker, own])]
        exact .cons here later
      · have other : event.workerId ≠ (number addr).toNat := fun same =>
          own (apart line (by simp) peer named (UInt16.toNat_inj.mp (worker.symm.trans same)))
        rw [ownEvents, List.filter_cons_of_neg (by simp [named, own]),
          List.filter_cons_of_neg (by simpa using other)]
        exact later

theorem reads_types (reads : List.Forall₂ (LogEvent.Reads number) lines log) :
    log.map LogEvent.type = lines.map PeerEvent.type := by
  induction reads with
  | nil => rfl
  | cons here _ ih => rw [List.map_cons, List.map_cons, here.type, ih]

theorem reads_times (reads : List.Forall₂ (LogEvent.Reads number) lines log) :
    log.map LogEvent.ts = lines.map fun line => (line.ts : Int) := by
  induction reads with
  | nil => rfl
  | cons here _ ih => rw [List.map_cons, List.map_cons, here.ts, ih]

theorem reads_line (reads : List.Forall₂ (LogEvent.Reads number) lines log) {event : LogEvent}
    (member : event ∈ log) : ∃ line ∈ lines, event.Reads number line := by
  induction reads with
  | nil => cases member
  | @cons line first lines log here _ ih =>
      rcases List.mem_cons.mp member with rfl | later
      · exact ⟨line, by simp, here⟩
      · obtain ⟨found, inside, reads⟩ := ih later
        exact ⟨found, by simp [inside], reads⟩

end Lines

end Reading

section Presence

variable {ble : Ble} {number : Addr → UInt16} {index : Fin presenceMax} {addr : Addr}

/-- A peer with a line in the log has a slot. -/
theorem Logged.line_held (logged : ble.Logs) {line : PeerEvent} (member : line ∈ ble.events.log)
    (peer : line.peer = some addr) : ∃ index, ble.presence.Holds index addr := by
  by_contra unheld
  have free := logged.ledgered.unheld addr (not_exists.mp unheld)
  have empty : linesOf addr ble.events.log = [] :=
    (logged.lines addr).trans (requestsSince_unheld logged.ledgered.lawful logged.plain free)
  have listed : line.type ∈ linesOf addr ble.events.log :=
    List.mem_map_of_mem (List.mem_filter.mpr
      ⟨member, decide_eq_true ⟨logged.sources line member, peer⟩⟩)
  rw [empty] at listed
  cases listed

/-- The lines of a peer are odd in number exactly while its slot is acknowledged. -/
theorem Logged.ownEvents_length (logged : ble.Logs) (held : ble.presence.Holds index addr) :
    (ownEvents addr ble.events.log).length % 2 =
      if (ble.presence index).ackEvent = true then 1 else 0 := by
  obtain ⟨_, next⟩ := @requestsSince_alternate addr _ logged.ledgered.lawful logged.plain
  have length : (ownEvents addr ble.events.log).length =
      (requestsSince addr ble.history).length := by
    rw [← logged.lines addr, linesOf, List.length_map]
    rfl
  rw [logged.ledgered.opened index addr held, expectedAfter, ← length] at next
  rcases Nat.mod_two_eq_zero_or_one (ownEvents addr ble.events.log).length with even | odd
  · have unacked : (ble.presence index).ackEvent = false := by
      by_contra acked
      simp [even, acked] at next
    rw [even, unacked, if_neg Bool.false_ne_true]
  · have acked : (ble.presence index).ackEvent = true := by
      by_contra unacked
      simp [odd, unacked, EventType.other] at next
    rw [odd, acked, if_pos rfl]

/-- The page of a log with stamps, whatever store holds its records. -/
theorem Logged.page_stays (logged : ble.Logs) (stamped : ble.Stamped)
    (numbered : ∀ index addr, ble.presence.Holds index addr → number addr ≠ 0)
    (apart : ∀ index addr, ble.presence.Holds index addr →
      ∀ second other, ble.presence.Holds second other → number other = number addr → other = addr)
    {records : List LoggedEvent} (recorded : List.Forall₂
      (fun line logged => logged.record.Records number line) ble.events.log records) :
    ∃ log, (records.map fun logged => some logged.record.tree.pairEvent) = logLines log ∧
      (∀ index addr, ble.presence.Holds index addr →
        (ofWorker (number addr).toNat (pairedView (logLines log))).map Segment.stay =
          staysOf addr ble.events.log) ∧
      ∀ segment ∈ pairedView (logLines log), ∃ index addr, ble.presence.Holds index addr ∧
        segment.workerId = (number addr).toNat := by
  have known : ∀ line ∈ ble.events.log, ∀ addr, line.peer = some addr → number addr ≠ 0 := by
    intro line member addr peer
    obtain ⟨index, held⟩ := logged.line_held member peer
    exact numbered index addr held
  obtain ⟨log, shown, reads⟩ := records_read stamped known recorded
  -- the workers of the log are those of the slots
  have holder : ∀ event ∈ log, ∃ index addr, ble.presence.Holds index addr ∧
      event.workerId = (number addr).toNat := by
    intro event member
    obtain ⟨line, inside, read⟩ := reads_line reads member
    obtain ⟨addr, peer, worker⟩ := read.worker
    obtain ⟨index, held⟩ := logged.line_held inside peer
    exact ⟨index, addr, held, worker⟩
  have fits : Guarded openStep Fits [] log := by
    set crew := Finset.univ.image fun index : Fin presenceMax =>
      (number (ble.presence index).addr).toNat with crewIs
    have small : crew.card ≤ pairMaxOpen :=
      Finset.card_image_le.trans (by rw [Finset.card_univ, Fintype.card_fin]; decide)
    refine fits_crew small fun event member => ?_
    obtain ⟨index, addr, held, worker⟩ := holder event member
    refine Finset.mem_image.mpr ⟨index, Finset.mem_univ _, ?_⟩
    rw [worker, held.2]
  refine ⟨log, shown, fun index addr held => ?_, fun segment member => ?_⟩
  · have own : List.Forall₂ (LogEvent.Reads number) (ownEvents addr ble.events.log)
        (log.filter fun event => event.workerId = (number addr).toNat) := by
      refine own_reads logged.sources (fun line member other peer same => ?_) reads
      obtain ⟨second, heldOther⟩ := logged.line_held member peer
      exact apart index addr held second other heldOther same
    have alternates : Alternates .evIn
        ((log.filter fun event => event.workerId = (number addr).toNat).map LogEvent.type) := by
      rw [reads_types own]
      show Alternates .evIn (linesOf addr ble.events.log)
      rw [logged.lines]
      exact (requestsSince_alternate logged.ledgered.lawful logged.plain).1
    rw [pairedView_worker fits, ofWorker_segmentsOf, staysOf, ← reads_times own]
    exact segmentsOf_twoByTwo (fun event member => of_decide_eq_true (List.mem_filter.mp member).2)
      alternates
  · have here : segment ∈ ofWorker segment.workerId (pairedView (logLines log)) :=
      List.mem_filter.mpr ⟨member, decide_eq_true rfl⟩
    rw [pairedView_worker fits, ofWorker_segmentsOf] at here
    obtain ⟨event, inside⟩ : ∃ event,
        event ∈ log.filter fun event => event.workerId = segment.workerId := by
      refine List.exists_mem_of_ne_nil _ fun none => ?_
      rw [none] at here
      cases here
    obtain ⟨listed, same⟩ := List.mem_filter.mp inside
    obtain ⟨index, addr, held, worker⟩ := holder event listed
    exact ⟨index, addr, held, (of_decide_eq_true same).symm.trans worker⟩

/-- From an empty log, as long as no bond is revoked, the clock keeps its sync and no IN is
debounced, each peer with a slot having a worker of its own: whatever store holds the records
of the log, a client parses from `events_paired_get` the stays of each peer with a slot, in
order, those of no one else, and an open one exactly for a peer whose IN is acknowledged now. -/
theorem presencePage_stays {codec : Codec} (faithful : codec.Faithful)
    (unformatted : codec.Unformatted) (radio : Radio) (startUs : Nat) (timeout : PresenceTimeout)
    (actions : List BleAction)
    (guarded : Guarded (Ble.step radio)
      (Ble.Meets fun ble event => event.Steady ∧ ble.InsPass radio event)
      (Ble.boot startUs timeout []) actions)
    (reached : Ble)
    (isReached : run (Ble.step radio) (Ble.boot startUs timeout []) actions = reached)
    (number : Addr → UInt16)
    (numbered : ∀ index addr, reached.presence.Holds index addr → number addr ≠ 0)
    (apart : ∀ index addr, reached.presence.Holds index addr → ∀ second other,
      reached.presence.Holds second other → number other = number addr → other = addr)
    (records : List LoggedEvent)
    (recorded : List.Forall₂ (fun line logged => logged.record.Records number line)
      reached.events.log records)
    (store : Store) (holds : Holds store (records.map LoggedEvent.line))
    (small : store.file.length < 2 ^ 31) :
    ∃ segments,
      codec.parse (chunkedBody (eventsPairedGet codec store)) = some (pairedReply segments) ∧
        (∀ index addr, reached.presence.Holds index addr →
          (ofWorker (number addr).toNat segments).map Segment.stay =
              staysOf addr reached.events.log ∧
            (ofWorker (number addr).toNat segments).countP (fun segment => segment.out.isNone) =
              if (reached.presence index).ackEvent = true then 1 else 0) ∧
        ∀ segment ∈ segments, ∃ index addr, reached.presence.Holds index addr ∧
          segment.workerId = (number addr).toNat := by
  have kept : reached.Logs ∧ reached.Stamped := by
    rw [← isReached]
    refine run_invariant (fun ble => ble.Logs ∧ ble.Stamped) ?_
      ⟨Logged.boot startUs, fun _ member => absurd member List.not_mem_nil⟩ guarded
    rintro ble action ⟨logged, stamped⟩ met
    have waited : (ble.wait action.elapsedUs).Logs := logged.wait action.elapsedUs
    have stampedThen : (ble.wait action.elapsedUs).Stamped := stamped
    exact ⟨waited.perform met.1 met.2, stampedThen.perform radio action.event⟩
  obtain ⟨logged, stamped⟩ := kept
  obtain ⟨log, shown, stays, others⟩ := logged.page_stays stamped numbered apart recorded
  refine ⟨pairedView (logLines log), ?_, fun index addr held => ⟨stays index addr held, ?_⟩, others⟩
  · have body := eventsPairedGet_body faithful unformatted holds small
    rw [← shown, body.1, body.2]
  · have counted := congrArg (List.countP fun stay => stay.2.isNone) (stays index addr held)
    rw [staysOf, twoByTwo_alone, List.length_map, logged.ownEvents_length held,
      List.countP_map] at counted
    rw [← counted]
    refine List.countP_congr fun segment _ => ?_
    simp [Segment.stay]

theorem phoneRecord_ts (seconds : UInt8) : 1700000000 + seconds.toNat < 10 ^ 15 := by
  have small := seconds.toNat_lt
  omega

theorem phoneRecord_monoUs (seconds : UInt8) : seconds.toNat * 1000000 < 10 ^ 15 := by
  have small := seconds.toNat_lt
  omega

/-- The record of one line of the phone, which is the first worker. -/
def phoneRecord (seconds : UInt8) (type : EventType) : EventRecord where
  ts := 1700000000 + seconds.toNat
  monoUs := seconds.toNat * 1000000
  type := type
  src := .srcBleAuto
  peer := some (phone, 1)
  reason := 0
  note := []
  tsPlain := phoneRecord_ts seconds
  monoPlain := phoneRecord_monoUs seconds
  noteNoNul := blankNote_noNul

theorem phoneRecord_accepted (seconds : UInt8) (type : EventType) :
    (phoneRecord seconds type).line.length ≤ lineBufMax :=
  ((phoneRecord seconds type).line_unnoted rfl).le.trans (by decide)

def phoneEvent (seconds : UInt8) (type : EventType) : LoggedEvent where
  record := phoneRecord seconds type
  accepted := phoneRecord_accepted seconds type

/-- What a minute with an absence leaves in the log. -/
def absenceRecords : List LoggedEvent :=
  [phoneEvent 0 .evIn, phoneEvent 31 .evOut, phoneEvent 31 .evIn]

def absenceStore : Store where
  events := some (TextLines.encode newline (texts (absenceRecords.map LoggedEvent.line)))
  eventCount := 3

theorem presencePage_stays_absence : ∃ segments,
    plainCodec.parse (chunkedBody (eventsPairedGet plainCodec absenceStore)) =
        some (pairedReply segments) ∧
      (ofWorker 1 segments).map Segment.stay =
        [(1700000000, some 1700000031), (1700000031, none)] := by
  have run := presencePage_stays plainCodec_faithful plainCodec_unformatted Radio.oneConnect 0 .least
    (absence (secondTicks 1)) (by decide +kernel) _ rfl (fun _ => 1) (fun _ _ _ => by decide)
  have only : ∀ index, ((Runs.run (Ble.step Radio.oneConnect) (Ble.boot 0 .least [])
      (absence (secondTicks 1))).presence index).used = true →
        ((Runs.run (Ble.step Radio.oneConnect) (Ble.boot 0 .least [])
          (absence (secondTicks 1))).presence index).addr = phone := by decide +kernel
  have seen : ((Runs.run (Ble.step Radio.oneConnect) (Ble.boot 0 .least [])
      (absence (secondTicks 1))).presence 0).used = true := by decide +kernel
  have written : (Runs.run (Ble.step Radio.oneConnect) (Ble.boot 0 .least [])
      (absence (secondTicks 1))).events.log =
        [⟨1700000000, 0, .evIn, .srcBleAuto, some phone⟩,
          ⟨1700000031, 31000000, .evOut, .srcBleAuto, some phone⟩,
          ⟨1700000031, 31000000, .evIn, .srcBleAuto, some phone⟩] := by decide +kernel
  generalize Runs.run (Ble.step Radio.oneConnect) _ _ = reached at run only seen written
  have held (index : Fin presenceMax) (addr : Addr) (holds : reached.presence.Holds index addr) :
      addr = phone := holds.2.symm.trans (only index holds.1)
  obtain ⟨segments, parsed, stays, _⟩ := run
    (fun index addr holds second other holdsOther _ =>
      (held second other holdsOther).trans (held index addr holds).symm)
    absenceRecords
    (by
      rw [written]
      exact .cons ⟨rfl, rfl, rfl, rfl, rfl⟩ (.cons ⟨rfl, rfl, rfl, rfl, rfl⟩
        (.cons ⟨rfl, rfl, rfl, rfl, rfl⟩ .nil)))
    absenceStore ⟨rfl, rfl⟩ (by decide +kernel)
  have shown := (stays 0 phone ⟨seen, only 0 seen⟩).1
  rw [written] at shown
  exact ⟨segments, parsed, shown⟩

end Presence

end LeanDingdong
