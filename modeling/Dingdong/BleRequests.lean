import Dingdong.BleSlots

/-!
Requests of one peer without any assumption on the clock. A slot that is acknowledged has
an IN as its peer's latest request; only such a slot requests an OUT, and it gives the
acknowledgement up with it.
-/

namespace LeanDingdong

open Runs Presence

/-- The request a note makes for the address, a resumed slot being an IN. -/
def Note.request (addr : Addr) : Note → Option EventType
  | .requested type peer => if peer = addr then some type else none
  | .claimed peer resumed => if peer = addr ∧ resumed then some .evIn else none
  | .refreshed _ | .dialled _ | .left _ _ | .wiped | .revoked _ => none

/-- The requests of a peer, the newest first. -/
def requestsOf (addr : Addr) (history : List Note) : List EventType :=
  history.filterMap (Note.request addr)

/-- Right before every OUT stands an IN. -/
def Preceded (requests : List EventType) : Prop :=
  ∀ newer older, requests = newer ++ .evOut :: older → older.head? = some .evIn

section Notes

variable {addr : Addr} {history : List Note} {entry : Note} {requests : List EventType}

theorem Preceded.nil : Preceded [] := fun newer older split => by simp at split

theorem Preceded.evIn (preceded : Preceded requests) : Preceded (.evIn :: requests) := by
  intro newer older split
  cases newer with
  | nil => cases (List.cons.inj split).1
  | cons first newer => exact preceded newer older (List.cons.inj split).2

theorem Preceded.evOut (preceded : Preceded requests) (owed : requests.head? = some .evIn) :
    Preceded (.evOut :: requests) := by
  intro newer older split
  cases newer with
  | nil =>
      rw [← (List.cons.inj split).2]
      exact owed
  | cons first newer => exact preceded newer older (List.cons.inj split).2

theorem requestsOf_quiet (quiet : entry.request addr = none) :
    requestsOf addr (entry :: history) = requestsOf addr history :=
  List.filterMap_cons_none quiet

@[simp] theorem requestsOf_own (type : EventType) :
    requestsOf addr (.requested type addr :: history) = type :: requestsOf addr history :=
  List.filterMap_cons_some (if_pos rfl)

theorem requestsOf_other {peer : Addr} (different : peer ≠ addr) (type : EventType) :
    requestsOf addr (.requested type peer :: history) = requestsOf addr history :=
  requestsOf_quiet (if_neg different)

end Notes

/-- An acknowledged slot is present, and the latest request of its peer is an IN. -/
structure Owing (presence : Presence) (history : List Note) : Prop where
  distinct : presence.Distinct
  acked : ∀ index, (presence index).ackEvent = true → (presence index).present = true
  owed : ∀ index addr, presence.Holds index addr → (presence index).ackEvent = true →
    (requestsOf addr history).head? = some .evIn
  preceded : ∀ addr, Preceded (requestsOf addr history)

namespace Owing

variable {presence : Presence} {history next : List Note} {index : Fin presenceMax} {addr : Addr}
  {slot : PresenceSlot}

theorem cleared : Owing (fun _ => PresenceSlot.cleared) [] where
  distinct _ _ _ holds := absurd holds.1 Bool.false_ne_true
  acked _ acked := absurd acked Bool.false_ne_true
  owed _ _ holds := absurd holds.1 Bool.false_ne_true
  preceded _ := Preceded.nil

theorem write (owing : Owing presence history) (sameUsed : slot.used = (presence index).used)
    (sameAddr : slot.addr = (presence index).addr)
    (acked : slot.ackEvent = true → (presence index).ackEvent = true)
    (present : slot.ackEvent = true → (presence index).present = true → slot.present = true) :
    Owing (Function.update presence index slot) history := by
  constructor
  · exact owing.distinct.write sameUsed sameAddr
  · intro other isAcked
    by_cases here : other = index
    · subst here
      rw [Function.update_self] at isAcked ⊢
      exact present isAcked (owing.acked other (acked isAcked))
    · rw [Function.update_of_ne here] at isAcked ⊢
      exact owing.acked other isAcked
  · intro other peer held isAcked
    rw [holds_update_same sameUsed sameAddr] at held
    by_cases here : other = index
    · subst here
      rw [Function.update_self] at isAcked
      exact owing.owed other peer held (acked isAcked)
    · rw [Function.update_of_ne here] at isAcked
      exact owing.owed other peer held isAcked
  · exact owing.preceded

theorem note (owing : Owing presence history) {entry : Note}
    (quiet : ∀ addr, entry.request addr = none) : Owing presence (entry :: history) where
  distinct := owing.distinct
  acked := owing.acked
  owed index addr holds acked := by
    rw [requestsOf_quiet (quiet addr)]
    exact owing.owed index addr holds acked
  preceded addr := by
    rw [requestsOf_quiet (quiet addr)]
    exact owing.preceded addr

/-- A request of the peer a slot holds: an IN, or an OUT that takes the acknowledgement
back. -/
theorem request (owing : Owing presence history) (holds : presence.Holds index addr)
    {type : EventType} (used : slot.used = true) (same : slot.addr = addr)
    (acked : slot.ackEvent = true → type = .evIn ∧ slot.present = true)
    (open' : type = .evOut → (presence index).ackEvent = true) :
    Owing (Function.update presence index slot) (.requested type addr :: history) := by
  constructor
  · exact owing.distinct.write (used.trans holds.1.symm) (same.trans holds.2.symm)
  · intro other isAcked
    by_cases here : other = index
    · subst here
      rw [Function.update_self] at isAcked ⊢
      exact (acked isAcked).2
    · rw [Function.update_of_ne here] at isAcked ⊢
      exact owing.acked other isAcked
  · intro other peer held isAcked
    rw [holds_update_same (used.trans holds.1.symm) (same.trans holds.2.symm)] at held
    by_cases here : other = index
    · subst here
      obtain rfl : addr = peer := holds.2.symm.trans held.2
      rw [Function.update_self] at isAcked
      rw [requestsOf_own, (acked isAcked).1]
      rfl
    · have different : addr ≠ peer := by
        rintro rfl
        exact here (owing.distinct other index _ held holds)
      rw [Function.update_of_ne here] at isAcked
      rw [requestsOf_other different]
      exact owing.owed other peer held isAcked
  · intro peer
    by_cases here : addr = peer
    · subst here
      rw [requestsOf_own]
      cases type with
      | evIn => exact (owing.preceded addr).evIn
      | evOut => exact (owing.preceded addr).evOut (owing.owed index addr holds (open' rfl))
    · rw [requestsOf_other here]
      exact owing.preceded peer

theorem claim (owing : Owing presence history) (unheld : presence.Unheld slot.addr)
    (acked : slot.ackEvent = true → slot.present = true) :
    Owing (Function.update presence index slot)
      (.claimed slot.addr slot.ackEvent :: history) := by
  have others {peer : Addr} (different : slot.addr ≠ peer) :
      requestsOf peer (.claimed slot.addr slot.ackEvent :: history) = requestsOf peer history :=
    requestsOf_quiet (if_neg fun both => different both.1)
  have resumed (isAcked : slot.ackEvent = true) :
      requestsOf slot.addr (.claimed slot.addr slot.ackEvent :: history) =
        .evIn :: requestsOf slot.addr history :=
    List.filterMap_cons_some (if_pos ⟨rfl, isAcked⟩)
  constructor
  · exact owing.distinct.claim unheld
  · intro other isAcked
    by_cases here : other = index
    · subst here
      rw [Function.update_self] at isAcked ⊢
      exact acked isAcked
    · rw [Function.update_of_ne here] at isAcked ⊢
      exact owing.acked other isAcked
  · intro other peer held isAcked
    by_cases here : other = index
    · subst here
      obtain ⟨_, rfl⟩ := holds_update_self.mp held
      rw [Function.update_self] at isAcked
      rw [resumed isAcked]
      rfl
    · rw [holds_update_of_ne here] at held
      rw [Function.update_of_ne here] at isAcked
      have different : slot.addr ≠ peer := by
        rintro rfl
        exact unheld other held
      rw [others different]
      exact owing.owed other peer held isAcked
  · intro peer
    by_cases here : slot.addr = peer
    · subst here
      cases isAcked : slot.ackEvent with
      | true =>
          have own := resumed isAcked
          rw [isAcked] at own
          rw [own]
          exact (owing.preceded _).evIn
      | false =>
          rw [requestsOf_quiet (by simp [Note.request])]
          exact owing.preceded _
    · rw [others here]
      exact owing.preceded peer

theorem free (owing : Owing presence history) (unused : slot.used = false)
    (unacked : slot.ackEvent = false) : Owing (Function.update presence index slot) history := by
  have apart {other : Fin presenceMax} (acked : (Function.update presence index slot other).ackEvent
      = true) : other ≠ index := by
    rintro rfl
    rw [Function.update_self, unacked] at acked
    exact absurd acked Bool.false_ne_true
  constructor
  · exact owing.distinct.clear unused
  · intro other isAcked
    have here := apart isAcked
    rw [Function.update_of_ne here] at isAcked ⊢
    exact owing.acked other isAcked
  · intro other peer held isAcked
    have here := apart isAcked
    rw [holds_update_of_ne here] at held
    rw [Function.update_of_ne here] at isAcked
    exact owing.owed other peer held isAcked
  · exact owing.preceded

end Owing

section Callbacks

variable {ble : Ble} {index : Fin presenceMax}

theorem Owing.touch (owing : Owing ble.presence ble.history) :
    Owing (ble.touch index).presence (ble.touch index).history := by
  have written : Owing (Function.update ble.presence index
      { ble.presence index with lastSeenUs := ble.clockUs, present := true }) ble.history :=
    owing.write rfl rfl (fun acked => acked) fun _ _ => rfl
  exact written.note fun _ => rfl

theorem Owing.acknowledge (owing : Owing ble.presence ble.history)
    (used : (ble.presence index).used = true) (present : (ble.presence index).present = true) :
    Owing (ble.acknowledge index).presence (ble.acknowledge index).history := by
  rcases ble.acknowledge_cases index with same | ⟨_, _, same⟩
  · rwa [same]
  · rw [same]
    exact owing.request (holds_self used) used rfl (fun _ => ⟨rfl, present⟩) (by simp)

theorem Owing.presenceSeenAddr (owing : Owing ble.presence ble.history) (addr : Addr) :
    Owing (ble.presenceSeenAddr addr).presence (ble.presenceSeenAddr addr).history := by
  have seen {ble : Ble} (owing : Owing ble.presence ble.history) {index : Fin presenceMax}
      (used : (ble.presence index).used = true) :
      Owing ((ble.touch index).acknowledge index).presence
        ((ble.touch index).acknowledge index).history := by
    refine owing.touch.acknowledge ?_ ?_ <;>
      rw [Ble.touch, Ble.presence_note, Ble.presence_setSlot, Function.update_self]
    exact used
  rcases ble.presenceSeenAddr_cases addr with
    same | ⟨index, holds, same⟩ | ⟨index, type, _, unheld, _, same⟩
  · rwa [same]
  · rw [same]
    exact seen owing holds.1
  · rw [same]
    have claimed : Owing (ble.claimSeen index addr type).presence
        (ble.claimSeen index addr type).history := owing.claim unheld (by simp)
    refine seen claimed ?_
    rw [Ble.claimSeen, Ble.presence_note, Ble.presence_setSlot, Function.update_self]

theorem Owing.geofence (owing : Owing ble.presence ble.history) :
    Owing (ble.geofence index).presence (ble.geofence index).history := by
  cases linked : (ble.presence index).connected with
  | false =>
      rw [Ble.geofence_idle linked]
      exact owing
  | true =>
      rw [Ble.geofence_connected linked]
      have written : Owing (Function.update ble.presence index
          { ble.presence index with
            lastSeenUs := ble.clockUs
            present := true
            ackEvent := if (ble.presence index).present then (ble.presence index).ackEvent
              else false }) ble.history := by
        refine owing.write rfl rfl (fun acked => ?_) fun _ _ => rfl
        dsimp only at acked
        split_ifs at acked
        exact acked
      exact written.note fun _ => rfl

theorem Owing.presenceProbeStart (owing : Owing ble.presence ble.history) (radio : Radio) :
    Owing (Ble.presenceProbeStart radio ble index).presence
      (Ble.presenceProbeStart radio ble index).history := by
  rcases Ble.presenceProbeStart_cases radio ble index with
    ⟨_, same⟩ | ⟨_, _, ⟨_, same⟩ | ⟨_, _, same⟩ | ⟨_, _, same⟩⟩ <;> rw [same]
  · exact owing
  · exact owing.write rfl rfl (fun acked => acked) fun _ present => present
  · have written : Owing (Function.update ble.presence index
        { ble.presence index with probing := true, probeHandle := noHandle }) ble.history :=
      owing.write rfl rfl (fun acked => acked) fun _ present => present
    exact written.note fun _ => rfl
  · exact owing.write rfl rfl (fun acked => acked) fun _ present => present

theorem Owing.leave (owing : Owing ble.presence ble.history)
    (used : (ble.presence index).used = true) :
    Owing (ble.leave index).presence (ble.leave index).history := by
  have left : Owing ble.presence
      (.left (ble.presence index).addr (ble.presence index).ackEvent :: ble.history) :=
    owing.note fun _ => rfl
  rw [Ble.leave_presence]
  by_cases asks : (ble.presence index).ackEvent = true ∧
      0 < (ble.note (.left (ble.presence index).addr (ble.presence index).ackEvent)).nowUnix
  · have history : (ble.leave index).history = .requested .evOut (ble.presence index).addr ::
        .left (ble.presence index).addr (ble.presence index).ackEvent :: ble.history := by
      simp only [Ble.leave, if_pos asks]
      rfl
    rw [history]
    exact left.request (holds_self used) used rfl (by simp) fun _ => asks.1
  · have history : (ble.leave index).history =
        .left (ble.presence index).addr (ble.presence index).ackEvent :: ble.history := by
      simp only [Ble.leave, if_neg asks]
      rfl
    rw [history]
    exact left.write rfl rfl (by simp) (by simp)

theorem Owing.probeFailed (owing : Owing ble.presence ble.history) :
    Owing (ble.probeFailed index).presence (ble.probeFailed index).history :=
  owing.write rfl rfl (fun acked => acked) fun _ present => present

/-- The slot may be free by then, or hold another peer. -/
theorem Owing.probeConnected (owing : Owing ble.presence ble.history) (handle : Nat) :
    Owing (ble.probeConnected index handle).presence
      (ble.probeConnected index handle).history := by
  have marked : Owing (ble.setSlot index { ble.presence index with
      probeHandle := handle, connected := true, probing := false }).presence ble.history :=
    owing.write rfl rfl (fun acked => acked) fun _ present => present
  exact Owing.presenceSeenAddr marked (ble.presence index).addr

theorem Owing.probeDisconnected (owing : Owing ble.presence ble.history) (handle : Nat) :
    Owing (ble.probeDisconnected index handle).presence
      (ble.probeDisconnected index handle).history := by
  rw [Ble.probeDisconnected]
  split_ifs
  · have quiet (addr : Addr) : (Note.refreshed (ble.presence index).addr).request addr = none := rfl
    refine Owing.note ?_ quiet
    exact owing.write rfl rfl (fun acked => acked) fun _ present => present
  · exact owing.write rfl rfl (fun acked => acked) fun _ present => present
  · exact owing

theorem Owing.gapConnected (owing : Owing ble.presence ble.history) (peer : Addr) :
    Owing (ble.gapConnected peer).presence (ble.gapConnected peer).history := by
  have seen := owing.presenceSeenAddr peer
  rw [Ble.gapConnected]
  dsimp only
  split
  · exact seen.write rfl rfl (fun acked => acked) fun _ present => present
  · exact seen

theorem Owing.gapDisconnected (owing : Owing ble.presence ble.history) (peer : Addr) :
    Owing (ble.gapDisconnected peer).presence (ble.gapDisconnected peer).history := by
  rw [Ble.gapDisconnected]
  split
  · have quiet (addr : Addr) : (Note.refreshed peer).request addr = none := rfl
    refine Owing.note ?_ quiet
    exact owing.write rfl rfl (fun acked => acked) fun _ present => present
  · exact owing

theorem Owing.preallocateBond (owing : Owing ble.presence ble.history) (bond : Bond) :
    Owing (ble.preallocateBond bond).presence (ble.preallocateBond bond).history := by
  rcases ble.preallocateBond_cases bond with same | ⟨index, _, unheld, _, same⟩
  · rwa [same]
  · have claimed : Owing (Function.update ble.presence index (ble.bondSlot bond))
        (.claimed bond.addr (ble.wasIn bond.addr) :: ble.history) :=
      owing.claim unheld fun acked => acked
    rw [same, Ble.claimBonded]
    split_ifs
    · exact claimed.note fun _ => rfl
    · exact claimed

theorem Owing.bondRevoke (owing : Owing ble.presence ble.history) (addr : Addr) (deleted : Bool) :
    Owing (ble.bondRevoke addr deleted).presence (ble.bondRevoke addr deleted).history := by
  rcases ble.bondRevoke_cases addr deleted with same | ⟨index, _, same⟩ | ⟨_, same⟩ <;> rw [same]
  · exact owing
  · refine Owing.note ?_ fun _ => rfl
    exact owing.free rfl rfl
  · exact owing.note fun _ => rfl

theorem Owing.wipeEvents (owing : Owing ble.presence ble.history) :
    Owing ble.wipeEvents.presence ble.wipeEvents.history := by
  have keeps (index : Fin presenceMax) (addr : Addr) :
      ble.wipeEvents.presence.Holds index addr ↔ ble.presence.Holds index addr := by
    rw [Presence.Holds, Presence.Holds, ble.wipeEvents_presence]
    split_ifs <;> rfl
  have still (index : Fin presenceMax) (acked : (ble.wipeEvents.presence index).ackEvent = true) :
      ble.wipeEvents.presence index = ble.presence index := by
    rw [ble.wipeEvents_presence] at acked ⊢
    by_cases here : ((ble.presence index).used && (ble.presence index).present) = true
    · rw [if_pos here] at acked
      exact absurd acked Bool.false_ne_true
    · rw [if_neg here]
  have wiped : Owing ble.wipeEvents.presence ble.history := by
    constructor
    · intro first second addr holdsFirst holdsSecond
      rw [keeps] at holdsFirst holdsSecond
      exact owing.distinct first second addr holdsFirst holdsSecond
    · intro index acked
      have same := still index acked
      rw [same] at acked ⊢
      exact owing.acked index acked
    · intro index addr holds acked
      have same := still index acked
      rw [keeps] at holds
      rw [same] at acked
      exact owing.owed index addr holds acked
    · exact owing.preceded
  exact wiped.note fun _ => rfl

end Callbacks

section Run

variable {radio : Radio} {ble : Ble}

theorem Owing.tickSlot (owing : Owing ble.presence ble.history) (index : Fin presenceMax) :
    Owing (Ble.tickSlot radio ble index).presence (Ble.tickSlot radio ble index).history := by
  refine Ble.tickSlot_kept (P := fun next => Owing next.presence next.history) ?_ ?_ ?_ ?_ owing
  · intro next _ kept
    exact kept.geofence
  · intro next used present kept
    exact kept.acknowledge used present
  · intro next _ _ kept
    exact kept.presenceProbeStart radio
  · intro next used _ _ _ kept
    exact kept.leave used

/-- Every event keeps slots and requests in agreement. -/
theorem Owing.perform (owing : Owing ble.presence ble.history) (event : BleEvent) :
    Owing (ble.perform radio event).presence (ble.perform radio event).history := by
  have preallocated : Owing ble.presencePreallocateBonded.presence
      ble.presencePreallocateBonded.history :=
    run_kept (fun next : Ble => Owing next.presence next.history)
      (fun _ bond kept => kept.preallocateBond bond) owing
  cases event with
  | adv addr => exact owing.presenceSeenAddr addr
  | tick =>
      exact run_kept (fun next : Ble => Owing next.presence next.history)
        (fun _ index kept => kept.tickSlot index) owing
  | probeUp connect handle =>
      have moved : Owing ((ble.connectEnds connect).linkUp
          ⟨handle, connect.peer, some connect.slot⟩).presence ble.history := owing
      exact Owing.probeConnected moved handle
  | probeDown connect =>
      have moved : Owing (ble.connectEnds connect).presence ble.history := owing
      exact Owing.probeFailed moved
  | hidUp handle peer =>
      have moved : Owing (ble.linkUp ⟨handle, peer, none⟩).presence ble.history := owing
      exact Owing.gapConnected moved peer
  | linkDown link =>
      obtain ⟨handle, peer, owner⟩ := link
      have moved : Owing (ble.linkDown ⟨handle, peer, owner⟩).presence ble.history := owing
      cases owner with
      | some index => exact Owing.probeDisconnected moved handle
      | none => exact Owing.gapDisconnected moved peer
  | wipe => exact owing.wipeEvents
  | encChange => exact preallocated
  | hostSync => exact preallocated
  | revoke addr deleted => exact owing.bondRevoke addr deleted
  | synced | unsynced | setTimeout | pairingStart | pairingCancel | bondStore | scanRestart =>
      exact owing

/-- In every state any run reaches, used slots hold distinct addresses and an acknowledged
slot is present; among the requests of each peer, with a resumed slot counted as an IN,
right before every OUT stands an IN. -/
theorem outRequests_preceded (radio : Radio) (startUs : Nat) (timeout : PresenceTimeout)
    (log : List PeerEvent) (actions : List BleAction) :
    let reached := run (Ble.step radio) (Ble.boot startUs timeout log) actions
    reached.presence.Distinct ∧
      (∀ index, (reached.presence index).ackEvent = true →
        (reached.presence index).present = true) ∧
      ∀ addr, Preceded (requestsOf addr reached.history) := by
  have owing : Owing (run (Ble.step radio) (Ble.boot startUs timeout log) actions).presence
      (run (Ble.step radio) (Ble.boot startUs timeout log) actions).history := by
    refine run_kept (fun ble : Ble => Owing ble.presence ble.history) ?_ Owing.cleared
    intro ble action owing
    have waited : Owing (ble.wait action.elapsedUs).presence
        (ble.wait action.elapsedUs).history := owing
    exact waited.perform action.event
  exact ⟨owing.distinct, owing.acked, owing.preceded⟩

end Run

end LeanDingdong
