import Dingdong.BleCore

/-!
The presence table under the callbacks: which slot holds an address, what a sighting
and a turn of the tick are made of, and that used slots hold distinct addresses.
-/

namespace LeanDingdong

open Runs

namespace Presence

def Holds (presence : Presence) (index : Fin presenceMax) (addr : Addr) : Prop :=
  (presence index).used = true ∧ (presence index).addr = addr

instance (presence : Presence) (index : Fin presenceMax) (addr : Addr) :
    Decidable (presence.Holds index addr) :=
  inferInstanceAs (Decidable (_ ∧ _))

/-- Used slots hold distinct addresses. -/
def Distinct (presence : Presence) : Prop :=
  ∀ first second addr, presence.Holds first addr → presence.Holds second addr → first = second

def Unheld (presence : Presence) (addr : Addr) : Prop := ∀ index, ¬ presence.Holds index addr

variable {presence : Presence} {index other : Fin presenceMax} {addr : Addr} {slot : PresenceSlot}

theorem holds_self (used : (presence index).used = true) :
    presence.Holds index (presence index).addr :=
  ⟨used, rfl⟩

theorem holds_update_of_ne (different : other ≠ index) :
    Holds (Function.update presence index slot) other addr ↔ presence.Holds other addr := by
  rw [Holds, Holds, Function.update_of_ne different]

theorem holds_update_self :
    Holds (Function.update presence index slot) index addr ↔ slot.used = true ∧ slot.addr = addr := by
  rw [Holds, Function.update_self]

/-- A write that keeps `used` and `addr` moves no address. -/
theorem holds_update_same (used : slot.used = (presence index).used)
    (same : slot.addr = (presence index).addr) :
    Holds (Function.update presence index slot) other addr ↔ presence.Holds other addr := by
  by_cases here : other = index
  · subst here
    rw [holds_update_self, used, same, Holds]
  · exact holds_update_of_ne here

theorem Distinct.write (distinct : presence.Distinct) (used : slot.used = (presence index).used)
    (same : slot.addr = (presence index).addr) :
    Distinct (Function.update presence index slot) := by
  intro first second addr holdsFirst holdsSecond
  rw [holds_update_same used same] at holdsFirst holdsSecond
  exact distinct first second addr holdsFirst holdsSecond

/-- A slot taken for an address that no slot holds. -/
theorem Distinct.claim (distinct : presence.Distinct) (unheld : presence.Unheld slot.addr) :
    Distinct (Function.update presence index slot) := by
  intro first second addr holdsFirst holdsSecond
  by_cases isFirst : first = index <;> by_cases isSecond : second = index
  · rw [isFirst, isSecond]
  · rw [isFirst, holds_update_self] at holdsFirst
    rw [holds_update_of_ne isSecond, ← holdsFirst.2] at holdsSecond
    exact absurd holdsSecond (unheld second)
  · rw [isSecond, holds_update_self] at holdsSecond
    rw [holds_update_of_ne isFirst, ← holdsSecond.2] at holdsFirst
    exact absurd holdsFirst (unheld first)
  · rw [holds_update_of_ne isFirst] at holdsFirst
    rw [holds_update_of_ne isSecond] at holdsSecond
    exact distinct first second addr holdsFirst holdsSecond

theorem Distinct.clear (distinct : presence.Distinct) (free : slot.used = false) :
    Distinct (Function.update presence index slot) := by
  have other {index' : Fin presenceMax} {addr : Addr}
      (holds : Holds (Function.update presence index slot) index' addr) :
      presence.Holds index' addr := by
    by_cases here : index' = index
    · rw [here, holds_update_self, free] at holds
      exact absurd holds.1 (by decide)
    · exact (holds_update_of_ne here).mp holds
  exact fun first second addr holdsFirst holdsSecond =>
    distinct first second addr (other holdsFirst) (other holdsSecond)

end Presence

namespace Ble

open Presence

variable {ble : Ble} {index : Fin presenceMax} {addr : Addr}

theorem nowUnix_pos : 0 < ble.nowUnix ↔ ble.epoch.isSome = true := by
  rw [nowUnix]
  cases ble.epoch with
  | none => simp
  | some epoch =>
      have := epoch.pos
      simp only [Option.isSome_some, iff_true]
      omega

theorem slotOf_holds (found : ble.slotOf addr = some index) : ble.presence.Holds index addr := by
  have passes := SlotTable.first_passes found
  rw [Bool.and_eq_true, decide_eq_true_eq] at passes
  exact passes

theorem slotOf_none (missing : ble.slotOf addr = none) : ble.presence.Unheld addr := by
  intro index holds
  have := SlotTable.first_none.mp missing index
  simp [holds.1, holds.2] at this

theorem slotOf_eq (distinct : ble.presence.Distinct) (holds : ble.presence.Holds index addr) :
    ble.slotOf addr = some index := by
  refine SlotTable.first_unique (by simp [holds.1, holds.2]) fun other passes => ?_
  rw [Bool.and_eq_true, decide_eq_true_eq] at passes
  exact distinct other index addr passes holds

theorem freeSlot_unused (found : ble.freeSlot = some index) :
    (ble.presence index).used = false := by
  simpa using SlotTable.first_passes found

/-- A sighting of the address takes a slot for it. -/
def Claims (ble : Ble) (addr : Addr) : Prop :=
  ble.slotOf addr = none ∧ ble.freeSlot.isSome ∧ (ble.bondAddrLookup addr).isSome

instance (ble : Ble) (addr : Addr) : Decidable (ble.Claims addr) :=
  inferInstanceAs (Decidable (_ ∧ _ ∧ _))

/-- The preallocation takes a slot for the bond. -/
def Allocates (ble : Ble) (bond : Bond) : Prop :=
  ble.slotOf bond.addr = none ∧ ble.freeSlot.isSome

instance (ble : Ble) (bond : Bond) : Decidable (ble.Allocates bond) :=
  inferInstanceAs (Decidable (_ ∧ _))

/-- What one sighting does: nothing, or a slot of the address is touched, an existing
one or one taken for a bonded peer. -/
theorem presenceSeenAddr_cases (ble : Ble) (addr : Addr) :
    ble.presenceSeenAddr addr = ble ∨
      (∃ index, ble.presence.Holds index addr ∧
        ble.presenceSeenAddr addr = (ble.touch index).acknowledge index) ∨
      ∃ index type, ble.Claims addr ∧ ble.presence.Unheld addr ∧
        (ble.presence index).used = false ∧
        ble.presenceSeenAddr addr =
          ((ble.claimSeen index addr type).touch index).acknowledge index := by
  rw [presenceSeenAddr, Claims]
  cases found : ble.slotOf addr with
  | some index => exact .inr (.inl ⟨index, slotOf_holds found, rfl⟩)
  | none =>
      cases free : ble.freeSlot with
      | none => exact .inl rfl
      | some index =>
          cases ble.bondAddrLookup addr with
          | none => exact .inl rfl
          | some bond =>
              exact .inr (.inr ⟨index, bond.type, ⟨rfl, rfl, rfl⟩, slotOf_none found,
                freeSlot_unused free, rfl⟩)

/-- What one round of the preallocation does. -/
theorem preallocateBond_cases (ble : Ble) (bond : Bond) :
    ble.preallocateBond bond = ble ∨
      ∃ index, ble.Allocates bond ∧ ble.presence.Unheld bond.addr ∧
        (ble.presence index).used = false ∧
        ble.preallocateBond bond = ble.claimBonded index bond := by
  rw [preallocateBond, Allocates]
  cases found : ble.slotOf bond.addr with
  | some index => exact .inl rfl
  | none =>
      cases free : ble.freeSlot with
      | none => exact .inl rfl
      | some index =>
          exact .inr ⟨index, ⟨rfl, rfl⟩, slotOf_none found, freeSlot_unused free, rfl⟩

theorem claimBonded_presence (ble : Ble) (index : Fin presenceMax) (bond : Bond) :
    (ble.claimBonded index bond).presence =
      Function.update ble.presence index (ble.bondSlot bond) := by
  rw [claimBonded]
  split_ifs <;> rfl

theorem probeDisconnected_presence {handle : Nat}
    (own : (ble.presence index).probeHandle = handle) :
    (ble.probeDisconnected index handle).presence = Function.update ble.presence index
      { ble.presence index with
        probeHandle := noHandle
        probing := false
        connected := false
        lastSeenUs := ble.clockUs
        lastProbeUs := ble.clockUs } := by
  rw [probeDisconnected, if_pos own]
  split_ifs <;> rfl

theorem wipeEvents_presence (ble : Ble) (index : Fin presenceMax) :
    ble.wipeEvents.presence index =
      if (ble.presence index).used && (ble.presence index).present then
        { ble.presence index with ackEvent := false }
      else ble.presence index := rfl

/-- What a revocation does: nothing, or the bond goes and with it the slot. -/
theorem bondRevoke_cases (ble : Ble) (addr : Addr) (deleted : Bool) :
    ble.bondRevoke addr deleted = ble ∨
      (∃ index, ble.slotOf addr = some index ∧
        ble.bondRevoke addr deleted =
          (({ ble with bonds := ble.bonds.filter fun bond => bond.addr ≠ addr }).setSlot index
            PresenceSlot.cleared).note (.revoked addr)) ∨
      ble.slotOf addr = none ∧
        ble.bondRevoke addr deleted =
          ({ ble with bonds := ble.bonds.filter fun bond => bond.addr ≠ addr }).note
            (.revoked addr) := by
  rw [bondRevoke]
  cases ble.bondAddrLookup addr with
  | none => exact .inl rfl
  | some bond =>
      cases deleted with
      | false => exact .inl rfl
      | true =>
          refine .inr ?_
          have same : ({ ble with bonds := ble.bonds.filter fun bond => bond.addr ≠ addr }).slotOf
              addr = ble.slotOf addr := rfl
          simp only [if_true, same]
          cases ble.slotOf addr with
          | none => exact .inr ⟨rfl, rfl⟩
          | some index => exact .inl ⟨index, rfl, rfl⟩

section Turn

@[simp] theorem presence_setSlot (ble : Ble) (index : Fin presenceMax) (slot : PresenceSlot) :
    (ble.setSlot index slot).presence = Function.update ble.presence index slot := rfl

@[simp] theorem presence_note (ble : Ble) (entry : Note) :
    (ble.note entry).presence = ble.presence := rfl

@[simp] theorem presence_scheduleScanRestart (ble : Ble) :
    ble.scheduleScanRestart.presence = ble.presence := rfl

theorem geofence_idle (apart : (ble.presence index).connected = false) :
    ble.geofence index = ble := by
  rw [geofence, apart]
  rfl

theorem geofence_connected (linked : (ble.presence index).connected = true) :
    ble.geofence index = (ble.setSlot index
      { ble.presence index with
        lastSeenUs := ble.clockUs
        present := true
        ackEvent := if (ble.presence index).present then (ble.presence index).ackEvent
          else false }).note (.refreshed (ble.presence index).addr) := by
  simp only [geofence, linked, if_true]

/-- A turn writes only `ack_event`, and that only for a slot that was not acknowledged. -/
theorem acknowledge_cases (ble : Ble) (index : Fin presenceMax) :
    ble.acknowledge index = ble ∨
      (ble.presence index).ackEvent = false ∧ 0 < ble.nowUnix ∧
        ble.acknowledge index = (ble.record .evIn (ble.presence index).addr).setSlot index
          { ble.presence index with ackEvent := true } := by
  rw [acknowledge]
  split_ifs with due
  · exact .inr ⟨due.1, due.2, rfl⟩
  · exact .inl rfl

theorem acknowledge_presence (ble : Ble) (index : Fin presenceMax) :
    ∃ acked, (ble.acknowledge index).presence =
      Function.update ble.presence index { ble.presence index with ackEvent := acked } := by
  rcases ble.acknowledge_cases index with same | ⟨_, _, same⟩
  · rw [same]
    exact ⟨(ble.presence index).ackEvent, (Function.update_eq_self _ _).symm⟩
  · rw [same]
    exact ⟨true, rfl⟩

theorem presence_acknowledge_of_ne {other : Fin presenceMax} (different : other ≠ index) :
    (ble.acknowledge index).presence other = ble.presence other := by
  obtain ⟨_, same⟩ := ble.acknowledge_presence index
  rw [same, Function.update_of_ne different]

theorem geofence_presence (ble : Ble) (index : Fin presenceMax) :
    ∃ seenUs present acked, (ble.geofence index).presence = Function.update ble.presence index
      { ble.presence index with lastSeenUs := seenUs, present := present, ackEvent := acked } := by
  cases linked : (ble.presence index).connected with
  | false =>
      rw [geofence_idle linked]
      exact ⟨_, _, _, (Function.update_eq_self _ _).symm⟩
  | true =>
      rw [geofence_connected linked]
      exact ⟨_, _, _, rfl⟩

/-- The ways a probe start ends: not tried, given up, accepted, refused. -/
theorem presenceProbeStart_cases (radio : Radio) (ble : Ble) (index : Fin presenceMax) :
    ((ble.presence index).probing = true ∨ ble.pairingActive = true) ∧
        presenceProbeStart radio ble index = ble ∨
      (ble.presence index).probing = false ∧ ble.pairingActive = false ∧
        ((radio.probe ble index).cancel = .failed ∧
            presenceProbeStart radio ble index =
              (ble.setSlot index
                { ble.presence index with lastProbeUs := ble.clockUs }).scheduleScanRestart ∨
          (radio.probe ble index).accepted = true ∧ (∃ scanning,
            presenceProbeStart radio ble index =
              (({ ble with
                scanning := scanning
                connects := ble.connects ++ [ble.dial index] }).setSlot index
                  { ble.presence index with probing := true, probeHandle := noHandle }).note
                    (.dialled (ble.presence index).addr)) ∨
          (radio.probe ble index).accepted = false ∧ ∃ scanning,
            presenceProbeStart radio ble index =
              (({ ble with scanning := scanning }).setSlot index
                { ble.presence index with
                  probing := false
                  probeHandle := noHandle
                  lastProbeUs := ble.clockUs }).scheduleScanRestart) := by
  rw [presenceProbeStart]
  by_cases probing : (ble.presence index).probing = true
  · exact .inl ⟨.inl probing, if_pos probing⟩
  by_cases pairing : ble.pairingActive = true
  · exact .inl ⟨.inr pairing, by simp only [if_neg probing, if_pos pairing]⟩
  simp only [if_neg probing, if_neg pairing]
  refine .inr ⟨by simpa using probing, by simpa using pairing, ?_⟩
  split
  · rename_i cancel
    exact .inl ⟨cancel, rfl⟩
  · refine .inr ?_
    by_cases accepted : (radio.probe ble index).accepted = true
    · simp only [if_pos accepted]
      exact .inl ⟨accepted, _, rfl⟩
    · simp only [if_neg accepted]
      exact .inr ⟨by simpa using accepted, _, rfl⟩

theorem presenceProbeStart_presence (radio : Radio) (ble : Ble) (index : Fin presenceMax) :
    ∃ probing probeUs handle,
      (handle = (ble.presence index).probeHandle ∨ handle = noHandle) ∧
        (presenceProbeStart radio ble index).presence = Function.update ble.presence index
          { ble.presence index with
            probing := probing, lastProbeUs := probeUs, probeHandle := handle } := by
  rcases presenceProbeStart_cases radio ble index with
    ⟨_, same⟩ | ⟨_, _, ⟨_, same⟩ | ⟨_, _, same⟩ | ⟨_, _, same⟩⟩ <;> rw [same]
  · exact ⟨_, _, _, .inl rfl, (Function.update_eq_self _ _).symm⟩
  · exact ⟨_, _, _, .inl rfl, rfl⟩
  · exact ⟨_, _, _, .inr rfl, rfl⟩
  · exact ⟨_, _, _, .inr rfl, rfl⟩

theorem leave_presence (ble : Ble) (index : Fin presenceMax) :
    (ble.leave index).presence = Function.update ble.presence index
      { ble.presence index with present := false, ackEvent := false } := by
  simp only [leave]
  split_ifs <;> rfl

theorem backfill_presence (ble : Ble) (index : Fin presenceMax) :
    ∃ acked, (ble.backfill index).presence =
      Function.update ble.presence index { ble.presence index with ackEvent := acked } := by
  rw [backfill]
  split_ifs
  · exact ble.acknowledge_presence index
  · exact ⟨_, (Function.update_eq_self _ _).symm⟩

/-- What a property needs to be kept by one round of the tick's loop. -/
theorem tickSlot_kept {radio : Radio} {P : Ble → Prop}
    (geofence : ∀ ble, (ble.presence index).used = true → P ble → P (ble.geofence index))
    (acknowledge : ∀ ble, (ble.presence index).used = true → (ble.presence index).present = true →
      P ble → P (ble.acknowledge index))
    (probe : ∀ ble, (ble.presence index).used = true → (ble.presence index).connected = false →
      P ble → P (presenceProbeStart radio ble index))
    (leave : ∀ ble, (ble.presence index).used = true → (ble.presence index).connected = false →
      (ble.presence index).present = true → ble.outDue index = true → P ble → P (ble.leave index))
    (start : P ble) : P (tickSlot radio ble index) := by
  by_cases used : (ble.presence index).used = true
  · rw [tickSlot, if_pos used]
    have fenced := geofence ble used start
    have fencedUsed : ((ble.geofence index).presence index).used = true := by
      obtain ⟨_, _, _, same⟩ := ble.geofence_presence index
      rw [same, Function.update_self]
      exact used
    have filled : P ((ble.geofence index).backfill index) := by
      rw [backfill]
      split_ifs with present
      · exact acknowledge _ fencedUsed present fenced
      · exact fenced
    have filledUsed : (((ble.geofence index).backfill index).presence index).used = true := by
      obtain ⟨_, same⟩ := (ble.geofence index).backfill_presence index
      rw [same, Function.update_self]
      exact fencedUsed
    dsimp only
    generalize (ble.geofence index).backfill index = turn at filled filledUsed
    split_ifs with linked present
    · exact filled
    · have apart : (turn.presence index).connected = false := by simpa using linked
      rw [checkStale]
      obtain ⟨_, _, _, _, probedSame⟩ := presenceProbeStart_presence radio turn index
      have probed := probe turn filledUsed apart filled
      split_ifs with due expired expired
      · refine leave _ ?_ ?_ ?_ expired probed <;> rw [probedSame, Function.update_self]
        · exact filledUsed
        · exact apart
        · exact present
      · exact probed
      · exact leave turn filledUsed apart present expired filled
      · exact filled
    · have apart : (turn.presence index).connected = false := by simpa using linked
      rw [reprobe]
      split_ifs
      · exact filled
      · exact filled
      · exact filled
      · exact probe turn filledUsed apart filled
  · rw [tickSlot, if_neg used]
    exact start

end Turn

section Environment

/-- What the presence machine reads and leaves alone: the rest is blanked. -/
def environment (ble : Ble) : Ble :=
  { ble with
    presence := fun _ => PresenceSlot.cleared
    connects := []
    scanning := false
    scanRestart := false
    events := { debounce := DebounceTable.blank, log := [] }
    history := [] }

theorem environment_eq {first second : Ble} :
    first.environment = second.environment ↔
      first.timeout = second.timeout ∧ first.pairingUntilUs = second.pairingUntilUs ∧
        first.bonds = second.bonds ∧ first.links = second.links ∧
        first.clockUs = second.clockUs ∧ first.epoch = second.epoch := by
  simp [environment]

theorem links_eq {first second : Ble} (same : first.environment = second.environment) :
    first.links = second.links :=
  (environment_eq.mp same).2.2.2.1

theorem environment_acknowledge (ble : Ble) (index : Fin presenceMax) :
    (ble.acknowledge index).environment = ble.environment := by
  rcases ble.acknowledge_cases index with same | ⟨_, _, same⟩ <;> rw [same]
  rfl

theorem environment_presenceSeenAddr (ble : Ble) (addr : Addr) :
    (ble.presenceSeenAddr addr).environment = ble.environment := by
  rcases ble.presenceSeenAddr_cases addr with same | ⟨_, _, same⟩ | ⟨_, _, _, _, _, same⟩ <;>
    rw [same]
  · exact environment_acknowledge _ _
  · exact environment_acknowledge _ _

theorem environment_tickSlot (radio : Radio) (ble : Ble) (index : Fin presenceMax) :
    (tickSlot radio ble index).environment = ble.environment := by
  refine tickSlot_kept (P := fun next => next.environment = ble.environment) ?_ ?_ ?_ ?_ rfl
  · intro next _ same
    rw [geofence]
    split_ifs <;> exact same
  · intro next _ _ same
    rw [environment_acknowledge, same]
  · intro next _ _ same
    rcases presenceProbeStart_cases radio next index with
      ⟨_, here⟩ | ⟨_, _, ⟨_, here⟩ | ⟨_, _, here⟩ | ⟨_, _, here⟩⟩ <;> rw [here] <;> exact same
  · intro next _ _ _ _ same
    rw [leave]
    split_ifs <;> exact same

theorem environment_presenceTickCb (radio : Radio) (ble : Ble) :
    (presenceTickCb radio ble).environment = ble.environment :=
  run_kept (fun next : Ble => next.environment = ble.environment)
    (fun next index same => (environment_tickSlot radio next index).trans same) rfl

theorem environment_probeConnected (ble : Ble) (index : Fin presenceMax) (handle : Nat) :
    (ble.probeConnected index handle).environment = ble.environment :=
  environment_presenceSeenAddr _ _

theorem environment_probeDisconnected (ble : Ble) (index : Fin presenceMax) (handle : Nat) :
    (ble.probeDisconnected index handle).environment = ble.environment := by
  rw [probeDisconnected]
  split_ifs <;> rfl

theorem environment_gapConnected (ble : Ble) (peer : Addr) :
    (ble.gapConnected peer).environment = ble.environment := by
  rw [gapConnected, ← environment_presenceSeenAddr ble peer]
  dsimp only
  split <;> rfl

theorem environment_gapDisconnected (ble : Ble) (peer : Addr) :
    (ble.gapDisconnected peer).environment = ble.environment := by
  rw [gapDisconnected]
  split <;> rfl

theorem environment_presencePreallocateBonded (ble : Ble) :
    ble.presencePreallocateBonded.environment = ble.environment := by
  refine run_kept (fun next : Ble => next.environment = ble.environment) (fun next bond same => ?_)
    rfl
  rcases next.preallocateBond_cases bond with here | ⟨index, _, _, _, here⟩
  · rwa [here]
  · rw [here, claimBonded]
    split_ifs <;> exact same

theorem clockUs_perform (radio : Radio) (ble : Ble) (event : BleEvent) :
    (ble.perform radio event).clockUs = ble.clockUs := by
  have clock {first second : Ble} (same : first.environment = second.environment) :
      first.clockUs = second.clockUs := (environment_eq.mp same).2.2.2.2.1
  cases event with
  | adv addr => exact clock (ble.environment_presenceSeenAddr addr)
  | tick => exact clock (ble.environment_presenceTickCb radio)
  | probeUp connect handle => exact (clock (environment_probeConnected _ _ _)).trans rfl
  | hidUp handle peer => exact (clock (environment_gapConnected _ _)).trans rfl
  | linkDown link =>
      obtain ⟨handle, peer, owner⟩ := link
      cases owner with
      | none => exact (clock (environment_gapDisconnected _ _)).trans rfl
      | some index => exact (clock (environment_probeDisconnected _ _ _)).trans rfl
  | encChange | hostSync => exact (clock ble.environment_presencePreallocateBonded :)
  | revoke addr deleted =>
      rcases ble.bondRevoke_cases addr deleted with same | ⟨_, _, same⟩ | ⟨_, same⟩ <;>
        rw [perform, same] <;> rfl
  | probeDown | synced | unsynced | wipe | setTimeout | pairingStart | pairingCancel | bondStore
  | scanRestart => rfl

end Environment

end Ble

end LeanDingdong
