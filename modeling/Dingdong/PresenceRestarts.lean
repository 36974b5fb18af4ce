import Dingdong.BleEvidence
import Dingdong.BleLog
import Dingdong.BleRequests

/-!
The presence log over restarts. A restart empties the slots and the debounce table; what is
left is the log and the bond store, and `on_sync` takes the state of every bonded peer from the
log. The lines an administrator enters come between.
-/

namespace LeanDingdong

open Runs Presence

/-- The last stay of the peer is open: its lines do not pair up. -/
def stayOpen (addr : Addr) (log : List PeerEvent) : Bool := (linesOf addr log).length % 2 = 1

inductive PresenceStep where
  | act (action : BleAction)
  /-- an event entered on the page -/
  | entered (elapsedUs : Nat) (type : EventType) (peer : Option Addr)
  /-- the device restarts, and `on_sync` runs at this time of the new boot -/
  | restart (syncUs : Nat) (timeout : PresenceTimeout)

namespace Ble

/-- The log and the bonds are all a restart leaves. -/
def restarted (ble : Ble) (syncUs : Nat) (timeout : PresenceTimeout) : Ble :=
  { boot syncUs timeout ble.events.log with bonds := ble.bonds }

/-- `dd_event_record` for a click on the page, which is never debounced. -/
def enter (ble : Ble) (type : EventType) (peer : Option Addr) : Ble :=
  { ble with events := eventRecord ble.clockUs ble.nowUnix type .srcManualWeb peer ble.events }

def live (radio : Radio) (ble : Ble) : PresenceStep → Ble
  | .act action => ble.step radio action
  | .entered elapsedUs type peer => (ble.wait elapsedUs).enter type peer
  | .restart syncUs timeout => (ble.restarted syncUs timeout).perform radio .hostSync

/-- The lines of the peer alternate, and its slot is acknowledged exactly while its stay is
open in the log. -/
def TellsStay (ble : Ble) (addr : Addr) : Prop :=
  Alternates .evIn (linesOf addr ble.events.log) ∧
    ∀ index, ble.presence.Holds index addr →
      (ble.presence index).ackEvent = stayOpen addr ble.events.log

abbrev Tells (ble : Ble) : Prop := ∀ addr, ble.TellsStay addr

/-- With a clock an IN of the peer is debounced exactly when the log has its stay open, and
without one, when none is requested, the stay is closed. -/
def InFits (ble : Ble) (addr : Addr) : Prop :=
  if ble.epoch.isSome then
    ble.events.debounce.debounced .evIn addr ble.clockUs = stayOpen addr ble.events.log
  else stayOpen addr ble.events.log = false

instance (ble : Ble) (addr : Addr) : Decidable (ble.InFits addr) :=
  inferInstanceAs (Decidable (ite _ _ _))

/-- A sighting requests an IN: the slot of the peer is not acknowledged, or one is taken. -/
def SightingAsks (ble : Ble) (addr : Addr) : Prop :=
  (∃ index ∈ ble.slotOf addr, (ble.presence index).ackEvent = false) ∨ ble.Claims addr

instance (ble : Ble) (addr : Addr) : Decidable (ble.SightingAsks addr) :=
  inferInstanceAs (Decidable (_ ∨ _))

def SightingFits (ble : Ble) (addr : Addr) : Prop := ble.SightingAsks addr → ble.InFits addr

instance (ble : Ble) (addr : Addr) : Decidable (ble.SightingFits addr) :=
  inferInstanceAs (Decidable (_ → _))

/-- A turn of the tick that requests an IN fits, and one that takes the OUT path of an
acknowledged slot has a clock. -/
def TurnFits (ble : Ble) (index : Fin presenceMax) : Prop :=
  (ble.presence index).used = true →
    ((ble.presence index).present = true ∨ (ble.presence index).connected = true →
      (ble.presence index).ackEvent = false → ble.InFits (ble.presence index).addr) ∧
    (ble.LeavesAcked index → ble.epoch.isSome = true)

instance (ble : Ble) (index : Fin presenceMax) : Decidable (ble.TurnFits index) :=
  inferInstanceAs (Decidable (_ → _))

/-- A slot that is taken for a bond resumes what the peer's own lines say. -/
def BondFits (ble : Ble) (bond : Bond) : Prop :=
  ble.Allocates bond → ble.wasIn bond.addr = stayOpen bond.addr ble.events.log

instance (ble : Ble) (bond : Bond) : Decidable (ble.BondFits bond) :=
  inferInstanceAs (Decidable (_ → _))

def EventFits (radio : Radio) (ble : Ble) : BleEvent → Prop
  | .adv addr => ble.SightingFits addr
  | .probeUp connect _ => ble.SightingFits (ble.presence connect.slot).addr
  | .hidUp _ peer => ble.SightingFits peer
  | .tick => Guarded (tickSlot radio) TurnFits ble (List.finRange presenceMax)
  | .encChange | .hostSync => Guarded preallocateBond BondFits ble ble.bonds
  | _ => True

instance decidableEventFits (radio : Radio) (ble : Ble) :
    ∀ event, Decidable (ble.EventFits radio event)
  | .adv _ | .probeUp _ _ | .hidUp _ _ => inferInstanceAs (Decidable (SightingFits _ _))
  | .tick => inferInstanceAs (Decidable (Guarded (tickSlot radio) TurnFits _ _))
  | .encChange | .hostSync => inferInstanceAs (Decidable (Guarded preallocateBond BondFits _ _))
  | .probeDown _ | .linkDown _ | .synced _ | .unsynced | .wipe | .setTimeout _ | .pairingStart _
  | .pairingCancel | .bondStore _ | .revoke _ _ | .scanRestart => isTrue trivial

def StepFits (radio : Radio) (ble : Ble) : PresenceStep → Prop
  | .act action => Meets (EventFits radio) ble action
  | .entered _ _ _ => True
  | .restart syncUs timeout => (ble.restarted syncUs timeout).EventFits radio .hostSync

instance (radio : Radio) (ble : Ble) : ∀ step, Decidable (ble.StepFits radio step)
  | .act action => inferInstanceAs (Decidable (Meets (EventFits radio) ble action))
  | .entered _ _ _ => isTrue trivial
  | .restart syncUs timeout => decidableEventFits radio (ble.restarted syncUs timeout) .hostSync

end Ble

section Types

variable {expected type : EventType} {types : List EventType} {addr other : Addr}
  {log : List PeerEvent} {line : PeerEvent}

theorem expectedAfter_cons (first : EventType) :
    expectedAfter expected (first :: types) = expectedAfter expected.other types := by
  rw [expectedAfter, expectedAfter, List.length_cons]
  by_cases even : types.length % 2 = 0
  · have odd : (types.length + 1) % 2 ≠ 0 := by omega
    rw [if_neg odd, if_pos even]
  · have odd : (types.length + 1) % 2 = 0 := by omega
    rw [if_pos odd, if_neg even]
    cases expected <;> rfl

theorem alternates_append :
    Alternates expected (types ++ [type]) ↔
      Alternates expected types ∧ type = expectedAfter expected types := by
  induction types generalizing expected with
  | nil => exact and_comm
  | cons first types ih =>
      rw [List.cons_append, Alternates, Alternates, ih, expectedAfter_cons, and_assoc]

theorem linesOf_snoc_other (apart : line.peer ≠ some addr) :
    linesOf addr (log ++ [line]) = linesOf addr log := by
  simp [linesOf, apart]

theorem linesOf_snoc_own (source : line.src = .srcBleAuto) (own : line.peer = some addr) :
    linesOf addr (log ++ [line]) = linesOf addr log ++ [line.type] := by
  simp [linesOf, source, own]

theorem linesOf_snoc_entered (source : line.src = .srcManualWeb) :
    linesOf addr (log ++ [line]) = linesOf addr log := by
  simp [linesOf, source]

/-- A line of the peer's own turns its stay over. -/
theorem stayOpen_snoc (source : line.src = .srcBleAuto) (own : line.peer = some addr) :
    stayOpen addr (log ++ [line]) = !stayOpen addr log := by
  rw [stayOpen, stayOpen, linesOf_snoc_own source own, List.length_append, List.length_singleton,
    Bool.eq_iff_iff, Bool.not_eq_true', decide_eq_true_eq, decide_eq_false_iff_not]
  omega

/-- Which type comes next says whether the stay is open. -/
theorem alternates_line (source : line.src = .srcBleAuto) (own : line.peer = some addr) :
    Alternates .evIn (linesOf addr (log ++ [line])) ↔
      Alternates .evIn (linesOf addr log) ∧ (line.type = .evOut ↔ stayOpen addr log = true) := by
  rw [linesOf_snoc_own source own, alternates_append, expectedAfter, stayOpen, decide_eq_true_eq]
  refine and_congr_right fun _ => ?_
  split_ifs with even
  · have paired : ¬ (linesOf addr log).length % 2 = 1 := by omega
    cases line.type <;> simp [paired]
  · have alone : (linesOf addr log).length % 2 = 1 := by omega
    cases line.type <;> simp [alone, EventType.other]

end Types

section Writes

theorem Ble.touch_presence (ble : Ble) (index : Fin presenceMax) :
    (ble.touch index).presence = Function.update ble.presence index
      { ble.presence index with lastSeenUs := ble.clockUs, present := true } := rfl

theorem Ble.geofence_log (ble : Ble) (index : Fin presenceMax) :
    (ble.geofence index).events.log = ble.events.log := by
  rw [Ble.geofence]
  split_ifs <;> rfl

theorem Ble.claimBonded_log (ble : Ble) (index : Fin presenceMax) (bond : Bond) :
    (ble.claimBonded index bond).events.log = ble.events.log := by
  rw [Ble.claimBonded]
  split_ifs <;> rfl

end Writes

section View

variable {ble next : Ble} {index : Fin presenceMax} {addr : Addr} {slot : PresenceSlot}

/-- What `TellsStay` looks at. -/
def Ble.stayView (ble : Ble) (addr : Addr) : List EventType × (Fin presenceMax → Option Bool) :=
  (linesOf addr ble.events.log, fun index =>
    if ble.presence.Holds index addr then some (ble.presence index).ackEvent else none)

theorem tells_congr (same : next.stayView addr = ble.stayView addr) :
    next.TellsStay addr ↔ ble.TellsStay addr := by
  obtain ⟨lines, slots⟩ := Prod.mk.inj same
  have slotSame (index : Fin presenceMax) :
      (next.presence.Holds index addr ↔ ble.presence.Holds index addr) ∧
        (ble.presence.Holds index addr →
          (next.presence index).ackEvent = (ble.presence index).ackEvent) := by
    have here := congrFun slots index
    by_cases held : ble.presence.Holds index addr <;>
      by_cases heldNext : next.presence.Holds index addr <;> simp [held, heldNext] at here ⊢
    exact here
  rw [Ble.TellsStay, Ble.TellsStay, stayOpen, stayOpen, lines]
  refine and_congr_right fun _ => forall_congr' fun index => ?_
  rw [(slotSame index).1]
  exact forall_congr' fun held => by rw [(slotSame index).2 held]

/-- The one slot of the peer decides. -/
theorem tells_held (distinct : ble.presence.Distinct) (holds : ble.presence.Holds index addr) :
    ble.TellsStay addr ↔ Alternates .evIn (linesOf addr ble.events.log) ∧
      (ble.presence index).ackEvent = stayOpen addr ble.events.log := by
  refine and_congr_right fun _ => ⟨fun all => all index holds, fun here other held => ?_⟩
  rw [distinct other index addr held holds]
  exact here

theorem tells_unheld (unheld : ble.presence.Unheld addr) :
    ble.TellsStay addr ↔ Alternates .evIn (linesOf addr ble.events.log) :=
  and_iff_left fun index held => absurd held (unheld index)

/-- A write that leaves `used`, `addr` and `ack_event` alone is not seen. -/
theorem stayView_rewrite (presence : next.presence = Function.update ble.presence index slot)
    (log : next.events.log = ble.events.log) (used : slot.used = (ble.presence index).used)
    (same : slot.addr = (ble.presence index).addr)
    (acked : slot.ackEvent = (ble.presence index).ackEvent) (addr : Addr) :
    next.stayView addr = ble.stayView addr := by
  rw [Ble.stayView, Ble.stayView, log, presence]
  refine Prod.ext rfl (funext fun other => ?_)
  dsimp only
  rw [if_congr (holds_update_same used same) rfl rfl]
  by_cases here : other = index
  · rw [here, Function.update_self, acked]
  · rw [Function.update_of_ne here]

/-- A write to a slot of other peers is not seen. -/
theorem stayView_apart (presence : next.presence = Function.update ble.presence index slot)
    (lines : linesOf addr next.events.log = linesOf addr ble.events.log)
    (before : ¬ ble.presence.Holds index addr) (after : ¬ (slot.used = true ∧ slot.addr = addr)) :
    next.stayView addr = ble.stayView addr := by
  rw [Ble.stayView, Ble.stayView, lines, presence]
  refine Prod.ext rfl (funext fun other => ?_)
  by_cases here : other = index
  · subst here
    simp only [holds_update_self, if_neg before, if_neg after]
  · simp only [holds_update_of_ne here, Function.update_of_ne here]

end View

section Grounded

/-- No OUT that is remembered is later than the slot of its peer was seen. -/
structure Ble.Grounded (ble : Ble) : Prop where
  owing : Owing ble.presence ble.history
  recorded : ∀ addr last, ble.events.debounce.Remembers .evOut addr last → last ≤ ble.clockUs
  outs : ∀ index addr, ble.presence.Holds index addr → (ble.presence index).present = true →
    ∀ last, ble.events.debounce.Remembers .evOut addr last → last ≤ (ble.presence index).lastSeenUs

namespace Ble.Grounded

variable {ble next : Ble} {index : Fin presenceMax} {addr : Addr} {slot : PresenceSlot}

theorem boot (startUs : Nat) (timeout : PresenceTimeout) (log : List PeerEvent) :
    (Ble.boot startUs timeout log).Grounded where
  owing := Owing.cleared
  recorded _ _ known := absurd known DebounceTable.remembers_blank
  outs _ _ holds := absurd holds.1 Bool.false_ne_true

/-- A write without a record: a slot is present only if it was or is seen now. -/
theorem write (grounded : ble.Grounded) (owing : Owing next.presence next.history)
    (presence : next.presence = Function.update ble.presence index slot)
    (events : next.events = ble.events) (clock : next.clockUs = ble.clockUs)
    (seen : slot.lastSeenUs = ble.clockUs ∨ (slot.used = true → slot.present = true →
      ble.presence.Holds index slot.addr ∧ (ble.presence index).present = true ∧
        slot.lastSeenUs = (ble.presence index).lastSeenUs)) : next.Grounded where
  owing := owing
  recorded addr last known := by
    rw [clock]
    exact grounded.recorded addr last (events ▸ known)
  outs other addr holds present last known := by
    rw [events] at known
    rw [presence] at holds present ⊢
    by_cases here : other = index
    · subst here
      obtain ⟨used, rfl⟩ := holds_update_self.mp holds
      rw [Function.update_self] at present ⊢
      rcases seen with now | before
      · rw [now]
        exact grounded.recorded _ last known
      · obtain ⟨held, wasPresent, same⟩ := before used present
        rw [same]
        exact grounded.outs other _ held wasPresent last known
    · rw [Function.update_of_ne here] at present ⊢
      exact grounded.outs other addr ((holds_update_of_ne here).mp holds) present last known

/-- A write that leaves `used`, `addr` and `present` alone. -/
theorem rewrite (grounded : ble.Grounded) (owing : Owing next.presence next.history)
    (presence : next.presence = Function.update ble.presence index slot)
    (events : next.events = ble.events) (clock : next.clockUs = ble.clockUs)
    (used : slot.used = (ble.presence index).used) (same : slot.addr = (ble.presence index).addr)
    (present : slot.present = (ble.presence index).present)
    (seen : slot.lastSeenUs = (ble.presence index).lastSeenUs ∨ slot.lastSeenUs = ble.clockUs) :
    next.Grounded := by
  refine grounded.write owing presence events clock ?_
  rcases seen with kept | now
  · exact .inr fun isUsed isPresent => ⟨⟨used ▸ isUsed, same.symm⟩, present ▸ isPresent, kept⟩
  · exact .inl now

/-- A record of the slot's peer; after an OUT the slot is absent. -/
theorem record (grounded : ble.Grounded) (owing : Owing next.presence next.history)
    {type : EventType} {ts : Nat} (used : (ble.presence index).used = true)
    (presence : next.presence = Function.update ble.presence index slot)
    (events : next.events =
      eventRecord ble.clockUs ts type .srcBleAuto (some (ble.presence index).addr) ble.events)
    (clock : next.clockUs = ble.clockUs) (same : slot.addr = (ble.presence index).addr)
    (seen : slot.present = true → type = .evIn ∧ (ble.presence index).present = true ∧
      slot.lastSeenUs = (ble.presence index).lastSeenUs) : next.Grounded where
  owing := owing
  recorded addr last known := by
    rw [clock]
    rcases eventRecord_remembers (events ▸ known) with rfl | old | ⟨_, _, rfl⟩
    · exact Nat.zero_le _
    · exact grounded.recorded addr last old
    · exact le_rfl
  outs other addr holds present last known := by
    rw [events] at known
    rw [presence] at holds present ⊢
    by_cases here : other = index
    · subst here
      obtain ⟨_, rfl⟩ := holds_update_self.mp holds
      rw [Function.update_self] at present ⊢
      obtain ⟨rfl, wasPresent, sameSeen⟩ := seen present
      rw [sameSeen]
      rcases eventRecord_remembers known with rfl | old | ⟨isOut, _, _⟩
      · exact Nat.zero_le _
      · exact grounded.outs other _ ⟨used, same.symm⟩ wasPresent last old
      · cases isOut
    · have held := (holds_update_of_ne here).mp holds
      rw [Function.update_of_ne here] at present ⊢
      rcases eventRecord_remembers known with rfl | old | ⟨_, own, _⟩
      · exact Nat.zero_le _
      · exact grounded.outs other addr held present last old
      · exact absurd (grounded.owing.distinct other index addr held ⟨used, own.symm⟩) here

/-- What NimBLE and the page keep apart from the slots and the events. -/
theorem congr (grounded : ble.Grounded) (presence : next.presence = ble.presence)
    (history : next.history = ble.history)
    (debounce : next.events.debounce = ble.events.debounce) (clock : ble.clockUs ≤ next.clockUs) :
    next.Grounded where
  owing := by
    rw [presence, history]
    exact grounded.owing
  recorded addr last known := (grounded.recorded addr last (debounce ▸ known)).trans clock
  outs index addr holds present last known := by
    rw [presence] at holds present ⊢
    exact grounded.outs index addr holds present last (debounce ▸ known)

theorem touch (grounded : ble.Grounded) : (ble.touch index).Grounded :=
  grounded.write grounded.owing.touch (ble.touch_presence index) rfl rfl (.inl rfl)

theorem acknowledge (grounded : ble.Grounded) (used : (ble.presence index).used = true)
    (present : (ble.presence index).present = true) : (ble.acknowledge index).Grounded := by
  have owing := grounded.owing.acknowledge used present
  rcases ble.acknowledge_cases index with same | ⟨_, _, same⟩ <;> rw [same] at owing ⊢
  · exact grounded
  · exact grounded.record owing used rfl rfl rfl rfl fun _ => ⟨rfl, present, rfl⟩

theorem claimSeen (grounded : ble.Grounded) (unheld : ble.presence.Unheld addr)
    (type : AddrType) : (ble.claimSeen index addr type).Grounded := by
  have owing : Owing (ble.claimSeen index addr type).presence
      (ble.claimSeen index addr type).history := grounded.owing.claim unheld (by simp)
  exact grounded.write owing rfl rfl rfl (.inr fun _ present => absurd present Bool.false_ne_true)

theorem presenceSeenAddr (grounded : ble.Grounded) (addr : Addr) :
    (ble.presenceSeenAddr addr).Grounded := by
  have seen {ble : Ble} (grounded : ble.Grounded) {index : Fin presenceMax}
      (used : (ble.presence index).used = true) :
      ((ble.touch index).acknowledge index).Grounded := by
    refine grounded.touch.acknowledge ?_ ?_ <;>
      rw [ble.touch_presence, Function.update_self]
    exact used
  rcases ble.presenceSeenAddr_cases addr with
    same | ⟨index, holds, same⟩ | ⟨index, type, _, unheld, _, same⟩ <;> rw [same]
  · exact grounded
  · exact seen grounded holds.1
  · refine seen (grounded.claimSeen unheld type) ?_
    rw [Ble.claimSeen, Ble.presence_note, Ble.presence_setSlot, Function.update_self]

theorem geofence (grounded : ble.Grounded) : (ble.geofence index).Grounded := by
  have owing : Owing (ble.geofence index).presence (ble.geofence index).history :=
    grounded.owing.geofence
  cases linked : (ble.presence index).connected with
  | false => rwa [Ble.geofence_idle linked]
  | true =>
      rw [Ble.geofence_connected linked] at owing ⊢
      exact grounded.write owing rfl rfl rfl (.inl rfl)

theorem presenceProbeStart (grounded : ble.Grounded) (radio : Radio) :
    (Ble.presenceProbeStart radio ble index).Grounded := by
  have owing : Owing (Ble.presenceProbeStart radio ble index).presence
      (Ble.presenceProbeStart radio ble index).history := grounded.owing.presenceProbeStart radio
  rcases Ble.presenceProbeStart_cases radio ble index with
    ⟨_, same⟩ | ⟨_, _, ⟨_, same⟩ | ⟨_, _, same⟩ | ⟨_, _, same⟩⟩ <;> rw [same] at owing ⊢
  · exact grounded
  all_goals exact grounded.rewrite owing rfl rfl rfl rfl rfl rfl (.inl rfl)

theorem leave (grounded : ble.Grounded) (used : (ble.presence index).used = true) :
    (ble.leave index).Grounded := by
  have owing : Owing (ble.leave index).presence (ble.leave index).history :=
    grounded.owing.leave used
  rw [Ble.leave] at owing ⊢
  split_ifs at owing ⊢
  · exact grounded.record owing used rfl rfl rfl rfl fun present =>
      absurd present Bool.false_ne_true
  · exact grounded.write owing rfl rfl rfl (.inr fun _ present =>
      absurd present Bool.false_ne_true)

theorem tickSlot (grounded : ble.Grounded) (radio : Radio) (index : Fin presenceMax) :
    (Ble.tickSlot radio ble index).Grounded :=
  Ble.tickSlot_kept (fun _ _ kept => kept.geofence)
    (fun _ used present kept => kept.acknowledge used present)
    (fun _ _ _ kept => kept.presenceProbeStart radio) (fun _ used _ _ _ kept => kept.leave used)
    grounded

theorem preallocateBond (grounded : ble.Grounded) (bond : Bond) :
    (ble.preallocateBond bond).Grounded := by
  have owing := grounded.owing.preallocateBond bond
  rcases ble.preallocateBond_cases bond with same | ⟨index, _, _, _, same⟩ <;> rw [same] at owing ⊢
  · exact grounded
  · have seen : (ble.bondSlot bond).lastSeenUs = ble.clockUs ∨
        ((ble.bondSlot bond).used = true → (ble.bondSlot bond).present = true →
          ble.presence.Holds index (ble.bondSlot bond).addr ∧
            (ble.presence index).present = true ∧
              (ble.bondSlot bond).lastSeenUs = (ble.presence index).lastSeenUs) := by
      rw [Ble.bondSlot]
      cases ble.wasIn bond.addr with
      | true => exact .inl rfl
      | false => exact .inr fun _ present => absurd present Bool.false_ne_true
    refine grounded.write owing (ble.claimBonded_presence index bond) ?_ ?_ seen <;>
      rw [Ble.claimBonded] <;> split_ifs <;> rfl

theorem probeMarked (grounded : ble.Grounded) (handle : Nat) :
    (ble.setSlot index { ble.presence index with
      probeHandle := handle, connected := true, probing := false }).Grounded := by
  have owing : Owing (ble.setSlot index { ble.presence index with
      probeHandle := handle, connected := true, probing := false }).presence ble.history :=
    grounded.owing.write rfl rfl (fun acked => acked) fun _ present => present
  exact grounded.rewrite owing rfl rfl rfl rfl rfl rfl (.inl rfl)

theorem probeConnected (grounded : ble.Grounded) (handle : Nat) :
    (Ble.probeConnected ble index handle).Grounded :=
  ((grounded.probeMarked handle).presenceSeenAddr _).congr rfl rfl rfl le_rfl

theorem gapConnected (grounded : ble.Grounded) (peer : Addr) :
    (ble.gapConnected peer).Grounded := by
  have seen := grounded.presenceSeenAddr peer
  have owing := grounded.owing.gapConnected peer
  rw [Ble.gapConnected] at owing ⊢
  dsimp only at owing ⊢
  split at owing
  · exact seen.rewrite owing rfl rfl rfl rfl rfl rfl (.inl rfl)
  · exact seen

theorem gapDisconnected (grounded : ble.Grounded) (peer : Addr) :
    (ble.gapDisconnected peer).Grounded := by
  have owing := grounded.owing.gapDisconnected peer
  rw [Ble.gapDisconnected] at owing ⊢
  split at owing
  · exact grounded.rewrite owing rfl rfl rfl rfl rfl rfl (.inr rfl)
  · exact grounded

theorem probeDisconnected (grounded : ble.Grounded) (handle : Nat) :
    (Ble.probeDisconnected ble index handle).Grounded := by
  have owing : Owing (Ble.probeDisconnected ble index handle).presence
      (Ble.probeDisconnected ble index handle).history := grounded.owing.probeDisconnected handle
  rw [Ble.probeDisconnected] at owing ⊢
  split_ifs at owing ⊢
  · exact grounded.rewrite owing rfl rfl rfl rfl rfl rfl (.inr rfl)
  · exact grounded.rewrite owing rfl rfl rfl rfl rfl rfl (.inr rfl)
  · exact grounded

theorem bondRevoke (grounded : ble.Grounded) (addr : Addr) (deleted : Bool) :
    (ble.bondRevoke addr deleted).Grounded := by
  have owing := grounded.owing.bondRevoke addr deleted
  rcases ble.bondRevoke_cases addr deleted with same | ⟨index, _, same⟩ | ⟨_, same⟩ <;>
    rw [same] at owing ⊢
  · exact grounded
  · exact grounded.write owing rfl rfl rfl (.inr fun used => absurd used Bool.false_ne_true)
  · exact ⟨owing, grounded.recorded, grounded.outs⟩

theorem wipeEvents (grounded : ble.Grounded) : ble.wipeEvents.Grounded where
  owing := grounded.owing.wipeEvents
  recorded := grounded.recorded
  outs index addr holds present last known := by
    rw [Presence.Holds, ble.wipeEvents_presence] at holds
    rw [ble.wipeEvents_presence] at present ⊢
    split_ifs at holds present ⊢ <;> exact grounded.outs index addr holds present last known

theorem perform (grounded : ble.Grounded) (radio : Radio) (event : BleEvent) :
    (ble.perform radio event).Grounded := by
  have preallocated : ble.presencePreallocateBonded.Grounded :=
    run_kept Grounded (fun _ bond kept => kept.preallocateBond bond) grounded
  cases event with
  | adv addr => exact grounded.presenceSeenAddr addr
  | tick => exact run_kept Grounded (fun _ index kept => kept.tickSlot radio index) grounded
  | probeUp connect handle =>
      have linked : ((ble.connectEnds connect).linkUp
          ⟨handle, connect.peer, some connect.slot⟩).Grounded :=
        grounded.congr rfl rfl rfl le_rfl
      exact linked.probeConnected handle
  | probeDown connect =>
      exact grounded.rewrite grounded.owing.probeFailed rfl rfl rfl rfl rfl rfl (.inl rfl)
  | hidUp handle peer =>
      have linked : (ble.linkUp ⟨handle, peer, none⟩).Grounded :=
        grounded.congr rfl rfl rfl le_rfl
      exact linked.gapConnected peer
  | linkDown link =>
      obtain ⟨handle, peer, owner⟩ := link
      have unlinked : (ble.linkDown ⟨handle, peer, owner⟩).Grounded :=
        grounded.congr rfl rfl rfl le_rfl
      cases owner with
      | some index => exact unlinked.probeDisconnected handle
      | none => exact unlinked.gapDisconnected peer
  | wipe => exact grounded.wipeEvents
  | revoke addr deleted => exact grounded.bondRevoke addr deleted
  | encChange => exact preallocated.congr rfl rfl rfl le_rfl
  | hostSync => exact preallocated.congr rfl rfl rfl le_rfl
  | synced | unsynced | setTimeout | pairingStart | pairingCancel | bondStore | scanRestart =>
      exact grounded.congr rfl rfl rfl le_rfl

theorem live (grounded : ble.Grounded) (radio : Radio) (step : PresenceStep) :
    (ble.live radio step).Grounded := by
  have waited (elapsedUs : Nat) : (ble.wait elapsedUs).Grounded :=
    grounded.congr rfl rfl rfl (Nat.le_add_right _ _)
  cases step with
  | act action => exact (waited action.elapsedUs).perform radio action.event
  | entered elapsedUs type peer =>
      refine (waited elapsedUs).congr rfl rfl ?_ le_rfl
      cases peer <;> rfl
  | restart syncUs timeout =>
      have booted : (ble.restarted syncUs timeout).Grounded :=
        (boot syncUs timeout ble.events.log).congr rfl rfl rfl le_rfl
      exact booted.perform radio .hostSync

end Ble.Grounded

end Grounded

section Turns

variable {radio : Radio} {ble next : Ble} {index : Fin presenceMax} {addr : Addr}

theorem eventRecord_drops {events : EventState} {type : EventType} {monoUs ts : Nat}
    (dropped : events.debounce.debounced type addr monoUs = true) :
    (eventRecord monoUs ts type .srcBleAuto (some addr) events).log = events.log := by
  rw [DebounceTable.debounced] at dropped
  cases found : events.debounce.find addr with
  | none => simp [found] at dropped
  | some slot =>
      simp only [found, decide_eq_true_eq] at dropped
      simp only [eventRecord, DebounceTable.getSlot, found, if_pos dropped]

/-- A record is not seen in the lines of others. -/
theorem linesOf_record {other : Addr} (apart : addr ≠ other) (type : EventType) :
    linesOf other (ble.record type addr).events.log = linesOf other ble.events.log := by
  rw [Ble.record]
  cases debounced : ble.events.debounce.debounced type addr ble.clockUs with
  | true => rw [eventRecord_drops debounced]
  | false =>
      rw [eventRecord_passes debounced]
      exact linesOf_snoc_other (by simpa using apart)

/-- A slot that is not acknowledged tells the stay after its IN if and only if the IN fits. -/
theorem acknowledge_tells (distinct : ble.presence.Distinct) (holds : ble.presence.Holds index addr)
    (unacked : (ble.presence index).ackEvent = false)
    (alternates : Alternates .evIn (linesOf addr ble.events.log)) :
    (ble.acknowledge index).TellsStay addr ↔ ble.InFits addr := by
  obtain ⟨used, rfl⟩ := holds
  rw [Ble.InFits]
  cases synced : ble.epoch.isSome with
  | false =>
      have still : ble.acknowledge index = ble := by
        rcases ble.acknowledge_cases index with same | ⟨_, clock, _⟩
        · exact same
        · rw [Ble.nowUnix_pos, synced] at clock
          cases clock
      rw [still, tells_held distinct ⟨used, rfl⟩, unacked, if_neg Bool.false_ne_true, eq_comm]
      exact and_iff_right alternates
  | true =>
      have clock : 0 < ble.nowUnix := Ble.nowUnix_pos.mpr synced
      have recorded : ble.acknowledge index =
          (ble.record .evIn (ble.presence index).addr).setSlot index
            { ble.presence index with ackEvent := true } := if_pos ⟨unacked, clock⟩
      have presence : (ble.acknowledge index).presence = Function.update ble.presence index
          { ble.presence index with ackEvent := true } := by rw [recorded]; rfl
      have held : (ble.acknowledge index).presence.Holds index (ble.presence index).addr := by
        rw [presence]
        exact holds_update_self.mpr ⟨used, rfl⟩
      have apart : (ble.acknowledge index).presence.Distinct := by
        rw [presence]
        exact distinct.write rfl rfl
      have acked : ((ble.acknowledge index).presence index).ackEvent = true := by
        rw [presence, Function.update_self]
      have events : (ble.acknowledge index).events = eventRecord ble.clockUs ble.nowUnix .evIn
          .srcBleAuto (some (ble.presence index).addr) ble.events := by rw [recorded]; rfl
      rw [if_pos rfl, tells_held apart held, acked, events]
      cases debounced :
          ble.events.debounce.debounced .evIn (ble.presence index).addr ble.clockUs with
      | true =>
          rw [eventRecord_drops debounced]
          exact and_iff_right alternates
      | false =>
          rw [eventRecord_passes debounced, alternates_line rfl rfl, stayOpen_snoc rfl rfl]
          cases stayOpen (ble.presence index).addr ble.events.log <;> simp [alternates]

/-- An OUT is never debounced: the last one that is remembered came before the slot was seen,
more than the timeout ago. -/
theorem Ble.Grounded.outPasses (grounded : ble.Grounded) (used : (ble.presence index).used = true)
    (present : (ble.presence index).present = true) (due : ble.outDue index = true) :
    ble.events.debounce.debounced .evOut (ble.presence index).addr ble.clockUs = false := by
  by_contra dropped
  rw [Bool.not_eq_false] at dropped
  obtain ⟨last, known, recent⟩ := DebounceTable.debounced_remembers dropped
  have seen := grounded.outs index _ (holds_self used) present last known
  rw [Ble.outDue, decide_eq_true_eq, Ble.sinceMs, PresenceTimeout.ms] at due
  have lower := ble.timeout.lower
  have late := due.1
  rw [debounceUs] at recent
  omega

/-- With a clock, or without an open IN, the OUT path keeps what the slot tells; without a clock
it forgets the IN. -/
theorem leave_tells (grounded : ble.Grounded) (holds : ble.presence.Holds index addr)
    (present : (ble.presence index).present = true) (due : ble.outDue index = true) :
    (ble.leave index).TellsStay addr ↔
      if (ble.presence index).ackEvent = true ∧ ble.epoch.isSome = false then
        Alternates .evIn (linesOf addr ble.events.log) ∧ stayOpen addr ble.events.log = false
      else ble.TellsStay addr := by
  obtain ⟨used, rfl⟩ := holds
  have presence := ble.leave_presence index
  have held : (ble.leave index).presence.Holds index (ble.presence index).addr := by
    rw [presence]
    exact holds_update_self.mpr ⟨used, rfl⟩
  have distinct : (ble.leave index).presence.Distinct := by
    rw [presence]
    exact grounded.owing.distinct.write rfl rfl
  have unacked : ((ble.leave index).presence index).ackEvent = false := by
    rw [presence, Function.update_self]
  rw [tells_held distinct held, tells_held grounded.owing.distinct ⟨used, rfl⟩, unacked]
  have clock : (ble.note (.left (ble.presence index).addr (ble.presence index).ackEvent)).nowUnix =
      ble.nowUnix := rfl
  have quiet (still : ¬ ((ble.presence index).ackEvent = true ∧ 0 < ble.nowUnix)) :
      (ble.leave index).events = ble.events := by
    rw [Ble.leave, clock, if_neg still]
    rfl
  cases acked : (ble.presence index).ackEvent with
  | false =>
      rw [quiet (by simp [acked]), if_neg (by simp)]
  | true =>
      cases synced : ble.epoch.isSome with
      | false =>
          have still : ¬ ((ble.presence index).ackEvent = true ∧ 0 < ble.nowUnix) := by
            rw [Ble.nowUnix_pos, synced]
            simp
          rw [quiet still, if_pos ⟨rfl, rfl⟩, eq_comm (a := false)]
      | true =>
          have asks : (ble.presence index).ackEvent = true ∧ 0 < ble.nowUnix :=
            ⟨acked, Ble.nowUnix_pos.mpr synced⟩
          have events : (ble.leave index).events = eventRecord ble.clockUs ble.nowUnix .evOut
              .srcBleAuto (some (ble.presence index).addr) ble.events := by
            rw [Ble.leave, clock, if_pos asks]
            rfl
          rw [events, eventRecord_passes (grounded.outPasses used present due),
            alternates_line rfl rfl, stayOpen_snoc rfl rfl, if_neg (by simp)]
          cases stayOpen (ble.presence index).addr ble.events.log <;> simp

/-- A turn of a slot with a connection. -/
theorem tickSlot_linked (radio : Radio) (used : (ble.presence index).used = true)
    (linked : (ble.presence index).connected = true) :
    Ble.tickSlot radio ble index = (ble.geofence index).acknowledge index := by
  have fenced := Ble.geofence_connected linked
  have present : ((ble.geofence index).presence index).present = true := by
    rw [fenced, Ble.presence_note, Ble.presence_setSlot, Function.update_self]
  have still : (((ble.geofence index).acknowledge index).presence index).connected = true := by
    obtain ⟨_, same⟩ := (ble.geofence index).acknowledge_presence index
    rw [same, Function.update_self, fenced, Ble.presence_note, Ble.presence_setSlot,
      Function.update_self]
    exact linked
  rw [Ble.tickSlot, if_pos used, Ble.backfill, if_pos present]
  exact if_pos still

/-- A turn of an absent slot. -/
theorem tickSlot_absent (radio : Radio) (used : (ble.presence index).used = true)
    (apart : (ble.presence index).connected = false)
    (absent : (ble.presence index).present = false) :
    Ble.tickSlot radio ble index = Ble.reprobe radio ble index := by
  rw [Ble.tickSlot, if_pos used, Ble.geofence_idle apart, Ble.backfill, absent,
    if_neg Bool.false_ne_true]
  simp only [apart, absent, Bool.false_eq_true, if_false]

/-- A turn of a slot that is present without a connection. -/
theorem tickSlot_present (radio : Radio) (used : (ble.presence index).used = true)
    (apart : (ble.presence index).connected = false)
    (present : (ble.presence index).present = true) :
    Ble.tickSlot radio ble index = Ble.checkStale radio (ble.acknowledge index) index := by
  obtain ⟨_, same⟩ := ble.acknowledge_presence index
  have apartStill : ((ble.acknowledge index).presence index).connected = false := by
    rw [same, Function.update_self]
    exact apart
  have presentStill : ((ble.acknowledge index).presence index).present = true := by
    rw [same, Function.update_self]
    exact present
  rw [Ble.tickSlot, if_pos used, Ble.geofence_idle apart, Ble.backfill, if_pos present]
  simp only [apartStill, presentStill, Bool.false_eq_true, if_false, if_true]

theorem stayView_presenceProbeStart (radio : Radio) (ble : Ble) (index : Fin presenceMax)
    (addr : Addr) : (Ble.presenceProbeStart radio ble index).stayView addr = ble.stayView addr := by
  obtain ⟨_, _, _, _, presence⟩ := Ble.presenceProbeStart_presence radio ble index
  have log : (Ble.presenceProbeStart radio ble index).events.log = ble.events.log := by
    rcases Ble.presenceProbeStart_cases radio ble index with
      ⟨_, same⟩ | ⟨_, _, ⟨_, same⟩ | ⟨_, _, same⟩ | ⟨_, _, same⟩⟩ <;> rw [same] <;> rfl
  exact stayView_rewrite presence log rfl rfl rfl addr

theorem stayView_reprobe (radio : Radio) (ble : Ble) (index : Fin presenceMax) (addr : Addr) :
    (Ble.reprobe radio ble index).stayView addr = ble.stayView addr := by
  rw [Ble.reprobe]
  split_ifs
  · rfl
  · rfl
  · rfl
  · exact stayView_presenceProbeStart radio ble index addr

theorem stayView_geofence (grounded : ble.Grounded) (index : Fin presenceMax) (addr : Addr) :
    (ble.geofence index).stayView addr = ble.stayView addr := by
  cases linked : (ble.presence index).connected with
  | false => rw [Ble.geofence_idle linked]
  | true =>
      have presence : (ble.geofence index).presence = Function.update ble.presence index
          { ble.presence index with
            lastSeenUs := ble.clockUs
            present := true
            ackEvent := if (ble.presence index).present then (ble.presence index).ackEvent
              else false } := by rw [Ble.geofence_connected linked]; rfl
      refine stayView_rewrite presence (ble.geofence_log index) rfl rfl ?_ addr
      cases acked : (ble.presence index).ackEvent with
      | false => exact ite_self false
      | true => exact if_pos (grounded.owing.acked index acked)

theorem checkStale_tells (radio : Radio) (grounded : ble.Grounded)
    (holds : ble.presence.Holds index addr) (present : (ble.presence index).present = true) :
    (Ble.checkStale radio ble index).TellsStay addr ↔
      if ble.outDue index = true ∧ (ble.presence index).ackEvent = true ∧ ble.epoch.isSome = false
      then Alternates .evIn (linesOf addr ble.events.log) ∧ stayOpen addr ble.events.log = false
      else ble.TellsStay addr := by
  rw [Ble.checkStale]
  cases due : ble.probeDue index with
  | true =>
      have early : ble.outDue index = false := by
        rw [Ble.probeDue, decide_eq_true_iff] at due
        rw [Ble.outDue, decide_eq_false_iff_not]
        omega
      rw [if_pos rfl, probeDue_stays radio due, early, if_neg Bool.false_ne_true,
        if_neg (by simp)]
      exact tells_congr (stayView_presenceProbeStart radio ble index addr)
  | false =>
      rw [if_neg Bool.false_ne_true]
      cases expired : ble.outDue index with
      | false => rw [if_neg Bool.false_ne_true, if_neg (by simp)]
      | true =>
          rw [if_pos rfl, leave_tells grounded holds present expired]
          simp only [true_and]

/-- A turn keeps what its slot tells exactly when it fits. -/
theorem tickSlot_tells (radio : Radio) (grounded : ble.Grounded)
    (holds : ble.presence.Holds index addr) (tells : ble.TellsStay addr) :
    (Ble.tickSlot radio ble index).TellsStay addr ↔ ble.TurnFits index := by
  obtain ⟨used, rfl⟩ := holds
  have own : (ble.presence index).ackEvent = stayOpen (ble.presence index).addr ble.events.log :=
    tells.2 index ⟨used, rfl⟩
  rw [Ble.TurnFits, forall_prop_of_true used, Ble.LeavesAcked]
  cases linked : (ble.presence index).connected with
  | true =>
      have view := stayView_geofence grounded index
      have holds : (ble.geofence index).presence.Holds index (ble.presence index).addr := by
        rw [Ble.geofence_connected linked]
        exact holds_update_self.mpr ⟨used, rfl⟩
      have same : ((ble.geofence index).presence index).ackEvent =
          (ble.presence index).ackEvent := by
        have fenced := (tells_congr (view _)).mpr tells
        rw [fenced.2 index holds, own, stayOpen, stayOpen, (Prod.mk.inj (view _)).1]
      have fits : (ble.geofence index).InFits (ble.presence index).addr =
          ble.InFits (ble.presence index).addr := by
        rw [Ble.geofence_connected linked]
        rfl
      rw [tickSlot_linked radio used linked]
      cases acked : (ble.presence index).ackEvent with
      | true =>
          have still : (ble.geofence index).acknowledge index = ble.geofence index := by
            rw [Ble.acknowledge, same, acked]
            exact if_neg (by simp)
          rw [still, tells_congr (view _)]
          simpa using tells
      | false =>
          rw [acknowledge_tells grounded.geofence.owing.distinct holds (same.trans acked)
            ((tells_congr (view _)).mpr tells).1, fits]
          simp
  | false =>
      cases present : (ble.presence index).present with
      | false =>
          rw [tickSlot_absent radio used linked present,
            tells_congr (stayView_reprobe radio ble index _)]
          simpa using tells
      | true =>
          rw [tickSlot_present radio used linked present]
          cases acked : (ble.presence index).ackEvent with
          | true =>
              have still : ble.acknowledge index = ble := by
                rw [Ble.acknowledge, acked]
                exact if_neg (by simp)
              rw [still, checkStale_tells radio grounded ⟨used, rfl⟩ present, acked, ← own, acked]
              cases ble.outDue index <;> cases ble.epoch.isSome <;> simp [used, tells]
          | false =>
              obtain ⟨_, same⟩ := ble.acknowledge_presence index
              have filled := grounded.acknowledge used present
              have holds :
                  (ble.acknowledge index).presence.Holds index (ble.presence index).addr := by
                rw [same]
                exact holds_update_self.mpr ⟨used, rfl⟩
              have presentStill : ((ble.acknowledge index).presence index).present = true := by
                rw [same, Function.update_self]
                exact present
              have clocked : ((ble.acknowledge index).presence index).ackEvent = true →
                  (ble.acknowledge index).epoch.isSome = true := by
                intro ackedThen
                rcases ble.acknowledge_cases index with still | ⟨_, clock, recorded⟩
                · rw [still, acked] at ackedThen
                  cases ackedThen
                · rw [recorded]
                  exact Ble.nowUnix_pos.mp clock
              rw [checkStale_tells radio filled holds presentStill, if_neg (by
                rintro ⟨_, ackedThen, unsynced⟩
                rw [clocked ackedThen] at unsynced
                cases unsynced),
                acknowledge_tells grounded.owing.distinct ⟨used, rfl⟩ acked tells.1]
              simp

/-- A write that keeps `used` and `addr` moves no address. -/
theorem holds_still {slot : PresenceSlot} {other : Fin presenceMax}
    (presence : next.presence = Function.update ble.presence index slot)
    (used : slot.used = (ble.presence index).used) (same : slot.addr = (ble.presence index).addr) :
    next.presence.Holds other addr ↔ ble.presence.Holds other addr := by
  rw [presence]
  exact holds_update_same used same

/-- A write that moves no address and adds no line of the peer is not seen by it. -/
theorem stayView_still {slot : PresenceSlot} (apart : ¬ ble.presence.Holds index addr)
    (presence : next.presence = Function.update ble.presence index slot)
    (used : slot.used = (ble.presence index).used) (same : slot.addr = (ble.presence index).addr)
    (lines : linesOf addr next.events.log = linesOf addr ble.events.log) :
    next.stayView addr = ble.stayView addr := by
  refine stayView_apart presence lines apart ?_
  rw [used, same]
  exact apart

theorem stayView_acknowledge (apart : (ble.presence index).addr ≠ addr) :
    (ble.acknowledge index).stayView addr = ble.stayView addr := by
  obtain ⟨_, presence⟩ := ble.acknowledge_presence index
  refine stayView_still (fun holds => apart holds.2) presence rfl rfl ?_
  rcases ble.acknowledge_cases index with same | ⟨_, _, same⟩ <;> rw [same]
  exact linesOf_record apart .evIn

/-- No turn moves an address. -/
theorem tickSlot_holds (radio : Radio) (ble : Ble) (index other : Fin presenceMax) (addr : Addr) :
    (Ble.tickSlot radio ble index).presence.Holds other addr ↔ ble.presence.Holds other addr := by
  refine Ble.tickSlot_kept (P := fun next =>
    next.presence.Holds other addr ↔ ble.presence.Holds other addr) ?_ ?_ ?_ ?_ Iff.rfl
  · intro next _ same
    obtain ⟨_, _, _, presence⟩ := next.geofence_presence index
    exact (holds_still presence rfl rfl).trans same
  · intro next _ _ same
    obtain ⟨_, presence⟩ := next.acknowledge_presence index
    exact (holds_still presence rfl rfl).trans same
  · intro next _ _ same
    obtain ⟨_, _, _, _, presence⟩ := Ble.presenceProbeStart_presence radio next index
    exact (holds_still presence rfl rfl).trans same
  · intro next _ _ _ _ same
    exact (holds_still (next.leave_presence index) rfl rfl).trans same

/-- A turn is not seen by the peers of other slots. -/
theorem stayView_tickSlot (radio : Radio) (apart : ¬ ble.presence.Holds index addr) :
    (Ble.tickSlot radio ble index).stayView addr = ble.stayView addr := by
  refine (Ble.tickSlot_kept (P := fun next => ¬ next.presence.Holds index addr ∧
    next.stayView addr = ble.stayView addr) ?_ ?_ ?_ ?_ ⟨apart, rfl⟩).2
  · rintro next _ ⟨apart, same⟩
    obtain ⟨_, _, _, presence⟩ := next.geofence_presence index
    have lines := congrArg (linesOf addr) (next.geofence_log index)
    refine ⟨fun here => apart ((holds_still presence rfl rfl).mp here), ?_⟩
    exact (stayView_still apart presence rfl rfl lines).trans same
  · rintro next used _ ⟨apart, same⟩
    obtain ⟨_, presence⟩ := next.acknowledge_presence index
    refine ⟨fun here => apart ((holds_still presence rfl rfl).mp here), ?_⟩
    exact (stayView_acknowledge fun own => apart ⟨used, own⟩).trans same
  · rintro next _ _ ⟨apart, same⟩
    obtain ⟨_, _, _, _, presence⟩ := Ble.presenceProbeStart_presence radio next index
    refine ⟨fun here => apart ((holds_still presence rfl rfl).mp here), ?_⟩
    exact (stayView_presenceProbeStart radio next index addr).trans same
  · rintro next used _ _ _ ⟨apart, same⟩
    have lines : linesOf addr (next.leave index).events.log = linesOf addr next.events.log := by
      rw [Ble.leave]
      split_ifs
      · exact linesOf_record (fun own => apart ⟨used, own⟩) .evOut
      · rfl
    refine ⟨fun here => apart ((holds_still (next.leave_presence index) rfl rfl).mp here), ?_⟩
    exact (stayView_still apart (next.leave_presence index) rfl rfl lines).trans same

/-- The tick is not seen by a peer without a slot. -/
theorem stayView_unheld (radio : Radio) (unheld : ble.presence.Unheld addr)
    (indexes : List (Fin presenceMax)) :
    (run (Ble.tickSlot radio) ble indexes).presence.Unheld addr ∧
      (run (Ble.tickSlot radio) ble indexes).stayView addr = ble.stayView addr := by
  refine run_kept (fun next : Ble => next.presence.Unheld addr ∧
    next.stayView addr = ble.stayView addr) ?_ ⟨unheld, rfl⟩
  rintro next turn ⟨unheld, same⟩
  refine ⟨fun index holds => ?_, (stayView_tickSlot radio (unheld turn)).trans same⟩
  exact unheld index ((tickSlot_holds radio next turn index addr).mp holds)

/-- What the turn of a slot answers for: the stay of the peer it holds. -/
def Ble.Answers (index : Fin presenceMax) (ble : Ble) : Prop :=
  ∀ addr, ble.presence.Holds index addr → ble.TellsStay addr

/-- The tick keeps what all slots tell exactly when each turn fits. -/
theorem presenceTickCb_tells (radio : Radio) (grounded : ble.Grounded) (tells : ble.Tells) :
    (Ble.presenceTickCb radio ble).Tells ↔
      Guarded (Ble.tickSlot radio) Ble.TurnFits ble (List.finRange presenceMax) := by
  have turn (next : Ble) (index : Fin presenceMax) (grounded : next.Grounded)
      (answers : next.Answers index) :
      (Ble.tickSlot radio next index).Answers index ↔ next.TurnFits index := by
    by_cases used : (next.presence index).used = true
    · rw [← tickSlot_tells radio grounded ⟨used, rfl⟩ (answers _ ⟨used, rfl⟩)]
      refine ⟨fun all => all _ ((tickSlot_holds radio next index index _).mpr ⟨used, rfl⟩), ?_⟩
      intro here addr holds
      obtain ⟨_, rfl⟩ := (tickSlot_holds radio next index index addr).mp holds
      exact here
    · have still : Ble.tickSlot radio next index = next := if_neg used
      rw [still]
      exact iff_of_true answers fun isUsed => absurd isUsed used
  have apart (next : Ble) (index other : Fin presenceMax) (grounded : next.Grounded)
      (different : other ≠ index) :
      (Ble.tickSlot radio next index).Answers other ↔ next.Answers other := by
    refine forall_congr' fun addr => ?_
    rw [tickSlot_holds]
    refine forall_congr' fun holds => tells_congr (stayView_tickSlot radio fun here => ?_)
    exact different (grounded.owing.distinct other index addr holds here)
  rw [← sweep_iff_guarded Ble.Grounded Ble.Answers (fun _ index kept => kept.tickSlot radio index)
    turn apart (List.nodup_finRange presenceMax) grounded fun _ _ addr _ => tells addr]
  refine ⟨fun all index _ addr _ => all addr, fun all addr => ?_⟩
  by_cases unheld : (Ble.presenceTickCb radio ble).presence.Unheld addr
  · have start : ble.presence.Unheld addr := by
      have kept : ∀ index, ble.presence.Holds index addr →
          (Ble.presenceTickCb radio ble).presence.Holds index addr := by
        refine run_kept (fun next : Ble => ∀ index, ble.presence.Holds index addr →
          next.presence.Holds index addr) ?_ fun _ holds => holds
        intro next turn before index holds
        exact (tickSlot_holds radio next turn index addr).mpr (before index holds)
      exact fun index holds => unheld index (kept index holds)
    exact (tells_congr (stayView_unheld radio start _).2).mpr (tells addr)
  · simp only [Unheld, not_forall, not_not] at unheld
    obtain ⟨index, holds⟩ := unheld
    exact all index (List.mem_finRange index) addr holds

end Turns

section Sightings

variable {ble next : Ble} {index : Fin presenceMax} {addr other : Addr}

theorem stayView_touch (ble : Ble) (index : Fin presenceMax) (addr : Addr) :
    (ble.touch index).stayView addr = ble.stayView addr :=
  stayView_rewrite (ble.touch_presence index) rfl rfl rfl rfl addr

/-- A sighting is not seen by other peers. -/
theorem stayView_presenceSeenAddr (apart : addr ≠ other) :
    (ble.presenceSeenAddr addr).stayView other = ble.stayView other := by
  have touched {ble : Ble} {index : Fin presenceMax} (own : (ble.presence index).addr = addr) :
      ((ble.touch index).acknowledge index).stayView other = ble.stayView other := by
    refine (stayView_acknowledge ?_).trans (stayView_touch ble index other)
    rw [ble.touch_presence, Function.update_self]
    exact own ▸ apart
  rcases ble.presenceSeenAddr_cases addr with
    same | ⟨index, holds, same⟩ | ⟨index, type, _, unheld, free, same⟩ <;> rw [same]
  · exact touched holds.2
  · have presence : (ble.claimSeen index addr type).presence = Function.update ble.presence index
        { ble.presence index with
          used := true
          addr := addr
          addrType := type
          present := false
          ackEvent := false
          probing := false
          probeHandle := noHandle
          lastProbeUs := 0 } := rfl
    have own : ((ble.claimSeen index addr type).presence index).addr = addr := by
      rw [presence, Function.update_self]
    refine (touched own).trans (stayView_apart presence rfl ?_ fun here => apart here.2)
    exact fun holds => absurd (free.symm.trans holds.1) Bool.false_ne_true

/-- A slot that is seen without having been acknowledged tells the stay after its IN if and only
if the IN fits. -/
theorem touched_tells (distinct : ble.presence.Distinct) (holds : ble.presence.Holds index addr)
    (unacked : (ble.presence index).ackEvent = false)
    (alternates : Alternates .evIn (linesOf addr ble.events.log)) :
    ((ble.touch index).acknowledge index).TellsStay addr ↔ ble.InFits addr := by
  have presence := ble.touch_presence index
  refine acknowledge_tells ?_ ((holds_still presence rfl rfl).mpr holds) ?_ alternates
  · rw [presence]
    exact distinct.write rfl rfl
  · rw [presence, Function.update_self]
    exact unacked

/-- A sighting keeps what the slot of its peer tells exactly when it fits. -/
theorem presenceSeenAddr_tells (grounded : ble.Grounded) (tells : ble.Tells) :
    (ble.presenceSeenAddr addr).Tells ↔ ble.SightingFits addr := by
  have own : (ble.presenceSeenAddr addr).Tells ↔ (ble.presenceSeenAddr addr).TellsStay addr := by
    refine ⟨fun all => all addr, fun here other => ?_⟩
    by_cases same : addr = other
    · exact same ▸ here
    · exact (tells_congr (stayView_presenceSeenAddr same)).mpr (tells other)
  rw [own, Ble.SightingFits, Ble.SightingAsks, Ble.Claims]
  cases found : ble.slotOf addr with
  | some index =>
      have holds := Ble.slotOf_holds found
      have seen : ble.presenceSeenAddr addr = (ble.touch index).acknowledge index := by
        rw [Ble.presenceSeenAddr, found]
      rw [seen]
      cases acked : (ble.presence index).ackEvent with
      | false =>
          rw [touched_tells grounded.owing.distinct holds acked (tells addr).1]
          simp [acked]
      | true =>
          have still : (ble.touch index).acknowledge index = ble.touch index := by
            rw [Ble.acknowledge]
            refine if_neg ?_
            rw [ble.touch_presence, Function.update_self]
            simp [acked]
          rw [still, tells_congr (stayView_touch ble index addr)]
          simp [acked, tells addr]
  | none =>
      have unheld := Ble.slotOf_none found
      cases free : ble.freeSlot with
      | none =>
          have seen : ble.presenceSeenAddr addr = ble := by
            rw [Ble.presenceSeenAddr, found, free]
          rw [seen]
          simp [tells addr]
      | some index =>
          cases bonded : ble.bondAddrLookup addr with
          | none =>
              have seen : ble.presenceSeenAddr addr = ble := by
                rw [Ble.presenceSeenAddr, found, free, bonded]
              rw [seen]
              simp [tells addr]
          | some bond =>
              have seen : ble.presenceSeenAddr addr =
                  ((ble.claimSeen index addr bond.type).touch index).acknowledge index := by
                rw [Ble.presenceSeenAddr, found, free, bonded]
              have claimed : (ble.claimSeen index addr bond.type).Grounded :=
                grounded.claimSeen unheld bond.type
              have slot : (ble.claimSeen index addr bond.type).presence.Holds index addr ∧
                  ((ble.claimSeen index addr bond.type).presence index).ackEvent = false := by
                rw [Ble.claimSeen, Ble.presence_note, Ble.presence_setSlot, holds_update_self,
                  Function.update_self]
                exact ⟨⟨rfl, rfl⟩, rfl⟩
              rw [seen, touched_tells claimed.owing.distinct slot.1 slot.2 (tells addr).1]
              have fits : (ble.claimSeen index addr bond.type).InFits addr = ble.InFits addr := rfl
              simp [fits]

/-- What `SightingFits` looks at. -/
theorem sightingFits_congr (slots : ∀ index,
      (next.presence index).used = (ble.presence index).used ∧
      (next.presence index).addr = (ble.presence index).addr ∧
      (next.presence index).ackEvent = (ble.presence index).ackEvent)
    (bonds : next.bonds = ble.bonds) (events : next.events = ble.events)
    (clock : next.clockUs = ble.clockUs) (epoch : next.epoch = ble.epoch) :
    next.SightingFits addr ↔ ble.SightingFits addr := by
  have used (index : Fin presenceMax) := (slots index).1
  have same (index : Fin presenceMax) := (slots index).2.1
  have acked (index : Fin presenceMax) := (slots index).2.2
  have found : next.slotOf addr = ble.slotOf addr := by
    simp only [Ble.slotOf, used, same]
  have free : next.freeSlot = ble.freeSlot := by
    simp only [Ble.freeSlot, used]
  rw [Ble.SightingFits, Ble.SightingFits, Ble.SightingAsks, Ble.SightingAsks, Ble.Claims,
    Ble.Claims, Ble.InFits, Ble.InFits, Ble.bondAddrLookup, Ble.bondAddrLookup, found, free, bonds,
    events, clock, epoch]
  simp only [acked]

end Sightings

section Resumes

variable {ble : Ble} {index : Fin presenceMax} {addr : Addr} {bond : Bond}

/-- A slot taken for a bond is not seen by other peers. -/
theorem stayView_preallocateBond (apart : bond.addr ≠ addr) :
    (ble.preallocateBond bond).stayView addr = ble.stayView addr := by
  rcases ble.preallocateBond_cases bond with same | ⟨index, _, _, free, same⟩ <;> rw [same]
  have lines := congrArg (linesOf addr) (ble.claimBonded_log index bond)
  refine stayView_apart (ble.claimBonded_presence index bond) lines ?_ fun here => apart here.2
  exact fun holds => absurd (free.symm.trans holds.1) Bool.false_ne_true

/-- A peer that has a slot keeps it, as it is, whatever bonds come next. -/
theorem preallocated_held (holds : ble.presence.Holds index addr) (bonds : List Bond) :
    (run Ble.preallocateBond ble bonds).stayView addr = ble.stayView addr := by
  refine (run_kept (fun next : Ble => next.presence.Holds index addr ∧
    next.stayView addr = ble.stayView addr) ?_ ⟨holds, rfl⟩).2
  rintro next bond ⟨holds, same⟩
  rcases next.preallocateBond_cases bond with still | ⟨other, _, unheld, free, taken⟩
  · rw [still]
    exact ⟨holds, same⟩
  · have apart : bond.addr ≠ addr := by
      rintro rfl
      exact unheld index holds
    have here : index ≠ other := by
      rintro rfl
      exact absurd (free.symm.trans holds.1) Bool.false_ne_true
    refine ⟨?_, (stayView_preallocateBond apart).trans same⟩
    rw [taken, next.claimBonded_presence]
    exact (holds_update_of_ne here).mpr holds

/-- A bond keeps what the slots tell exactly when it fits; where it does not, its peer has a
slot that tells otherwise. -/
theorem preallocateBond_tells (grounded : ble.Grounded) (tells : ble.Tells) (bond : Bond) :
    if ble.BondFits bond then (ble.preallocateBond bond).Tells
    else ∃ index, (ble.preallocateBond bond).presence.Holds index bond.addr ∧
      ¬ (ble.preallocateBond bond).TellsStay bond.addr := by
  have others (addr : Addr) (apart : bond.addr ≠ addr) :
      (ble.preallocateBond bond).TellsStay addr :=
    (tells_congr (stayView_preallocateBond apart)).mpr (tells addr)
  by_cases allocates : ble.Allocates bond
  · obtain ⟨missing, some⟩ := allocates
    obtain ⟨index, free⟩ := Option.isSome_iff_exists.mp some
    have unheld := Ble.slotOf_none missing
    have taken : ble.preallocateBond bond = ble.claimBonded index bond := by
      rw [Ble.preallocateBond, missing, free]
    have presence := ble.claimBonded_presence index bond
    have holds : (ble.claimBonded index bond).presence.Holds index bond.addr := by
      rw [presence]
      exact holds_update_self.mpr ⟨rfl, rfl⟩
    have distinct : (ble.claimBonded index bond).presence.Distinct := by
      rw [presence]
      exact grounded.owing.distinct.claim unheld
    have acked : ((ble.claimBonded index bond).presence index).ackEvent = ble.wasIn bond.addr := by
      rw [presence, Function.update_self]
      rfl
    have own : (ble.preallocateBond bond).TellsStay bond.addr ↔ ble.BondFits bond := by
      rw [taken, tells_held distinct holds, acked, ble.claimBonded_log, Ble.BondFits,
        forall_prop_of_true ⟨missing, some⟩]
      exact and_iff_right (tells bond.addr).1
    split_ifs with fits
    · intro addr
      by_cases same : bond.addr = addr
      · exact same ▸ own.mpr fits
      · exact others addr same
    · refine ⟨index, ?_, fun here => fits (own.mp here)⟩
      rw [taken]
      exact holds
  · have fits : ble.BondFits bond := fun takes => absurd takes allocates
    have still : ble.preallocateBond bond = ble := by
      rcases ble.preallocateBond_cases bond with same | ⟨_, takes, _⟩
      · exact same
      · exact absurd takes allocates
    rw [if_pos fits, still]
    exact tells

/-- The preallocation keeps what the slots tell exactly when each bond fits. -/
theorem preallocated_tells (grounded : ble.Grounded) (tells : ble.Tells) (bonds : List Bond) :
    (run Ble.preallocateBond ble bonds).Tells ↔
      Guarded Ble.preallocateBond Ble.BondFits ble bonds := by
  induction bonds generalizing ble with
  | nil => exact iff_of_true tells trivial
  | cons bond bonds ih =>
      have turn := preallocateBond_tells grounded tells bond
      rw [run_cons, Guarded]
      split_ifs at turn with fits
      · rw [ih (grounded.preallocateBond bond) turn]
        exact (and_iff_right fits).symm
      · obtain ⟨index, holds, broken⟩ := turn
        refine iff_of_false (fun all => broken ?_) fun guarded => fits guarded.1
        exact (tells_congr (preallocated_held holds bonds)).mp (all bond.addr)

end Resumes

section Life

variable {radio : Radio} {ble : Ble} {addr : Addr}

theorem tells_wipeEvents (grounded : ble.Grounded) : ble.wipeEvents.Tells := by
  refine fun addr => ⟨trivial, fun index holds => ?_⟩
  have presence := ble.wipeEvents_presence index
  rw [presence]
  split_ifs with shown
  · rfl
  · rw [Presence.Holds, presence, if_neg shown] at holds
    rw [Bool.and_eq_true] at shown
    cases acked : (ble.presence index).ackEvent with
    | false => rfl
    | true => exact absurd ⟨holds.1, grounded.owing.acked index acked⟩ shown

theorem tells_bondRevoke (tells : ble.Tells) (distinct : ble.presence.Distinct) (addr : Addr)
    (deleted : Bool) : (ble.bondRevoke addr deleted).Tells := by
  rcases ble.bondRevoke_cases addr deleted with same | ⟨index, found, same⟩ | ⟨_, same⟩
  · rw [same]
    exact tells
  · have holds := Ble.slotOf_holds found
    have presence : (ble.bondRevoke addr deleted).presence =
        Function.update ble.presence index PresenceSlot.cleared := by rw [same]; rfl
    have log : (ble.bondRevoke addr deleted).events.log = ble.events.log := by rw [same]; rfl
    intro other
    by_cases here : addr = other
    · subst here
      have unheld : (ble.bondRevoke addr deleted).presence.Unheld addr := by
        intro index' held
        rw [presence] at held
        by_cases own : index' = index
        · subst own
          exact absurd (holds_update_self.mp held).1 Bool.false_ne_true
        · exact own (distinct index' index addr ((holds_update_of_ne own).mp held) holds)
      rw [tells_unheld unheld, log]
      exact (tells addr).1
    · refine (tells_congr (stayView_apart presence (congrArg (linesOf other) log) ?_ ?_)).mpr
        (tells other)
      · exact fun held => here (holds.2.symm.trans held.2)
      · exact fun cleared => absurd cleared.1 Bool.false_ne_true
  · rw [same]
    exact tells

/-- A probe that connects is a sighting of the slot's address. -/
theorem probeConnected_tells (grounded : ble.Grounded) (tells : ble.Tells)
    (index : Fin presenceMax) (handle : Nat) :
    (Ble.probeConnected ble index handle).Tells ↔
      ble.SightingFits (ble.presence index).addr := by
  have presence : (ble.setSlot index { ble.presence index with
      probeHandle := handle, connected := true, probing := false }).presence =
        Function.update ble.presence index { ble.presence index with
          probeHandle := handle, connected := true, probing := false } := rfl
  have marked := fun addr => (tells_congr (stayView_rewrite presence rfl rfl rfl rfl addr)).mpr
    (tells addr)
  refine (presenceSeenAddr_tells (grounded.probeMarked handle) marked).trans
    (sightingFits_congr (fun other => ?_) rfl rfl rfl rfl)
  rw [presence]
  by_cases here : other = index
  · rw [here, Function.update_self]
    exact ⟨rfl, rfl, rfl⟩
  · rw [Function.update_of_ne here]
    exact ⟨rfl, rfl, rfl⟩

theorem stayView_gapConnected (ble : Ble) (peer addr : Addr) :
    (ble.gapConnected peer).stayView addr = (ble.presenceSeenAddr peer).stayView addr := by
  rw [Ble.gapConnected]
  dsimp only
  cases (ble.presenceSeenAddr peer).slotOf peer with
  | none => rfl
  | some index =>
      have presence : ((ble.presenceSeenAddr peer).setSlot index
          { (ble.presenceSeenAddr peer).presence index with connected := true }).presence =
            Function.update (ble.presenceSeenAddr peer).presence index
              { (ble.presenceSeenAddr peer).presence index with connected := true } := rfl
      exact stayView_rewrite presence rfl rfl rfl rfl addr

theorem stayView_gapDisconnected (ble : Ble) (peer addr : Addr) :
    (ble.gapDisconnected peer).stayView addr = ble.stayView addr := by
  rw [Ble.gapDisconnected]
  cases ble.slotOf peer with
  | none => rfl
  | some index =>
      have presence : ((ble.setSlot index { ble.presence index with
          connected := false, lastSeenUs := ble.clockUs }).note (.refreshed peer)).presence =
            Function.update ble.presence index { ble.presence index with
              connected := false, lastSeenUs := ble.clockUs } := rfl
      exact stayView_rewrite presence rfl rfl rfl rfl addr

theorem stayView_probeDisconnected (ble : Ble) (index : Fin presenceMax) (handle : Nat)
    (addr : Addr) :
    (Ble.probeDisconnected ble index handle).stayView addr = ble.stayView addr := by
  by_cases own : (ble.presence index).probeHandle = handle
  · have log : (Ble.probeDisconnected ble index handle).events.log = ble.events.log := by
      rw [Ble.probeDisconnected, if_pos own]
      split_ifs <;> rfl
    exact stayView_rewrite (Ble.probeDisconnected_presence own) log rfl rfl rfl addr
  · rw [Ble.probeDisconnected]
    exact congrArg (fun next : Ble => next.stayView addr) (if_neg own)

/-- Every event keeps what the slots tell exactly when it fits. -/
theorem perform_tells (radio : Radio) (grounded : ble.Grounded) (tells : ble.Tells)
    (event : BleEvent) : (ble.perform radio event).Tells ↔ ble.EventFits radio event := by
  cases event with
  | adv addr => exact presenceSeenAddr_tells grounded tells
  | tick => exact presenceTickCb_tells radio grounded tells
  | probeUp connect handle =>
      have linked : ((ble.connectEnds connect).linkUp
          ⟨handle, connect.peer, some connect.slot⟩).Grounded :=
        grounded.congr rfl rfl rfl le_rfl
      exact probeConnected_tells linked tells connect.slot handle
  | probeDown connect =>
      refine iff_of_true (fun addr => (tells_congr ?_).mpr (tells addr)) trivial
      exact stayView_rewrite (Ble.probeDown_presence radio ble connect) rfl rfl rfl rfl addr
  | hidUp handle peer =>
      have linked : (ble.linkUp ⟨handle, peer, none⟩).Grounded :=
        grounded.congr rfl rfl rfl le_rfl
      rw [← show (ble.linkUp ⟨handle, peer, none⟩).SightingFits peer ↔ ble.EventFits radio
        (.hidUp handle peer) from Iff.rfl, ← presenceSeenAddr_tells linked tells]
      exact forall_congr' fun addr => tells_congr (stayView_gapConnected _ peer addr)
  | linkDown link =>
      obtain ⟨handle, peer, owner⟩ := link
      refine iff_of_true (fun addr => (tells_congr ?_).mpr (tells addr)) trivial
      cases owner with
      | some index => exact stayView_probeDisconnected (ble.linkDown _) index handle addr
      | none => exact stayView_gapDisconnected (ble.linkDown _) peer addr
  | wipe => exact iff_of_true (tells_wipeEvents grounded) trivial
  | revoke addr deleted =>
      exact iff_of_true (tells_bondRevoke tells grounded.owing.distinct addr deleted) trivial
  | encChange => exact preallocated_tells grounded tells ble.bonds
  | hostSync => exact preallocated_tells grounded tells ble.bonds
  | synced | unsynced | setTimeout | pairingStart | pairingCancel | bondStore | scanRestart =>
      exact iff_of_true tells trivial

theorem live_tells (radio : Radio) (grounded : ble.Grounded) (tells : ble.Tells)
    (step : PresenceStep) : (ble.live radio step).Tells ↔ ble.StepFits radio step := by
  cases step with
  | act action =>
      have waited : (ble.wait action.elapsedUs).Grounded :=
        grounded.congr rfl rfl rfl (Nat.le_add_right _ _)
      exact perform_tells radio waited tells action.event
  | entered elapsedUs type peer =>
      have log : (ble.live radio (.entered elapsedUs type peer)).events.log = ble.events.log ++
          [⟨(ble.wait elapsedUs).nowUnix, ble.clockUs + elapsedUs, type, .srcManualWeb, peer⟩] := by
        cases peer <;> rfl
      have view (addr : Addr) : (ble.live radio (.entered elapsedUs type peer)).stayView addr =
          ble.stayView addr := by
        have lines := congrArg (linesOf addr) log
        rw [linesOf_snoc_entered rfl] at lines
        exact Prod.ext lines rfl
      exact iff_of_true (fun addr => (tells_congr (view addr)).mpr (tells addr)) trivial
  | restart syncUs timeout =>
      have booted : (ble.restarted syncUs timeout).Grounded :=
        (Ble.Grounded.boot syncUs timeout ble.events.log).congr rfl rfl rfl le_rfl
      refine perform_tells radio booted (fun addr => (tells_unheld fun index holds => ?_).mpr
        (tells addr).1) .hostSync
      exact absurd holds.1 Bool.false_ne_true

/-- Where each step fits, the slots tell the stays. -/
theorem fits_tell (radio : Radio) (startUs : Nat) (timeout : PresenceTimeout)
    {steps : List PresenceStep}
    (fits : Guarded (Ble.live radio) (Ble.StepFits radio) (Ble.boot startUs timeout []) steps) :
    (run (Ble.live radio) (Ble.boot startUs timeout []) steps).Tells := by
  refine (run_invariant (fun ble : Ble => ble.Grounded ∧ ble.Tells) ?_
    ⟨.boot startUs timeout [], fun _ => ⟨trivial, fun _ holds =>
      absurd holds.1 Bool.false_ne_true⟩⟩ fits).2
  rintro ble step ⟨kept, tells⟩ fitting
  exact ⟨kept.live radio step, (live_tells radio kept tells step).mpr fitting⟩

/-- Over a life with restarts at any moment, and with events entered between, the lines of each
peer alternate from an IN on and its slot is acknowledged exactly while its last stay is open, in
every state, if and only if each step fits. -/
theorem stays_told_iff_fit (radio : Radio) (startUs : Nat) (timeout : PresenceTimeout)
    (steps : List PresenceStep) :
    (∀ past, past <+: steps →
      (run (Ble.live radio) (Ble.boot startUs timeout []) past).Tells) ↔
      Guarded (Ble.live radio) (Ble.StepFits radio) (Ble.boot startUs timeout []) steps := by
  have grounded (past : List PresenceStep) :
      (run (Ble.live radio) (Ble.boot startUs timeout []) past).Grounded :=
    run_kept Ble.Grounded (fun _ step kept => kept.live radio step) (.boot startUs timeout [])
  have start : (Ble.boot startUs timeout []).Tells :=
    fun _ => ⟨trivial, fun _ holds => absurd holds.1 Bool.false_ne_true⟩
  rw [← prefixes_iff_guarded (fun ble : Ble => ble.Grounded ∧ ble.Tells) ?_
    ⟨.boot startUs timeout [], start⟩]
  · exact forall₂_congr fun past _ => (and_iff_right (grounded past)).symm
  · rintro ble step - ⟨kept, tells⟩
    rw [and_iff_right (kept.live radio step)]
    exact live_tells radio kept tells step

/-- The clock comes when the phone has been silent past its timeout, and the next tick requests
its IN and its OUT; the restart after it takes the phone for one that is in. -/
def lateClock : List PresenceStep :=
  List.map .act ([⟨0, .bondStore [⟨phone, .publicAddr⟩]⟩, ⟨0, .adv phone⟩] ++ secondTicks 25 ++
    [⟨500000, .probeDown ⟨0, phone, .publicId, 16000000⟩⟩, ⟨500000, .tick⟩] ++ secondTicks 4 ++
    [⟨0, .synced firstSync⟩, ⟨1000000, .tick⟩]) ++
  .restart 1000000 .least :: List.map .act ([⟨0, .synced 1700000105⟩] ++ secondTicks 25 ++
    [⟨500000, .probeDown ⟨0, phone, .publicId, 17000000⟩⟩, ⟨500000, .tick⟩] ++ secondTicks 6)

example : ¬ Guarded (Ble.live .oneConnect) (Ble.StepFits .oneConnect) (Ble.boot 0 .least [])
      lateClock ∧
    linesOf phone (run (Ble.live .oneConnect) (Ble.boot 0 .least []) lateClock).events.log =
      [.evIn, .evOut, .evOut] := by
  decide +kernel

end Life

end LeanDingdong
