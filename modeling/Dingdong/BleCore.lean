import Mathlib.Data.PNat.Notation
import Dingdong.EventDebounce
import Dingdong.Runs

/-!
The presence machine of `dd_ble.c`. A callback runs at one instant of the clock and
no other runs meanwhile. What NimBLE answers is the radio, an arbitrary function of
the whole state; what it reports back comes in as events.
-/

namespace LeanDingdong

open Runs

abbrev presenceMax : Nat := 8

instance neZeroPresenceMax : NeZero presenceMax := ⟨by decide⟩

def presenceProbeAfterMs : Nat := 15000

def presenceProbeTimeoutMs : Nat := 10000

def presenceProbeCooldownMs : Nat := 10000

def presenceReprobeOutMs : Nat := 30000

def noHandle : Nat := 0xFFFF

inductive AddrType where
  | publicAddr
  | randomAddr
  | publicId
  | randomId
  deriving DecidableEq

/-- The type that makes the controller resolve private addresses of the peer. -/
def AddrType.promote : AddrType → AddrType
  | .publicAddr => .publicId
  | .randomAddr => .randomId
  | other => other

/-- `presence_slot_t` -/
structure PresenceSlot where
  addr : Addr
  addrType : AddrType
  lastSeenUs : Nat
  lastProbeUs : Nat
  present : Bool
  ackEvent : Bool
  probing : Bool
  connected : Bool
  probeHandle : Nat
  used : Bool
  deriving DecidableEq

/-- A slot of zero bytes. -/
def PresenceSlot.cleared : PresenceSlot where
  addr := Addr.zero
  addrType := .publicAddr
  lastSeenUs := 0
  lastProbeUs := 0
  present := false
  ackEvent := false
  probing := false
  connected := false
  probeHandle := 0
  used := false

/-- `s_presence` -/
abbrev Presence := Fin presenceMax → PresenceSlot

structure PresenceTimeout where
  seconds : Nat
  lower : 30 ≤ seconds
  upper : seconds ≤ 600

namespace PresenceTimeout

def ms (timeout : PresenceTimeout) : Nat := timeout.seconds * 1000

/-- `PRESENCE_TIMEOUT_DEFAULT_S` -/
def initial : PresenceTimeout := { seconds := 60, lower := by decide, upper := by decide }

/-- `PRESENCE_TIMEOUT_MIN_S` -/
def least : PresenceTimeout := { seconds := 30, lower := by decide, upper := by decide }

/-- The clamping of `dd_ble_set_presence_timeout_s`. -/
def clamp (seconds : Int) : PresenceTimeout where
  seconds := max 30 (min 600 seconds.toNat)
  lower := le_max_left _ _
  upper := by omega

end PresenceTimeout

/-- A peer of the bond store. -/
structure Bond where
  addr : Addr
  type : AddrType

/-- An accepted `ble_gap_connect` whose CONNECT event is still to come. -/
structure Connect where
  slot : Fin presenceMax
  peer : Addr
  peerType : AddrType
  startUs : Nat
  deriving DecidableEq

/-- A live connection. Its events go to `probe_event_cb` with a slot number, or to
`gap_event_cb` when there is none. -/
structure Link where
  handle : Nat
  peer : Addr
  owner : Option (Fin presenceMax)
  deriving DecidableEq

/-- What the machine did, as the results speak of it. -/
inductive Note where
  /-- a slot is taken, with the state the log resumes -/
  | claimed (addr : Addr) (resumed : Bool)
  /-- `last_seen_us` of the slot is set to now -/
  | refreshed (addr : Addr)
  /-- `ble_gap_connect` to the peer is accepted -/
  | dialled (addr : Addr)
  /-- a call of `dd_event_record` -/
  | requested (type : EventType) (addr : Addr)
  /-- the OUT path, with `ack_event` as it was before -/
  | left (addr : Addr) (acked : Bool)
  | wiped
  | revoked (addr : Addr)
  deriving DecidableEq

structure Ble where
  presence : Presence
  timeout : PresenceTimeout
  pairingUntilUs : Nat
  /-- what `ble_store_util_bonded_peers` reports -/
  bonds : List Bond
  connects : List Connect
  links : List Link
  scanning : Bool
  scanRestart : Bool
  clockUs : Nat
  /-- Unix time of the clock's zero, once SNTP has answered -/
  epoch : Option ℕ+
  events : EventState
  /-- the newest note first -/
  history : List Note

/-- What NimBLE returns from `ble_gap_disc_cancel`. -/
inductive CancelResult where
  | stopped
  | already
  | failed
  deriving DecidableEq

structure ProbeReply where
  cancel : CancelResult
  accepted : Bool

structure Radio where
  probe : Ble → Fin presenceMax → ProbeReply
  /-- `ble_gap_ext_disc` starts the scan -/
  scan : Ble → Bool

/-- NimBLE with one outgoing connect at a time. -/
def Radio.oneConnect : Radio where
  probe ble _ := { cancel := .stopped, accepted := ble.connects.isEmpty }
  scan _ := true

namespace Ble

def boot (startUs : Nat) (timeout : PresenceTimeout) (log : List PeerEvent) : Ble where
  presence := fun _ => PresenceSlot.cleared
  timeout := timeout
  pairingUntilUs := 0
  bonds := []
  connects := []
  links := []
  scanning := false
  scanRestart := false
  clockUs := startUs
  epoch := none
  events := { debounce := DebounceTable.blank, log := log }
  history := []

def setSlot (ble : Ble) (index : Fin presenceMax) (slot : PresenceSlot) : Ble :=
  { ble with presence := Function.update ble.presence index slot }

def note (ble : Ble) (entry : Note) : Ble := { ble with history := entry :: ble.history }

/-- `dd_time_now_unix` -/
def nowUnix (ble : Ble) : Nat :=
  match ble.epoch with
  | none => 0
  | some epoch => epoch + ble.clockUs / 1000000

/-- `dd_ble_pairing_active` -/
def pairingActive (ble : Ble) : Bool := ble.clockUs < ble.pairingUntilUs

def scheduleScanRestart (ble : Ble) : Ble := { ble with scanRestart := true }

/-- The first used slot of the address. -/
def slotOf (ble : Ble) (addr : Addr) : Option (Fin presenceMax) :=
  SlotTable.first fun index => (ble.presence index).used && (ble.presence index).addr = addr

def freeSlot (ble : Ble) : Option (Fin presenceMax) :=
  SlotTable.first fun index => !(ble.presence index).used

/-- `bond_addr_lookup` -/
def bondAddrLookup (ble : Ble) (addr : Addr) : Option Bond :=
  ble.bonds.find? fun bond => bond.addr = addr

def record (ble : Ble) (type : EventType) (addr : Addr) : Ble :=
  { ble with
    events := eventRecord ble.clockUs ble.nowUnix type .srcBleAuto (some addr) ble.events
    history := .requested type addr :: ble.history }

section Seen

def touch (ble : Ble) (index : Fin presenceMax) : Ble :=
  let slot := ble.presence index
  (ble.setSlot index { slot with lastSeenUs := ble.clockUs, present := true }).note
    (.refreshed slot.addr)

/-- IN is recorded only once there is wall-clock time, and acknowledged whatever
`dd_event_record` does with it. -/
def acknowledge (ble : Ble) (index : Fin presenceMax) : Ble :=
  let slot := ble.presence index
  if slot.ackEvent = false ∧ 0 < ble.nowUnix then
    (ble.record .evIn slot.addr).setSlot index { slot with ackEvent := true }
  else ble

/-- The slot `presence_seen_addr` takes; `connected` stays what it was. -/
def claimSeen (ble : Ble) (index : Fin presenceMax) (addr : Addr) (type : AddrType) : Ble :=
  (ble.setSlot index
    { ble.presence index with
      used := true
      addr := addr
      addrType := type
      present := false
      ackEvent := false
      probing := false
      probeHandle := noHandle
      lastProbeUs := 0 }).note (.claimed addr false)

def presenceSeenAddr (ble : Ble) (addr : Addr) : Ble :=
  match ble.slotOf addr with
  | some index => (ble.touch index).acknowledge index
  | none =>
      match ble.freeSlot with
      | none => ble
      | some index =>
          match ble.bondAddrLookup addr with
          | none => ble
          | some bond => ((ble.claimSeen index addr bond.type).touch index).acknowledge index

end Seen

section Tick

variable (radio : Radio)

/-- The connect a probe of the slot asks for. -/
def dial (ble : Ble) (index : Fin presenceMax) : Connect where
  slot := index
  peer := (ble.presence index).addr
  peerType := (ble.presence index).addrType.promote
  startUs := ble.clockUs

def presenceProbeStart (ble : Ble) (index : Fin presenceMax) : Ble :=
  let slot := ble.presence index
  if slot.probing then ble
  else if ble.pairingActive then ble
  else
    let reply := radio.probe ble index
    match reply.cancel with
    | .failed =>
        (ble.setSlot index { slot with lastProbeUs := ble.clockUs }).scheduleScanRestart
    | cancel =>
        let ble := { ble with scanning := if cancel = CancelResult.stopped then false else ble.scanning }
        if reply.accepted then
          (({ ble with connects := ble.connects ++ [ble.dial index] }).setSlot index
            { slot with probing := true, probeHandle := noHandle }).note (.dialled slot.addr)
        else
          (ble.setSlot index
            { slot with
              probing := false
              probeHandle := noHandle
              lastProbeUs := ble.clockUs }).scheduleScanRestart

/-- A live connection is presence. -/
def geofence (ble : Ble) (index : Fin presenceMax) : Ble :=
  let slot := ble.presence index
  if slot.connected then
    (ble.setSlot index
      { slot with
        lastSeenUs := ble.clockUs
        present := true
        ackEvent := if slot.present then slot.ackEvent else false }).note (.refreshed slot.addr)
  else ble

/-- The OUT path: nothing is requested without a clock, and `ack_event` is cleared. -/
def leave (ble : Ble) (index : Fin presenceMax) : Ble :=
  let slot := ble.presence index
  let ble := ble.note (.left slot.addr slot.ackEvent)
  let ble := if slot.ackEvent ∧ 0 < ble.nowUnix then ble.record .evOut slot.addr else ble
  ble.setSlot index { slot with present := false, ackEvent := false }

/-- Milliseconds since the slot was seen. -/
def sinceMs (ble : Ble) (index : Fin presenceMax) : Nat :=
  (ble.clockUs - (ble.presence index).lastSeenUs) / 1000

/-- Milliseconds since the last probe of the slot ended. -/
def sinceProbe (ble : Ble) (index : Fin presenceMax) : Nat :=
  (ble.clockUs - (ble.presence index).lastProbeUs) / 1000

/-- A stale slot is probed, after its cooldown and before its timeout. -/
def probeDue (ble : Ble) (index : Fin presenceMax) : Bool :=
  let slot := ble.presence index
  presenceProbeAfterMs < ble.sinceMs index ∧ ble.sinceMs index ≤ ble.timeout.ms ∧
    slot.probing = false ∧
    (slot.lastProbeUs = 0 ∨ presenceProbeCooldownMs ≤ ble.sinceProbe index)

def outDue (ble : Ble) (index : Fin presenceMax) : Bool :=
  ble.timeout.ms < ble.sinceMs index ∧ (ble.presence index).probing = false

/-- The tick on a slot that is present without a connection. -/
def checkStale (ble : Ble) (index : Fin presenceMax) : Ble :=
  let ble := if ble.probeDue index then ble.presenceProbeStart radio index else ble
  if ble.outDue index then ble.leave index else ble

/-- The tick on an absent slot. -/
def reprobe (ble : Ble) (index : Fin presenceMax) : Ble :=
  let slot := ble.presence index
  if slot.probing then ble
  else if ble.pairingActive then ble
  else if slot.lastProbeUs ≠ 0 ∧ ble.sinceProbe index < presenceReprobeOutMs then ble
  else ble.presenceProbeStart radio index

/-- The catch-up of an IN that was not recorded. -/
def backfill (ble : Ble) (index : Fin presenceMax) : Ble :=
  if (ble.presence index).present then ble.acknowledge index else ble

/-- One round of the loop of `presence_tick_cb`. -/
def tickSlot (ble : Ble) (index : Fin presenceMax) : Ble :=
  if (ble.presence index).used then
    let ble := (ble.geofence index).backfill index
    if (ble.presence index).connected then ble
    else if (ble.presence index).present then ble.checkStale radio index
    else ble.reprobe radio index
  else ble

def presenceTickCb (ble : Ble) : Ble := run (tickSlot radio) ble (List.finRange presenceMax)

end Tick

section Callbacks

/-- `probe_event_cb`: CONNECT with status 0. -/
def probeConnected (ble : Ble) (index : Fin presenceMax) (handle : Nat) : Ble :=
  let slot := ble.presence index
  let ble := ble.setSlot index
    { slot with probeHandle := handle, connected := true, probing := false }
  (ble.presenceSeenAddr slot.addr).scheduleScanRestart

/-- `probe_event_cb`: CONNECT with another status. -/
def probeFailed (ble : Ble) (index : Fin presenceMax) : Ble :=
  (ble.setSlot index
    { ble.presence index with
      probing := false
      lastProbeUs := ble.clockUs }).scheduleScanRestart

/-- `probe_event_cb`: DISCONNECT. -/
def probeDisconnected (ble : Ble) (index : Fin presenceMax) (handle : Nat) : Ble :=
  let slot := ble.presence index
  if slot.probeHandle = handle then
    let ble := if slot.used then ble.note (.refreshed slot.addr) else ble
    (ble.setSlot index
      { slot with
        probeHandle := noHandle
        probing := false
        connected := false
        lastSeenUs := ble.clockUs
        lastProbeUs := ble.clockUs }).scheduleScanRestart
  else ble

/-- `gap_event_cb`: CONNECT with status 0, the descriptor giving the resolved identity. -/
def gapConnected (ble : Ble) (peer : Addr) : Ble :=
  let ble := ble.presenceSeenAddr peer
  match ble.slotOf peer with
  | some index => ble.setSlot index { ble.presence index with connected := true }
  | none => ble

/-- `gap_event_cb`: DISCONNECT. -/
def gapDisconnected (ble : Ble) (peer : Addr) : Ble :=
  match ble.slotOf peer with
  | some index =>
      (ble.setSlot index
        { ble.presence index with connected := false, lastSeenUs := ble.clockUs }).note
          (.refreshed peer)
  | none => ble

/-- The latest event of the peer in the log is an IN. -/
def wasIn (ble : Ble) (addr : Addr) : Bool := latestForPeer ble.events.log addr = some .evIn

/-- The slot of a bonded peer, with the state the log says. -/
def bondSlot (ble : Ble) (bond : Bond) : PresenceSlot where
  used := true
  addr := bond.addr
  addrType := bond.type
  present := ble.wasIn bond.addr
  ackEvent := ble.wasIn bond.addr
  probing := false
  connected := false
  probeHandle := noHandle
  lastProbeUs := 0
  lastSeenUs := if ble.wasIn bond.addr then ble.clockUs else 0

/-- The slot `presence_preallocate_bonded` takes. -/
def claimBonded (ble : Ble) (index : Fin presenceMax) (bond : Bond) : Ble :=
  let claimed := (ble.setSlot index (ble.bondSlot bond)).note
    (.claimed bond.addr (ble.wasIn bond.addr))
  if ble.wasIn bond.addr then claimed.note (.refreshed bond.addr) else claimed

/-- One round of the loop of `presence_preallocate_bonded`. -/
def preallocateBond (ble : Ble) (bond : Bond) : Ble :=
  match ble.slotOf bond.addr with
  | some _ => ble
  | none =>
      match ble.freeSlot with
      | none => ble
      | some index => ble.claimBonded index bond

def presencePreallocateBonded (ble : Ble) : Ble := run preallocateBond ble ble.bonds

def pairingStart (ble : Ble) (ttlMs : Int) : Ble :=
  { ble with pairingUntilUs := ble.clockUs + max 5000 (min 120000 ttlMs.toNat) * 1000 }

def pairingCancel (ble : Ble) : Ble := { ble with pairingUntilUs := 0 }

def startScanning (radio : Radio) (ble : Ble) : Ble :=
  { ble with scanning := if radio.scan ble then true else ble.scanning }

/-- `scan_restart_cb`, its timer having fired. -/
def scanRestartCb (radio : Radio) (ble : Ble) : Ble :=
  { ble with scanRestart := false }.startScanning radio

/-- `dd_ble_presence_reset_events` -/
def presenceResetEvents (ble : Ble) : Ble :=
  { ble with
    presence := fun index =>
      let slot := ble.presence index
      if slot.used && slot.present then { slot with ackEvent := false } else slot }

/-- `dd_storage_event_wipe`, then `dd_ble_presence_reset_events`. -/
def wipeEvents (ble : Ble) : Ble :=
  (({ ble with events := { ble.events with log := [] } }).presenceResetEvents).note .wiped

/-- `dd_ble_bond_revoke`; the links it terminates report their end later. -/
def bondRevoke (ble : Ble) (addr : Addr) (deleted : Bool) : Ble :=
  match ble.bondAddrLookup addr with
  | none => ble
  | some _ =>
      if deleted then
        let ble := { ble with bonds := ble.bonds.filter fun bond => bond.addr ≠ addr }
        let ble := match ble.slotOf addr with
          | some index => ble.setSlot index PresenceSlot.cleared
          | none => ble
        ble.note (.revoked addr)
      else ble

end Callbacks

end Ble

inductive BleEvent where
  /-- an advertisement reaches `disc_event_cb` -/
  | adv (addr : Addr)
  | tick
  /-- the result of an accepted connect -/
  | probeUp (connect : Connect) (handle : Nat)
  | probeDown (connect : Connect)
  /-- a peer connects to the HID side -/
  | hidUp (handle : Nat) (peer : Addr)
  | linkDown (link : Link)
  /-- SNTP answers -/
  | synced (epoch : ℕ+)
  /-- `dd_time_set_ntp_server` -/
  | unsynced
  | wipe
  | setTimeout (seconds : Int)
  | pairingStart (ttlMs : Int)
  | pairingCancel
  /-- NimBLE changes its bond store -/
  | bondStore (bonds : List Bond)
  /-- ENC_CHANGE with status 0 -/
  | encChange
  /-- `on_sync` -/
  | hostSync
  | revoke (addr : Addr) (deleted : Bool)
  /-- the scan-restart timer fires -/
  | scanRestart

namespace Ble

/-- NimBLE has reported the result of the connect. -/
def connectEnds (ble : Ble) (connect : Connect) : Ble :=
  { ble with connects := ble.connects.erase connect }

def linkUp (ble : Ble) (link : Link) : Ble := { ble with links := ble.links ++ [link] }

def linkDown (ble : Ble) (link : Link) : Ble := { ble with links := ble.links.erase link }

def perform (radio : Radio) (ble : Ble) : BleEvent → Ble
  | .adv addr => ble.presenceSeenAddr addr
  | .tick => ble.presenceTickCb radio
  | .probeUp connect handle =>
      ((ble.connectEnds connect).linkUp ⟨handle, connect.peer, some connect.slot⟩).probeConnected
        connect.slot handle
  | .probeDown connect => (ble.connectEnds connect).probeFailed connect.slot
  | .hidUp handle peer => (ble.linkUp ⟨handle, peer, none⟩).gapConnected peer
  | .linkDown link =>
      match link.owner with
      | some index => (ble.linkDown link).probeDisconnected index link.handle
      | none => (ble.linkDown link).gapDisconnected link.peer
  | .synced epoch => { ble with epoch := some epoch }
  | .unsynced => { ble with epoch := none }
  | .wipe => ble.wipeEvents
  | .setTimeout seconds => { ble with timeout := PresenceTimeout.clamp seconds }
  | .pairingStart ttlMs => ble.pairingStart ttlMs
  | .pairingCancel => ble.pairingCancel
  | .bondStore bonds => { ble with bonds := bonds }
  | .encChange => ble.presencePreallocateBonded.pairingCancel
  | .hostSync => ble.presencePreallocateBonded.startScanning radio
  | .revoke addr deleted => ble.bondRevoke addr deleted
  | .scanRestart => ble.scanRestartCb radio

def wait (ble : Ble) (elapsedUs : Nat) : Ble := { ble with clockUs := ble.clockUs + elapsedUs }

end Ble

/-- An event after some time without one. -/
structure BleAction where
  elapsedUs : Nat
  event : BleEvent

/-- Ticks one second apart. -/
def secondTicks (count : Nat) : List BleAction := List.replicate count ⟨1000000, .tick⟩

/-- The time SNTP answers with. -/
def firstSync : ℕ+ := 1700000000

def phone : Addr := ⟨1, 2, 3, 4, 5, 6⟩

def otherPhone : Addr := ⟨2, 3, 4, 5, 6, 7⟩

def Ble.step (radio : Radio) (ble : Ble) (action : BleAction) : Ble :=
  (ble.wait action.elapsedUs).perform radio action.event

/-- The guard of an event, in the state the event finds. -/
def Ble.Meets (guard : Ble → BleEvent → Prop) (ble : Ble) (action : BleAction) : Prop :=
  guard (ble.wait action.elapsedUs) action.event

instance (guard : Ble → BleEvent → Prop) [decided : ∀ ble event, Decidable (guard ble event)]
    (ble : Ble) (action : BleAction) : Decidable (Ble.Meets guard ble action) :=
  decided _ _

end LeanDingdong
