import Dingdong.EventLatest
import Dingdong.PresenceAttendance

/-!
What a restart reads back. `presence_preallocate_bonded` asks the event file about all bonds in
one pass before its loop. Over the records of a log the answers are those the presence machine
takes from the log itself, bond by bond, and the slots it claims are the same.
-/

namespace LeanDingdong

open Presence Runs TextLines

/-- An entry of the array that `dd_event_latest_for_peers` fills in. -/
def Bond.asked (bond : Bond) : PeerLatest where
  addr := bond.addr
  hasEvent := false
  type := .evIn

/-- `was_in` -/
def PeerLatest.wasIn (latest : PeerLatest) : Bool := latest.hasEvent && decide (latest.type = .evIn)

namespace Ble

/-- A slot taken for a bond, with what the file says of its peer. -/
def resumeSlot (ble : Ble) (index : Fin presenceMax) (bond : Bond) (wasIn : Bool) : Ble :=
  let resumed := (ble.setSlot index
    { PresenceSlot.cleared with
      used := true
      addr := bond.addr
      addrType := bond.type
      probeHandle := noHandle
      present := wasIn
      ackEvent := wasIn
      lastSeenUs := if wasIn then ble.clockUs else 0 }).note (.claimed bond.addr wasIn)
  if wasIn then resumed.note (.refreshed bond.addr) else resumed

/-- The loop of `presence_preallocate_bonded` over the bonds and the answers. -/
def resumeBonds : Ble → List (Bond × PeerLatest) → Ble
  | ble, [] => ble
  | ble, (bond, latest) :: later =>
      match ble.slotOf bond.addr with
      | some _ => ble.resumeBonds later
      | none =>
          match ble.freeSlot with
          | none => ble
          | some index => (ble.resumeSlot index bond latest.wasIn).resumeBonds later

/-- `presence_preallocate_bonded` on the event file; `parse` is `cJSON_Parse`. -/
def preallocateFrom (parse : Bytes → Option JsonTree) (store : Store) (ble : Ble) : Ble :=
  ble.resumeBonds (ble.bonds.zip (eventLatestForPeers parse (ble.bonds.map Bond.asked) store).2)

end Ble

/-- The record is that of the line, whatever number its peer's worker had. -/
structure EventRecord.Tells (line : PeerEvent) (record : EventRecord) : Prop where
  ts : record.ts = line.ts
  monoUs : record.monoUs = line.monoUs
  type : record.type = line.type
  peer : record.peer.map Prod.fst = line.peer

section Readings

variable {codec : Codec}

theorem readType_str (type : EventType) : readType (eventTypeStr type) = type := by
  cases type <;> decide

namespace EventRecord

variable (record : EventRecord)

theorem tree_peer : record.tree.getText (ascii "peer") =
    (record.peer.map Prod.fst).map formatMac := by
  obtain ⟨ts, monoUs, type, src, peer, reason, note, _, _, _⟩ := record
  cases peer with
  | none => cases type <;> cases note <;> rfl
  | some pair => rfl

/-- The text of a record says of a peer what its line does. -/
theorem readingOf_line (faithful : codec.Faithful) (unformatted : codec.Unformatted)
    {line : PeerEvent} (tells : record.Tells line) (addr : Addr) :
    readingOf codec.parse addr record.line = line.reading addr := by
  have type : record.tree.getText (ascii "type") = some (eventTypeStr record.type) := rfl
  have ts : record.tree.getInt (ascii "ts") = some (record.ts : Int) := rfl
  have monoUs : record.tree.getInt (ascii "mono_us") = some (record.monoUs : Int) := rfl
  have peer := record.tree_peer
  rw [tells.peer] at peer
  rw [PeerEvent.reading, readingOf, record.parse_line faithful unformatted]
  cases named : line.peer with
  | none =>
      rw [named] at peer
      simp [peer]
  | some other =>
      have same : cstr (formatMac other) = formatMac addr ↔ other = addr := by
        rw [cstr_of_noNul (formatMac_noNul other)]
        exact formatMac_injective.eq_iff
      rw [named] at peer
      simp [peer, type, ts, monoUs, same, readType_str, tells.ts, tells.monoUs, tells.type]

end EventRecord

/-- In a file of records each peer's readings are those in the log. -/
theorem readingsOf_log (faithful : codec.Faithful) (unformatted : codec.Unformatted)
    {log : List PeerEvent} {records : List LoggedEvent}
    (recorded : List.Forall₂ (fun line logged => logged.record.Tells line) log records)
    {store : Store} (holds : Holds store (records.map LoggedEvent.line)) (addr : Addr) :
    readingsOf codec.parse addr (iterLines store.file) = log.filterMap (PeerEvent.reading addr) := by
  have lines : iterLines store.file = records.map fun logged => logged.record.line := by
    rw [holds.file, iterLines_encode, texts, List.map_map]
    rfl
  rw [lines, readingsOf]
  clear lines holds
  induction recorded with
  | nil => rfl
  | cons tells _ ih =>
      rw [List.map_cons, List.filterMap_cons, List.filterMap_cons, ih,
        EventRecord.readingOf_line _ faithful unformatted tells]

end Readings

section Loop

namespace Ble

variable {ble : Ble}

/-- The machine's own round claims the same slot. -/
theorem claimBonded_resume (index : Fin presenceMax) (bond : Bond) :
    ble.claimBonded index bond = ble.resumeSlot index bond (ble.wasIn bond.addr) := rfl

theorem wasIn_resume (index : Fin presenceMax) (bond : Bond) (wasIn : Bool) :
    (ble.resumeSlot index bond wasIn).wasIn = ble.wasIn := by
  cases wasIn <;> rfl

/-- Without a free slot no bond gets one. -/
theorem preallocate_full (full : ble.freeSlot = none) (bonds : List Bond) :
    run preallocateBond ble bonds = ble := by
  induction bonds with
  | nil => rfl
  | cons bond bonds ih =>
      have stays : ble.preallocateBond bond = ble := by
        rw [preallocateBond, full]
        split <;> rfl
      rw [run_cons, stays, ih]

/-- Right answers make the loop the machine's. -/
theorem resumeBonds_eq {bonds : List Bond} {answers : List PeerLatest}
    (right : List.Forall₂ (fun bond latest => latest.wasIn = ble.wasIn bond.addr) bonds answers) :
    ble.resumeBonds (bonds.zip answers) = run preallocateBond ble bonds := by
  induction bonds generalizing ble answers with
  | nil => rfl
  | cons bond bonds ih =>
      obtain ⟨latest, answers, here, later, rfl⟩ := List.forall₂_cons_left_iff.mp right
      rw [List.zip_cons_cons, run_cons, resumeBonds, preallocateBond]
      cases held : ble.slotOf bond.addr with
      | some _ => exact ih later
      | none =>
          cases free : ble.freeSlot with
          | none => exact (preallocate_full free bonds).symm
          | some index =>
              dsimp only
              rw [claimBonded_resume, ← here]
              refine ih (later.imp fun _ _ same => ?_)
              rw [wasIn_resume, same]

end Ble

end Loop

section Lookup

variable {codec : Codec}

/-- An answer says of a peer what the log does. -/
theorem PeerLatest.fill_wasIn (peer : PeerLatest) (log : List PeerEvent) :
    (peer.fill (PeerReading.latest (log.filterMap (PeerEvent.reading peer.addr)))).wasIn =
      decide (latestForPeer log peer.addr = some .evIn) := by
  rw [latestForPeer_latest, PeerLatest.fill, PeerLatest.wasIn]
  cases PeerReading.latest (log.filterMap (PeerEvent.reading peer.addr)) <;> simp

/-- Over a file with the records of the log a restart claims the slots that the presence machine
claims with its log: the one pass over the file answers for each bond what the log says of it. -/
theorem preallocateFrom_eq (faithful : codec.Faithful) (unformatted : codec.Unformatted) (ble : Ble)
    (few : ble.bonds.length ≤ 8) (distinct : (ble.bonds.map Bond.addr).Nodup)
    (records : List LoggedEvent)
    (recorded : List.Forall₂ (fun line logged => logged.record.Tells line) ble.events.log records)
    (store : Store) (holds : Holds store (records.map LoggedEvent.line)) :
    ble.preallocateFrom codec.parse store = ble.presencePreallocateBonded := by
  have asked : (ble.bonds.map Bond.asked).map PeerLatest.addr = ble.bonds.map Bond.addr := by
    rw [List.map_map]
    rfl
  rw [Ble.preallocateFrom, eventLatestForPeers_pass (by rwa [List.length_map]),
    passOver_eq (by rwa [asked])]
  refine Ble.resumeBonds_eq ?_
  rw [List.map_map, List.forall₂_map_right_iff, List.forall₂_same]
  intro bond _
  rw [Function.comp_apply, readingsOf_log faithful unformatted recorded holds]
  exact bond.asked.fill_wasIn ble.events.log

/-- The records of a phone that left and came back. -/
def returnRecords : List LoggedEvent :=
  [phoneEvent 0 .evIn, phoneEvent 31 .evOut, phoneEvent 40 .evIn]

def returnStore : Store where
  events := some (encode newline (texts (returnRecords.map LoggedEvent.line)))
  eventCount := 3

/-- The device starts over while the phone is there. -/
def afterReturn : Ble :=
  { Ble.boot 1000000 .least
      [⟨1700000000, 0, .evIn, .srcBleAuto, some phone⟩,
        ⟨1700000031, 31000000, .evOut, .srcBleAuto, some phone⟩,
        ⟨1700000040, 40000000, .evIn, .srcBleAuto, some phone⟩] with
    bonds := [⟨phone, .publicAddr⟩] }

theorem preallocateFrom_eq_return :
    afterReturn.preallocateFrom plainCodec.parse returnStore =
      afterReturn.presencePreallocateBonded ∧
    (afterReturn.presencePreallocateBonded.presence 0).ackEvent = true := by
  refine ⟨?_, by decide +kernel⟩
  refine preallocateFrom_eq plainCodec_faithful plainCodec_unformatted afterReturn (by decide)
    (by decide) returnRecords ?_ returnStore ⟨rfl, rfl⟩
  exact .cons ⟨rfl, rfl, rfl, rfl⟩ (.cons ⟨rfl, rfl, rfl, rfl⟩ (.cons ⟨rfl, rfl, rfl, rfl⟩ .nil))

end Lookup

end LeanDingdong
