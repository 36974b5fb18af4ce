import Dingdong.BleSlots

/-!
The scanner and the probes that need it stopped. Whoever stops it leaves a connect in
flight or the restart timer pending, and a restart that is refused finds the one or the
other.
-/

namespace LeanDingdong

open Runs

/-- The scanner runs, or something is under way that will start it again. -/
def Ble.Watching (ble : Ble) : Prop :=
  ble.scanning = true ∨ ble.connects ≠ [] ∨ ble.scanRestart = true

/-- Starting the scan fails only while a connect is in flight or the scan runs. -/
def Radio.Scans (radio : Radio) : Prop :=
  ∀ ble, radio.scan ble = false → ble.connects ≠ [] ∨ ble.scanning = true

/-- NimBLE with one outgoing connect at a time, which excludes the scan. -/
def Radio.exclusive : Radio where
  probe ble _ :=
    { cancel := if ble.scanning then .stopped else .already, accepted := ble.connects.isEmpty }
  scan ble := ble.connects.isEmpty && !ble.scanning

theorem Radio.exclusive_scans : Radio.exclusive.Scans := by
  intro ble refused
  simp only [Radio.exclusive, Bool.and_eq_false_iff, List.isEmpty_eq_false_iff,
    Bool.not_eq_false'] at refused
  exact refused

namespace Ble

variable {radio : Radio} {ble : Ble} {index : Fin presenceMax}

/-- What the scanner's fate depends on. -/
def scanView (ble : Ble) : Bool × List Connect × Bool :=
  (ble.scanning, ble.connects, ble.scanRestart)

theorem Watching.congr {next : Ble} (watching : ble.Watching)
    (same : next.scanView = ble.scanView) : next.Watching := by
  obtain ⟨scanning, rest⟩ := Prod.mk.inj same
  obtain ⟨connects, scanRestart⟩ := Prod.mk.inj rest
  rw [Watching, scanning, connects, scanRestart]
  exact watching

theorem Watching.scheduled (ble : Ble) : ble.scheduleScanRestart.Watching := .inr (.inr rfl)

theorem scanView_acknowledge (ble : Ble) (index : Fin presenceMax) :
    (ble.acknowledge index).scanView = ble.scanView := by
  rcases ble.acknowledge_cases index with same | ⟨_, _, same⟩ <;> rw [same]
  rfl

theorem scanView_presenceSeenAddr (ble : Ble) (addr : Addr) :
    (ble.presenceSeenAddr addr).scanView = ble.scanView := by
  rcases ble.presenceSeenAddr_cases addr with same | ⟨_, _, same⟩ | ⟨_, _, _, _, _, same⟩ <;>
    rw [same]
  · exact scanView_acknowledge _ _
  · exact scanView_acknowledge _ _

/-- A probe start that stops the scanner has its connect accepted or asks for a restart. -/
theorem Watching.presenceProbeStart (watching : ble.Watching) :
    (presenceProbeStart radio ble index).Watching := by
  rcases presenceProbeStart_cases radio ble index with
    ⟨_, same⟩ | ⟨_, _, ⟨_, same⟩ | ⟨_, _, same⟩ | ⟨_, _, same⟩⟩ <;> rw [same]
  · exact watching
  · exact .scheduled _
  · refine .inr (.inl ?_)
    show ble.connects ++ [ble.dial index] ≠ []
    simp
  · exact .scheduled _

theorem Watching.tickSlot (watching : ble.Watching) (index : Fin presenceMax) :
    (tickSlot radio ble index).Watching := by
  refine tickSlot_kept (P := Watching) ?_ ?_ ?_ ?_ watching
  · intro next _ kept
    refine kept.congr ?_
    rw [geofence]
    split_ifs <;> rfl
  · intro next _ _ kept
    exact kept.congr (next.scanView_acknowledge index)
  · intro next _ _ kept
    exact kept.presenceProbeStart
  · intro next _ _ _ _ kept
    refine kept.congr ?_
    rw [leave]
    split_ifs <;> rfl

/-- A refused restart finds a connect in flight or the scanner running. -/
theorem startScanning_watching (scans : radio.Scans) (ble : Ble) :
    (ble.startScanning radio).Watching := by
  rw [startScanning]
  cases started : radio.scan ble with
  | true => exact .inl rfl
  | false =>
      rcases scans ble started with inFlight | scanning
      · exact .inr (.inl inFlight)
      · exact .inl scanning

theorem Watching.gapConnected (watching : ble.Watching) (peer : Addr) :
    (ble.gapConnected peer).Watching := by
  refine watching.congr ?_
  rw [Ble.gapConnected, ← ble.scanView_presenceSeenAddr peer]
  dsimp only
  split <;> rfl

theorem Watching.gapDisconnected (watching : ble.Watching) (peer : Addr) :
    (ble.gapDisconnected peer).Watching := by
  refine watching.congr ?_
  rw [Ble.gapDisconnected]
  split <;> rfl

/-- The end of a probed link leaves the restart pending. -/
theorem Watching.probeDisconnected (watching : ble.Watching) (handle : Nat) :
    (ble.probeDisconnected index handle).Watching := by
  rw [Ble.probeDisconnected]
  split_ifs
  · exact .scheduled _
  · exact .scheduled _
  · exact watching

theorem Watching.presencePreallocateBonded (watching : ble.Watching) :
    ble.presencePreallocateBonded.Watching := by
  refine run_kept Watching (fun next bond kept => ?_) watching
  rcases next.preallocateBond_cases bond with same | ⟨index, _, _, _, same⟩
  · rwa [same]
  · refine kept.congr ?_
    rw [same, claimBonded]
    split_ifs <;> rfl

theorem Watching.perform (watching : ble.Watching) (scans : radio.Scans) (event : BleEvent) :
    (ble.perform radio event).Watching := by
  cases event with
  | adv addr => exact watching.congr (ble.scanView_presenceSeenAddr addr)
  | tick => exact run_kept Watching (fun _ index kept => kept.tickSlot index) watching
  | probeUp connect handle => exact .scheduled _
  | probeDown connect => exact .scheduled _
  | hidUp handle peer =>
      have moved : (ble.linkUp ⟨handle, peer, none⟩).Watching := watching
      exact moved.gapConnected peer
  | linkDown link =>
      obtain ⟨handle, peer, owner⟩ := link
      have moved : (ble.linkDown ⟨handle, peer, owner⟩).Watching := watching
      cases owner with
      | some index => exact moved.probeDisconnected handle
      | none => exact moved.gapDisconnected peer
  | encChange => exact watching.presencePreallocateBonded
  | hostSync => exact startScanning_watching scans _
  | scanRestart => exact startScanning_watching scans _
  | revoke addr deleted =>
      refine watching.congr ?_
      rcases ble.bondRevoke_cases addr deleted with same | ⟨_, _, same⟩ | ⟨_, same⟩ <;>
        rw [Ble.perform, same] <;> rfl
  | synced | unsynced | wipe | setTimeout | pairingStart | pairingCancel | bondStore =>
      exact watching

end Ble

/-- Once the scanner has run, it runs in every later state, or a connect is in flight, or
the restart timer is pending. -/
theorem scanner_watching (radio : Radio) (scans : radio.Scans) (ble : Ble)
    (started : ble.scanning = true) (actions : List BleAction) :
    (run (Ble.step radio) ble actions).Watching := by
  refine run_kept Ble.Watching (fun next action watching => ?_) (.inl started)
  have waited : (next.wait action.elapsedUs).Watching := watching
  exact waited.perform scans action.event

/-- The scanner has started and the bonded phone is probed: the scan is off, its restart
fires while the connect is in flight, and the connect then fails. -/
def probedScan : List BleAction :=
  [⟨0, .bondStore [⟨phone, .publicAddr⟩]⟩, ⟨0, .adv phone⟩] ++ secondTicks 16 ++
    [⟨0, .scanRestart⟩, ⟨500000, .probeDown ⟨0, phone, .publicId, 16000000⟩⟩]

theorem scanner_watching_probed :
    (run (Ble.step Radio.exclusive) ((Ble.boot 0 .least []).startScanning Radio.exclusive)
      probedScan).Watching :=
  scanner_watching Radio.exclusive Radio.exclusive_scans _ (by decide) probedScan

end LeanDingdong
