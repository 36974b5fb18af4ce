import Dingdong.BlePairingNumcmp
import Dingdong.ConfigCore

/-!
The advertising side of `dd_ble.c`: the packet with the device's name, the filter accept
list of bonded peers, and the restarts, at once or by a timer, that keep the filter in step
with the pairing window. What the controller has of all this is kept beside the fields of
the source, and NimBLE's answers are an arbitrary function of the state.
-/

namespace LeanDingdong

open Runs

/-- The fields `start_advertising` fills in. -/
structure AdvFields where
  flags : Nat
  uuids16 : List Nat
  name : Bytes
  appearance : Nat

/-- Each field takes a length byte, a type byte and its value. -/
def AdvFields.size (fields : AdvFields) : Nat :=
  (2 + 1) + (2 + 2 * fields.uuids16.length) + (2 + fields.name.length) + (2 + 2)

def hidServiceUuid16 : Nat := 0x1812

def appearanceHidKeyboard : Nat := 0x03C1

/-- The room of a legacy packet. -/
def advBufSize : Nat := 31

/-- What comes of `ble_gap_wl_set`: the list is written, stays as it is, or breaks off. -/
inductive WlSet where
  | written
  | refused
  | broken (count : Nat)

/-- What NimBLE answers during one `start_advertising`. -/
structure AdvReplies where
  /-- `count_bonds` reads the bond store -/
  bondsCounted : Bool := true
  /-- `refresh_whitelist` reads it again -/
  bondsListed : Bool := true
  wlSet : WlSet := .written
  advRemove : Bool := true
  advConfigure : Bool := true
  pkthdr : Bool := true
  append : Bool := true
  advSetData : Bool := true
  advStart : Bool := true

/-- `s_adv_restart_timer` -/
inductive RestartTimer where
  | absent
  | stopped
  | pending
  deriving DecidableEq

/-- `HID_ADV_INSTANCE` as it was last configured. -/
structure AdvInstance where
  /-- only peers on the filter accept list may connect -/
  strict : Bool
  /-- what `count_bonds` had found -/
  counted : List Bond

structure Advertiser where
  host : BleHost
  deviceName : Bytes
  /-- `s_advertising` -/
  advertising : Bool
  /-- `s_filter_strict` -/
  filterStrict : Bool
  restartTimer : RestartTimer
  /-- the controller's filter accept list -/
  whitelist : List Bond
  hidInstance : Option AdvInstance
  /-- the controller is advertising -/
  onAir : Bool
  /-- whose record a re-pairing or a revocation deleted since the list was last written -/
  forgotten : List Addr
  /-- who was bonded since then, left out of a list that broke off, or lost with the list -/
  unlisted : List Addr
  /-- NimBLE refused the last start while off the air, or the restart timer -/
  refused : Bool

structure AdvStack where
  /-- `ble_hs_adv_set_fields` into a buffer of that size -/
  setFields : AdvFields → Nat → Bool
  replies : Advertiser → AdvReplies
  createTimer : Advertiser → Bool

/-- `CONFIG_BT_NIMBLE_MAX_CONNECTIONS` -/
def nimbleMaxConnections : Nat := 8

/-- NimBLE leaves an instance alone while it advertises, and the list it advertises with; a
start takes a free connection. -/
def AdvStack.nimble : AdvStack where
  setFields fields size := fields.size ≤ size
  replies adv :=
    { wlSet := if adv.onAir && adv.hidInstance.any (·.strict) then .refused else .written
      advRemove := !adv.onAir
      advConfigure := !adv.onAir
      advStart := adv.host.ble.links.length < nimbleMaxConnections }
  createTimer _ := true

/-- A packet is refused exactly when it does not fit. -/
def AdvStack.Sized (stack : AdvStack) : Prop :=
  ∀ fields size, stack.setFields fields size = true ↔ fields.size ≤ size

inductive AdvEvent where
  | host (event : HostEvent)
  /-- the restart timer fires -/
  | advRestart
  /-- `on_reset`; the controller has lost what it was told -/
  | hostReset
  | setDeviceName (name : Bytes)

namespace Advertiser

def boot (startUs : Nat) (timeout : PresenceTimeout) (log : List PeerEvent) (deviceName : Bytes) :
    Advertiser where
  host := BleHost.boot startUs timeout log
  deviceName := deviceName
  advertising := false
  filterStrict := false
  restartTimer := .absent
  whitelist := []
  hidInstance := none
  onAir := false
  forgotten := []
  unlisted := []
  refused := false

variable (stack : AdvStack)

def fields (adv : Advertiser) : AdvFields where
  flags := 0x06
  uuids16 := [hidServiceUuid16]
  name := adv.deviceName
  appearance := appearanceHidKeyboard

/-- `count_bonds`, with the bonds themselves; a store that cannot be read has none. -/
def countBonds (adv : Advertiser) : List Bond :=
  if (stack.replies adv).bondsCounted then adv.host.ble.bonds else []

/-- `should_be_strict` -/
def shouldBeStrict (adv : Advertiser) : Bool :=
  if adv.host.ble.pairingActive then false else !(adv.countBonds stack).isEmpty

/-- The accept list becomes the first `count` bonds. -/
def writeList (count : Nat) (adv : Advertiser) : Advertiser :=
  { adv with
    whitelist := adv.host.ble.bonds.take count
    forgotten := []
    unlisted := (adv.host.ble.bonds.drop count).map Bond.addr }

/-- `refresh_whitelist` -/
def refreshWhitelist (replies : AdvReplies) (adv : Advertiser) : Advertiser :=
  if replies.bondsListed = true ∧ adv.host.ble.bonds ≠ [] then
    match replies.wlSet with
    | .written => adv.writeList adv.host.ble.bonds.length
    | .refused => adv
    | .broken count => adv.writeList count
  else adv

/-- `ble_gap_ext_adv_remove` and what follows it, the return of each error included. -/
def airInstance (replies : AdvReplies) (counted : List Bond) (adv : Advertiser) : Advertiser :=
  let adv := if replies.advRemove then { adv with hidInstance := none, onAir := false } else adv
  if replies.advConfigure then
    let adv := { adv with hidInstance := some { strict := adv.filterStrict, counted := counted } }
    if replies.pkthdr && replies.append && replies.advSetData && replies.advStart then
      { adv with advertising := true, onAir := true, refused := false }
    else { adv with refused := !adv.onAir }
  else { adv with refused := !adv.onAir }

/-- `start_advertising`; `s_advertising` is set at its end alone. -/
def startAdvertising (adv : Advertiser) : Advertiser :=
  if stack.setFields adv.fields advBufSize then
    let replies := stack.replies adv
    let strict := adv.shouldBeStrict stack
    let filtered := { adv with filterStrict := strict }
    (if strict then filtered.refreshWhitelist replies else filtered).airInstance replies
      (adv.countBonds stack)
  else adv

/-- `s_advertising` is cleared and `ble_gap_ext_adv_stop` called. -/
def stopAdvertising (adv : Advertiser) : Advertiser := { adv with advertising := false, onAir := false }

/-- `schedule_adv_restart` -/
def scheduleAdvRestart (adv : Advertiser) : Advertiser :=
  if adv.restartTimer = .absent ∧ stack.createTimer adv = false then { adv with refused := true }
  else { adv with restartTimer := .pending }

/-- `adv_restart_cb` -/
def advRestartCb (adv : Advertiser) : Advertiser :=
  { adv with restartTimer := .stopped, advertising := false }.startAdvertising stack

/-- The end of `dd_ble_pairing_cancel`. -/
def closeWindow (before : BleHost) (adv : Advertiser) : Advertiser :=
  if before.ble.pairingUntilUs ≠ 0 then adv.stopAdvertising.scheduleAdvRestart stack else adv

/-- What an event of the host does to the advertising, the host itself being past it. -/
def respond (before : BleHost) (adv : Advertiser) : HostEvent → Advertiser
  | .gap .connectFailed => adv.scheduleAdvRestart stack
  | .gap (.disconnect _ _) => adv.scheduleAdvRestart stack
  -- a connection ends the advertising and is followed by this event
  | .gap .advComplete => { adv with onAir := false }.scheduleAdvRestart stack
  | .gap (.encChange _ 0) => (adv.closeWindow stack before).scheduleAdvRestart stack
  -- the advertising goes on with the list it has
  | .gap (.repeatPairing handle) =>
      { adv with forgotten := (before.connFind handle).toList ++ adv.forgotten }
  | .bonded bond => { adv with unlisted := bond.addr :: adv.unlisted }
  | .pairingStart _ => adv.stopAdvertising.startAdvertising stack
  | .pairingCancel => adv.closeWindow stack before
  | .pairingExpire =>
      if before.ble.pairingUntilUs ≠ 0 ∧ before.ble.pairingUntilUs ≤ before.ble.clockUs then
        adv.stopAdvertising.startAdvertising stack
      else adv
  | .outside (.revoke addr true) _ =>
      if (before.ble.bondAddrLookup addr).isSome then
        { adv with forgotten := addr :: adv.forgotten }.stopAdvertising.startAdvertising stack
      else adv
  -- `on_sync` whose address calls succeed
  | .outside .hostSync _ => adv.startAdvertising stack
  | _ => adv

/-- `dd_ble_set_device_name` -/
def setDeviceName (name : Bytes) (adv : Advertiser) : Advertiser :=
  if cstr name = [] ∨ ddDeviceNameMax ≤ (cstr name).length then adv
  else { adv with deviceName := cstr name }.stopAdvertising.startAdvertising stack

def perform (radio : Radio) (adv : Advertiser) : AdvEvent → Advertiser
  | .host event => { adv with host := adv.host.perform radio event }.respond stack adv.host event
  | .advRestart => adv.advRestartCb stack
  | .hostReset =>
      { adv with
        advertising := false, whitelist := [], hidInstance := none, onAir := false
        forgotten := [], unlisted := adv.host.ble.bonds.map Bond.addr }
  | .setDeviceName name => adv.setDeviceName stack name

def wait (adv : Advertiser) (elapsedUs : Nat) : Advertiser := { adv with host := adv.host.wait elapsedUs }

end Advertiser

/-- An event after some time without one. -/
structure AdvAction where
  elapsedUs : Nat
  event : AdvEvent

namespace Advertiser

def step (radio : Radio) (stack : AdvStack) (adv : Advertiser) (action : AdvAction) : Advertiser :=
  (adv.wait action.elapsedUs).perform stack radio action.event

/-- Time stops at the end of a window until the expiry timer's callback has run. -/
def OnTime (adv : Advertiser) (action : AdvAction) : Prop :=
  adv.host.ble.pairingUntilUs ≠ 0 →
    adv.host.ble.clockUs + action.elapsedUs ≤ adv.host.ble.pairingUntilUs

instance (adv : Advertiser) (action : AdvAction) : Decidable (adv.OnTime action) :=
  inferInstanceAs (Decidable (_ → _))

/-- The controller lets the peer connect. -/
def Admits (adv : Advertiser) (peer : Addr) : Prop :=
  adv.onAir = true ∧ ∃ hid ∈ adv.hidInstance,
    hid.strict = false ∨ ∃ bond ∈ adv.whitelist, bond.addr = peer

end Advertiser

namespace BleHost

variable {host : BleHost}

theorem window_gap (radio : Radio) {gap : GapEvent} (unencrypted : ∀ handle, gap ≠ .encChange handle 0) :
    (host.gapEventCb gap).2.ble.pairingUntilUs = host.ble.pairingUntilUs := by
  rcases perform_window radio host (.gap gap) with ⟨_, started, _⟩ | ⟨_, _, cause⟩ | ⟨kept, _⟩
  · cases started
  · rcases cause with cancelled | ⟨handle, encrypted⟩ | ⟨expired, _⟩
    · cases cancelled
    · exact absurd (HostEvent.gap.inj encrypted) (unencrypted handle)
    · cases expired
  · exact kept

/-- Only a revocation that finds and deletes the peer's bond takes one. -/
theorem bonds_outside_kept (radio : Radio) (ble : Ble) {event : BleEvent}
    (outside : event.outside = true)
    (unrevoked : ∀ addr, event = .revoke addr true → (ble.bondAddrLookup addr).isSome = false) :
    (ble.perform radio event).bonds = ble.bonds := by
  have bonds {next first : Ble} (same : next.environment = first.environment) :
      next.bonds = first.bonds := (Ble.environment_eq.mp same).2.2.1
  cases event with
  | adv addr => exact bonds (ble.environment_presenceSeenAddr addr)
  | tick => exact bonds (ble.environment_presenceTickCb radio)
  | probeUp connect handle => exact (bonds (Ble.environment_probeConnected _ _ _)).trans rfl
  | linkDown link =>
      obtain ⟨handle, peer, owner⟩ := link
      cases owner with
      | none => cases outside
      | some index => exact (bonds (Ble.environment_probeDisconnected _ _ _)).trans rfl
  | hostSync => exact bonds ble.environment_presencePreallocateBonded
  | revoke addr deleted =>
      rw [Ble.perform, Ble.bondRevoke]
      cases found : ble.bondAddrLookup addr with
      | none => rfl
      | some bond =>
          cases deleted with
          | false => rfl
          | true => exact absurd (unrevoked addr rfl) (by simp [found])
  | probeDown | synced | unsynced | wipe | setTimeout | scanRestart => rfl
  | hidUp | pairingStart | pairingCancel | bondStore | encChange => cases outside

end BleHost

namespace Advertiser

section Filter

/-- The accept list is the bond store, but for what changed since it was written. -/
structure Listed (adv : Advertiser) : Prop where
  known : ∀ bond ∈ adv.whitelist, adv.host.Bonded bond.addr ∨ bond.addr ∈ adv.forgotten
  complete : ∀ peer, adv.host.Bonded peer →
    (∃ bond ∈ adv.whitelist, bond.addr = peer) ∨ peer ∈ adv.unlisted

/-- What is on air is open for a window or for want of bonds; the list is kept, on the air
and off it. -/
structure Filtered (adv : Advertiser) : Prop where
  configured : adv.onAir = true → adv.hidInstance ≠ none
  opened : adv.onAir = true → ∀ hid ∈ adv.hidInstance, hid.strict = false →
    adv.host.ble.pairingUntilUs ≠ 0 ∨ hid.counted = []
  listed : adv.Listed

variable {adv : Advertiser} {stack : AdvStack}

theorem Filtered.offAir (silent : adv.onAir = false) (listed : adv.Listed) : adv.Filtered := by
  refine ⟨fun live => ?_, fun live => ?_, listed⟩ <;>
    · rw [silent] at live
      cases live

theorem Listed.writeList (count : Nat) : (adv.writeList count).Listed := by
  constructor
  · exact fun bond member => .inl ⟨bond, List.mem_of_mem_take member, rfl⟩
  · rintro peer ⟨bond, member, rfl⟩
    have parts := List.take_append_drop count adv.host.ble.bonds
    rcases List.mem_append.mp (parts.symm ▸ member) with listed | left
    · exact .inl ⟨bond, listed, rfl⟩
    · exact .inr (List.mem_map_of_mem left)

theorem Listed.refreshWhitelist (listed : adv.Listed) (replies : AdvReplies) :
    (adv.refreshWhitelist replies).Listed := by
  rw [Advertiser.refreshWhitelist]
  split_ifs
  · split
    · exact .writeList _
    · exact listed
    · exact .writeList _
  · exact listed

theorem Filtered.airInstance {replies : AdvReplies} {counted : List Bond} (filtered : adv.Filtered)
    (justified : adv.filterStrict = false → adv.host.ble.pairingUntilUs ≠ 0 ∨ counted = []) :
    (adv.airInstance replies counted).Filtered := by
  rw [Advertiser.airInstance]
  have kept := filtered.listed
  have fresh (live shown refused : Bool) :
      Filtered { adv with
        hidInstance := some ⟨adv.filterStrict, counted⟩
        advertising := shown, onAir := live, refused := refused } := by
    refine ⟨fun _ => by simp, fun _ hid member => ?_, ⟨kept.known, kept.complete⟩⟩
    obtain rfl := Option.mem_some.mp member
    exact justified
  have unmade (hid : Option AdvInstance) (refused : Bool) :
      Filtered { adv with hidInstance := hid, onAir := false, refused := refused } :=
    .offAir rfl ⟨kept.known, kept.complete⟩
  split_ifs <;>
    first
      | exact fresh _ _ _
      | exact unmade _ _
      | exact ⟨filtered.configured, filtered.opened, ⟨kept.known, kept.complete⟩⟩

theorem Filtered.startAdvertising (filtered : adv.Filtered) :
    (adv.startAdvertising stack).Filtered := by
  rw [Advertiser.startAdvertising]
  by_cases packed : stack.setFields adv.fields advBufSize = true
  · rw [if_pos packed]
    dsimp only
    have kept := filtered.listed
    cases strict : adv.shouldBeStrict stack with
    | true =>
        rw [if_pos rfl]
        have listed : Listed { adv with filterStrict := true } := ⟨kept.known, kept.complete⟩
        have shape (replies : AdvReplies) : ∃ whitelist forgotten unlisted,
            Advertiser.refreshWhitelist replies { adv with filterStrict := true } =
              { adv with
                filterStrict := true, whitelist := whitelist, forgotten := forgotten
                unlisted := unlisted } := by
          rw [Advertiser.refreshWhitelist]
          split_ifs
          · split <;> exact ⟨_, _, _, rfl⟩
          · exact ⟨_, _, _, rfl⟩
        have refreshed := listed.refreshWhitelist (stack.replies adv)
        obtain ⟨whitelist, forgotten, unlisted, same⟩ := shape (stack.replies adv)
        rw [same] at refreshed ⊢
        exact .airInstance ⟨filtered.configured, filtered.opened, refreshed⟩ fun loose => by cases loose
    | false =>
        refine .airInstance ⟨filtered.configured, filtered.opened, ⟨kept.known, kept.complete⟩⟩
          fun _ => ?_
        rw [shouldBeStrict] at strict
        split_ifs at strict with active
        · refine .inl ?_
          rw [Ble.pairingActive, decide_eq_true_iff] at active
          exact Nat.ne_zero_of_lt active
        · exact .inr (by simpa using strict)
  · rw [if_neg packed]
    exact filtered

/-- The host goes on, and what changes in its bond store is written down. -/
theorem Listed.moved {next : BleHost} {forgotten unlisted : List Addr} (listed : adv.Listed)
    (gone : ∀ peer, adv.host.Bonded peer → next.Bonded peer ∨ peer ∈ forgotten)
    (come : ∀ peer, next.Bonded peer → adv.host.Bonded peer ∨ peer ∈ unlisted)
    (stillForgotten : adv.forgotten ⊆ forgotten) (stillUnlisted : adv.unlisted ⊆ unlisted) :
    Listed { adv with host := next, forgotten := forgotten, unlisted := unlisted } := by
  constructor
  · intro bond member
    rcases listed.known bond member with bonded | old
    · exact gone _ bonded
    · exact .inr (stillForgotten old)
  · intro peer bonded
    rcases come peer bonded with before | new
    · exact (listed.complete peer before).imp id fun old => stillUnlisted old
    · exact .inr new

theorem Listed.quiet {next : BleHost} (listed : adv.Listed)
    (bonds : next.ble.bonds = adv.host.ble.bonds) : Listed { adv with host := next } := by
  have same (peer : Addr) : next.Bonded peer ↔ adv.host.Bonded peer := by
    rw [BleHost.Bonded, BleHost.Bonded, bonds]
  exact listed.moved (fun peer bonded => .inl ((same peer).mpr bonded))
    (fun peer bonded => .inl ((same peer).mp bonded)) (List.Subset.refl _) (List.Subset.refl _)

theorem Filtered.moved {next : BleHost} {forgotten unlisted : List Addr} (filtered : adv.Filtered)
    (window : next.ble.pairingUntilUs = adv.host.ble.pairingUntilUs)
    (listed : Listed { adv with host := next, forgotten := forgotten, unlisted := unlisted }) :
    Filtered { adv with host := next, forgotten := forgotten, unlisted := unlisted } :=
  ⟨filtered.configured, fun live hid member strict =>
    (filtered.opened live hid member strict).imp (fun set => window.trans_ne set) id, listed⟩

/-- The host goes on and keeps window and bonds. -/
theorem Filtered.quiet {next : BleHost} (filtered : adv.Filtered)
    (window : next.ble.pairingUntilUs = adv.host.ble.pairingUntilUs)
    (bonds : next.ble.bonds = adv.host.ble.bonds) : Filtered { adv with host := next } :=
  filtered.moved window (filtered.listed.quiet bonds)

theorem Filtered.scheduleAdvRestart (filtered : adv.Filtered) :
    (adv.scheduleAdvRestart stack).Filtered := by
  have kept := filtered.listed
  rw [Advertiser.scheduleAdvRestart]
  split_ifs <;> exact ⟨filtered.configured, filtered.opened, ⟨kept.known, kept.complete⟩⟩

theorem Filtered.advComplete (listed : adv.Listed) : Filtered { adv with onAir := false } :=
  .offAir rfl ⟨listed.known, listed.complete⟩

theorem Filtered.stopped (listed : adv.Listed) : adv.stopAdvertising.Filtered :=
  .offAir rfl ⟨listed.known, listed.complete⟩

theorem Filtered.closeWindow {before next : BleHost} (filtered : adv.Filtered)
    (same : before = adv.host) (bonds : next.ble.bonds = before.ble.bonds)
    (closed : next.ble.pairingUntilUs = 0) :
    (Advertiser.closeWindow stack before { adv with host := next }).Filtered := by
  subst same
  rw [Advertiser.closeWindow]
  split_ifs with set
  · exact (Filtered.stopped (filtered.listed.quiet bonds)).scheduleAdvRestart
  · exact filtered.quiet (closed.trans (not_ne_iff.mp set).symm) bonds

theorem Filtered.gap (radio : Radio) (filtered : adv.Filtered) (gap : GapEvent) :
    (adv.perform stack radio (.host (.gap gap))).Filtered := by
  have quiet (unencrypted : ∀ handle, gap ≠ .encChange handle 0)
      (unrepeated : ∀ handle, gap ≠ .repeatPairing handle) :
      Filtered { adv with host := adv.host.perform radio (.gap gap) } :=
    filtered.quiet (BleHost.window_gap radio unencrypted)
      (BleHost.bonds_gapEventCb fun handle _ isRepeat => absurd isRepeat (unrepeated handle))
  cases gap with
  | connectFailed => exact (quiet (by simp) (by simp)).scheduleAdvRestart
  | disconnect handle peer => exact (quiet (by simp) (by simp)).scheduleAdvRestart
  | advComplete =>
      have kept := (quiet (by simp) (by simp)).listed
      exact (Filtered.advComplete kept).scheduleAdvRestart
  | encChange handle status =>
      cases status with
      | zero =>
          refine Filtered.scheduleAdvRestart (filtered.closeWindow rfl ?_ ?_)
          · exact BleHost.bonds_gapEventCb fun _ _ isRepeat => by cases isRepeat
          · rw [BleHost.perform_seen]
            rfl
      | succ status => exact quiet (by simp) (by simp)
  | repeatPairing handle =>
      refine filtered.moved (BleHost.window_gap radio (by simp)) (filtered.listed.moved
        (fun peer bonded => ?_) (fun peer bonded => .inl ?_) (List.subset_append_right _ _)
        (List.Subset.refl _))
      · obtain ⟨bond, member, rfl⟩ := bonded
        by_cases taken : adv.host.connFind handle = some bond.addr
        · exact .inr (by simp [taken])
        · refine .inl ⟨bond, ?_, rfl⟩
          rw [BleHost.perform, ble_repeatPairing]
          exact List.mem_filter.mpr ⟨member, decide_eq_true taken⟩
      · obtain ⟨bond, member, rfl⟩ := bonded
        rw [BleHost.perform, ble_repeatPairing] at member
        exact ⟨bond, (List.mem_filter.mp member).1, rfl⟩
  | connect | connUpdate | subscribe | passkeyAction | other => exact quiet (by simp) (by simp)

theorem Filtered.restarted (listed : adv.Listed) :
    (adv.stopAdvertising.startAdvertising stack).Filtered :=
  (Filtered.stopped listed).startAdvertising

/-- A revocation takes the bond of the address alone. -/
theorem Listed.revoked (radio : Radio) (listed : adv.Listed) (addr : Addr)
    (outside : BleEvent.outside (.revoke addr true) = true)
    (found : (adv.host.ble.bondAddrLookup addr).isSome = true) :
    Listed { adv with
      host := adv.host.perform radio (.outside (.revoke addr true) outside)
      forgotten := addr :: adv.forgotten } := by
  have bonds : (adv.host.perform radio (.outside (.revoke addr true) outside)).ble.bonds =
      adv.host.ble.bonds.filter fun bond => bond.addr ≠ addr := by
    obtain ⟨bond, known⟩ := Option.isSome_iff_exists.mp found
    rw [BleHost.perform, Ble.perform, Ble.bondRevoke, known]
    simp only [if_true]
    split <;> rfl
  refine listed.moved (fun peer bonded => ?_) (fun peer bonded => .inl ?_)
    (List.subset_cons_self _ _) (List.Subset.refl _)
  · obtain ⟨bond, member, rfl⟩ := bonded
    by_cases same : bond.addr = addr
    · exact .inr (by simp [same])
    · exact .inl ⟨bond, by simp [bonds, member, same], rfl⟩
  · obtain ⟨bond, member, rfl⟩ := bonded
    rw [bonds] at member
    exact ⟨bond, (List.mem_filter.mp member).1, rfl⟩

theorem Filtered.outside (radio : Radio) (filtered : adv.Filtered) (event : BleEvent) (outside : event.outside = true) :
    (adv.perform stack radio (.host (.outside event outside))).Filtered := by
  have quiet (unrevoked : ∀ addr, event = .revoke addr true →
      (adv.host.ble.bondAddrLookup addr).isSome = false) :
      Filtered { adv with host := adv.host.perform radio (.outside event outside) } :=
    filtered.quiet (window_outside radio adv.host.ble outside)
      (BleHost.bonds_outside_kept radio adv.host.ble outside unrevoked)
  cases event with
  | revoke addr deleted =>
      cases deleted with
      | false => exact quiet (by simp)
      | true =>
          rw [perform, respond]
          split_ifs with found
          · have revoked := filtered.listed.revoked radio addr outside found
            exact .restarted revoked
          · refine quiet fun other same => ?_
            cases same
            rwa [Bool.not_eq_true] at found
  | hostSync => exact (quiet (by simp)).startAdvertising
  | adv | tick | probeUp | probeDown | linkDown | synced | unsynced | wipe | setTimeout
  | scanRestart => exact quiet (by simp)
  | hidUp | pairingStart | pairingCancel | bondStore | encChange => cases outside

theorem Filtered.perform (radio : Radio) (filtered : adv.Filtered) (event : AdvEvent) : (adv.perform stack radio event).Filtered := by
  cases event with
  | host event =>
      cases event with
      | gap gap => exact filtered.gap radio gap
      | outside event outside => exact filtered.outside radio event outside
      | bonded bond =>
          refine filtered.moved rfl (filtered.listed.moved (fun peer bonded => .inl bonded.storeBond)
            (fun peer bonded => ?_) (List.Subset.refl _) (List.subset_cons_self _ _))
          obtain ⟨kept, member, rfl⟩ := bonded
          rcases List.mem_append.mp member with old | new
          · exact .inl ⟨kept, (List.mem_filter.mp old).1, rfl⟩
          · rw [List.mem_singleton.mp new]
            exact .inr List.mem_cons_self
      | pairingStart ttlMs =>
          refine .restarted (filtered.listed.quiet ?_)
          rw [BleHost.perform_seen]
          rfl
      | pairingCancel =>
          refine filtered.closeWindow rfl ?_ ?_ <;>
            · rw [BleHost.perform_seen]
              rfl
      | pairingExpire =>
          rw [Advertiser.perform, respond]
          split_ifs with due
          · refine .restarted (filtered.listed.quiet ?_)
            rw [BleHost.perform, BleHost.pairingExpire, if_pos due, ble_clearNumcmpPending]
            rfl
          · have same : adv.host.perform radio .pairingExpire = adv.host := by
              rw [BleHost.perform, BleHost.pairingExpire, if_neg due]
            exact filtered.quiet (by rw [same]) (by rw [same])
      | pairingConfirm accept =>
          refine filtered.quiet ?_ ?_ <;>
            · rw [BleHost.perform_seen]
              rfl
  | advRestart =>
      have kept := filtered.listed
      exact Filtered.startAdvertising
        ⟨filtered.configured, filtered.opened, ⟨kept.known, kept.complete⟩⟩
  | hostReset =>
      refine .offAir rfl ⟨by simp [Advertiser.perform], ?_⟩
      rintro peer ⟨bond, member, rfl⟩
      exact .inr (List.mem_map_of_mem member)
  | setDeviceName name =>
      rw [Advertiser.perform, setDeviceName]
      split_ifs
      · exact filtered
      · have kept := filtered.listed
        have named : Listed { adv with deviceName := cstr name } := ⟨kept.known, kept.complete⟩
        exact .restarted named

theorem Filtered.wait (filtered : adv.Filtered) (elapsedUs : Nat) : (adv.wait elapsedUs).Filtered :=
  filtered.quiet rfl rfl

end Filter

section Window

variable {adv : Advertiser} {stack : AdvStack}

@[simp] theorem host_airInstance (replies : AdvReplies) (counted : List Bond) (adv : Advertiser) :
    (adv.airInstance replies counted).host = adv.host := by
  rw [airInstance]
  split_ifs <;> rfl

@[simp] theorem host_refreshWhitelist (replies : AdvReplies) :
    (adv.refreshWhitelist replies).host = adv.host := by
  rw [refreshWhitelist]
  split_ifs
  · split <;> rfl
  · rfl

@[simp] theorem host_startAdvertising : (adv.startAdvertising stack).host = adv.host := by
  rw [startAdvertising]
  split_ifs
  · dsimp only
    rw [host_airInstance]
    split_ifs
    · exact host_refreshWhitelist _
    · rfl
  · rfl

@[simp] theorem host_scheduleAdvRestart : (adv.scheduleAdvRestart stack).host = adv.host := by
  rw [scheduleAdvRestart]
  split_ifs <;> rfl

@[simp] theorem host_stopAdvertising : adv.stopAdvertising.host = adv.host := rfl

@[simp] theorem host_closeWindow (before : BleHost) :
    (adv.closeWindow stack before).host = adv.host := by
  rw [closeWindow]
  split_ifs <;> simp

theorem host_respond (before : BleHost) (event : HostEvent) :
    (adv.respond stack before event).host = adv.host := by
  rw [respond.eq_def]
  split <;> first | rfl | (split_ifs <;> simp) | simp

/-- A window that is set has not been over for any time. -/
def InWindow (adv : Advertiser) : Prop :=
  adv.host.ble.pairingUntilUs ≠ 0 → adv.host.ble.clockUs ≤ adv.host.ble.pairingUntilUs

theorem host_perform (radio : Radio) (event : AdvEvent) :
    (adv.perform stack radio event).host = adv.host ∨
      ∃ inner, (adv.perform stack radio event).host = adv.host.perform radio inner := by
  cases event with
  | host event => exact .inr ⟨event, host_respond _ _⟩
  | advRestart => exact .inl host_startAdvertising
  | hostReset => exact .inl rfl
  | setDeviceName name =>
      refine .inl ?_
      rw [perform, setDeviceName]
      split_ifs <;> simp

/-- A window starts with some time before it, and is as it was or closed after any other
event. -/
theorem InWindow.step (radio : Radio) {action : AdvAction} (onTime : adv.OnTime action) :
    (adv.step radio stack action).InWindow := by
  have waited : (adv.wait action.elapsedUs).InWindow := onTime
  rw [Advertiser.step]
  generalize adv.wait action.elapsedUs = adv at waited
  rcases host_perform radio action.event with same | ⟨inner, same⟩ <;> rw [InWindow, same]
  · exact waited
  · have clock : (adv.host.perform radio inner).ble.clockUs = adv.host.ble.clockUs := by
      rw [BleHost.perform_seen, Ble.clockUs_perform]
    rcases BleHost.perform_window radio adv.host inner with
      ⟨ttlMs, _, deadline⟩ | ⟨closed, _⟩ | ⟨kept, _⟩
    · intro _
      rw [deadline, clock, PairingWindow.endUs, PairingWindow.opened]
      exact Nat.le_add_right _ _
    · exact fun set => absurd closed set
    · rw [kept, clock]
      exact waited

end Window

end Advertiser

open Advertiser

/-- The host comes up, and a phone pairs in a window. -/
def phonePairs : List AdvAction :=
  [⟨1000000, .host (.outside .hostSync rfl)⟩, ⟨1000000, .host (.pairingStart 30000)⟩,
    ⟨1000000, .host (.gap (.connect 1 phone))⟩, ⟨1000, .host (.gap .advComplete)⟩,
    ⟨50000, .advRestart⟩, ⟨1000000, .host (.bonded ⟨phone, .publicId⟩)⟩,
    ⟨1000, .host (.gap (.encChange 1 0))⟩, ⟨100000, .advRestart⟩]

namespace Advertiser

section Airtime

variable {adv mid : Advertiser} {stack : AdvStack}

/-- The longest name whose packet fits. -/
def advNameMax : Nat := 18

/-- The name is the same, and nothing that was off is on. -/
structure Tamer (mid adv : Advertiser) : Prop where
  deviceName : mid.deviceName = adv.deviceName
  onAir : mid.onAir = true → adv.onAir = true
  advertising : mid.advertising = true → adv.advertising = true

theorem Tamer.refl (adv : Advertiser) : Tamer adv adv := ⟨rfl, id, id⟩

theorem Tamer.stopped : Tamer adv.stopAdvertising adv := by
  refine ⟨rfl, fun live => ?_, fun shown => ?_⟩
  · cases live
  · cases shown

theorem Tamer.scheduled (tamer : Tamer mid adv) : Tamer (mid.scheduleAdvRestart stack) adv := by
  rw [scheduleAdvRestart]
  split_ifs <;> exact ⟨tamer.deviceName, tamer.onAir, tamer.advertising⟩

theorem Tamer.closed (before : BleHost) : Tamer (adv.closeWindow stack before) adv := by
  rw [closeWindow]
  split_ifs
  · exact Tamer.stopped.scheduled
  · exact .refl adv

/-- The last thing the advertising does at an event: nothing, a start or a schedule. -/
theorem respond_cases (stack : AdvStack) (before : BleHost) (adv : Advertiser) (event : HostEvent) :
    (∃ forgotten unlisted, adv.respond stack before event =
      { adv with forgotten := forgotten, unlisted := unlisted }) ∨
    (∃ mid, Tamer mid adv ∧ adv.respond stack before event = mid.startAdvertising stack) ∨
    ∃ mid, Tamer mid adv ∧ adv.respond stack before event = mid.scheduleAdvRestart stack := by
  have idle : ∃ forgotten unlisted,
      adv = { adv with forgotten := forgotten, unlisted := unlisted } :=
    ⟨adv.forgotten, adv.unlisted, rfl⟩
  cases event with
  | gap gap =>
      cases gap with
      | connectFailed => exact .inr (.inr ⟨adv, .refl adv, rfl⟩)
      | disconnect handle peer => exact .inr (.inr ⟨adv, .refl adv, rfl⟩)
      | advComplete =>
          refine .inr (.inr ⟨{ adv with onAir := false }, ⟨rfl, fun live => ?_, id⟩, rfl⟩)
          cases live
      | encChange handle status =>
          cases status with
          | zero => exact .inr (.inr ⟨_, .closed before, rfl⟩)
          | succ status => exact .inl idle
      | repeatPairing handle => exact .inl ⟨_, _, rfl⟩
      | connect | connUpdate | subscribe | passkeyAction | other => exact .inl idle
  | bonded bond => exact .inl ⟨_, _, rfl⟩
  | pairingStart ttlMs => exact .inr (.inl ⟨_, .stopped, rfl⟩)
  | pairingCancel =>
      rw [respond, closeWindow]
      split_ifs
      · exact .inr (.inr ⟨_, .stopped, rfl⟩)
      · exact .inl idle
  | pairingExpire =>
      rw [respond]
      split_ifs
      · exact .inr (.inl ⟨_, .stopped, rfl⟩)
      · exact .inl idle
  | pairingConfirm accept => exact .inl idle
  | outside event outside =>
      cases event with
      | revoke addr deleted =>
          cases deleted with
          | false => exact .inl idle
          | true =>
              rw [respond]
              split_ifs
              · refine .inr (.inl ⟨{ adv with forgotten := addr :: adv.forgotten }.stopAdvertising,
                  ⟨rfl, fun live => ?_, fun shown => ?_⟩, rfl⟩)
                · cases live
                · cases shown
              · exact .inl idle
      | hostSync => exact .inr (.inl ⟨adv, .refl adv, rfl⟩)
      | adv | tick | probeUp | probeDown | linkDown | synced | unsynced | wipe | setTimeout
      | scanRestart | hidUp | pairingStart | pairingCancel | bondStore | encChange =>
          exact .inl idle

/-- The same for every event of the advertising; a new name starts from silence. -/
theorem perform_cases (stack : AdvStack) (radio : Radio) (adv : Advertiser) (event : AdvEvent)
    (unreset : event ≠ .hostReset) :
    (∃ host forgotten unlisted, adv.perform stack radio event =
      { adv with host := host, forgotten := forgotten, unlisted := unlisted }) ∨
    (∃ mid, (Tamer mid adv ∨ mid.onAir = false ∧ mid.advertising = false) ∧
      adv.perform stack radio event = mid.startAdvertising stack) ∨
    ∃ mid, Tamer mid adv ∧ adv.perform stack radio event = mid.scheduleAdvRestart stack := by
  cases event with
  | host event =>
      have moved {mid : Advertiser}
          (tamer : Tamer mid { adv with host := adv.host.perform radio event }) : Tamer mid adv :=
        ⟨tamer.deviceName, tamer.onAir, tamer.advertising⟩
      rcases respond_cases stack adv.host { adv with host := adv.host.perform radio event } event with
        ⟨_, _, same⟩ | ⟨mid, tamer, same⟩ | ⟨mid, tamer, same⟩
      · exact .inl ⟨_, _, _, same⟩
      · exact .inr (.inl ⟨mid, .inl (moved tamer), same⟩)
      · exact .inr (.inr ⟨mid, moved tamer, same⟩)
  | advRestart =>
      refine .inr (.inl ⟨{ adv with restartTimer := .stopped, advertising := false },
        .inl ⟨rfl, id, fun shown => ?_⟩, rfl⟩)
      cases shown
  | hostReset => exact absurd rfl unreset
  | setDeviceName name =>
      rw [perform, setDeviceName]
      split_ifs
      · exact .inl ⟨_, _, _, rfl⟩
      · exact .inr (.inl ⟨_, .inr ⟨rfl, rfl⟩, rfl⟩)

/-- A name that does not fit is on no air. -/
def Silent (adv : Advertiser) : Prop :=
  advNameMax < adv.deviceName.length → adv.onAir = false ∧ adv.advertising = false

/-- A name that fits is on the air, or will be, or NimBLE refused it. -/
def Heard (adv : Advertiser) : Prop :=
  adv.deviceName.length ≤ advNameMax →
    adv.onAir = true ∨ adv.restartTimer = .pending ∨ adv.refused = true

theorem fields_size (adv : Advertiser) :
    adv.fields.size ≤ advBufSize ↔ adv.deviceName.length ≤ advNameMax := by
  simp only [AdvFields.size, fields, List.length_singleton, advBufSize, advNameMax]
  omega

theorem Tamer.silent (tamer : Tamer mid adv) (silent : adv.Silent) : mid.Silent := by
  intro long
  obtain ⟨offAir, hidden⟩ := silent (tamer.deviceName ▸ long)
  refine ⟨Bool.eq_false_iff.mpr fun live => ?_, Bool.eq_false_iff.mpr fun shown => ?_⟩
  · rw [tamer.onAir live] at offAir
    cases offAir
  · rw [tamer.advertising shown] at hidden
    cases hidden

@[simp] theorem deviceName_airInstance (replies : AdvReplies) (counted : List Bond) :
    (adv.airInstance replies counted).deviceName = adv.deviceName := by
  rw [airInstance]
  split_ifs <;> rfl

theorem deviceName_startAdvertising :
    (adv.startAdvertising stack).deviceName = adv.deviceName := by
  rw [startAdvertising]
  split_ifs
  · dsimp only
    rw [deviceName_airInstance, refreshWhitelist]
    split_ifs
    · split <;> rfl
    · rfl
    · rfl
  · rfl

theorem Silent.startAdvertising (sized : stack.Sized) (silent : adv.Silent) :
    (adv.startAdvertising stack).Silent := by
  rw [Advertiser.startAdvertising]
  by_cases packed : stack.setFields adv.fields advBufSize = true
  · intro long
    have same : (adv.startAdvertising stack).deviceName = adv.deviceName :=
      deviceName_startAdvertising
    rw [Advertiser.startAdvertising] at same
    rw [same] at long
    rw [sized, fields_size] at packed
    exact absurd long packed.not_gt
  · rw [if_neg packed]
    exact silent

/-- A start ends on the air or with a refusal that left the device off it. -/
theorem onAir_airInstance (replies : AdvReplies) (counted : List Bond) :
    (adv.airInstance replies counted).onAir = true ∨
      (adv.airInstance replies counted).refused = true := by
  rw [airInstance]
  cases live : adv.onAir <;> split_ifs <;> simp

theorem Heard.scheduleAdvRestart : (adv.scheduleAdvRestart stack).Heard := by
  intro _
  rw [Advertiser.scheduleAdvRestart]
  split_ifs
  · exact .inr (.inr rfl)
  · exact .inr (.inl rfl)

theorem Heard.startAdvertising (sized : stack.Sized) : (adv.startAdvertising stack).Heard := by
  intro fits
  rw [deviceName_startAdvertising] at fits
  rw [Advertiser.startAdvertising, if_pos ((sized _ _).mpr ((fields_size adv).mpr fits))]
  exact (onAir_airInstance _ _).imp id .inr

theorem Silent.step (radio : Radio) (sized : stack.Sized) (silent : adv.Silent)
    (action : AdvAction) : (adv.step radio stack action).Silent := by
  have waited : (adv.wait action.elapsedUs).Silent := silent
  rw [Advertiser.step]
  by_cases unreset : action.event ≠ .hostReset
  · rcases perform_cases stack radio (adv.wait action.elapsedUs) action.event unreset with
      ⟨_, _, _, same⟩ | ⟨mid, tamer | off, same⟩ | ⟨mid, tamer, same⟩ <;> rw [same]
    · exact waited
    · exact (tamer.silent waited).startAdvertising sized
    · exact Silent.startAdvertising sized fun _ => off
    · exact Tamer.silent (Tamer.refl mid).scheduled (tamer.silent waited)
  · rw [not_ne_iff] at unreset
    rw [unreset]
    exact fun _ => ⟨rfl, rfl⟩

theorem Heard.step (radio : Radio) (sized : stack.Sized) (heard : adv.Heard)
    {action : AdvAction} (unreset : action.event ≠ .hostReset) :
    (adv.step radio stack action).Heard := by
  have waited : (adv.wait action.elapsedUs).Heard := heard
  rw [Advertiser.step]
  rcases perform_cases stack radio (adv.wait action.elapsedUs) action.event unreset with
    ⟨_, _, _, same⟩ | ⟨mid, _, same⟩ | ⟨mid, _, same⟩ <;> rw [same]
  · exact waited
  · exact .startAdvertising sized
  · exact .scheduleAdvRestart

end Airtime

end Advertiser

theorem nimble_sized : AdvStack.nimble.Sized := fun _ _ => decide_eq_true_iff

/-- The longest name the page accepts. -/
def longName : Bytes := ascii "dingdong-front-door"

end LeanDingdong
