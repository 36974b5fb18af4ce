import Dingdong.BleSlots

/-!
The pairing side of `dd_ble.c`: the window, the pending numeric comparison and
`gap_event_cb` with every event it handles. NimBLE stores the keys of a pairing that
succeeds and removes none by itself; the HTTP calls and the expiry timer come between.
-/

namespace LeanDingdong

open Runs

/-- What the pairing code asks of NimBLE. -/
inductive StackCall where
  | injectIo (handle : Nat) (accept : Bool)
  | securityInitiate (handle : Nat)
  | deletePeer (peer : Addr)
  deriving DecidableEq

/-- The presence machine with the state of a pairing. -/
structure BleHost where
  ble : Ble
  /-- `s_pairing_numcmp` -/
  numcmp : Nat
  /-- `s_pairing_numcmp_handle` -/
  numcmpHandle : Nat
  /-- the newest call first -/
  stackCalls : List StackCall
  /-- who was bonded when the window was last opened -/
  wereBonded : List Addr

/-- The events delivered to `gap_event_cb`. -/
inductive GapEvent where
  /-- CONNECT with status 0 -/
  | connect (handle : Nat) (peer : Addr)
  | connectFailed
  | disconnect (handle : Nat) (peer : Addr)
  | advComplete
  | connUpdate
  | subscribe
  /-- the number to compare; `none` for any other passkey action -/
  | passkeyAction (handle : Nat) (numcmp : Option Nat)
  | encChange (handle status : Nat)
  | repeatPairing (handle : Nat)
  | other
  deriving DecidableEq

/-- What `gap_event_cb` returns. -/
inductive GapReply where
  | done
  | reject
  | retry
  | ignore
  deriving DecidableEq

/-- The event neither reaches `gap_event_cb` nor changes the bond store or the window,
a revocation apart. -/
def BleEvent.outside : BleEvent → Bool
  | .hidUp _ _ => false
  | .linkDown link => link.owner.isSome
  | .pairingStart _ => false
  | .pairingCancel => false
  | .bondStore _ => false
  | .encChange => false
  | _ => true

inductive HostEvent where
  | gap (event : GapEvent)
  /-- NimBLE stores the keys of a pairing -/
  | bonded (bond : Bond)
  | pairingStart (ttlMs : Int)
  | pairingCancel
  | pairingConfirm (accept : Bool)
  /-- the expiry timer fires -/
  | pairingExpire
  | outside (event : BleEvent) (outside : event.outside = true)

namespace BleHost

def boot (startUs : Nat) (timeout : PresenceTimeout) (log : List PeerEvent) : BleHost where
  ble := Ble.boot startUs timeout log
  numcmp := 0
  numcmpHandle := noHandle
  stackCalls := []
  wereBonded := []

/-- `ble_gap_conn_find` -/
def connFind (host : BleHost) (handle : Nat) : Option Addr :=
  (host.ble.links.find? fun link => link.handle = handle).map Link.peer

def call (host : BleHost) (made : StackCall) : BleHost :=
  { host with stackCalls := made :: host.stackCalls }

def clearNumcmpPending (rejectIfPending : Bool) (host : BleHost) : BleHost :=
  let host :=
    if host.numcmpHandle ≠ noHandle ∧ rejectIfPending then
      host.call (.injectIo host.numcmpHandle false)
    else host
  { host with numcmp := 0, numcmpHandle := noHandle }

/-- `on_pairing_expire` -/
def pairingExpire (host : BleHost) : BleHost :=
  if host.ble.pairingUntilUs ≠ 0 ∧ host.ble.pairingUntilUs ≤ host.ble.clockUs then
    clearNumcmpPending true { host with ble := host.ble.pairingCancel }
  else host

/-- `dd_ble_pairing_start` -/
def pairingStart (host : BleHost) (ttlMs : Int) : BleHost :=
  clearNumcmpPending false
    { host with ble := host.ble.pairingStart ttlMs, wereBonded := host.ble.bonds.map Bond.addr }

/-- `dd_ble_pairing_cancel` -/
def pairingCancel (host : BleHost) : BleHost :=
  clearNumcmpPending true { host with ble := host.ble.pairingCancel }

/-- `dd_ble_pairing_confirm` -/
def pairingConfirm (host : BleHost) (accept : Bool) : BleHost :=
  if host.numcmpHandle = noHandle then host
  else
    { host.call (.injectIo host.numcmpHandle accept) with numcmp := 0, numcmpHandle := noHandle }

/-- The record of the peer leaves NimBLE's store. -/
def deletePeer (host : BleHost) (peer : Addr) : BleHost :=
  { host.call (.deletePeer peer) with
    ble := { host.ble with bonds := host.ble.bonds.filter fun bond => bond.addr ≠ peer } }

def gapEventCb (host : BleHost) : GapEvent → GapReply × BleHost
  | .connect handle peer =>
      let host := { host with ble := host.ble.linkUp ⟨handle, peer, none⟩ }
      let host := if host.ble.pairingActive then host.call (.securityInitiate handle) else host
      (.done, { host with ble := host.ble.gapConnected peer })
  | .disconnect handle peer =>
      (.done, { host with ble := (host.ble.linkDown ⟨handle, peer, none⟩).gapDisconnected peer })
  | .passkeyAction handle (some numcmp) =>
      if host.ble.pairingActive then
        let host := { host with numcmp := numcmp, numcmpHandle := handle }
        (.done, host.call (.injectIo handle true))
      else (.done, host.call (.injectIo handle false))
  | .passkeyAction _ none => (.reject, host)
  | .encChange _ status =>
      -- a new pairing and the encryption of an old bond come alike
      if status = 0 then
        (.done, pairingCancel { host with ble := host.ble.presencePreallocateBonded })
      else (.done, host)
  | .repeatPairing handle =>
      -- the record goes before the window is looked at
      let host := match host.connFind handle with
        | some peer => host.deletePeer peer
        | none => host
      (if host.ble.pairingActive then .retry else .ignore, host)
  | .connectFailed => (.done, host)
  | .advComplete => (.done, host)
  | .connUpdate => (.done, host)
  | .subscribe => (.done, host)
  | .other => (.done, host)

/-- NimBLE's store after the keys of a pairing are written. -/
def storeBond (host : BleHost) (bond : Bond) : List Bond :=
  (host.ble.bonds.filter fun other => other.addr ≠ bond.addr) ++ [bond]

def perform (radio : Radio) (host : BleHost) : HostEvent → BleHost
  | .gap event => (host.gapEventCb event).2
  | .bonded bond => { host with ble := { host.ble with bonds := host.storeBond bond } }
  | .pairingStart ttlMs => host.pairingStart ttlMs
  | .pairingCancel => host.pairingCancel
  | .pairingConfirm accept => host.pairingConfirm accept
  | .pairingExpire => host.pairingExpire
  | .outside event _ => { host with ble := host.ble.perform radio event }

def wait (host : BleHost) (elapsedUs : Nat) : BleHost := { host with ble := host.ble.wait elapsedUs }

end BleHost

/-- An event after some time without one. -/
structure HostAction where
  elapsedUs : Nat
  event : HostEvent

def BleHost.step (radio : Radio) (host : BleHost) (action : HostAction) : BleHost :=
  (host.wait action.elapsedUs).perform radio action.event

/-- The guard of an event, in the state the event finds. -/
def BleHost.Meets (guard : BleHost → HostEvent → Prop) (host : BleHost) (action : HostAction) :
    Prop :=
  guard (host.wait action.elapsedUs) action.event

section Presence

/-- What the presence machine sees of an event; a `bondStore` with the bonds it has
stands for nothing. -/
def BleHost.seen (host : BleHost) : HostEvent → BleEvent
  | .gap (.connect handle peer) => .hidUp handle peer
  | .gap (.disconnect handle peer) => .linkDown ⟨handle, peer, none⟩
  | .gap (.encChange _ 0) => .encChange
  | .gap event => .bondStore (host.gapEventCb event).2.ble.bonds
  | .bonded bond => .bondStore (host.storeBond bond)
  | .pairingStart ttlMs => .pairingStart ttlMs
  | .pairingCancel => .pairingCancel
  | .pairingConfirm _ => .bondStore host.ble.bonds
  | .pairingExpire =>
      if host.ble.pairingUntilUs ≠ 0 ∧ host.ble.pairingUntilUs ≤ host.ble.clockUs then .pairingCancel
      else .bondStore host.ble.bonds
  | .outside event _ => event

variable {host : BleHost} {handle status : Nat} {peer : Addr}

@[simp] theorem ble_clearNumcmpPending (reject : Bool) (host : BleHost) :
    (BleHost.clearNumcmpPending reject host).ble = host.ble := by
  rw [BleHost.clearNumcmpPending]
  split_ifs <;> rfl

@[simp] theorem ble_pairingCancel (host : BleHost) :
    host.pairingCancel.ble = host.ble.pairingCancel := by
  rw [BleHost.pairingCancel, ble_clearNumcmpPending]

theorem ble_connect :
    (host.gapEventCb (.connect handle peer)).2.ble =
      (host.ble.linkUp ⟨handle, peer, none⟩).gapConnected peer := by
  simp only [BleHost.gapEventCb]
  split_ifs <;> rfl

theorem ble_encChange (status : Nat) :
    (host.gapEventCb (.encChange handle status)).2.ble =
      if status = 0 then host.ble.presencePreallocateBonded.pairingCancel else host.ble := by
  rw [BleHost.gapEventCb]
  split_ifs
  · rw [ble_pairingCancel]
  · rfl

theorem ble_repeatPairing :
    (host.gapEventCb (.repeatPairing handle)).2.ble =
      { host.ble with
        bonds := host.ble.bonds.filter fun bond => host.connFind handle ≠ some bond.addr } := by
  simp only [BleHost.gapEventCb]
  cases host.connFind handle with
  | none => simp
  | some peer => simp [BleHost.deletePeer, BleHost.call, eq_comm]

theorem ble_passkeyAction (numcmp : Option Nat) :
    (host.gapEventCb (.passkeyAction handle numcmp)).2.ble = host.ble := by
  cases numcmp with
  | none => rfl
  | some numcmp =>
      simp only [BleHost.gapEventCb]
      split_ifs <;> rfl

/-- The presence machine of a host takes the steps of the presence machine alone. -/
theorem BleHost.perform_seen (radio : Radio) (host : BleHost) (event : HostEvent) :
    (host.perform radio event).ble = host.ble.perform radio (host.seen event) := by
  cases event with
  | gap event =>
      cases event with
      | connect handle peer => exact ble_connect
      | disconnect handle peer => rfl
      | encChange handle status =>
          rw [BleHost.perform, ble_encChange]
          cases status with
          | zero => rfl
          | succ status => rfl
      | repeatPairing handle =>
          simp only [BleHost.perform, BleHost.seen, ble_repeatPairing]
          rfl
      | passkeyAction handle numcmp =>
          simp only [BleHost.perform, BleHost.seen, ble_passkeyAction]
          rfl
      | connectFailed | advComplete | connUpdate | subscribe | other => rfl
  | bonded bond => rfl
  | pairingStart ttlMs => exact ble_clearNumcmpPending _ _
  | pairingCancel => exact ble_pairingCancel host
  | pairingConfirm accept =>
      simp only [BleHost.perform, BleHost.pairingConfirm]
      split_ifs <;> rfl
  | pairingExpire =>
      rw [BleHost.perform, BleHost.pairingExpire, BleHost.seen]
      split_ifs
      · exact ble_clearNumcmpPending _ _
      · rfl
  | outside event outside => rfl

theorem window_outside (radio : Radio) (ble : Ble) {event : BleEvent}
    (outside : event.outside = true) :
    (ble.perform radio event).pairingUntilUs = ble.pairingUntilUs := by
  have window {first second : Ble} (same : first.environment = second.environment) :
      first.pairingUntilUs = second.pairingUntilUs := (Ble.environment_eq.mp same).2.1
  cases event with
  | adv addr => exact window (ble.environment_presenceSeenAddr addr)
  | tick => exact window (ble.environment_presenceTickCb radio)
  | probeUp connect handle => exact (window (Ble.environment_probeConnected _ _ _)).trans rfl
  | linkDown link =>
      obtain ⟨handle, peer, owner⟩ := link
      cases owner with
      | none => cases outside
      | some index => exact (window (Ble.environment_probeDisconnected _ _ _)).trans rfl
  | hostSync => exact window ble.environment_presencePreallocateBonded
  | revoke addr deleted =>
      rcases ble.bondRevoke_cases addr deleted with same | ⟨_, _, same⟩ | ⟨_, same⟩ <;>
        rw [Ble.perform, same] <;> rfl
  | probeDown | synced | unsynced | wipe | setTimeout | scanRestart => rfl
  | hidUp | pairingStart | pairingCancel | bondStore | encChange => cases outside

/-- An event from outside takes no bond but the one it revokes. -/
theorem bonds_outside (radio : Radio) (ble : Ble) {event : BleEvent}
    (outside : event.outside = true) {bond : Bond} (member : bond ∈ ble.bonds)
    (unrevoked : ∀ deleted, event ≠ .revoke bond.addr deleted) :
    bond ∈ (ble.perform radio event).bonds := by
  have bonds {next first : Ble} (same : next.environment = first.environment)
      (member : bond ∈ first.bonds) : bond ∈ next.bonds :=
    (Ble.environment_eq.mp same).2.2.1 ▸ member
  cases event with
  | adv addr => exact bonds (ble.environment_presenceSeenAddr addr) member
  | tick => exact bonds (ble.environment_presenceTickCb radio) member
  | probeUp connect handle => exact bonds (Ble.environment_probeConnected _ _ _) member
  | linkDown link =>
      obtain ⟨handle, peer, owner⟩ := link
      cases owner with
      | none => cases outside
      | some index => exact bonds (Ble.environment_probeDisconnected _ _ _) member
  | hostSync => exact bonds ble.environment_presencePreallocateBonded member
  | revoke addr deleted =>
      have kept : bond ∈ ble.bonds.filter fun bond => bond.addr ≠ addr := by
        have different : bond.addr ≠ addr := by
          rintro rfl
          exact unrevoked deleted rfl
        simp [member, different]
      rcases ble.bondRevoke_cases addr deleted with same | ⟨_, _, same⟩ | ⟨_, same⟩ <;>
        rw [Ble.perform, same]
      · exact member
      · exact kept
      · exact kept
  | probeDown | synced | unsynced | wipe | setTimeout | scanRestart => exact member
  | hidUp | pairingStart | pairingCancel | bondStore | encChange => cases outside

end Presence

section Bonds

namespace BleHost

def Bonded (host : BleHost) (peer : Addr) : Prop := ∃ bond ∈ host.ble.bonds, bond.addr = peer

instance (host : BleHost) (peer : Addr) : Decidable (host.Bonded peer) :=
  inferInstanceAs (Decidable (∃ bond ∈ host.ble.bonds, bond.addr = peer))

/-- With the window closed `gap_event_cb` takes no bond, no peer loses its bond but
by a revocation, and a slot whose peer is refused a re-pairing keeps a bonded peer. -/
structure KeepsBonds (radio : Radio) (host : BleHost) (event : HostEvent) : Prop where
  callback : host.ble.pairingActive = false → ∀ gap, event = .gap gap →
    host.ble.bonds ⊆ (host.perform radio event).ble.bonds
  peers : host.ble.pairingActive = false → ∀ peer, host.Bonded peer →
    (∀ deleted outside, event ≠ .outside (.revoke peer deleted) outside) →
    (host.perform radio event).Bonded peer
  slots : host.ble.pairingActive = false → ∀ handle peer index,
    event = .gap (.repeatPairing handle) → host.connFind handle = some peer →
    host.ble.presence.Holds index peer → host.Bonded peer →
    (host.perform radio event).ble.presence.Holds index peer ∧
      (host.perform radio event).Bonded peer

/-- No bonded peer asks to pair again while the window is closed. -/
def RepairsInWindow (host : BleHost) (event : HostEvent) : Prop :=
  ∀ handle peer, event = .gap (.repeatPairing handle) → host.connFind handle = some peer →
    host.Bonded peer → host.ble.pairingActive = true

variable {host : BleHost}

/-- The callback takes no bond when no bonded peer asks to pair again. -/
theorem bonds_gapEventCb {gap : GapEvent}
    (unbonded : ∀ handle peer, gap = .repeatPairing handle → host.connFind handle = some peer →
      ¬ host.Bonded peer) :
    (host.gapEventCb gap).2.ble.bonds = host.ble.bonds := by
  have bonds {next first : Ble} (same : next.environment = first.environment) :
      next.bonds = first.bonds := (Ble.environment_eq.mp same).2.2.1
  cases gap with
  | connect handle peer =>
      rw [ble_connect, bonds (Ble.environment_gapConnected _ _)]
      rfl
  | disconnect handle peer => exact (bonds (Ble.environment_gapDisconnected _ _)).trans rfl
  | passkeyAction handle numcmp => rw [ble_passkeyAction]
  | encChange handle status =>
      rw [ble_encChange]
      split_ifs
      · exact (bonds host.ble.environment_presencePreallocateBonded :)
      · rfl
  | repeatPairing handle =>
      rw [ble_repeatPairing]
      refine List.filter_eq_self.mpr fun bond member => decide_eq_true fun found => ?_
      exact unbonded handle bond.addr rfl found ⟨bond, member, rfl⟩
  | connectFailed | advComplete | connUpdate | subscribe | other => rfl

/-- A re-pairing takes the bond of the peer it comes from. -/
theorem repeatPairing_unbonds {handle : Nat} {peer : Addr}
    (found : host.connFind handle = some peer) :
    ¬ (host.gapEventCb (.repeatPairing handle)).2.Bonded peer := by
  rw [Bonded, ble_repeatPairing]
  rintro ⟨bond, member, rfl⟩
  simp [found] at member

theorem Bonded.storeBond {bond : Bond} {peer : Addr} (bonded : host.Bonded peer) :
    ∃ kept ∈ host.storeBond bond, kept.addr = peer := by
  obtain ⟨old, member, rfl⟩ := bonded
  by_cases same : old.addr = bond.addr
  · exact ⟨bond, by simp [BleHost.storeBond], same.symm⟩
  · exact ⟨old, by simp [BleHost.storeBond, member, same], rfl⟩

/-- A peer keeps its bond through every event but its revocation and a re-pairing. -/
theorem Bonded.perform (radio : Radio) {peer : Addr} {event : HostEvent}
    (bonded : host.Bonded peer)
    (unrevoked : ∀ deleted outside, event ≠ .outside (.revoke peer deleted) outside)
    (unbonded : ∀ handle peer, event = .gap (.repeatPairing handle) →
      host.connFind handle = some peer → ¬ host.Bonded peer) :
    (host.perform radio event).Bonded peer := by
  obtain ⟨bond, member, rfl⟩ := bonded
  rw [Bonded, perform_seen]
  cases event with
  | gap gap =>
      have same := bonds_gapEventCb fun handle peer here => unbonded handle peer (congrArg _ here)
      rw [← perform_seen, BleHost.perform, same]
      exact ⟨bond, member, rfl⟩
  | bonded new => exact storeBond ⟨bond, member, rfl⟩
  | pairingExpire =>
      rw [seen]
      split_ifs <;> exact ⟨bond, member, rfl⟩
  | outside event outside =>
      refine ⟨bond, bonds_outside radio host.ble outside member fun deleted here => ?_, rfl⟩
      subst here
      exact unrevoked deleted outside rfl
  | pairingStart | pairingCancel | pairingConfirm => exact ⟨bond, member, rfl⟩

theorem keepsBonds_iff (radio : Radio) (event : HostEvent) :
    host.KeepsBonds radio event ↔ host.RepairsInWindow event := by
  constructor
  · intro kept handle peer isRepeat found bonded
    by_contra closed
    rw [Bool.not_eq_true] at closed
    have stays := kept.peers closed peer bonded (by simp [isRepeat])
    rw [isRepeat] at stays
    exact repeatPairing_unbonds found stays
  · intro inWindow
    have unbonded (closed : host.ble.pairingActive = false) (handle : Nat) (peer : Addr)
        (isRepeat : event = .gap (.repeatPairing handle))
        (found : host.connFind handle = some peer) : ¬ host.Bonded peer := by
      intro bonded
      rw [inWindow handle peer isRepeat found bonded] at closed
      cases closed
    refine ⟨fun closed gap isGap => ?_, fun closed peer bonded unrevoked => ?_,
      fun closed handle peer _ isRepeat found _ bonded => ?_⟩
    · subst isGap
      rw [BleHost.perform, bonds_gapEventCb fun handle peer isRepeat =>
        unbonded closed handle peer (congrArg _ isRepeat)]
      exact List.Subset.refl _
    · exact bonded.perform radio unrevoked (unbonded closed)
    · exact absurd bonded (unbonded closed handle peer isRepeat found)

end BleHost

open BleHost

/-- Along a run the bonds are kept outside the window exactly when no bonded peer asks to
pair again there. -/
theorem pairingWindow_keepsBonds (radio : Radio) (start : BleHost) (actions : List HostAction) :
    Guarded (BleHost.step radio) (Meets (KeepsBonds radio)) start actions ↔
      Guarded (BleHost.step radio) (Meets RepairsInWindow) start actions :=
  ⟨Guarded.mono fun _ _ => (keepsBonds_iff radio _).mp,
    Guarded.mono fun _ _ => (keepsBonds_iff radio _).mpr⟩

/-- The bonded phone connects with the window closed and asks to pair again. -/
def repairClosed : List HostAction :=
  [⟨1000000, .bonded ⟨phone, .publicId⟩⟩, ⟨1000000, .gap (.connect 1 phone)⟩,
    ⟨1000000, .gap (.repeatPairing 1)⟩]

/-- Its record is deleted before the request is ignored, and its slot stays in use. -/
theorem repairClosed_losesBond :
    ¬ Guarded (BleHost.step Radio.oneConnect) (Meets (KeepsBonds Radio.oneConnect))
        (boot 0 .least []) repairClosed ∧
      let host := run (BleHost.step Radio.oneConnect) (boot 0 .least []) repairClosed
      host.ble.bonds.isEmpty ∧ host.ble.presence.Holds 0 phone := by
  refine ⟨?_, by decide +kernel⟩
  intro guarded
  have inWindow := (keepsBonds_iff Radio.oneConnect _).mp guarded.2.2.1
  have opened := inWindow 1 phone rfl (by decide +kernel) (by decide +kernel)
  revert opened
  decide +kernel

end Bonds

end LeanDingdong
