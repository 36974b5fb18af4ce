import Dingdong.BlePairing

/-!
How long a pairing window stays open, and who may close it. The window has its own
lifetime; the administrator cancels it, and a pairing that succeeds ends it.
-/

namespace LeanDingdong

open Runs

namespace BleHost

/-- The peer of the connection was not bonded when the window was opened. -/
def newcomer (host : BleHost) (handle : Nat) : Bool :=
  (host.connFind handle).any fun peer => peer ∉ host.wereBonded

/-- A peer that is new to the window completes its pairing. -/
def Completes (host : BleHost) (event : HostEvent) : Prop :=
  ∃ handle, event = .gap (.encChange handle 0) ∧ host.newcomer handle = true

/-- How often a numeric comparison of the connection was refused. -/
def refusals (host : BleHost) (handle : Nat) : Nat :=
  host.stackCalls.count (.injectIo handle false)

/-- An open window outlives the event with the lifetime it has, and the pending
comparison is not refused, unless the administrator or a new peer's pairing does it. -/
structure KeepsWindow (radio : Radio) (host : BleHost) (event : HostEvent) : Prop where
  stays : host.ble.pairingActive = true → event ≠ .pairingCancel → ¬ host.Completes event →
    (host.perform radio event).ble.pairingActive = true
  lifetime : host.ble.pairingActive = true → event ≠ .pairingCancel → ¬ host.Completes event →
    (∀ ttlMs, event ≠ .pairingStart ttlMs) →
    (host.perform radio event).ble.pairingUntilUs = host.ble.pairingUntilUs
  comparison : host.ble.pairingActive = true → event ≠ .pairingCancel → ¬ host.Completes event →
    event ≠ .pairingConfirm false → host.numcmpHandle ≠ noHandle →
    (host.perform radio event).refusals host.numcmpHandle = host.refusals host.numcmpHandle

/-- Within a window only a peer that is new to it reports an encryption. -/
def OnlyNewcomersEncrypt (host : BleHost) (event : HostEvent) : Prop :=
  host.ble.pairingActive = true → ∀ handle, event = .gap (.encChange handle 0) →
    host.newcomer handle = true

variable {host : BleHost} {event : HostEvent}

theorem pairingActive_iff {ble : Ble} :
    ble.pairingActive = true ↔ ble.clockUs < ble.pairingUntilUs := by
  rw [Ble.pairingActive, decide_eq_true_iff]

theorem pairingActive_kept (radio : Radio)
    (window : (host.perform radio event).ble.pairingUntilUs = host.ble.pairingUntilUs) :
    (host.perform radio event).ble.pairingActive = host.ble.pairingActive := by
  rw [Ble.pairingActive, Ble.pairingActive, window, perform_seen, Ble.clockUs_perform]

/-- `dd_ble_pairing_start` opens a window that lasts. -/
theorem pairingActive_start (ttlMs : Int) : (host.pairingStart ttlMs).ble.pairingActive = true := by
  have opened : (host.pairingStart ttlMs).ble = host.ble.pairingStart ttlMs :=
    ble_clearNumcmpPending _ _
  have lasts : 5000 ≤ max 5000 (min 120000 ttlMs.toNat) := le_max_left _ _
  rw [opened, pairingActive_iff, Ble.pairingStart]
  dsimp only
  omega

/-- The events that leave the window as it is. -/
theorem window_kept (radio : Radio) (uncancelled : event ≠ .pairingCancel)
    (unstarted : ∀ ttlMs, event ≠ .pairingStart ttlMs)
    (unencrypted : ∀ handle, event ≠ .gap (.encChange handle 0))
    (active : host.ble.pairingActive = true) :
    (host.perform radio event).ble.pairingUntilUs = host.ble.pairingUntilUs := by
  have window {next first : Ble} (same : next.environment = first.environment) :
      next.pairingUntilUs = first.pairingUntilUs := (Ble.environment_eq.mp same).2.1
  rw [perform_seen]
  cases event with
  | gap gap =>
      cases gap with
      | connect handle peer => exact (window (Ble.environment_gapConnected _ _)).trans rfl
      | disconnect handle peer => exact (window (Ble.environment_gapDisconnected _ _)).trans rfl
      | encChange handle status =>
          cases status with
          | zero => exact absurd rfl (unencrypted handle)
          | succ status => rfl
      | connectFailed | advComplete | connUpdate | subscribe | passkeyAction | repeatPairing
      | other => rfl
  | pairingExpire =>
      rw [pairingActive_iff] at active
      rw [seen, if_neg (fun due => absurd active (Nat.not_lt.mpr due.2))]
      rfl
  | outside event outside => exact window_outside radio host.ble outside
  | pairingStart ttlMs => exact absurd rfl (unstarted ttlMs)
  | pairingCancel => exact absurd rfl uncancelled
  | bonded | pairingConfirm => rfl

@[simp] theorem refusals_call (made : StackCall) (handle : Nat) :
    (host.call made).refusals handle =
      host.refusals handle + if made = .injectIo handle false then 1 else 0 := by
  simp [refusals, call, List.count_cons, beq_eq_decide]

/-- The events that refuse no numeric comparison. -/
theorem refusals_kept (radio : Radio) (uncancelled : event ≠ .pairingCancel)
    (unconfirmed : event ≠ .pairingConfirm false)
    (unencrypted : ∀ handle, event ≠ .gap (.encChange handle 0))
    (active : host.ble.pairingActive = true) (handle : Nat) :
    (host.perform radio event).refusals handle = host.refusals handle := by
  cases event with
  | gap gap =>
      cases gap with
      | connect other peer =>
          simp only [perform, gapEventCb]
          split_ifs
          · exact (refusals_call _ _).trans (by simp; rfl)
          · rfl
      | passkeyAction other numcmp =>
          cases numcmp with
          | none => rfl
          | some numcmp =>
              simp only [perform, gapEventCb, if_pos active, refusals_call]
              simp; rfl
      | encChange other status =>
          cases status with
          | zero => exact absurd rfl (unencrypted other)
          | succ status => rfl
      | repeatPairing other =>
          simp only [perform, gapEventCb]
          cases host.connFind other with
          | none => rfl
          | some peer => exact (refusals_call _ _).trans (by simp)
      | disconnect | connectFailed | advComplete | connUpdate | subscribe | other => rfl
  | pairingStart ttlMs =>
      simp [perform, pairingStart, clearNumcmpPending]
      rfl
  | pairingConfirm accept =>
      cases accept with
      | false => exact absurd rfl unconfirmed
      | true =>
          simp only [perform, pairingConfirm]
          split_ifs
          · rfl
          · exact (refusals_call _ _).trans (by simp)
  | pairingExpire =>
      rw [pairingActive_iff] at active
      rw [perform, pairingExpire, if_neg (fun due => absurd active (Nat.not_lt.mpr due.2))]
  | pairingCancel => exact absurd rfl uncancelled
  | bonded | outside => rfl

theorem keepsWindow_iff (radio : Radio) :
    host.KeepsWindow radio event ↔ host.OnlyNewcomersEncrypt event := by
  constructor
  · intro kept active handle isEncrypted
    by_contra known
    have completes : ¬ host.Completes event := by
      rintro ⟨other, same, new⟩
      rw [isEncrypted] at same
      cases same
      exact known new
    have lasts := kept.lifetime active (by simp [isEncrypted]) completes (by simp [isEncrypted])
    subst isEncrypted
    rw [pairingActive_iff] at active
    have closed : (host.perform radio (.gap (.encChange handle 0))).ble.pairingUntilUs = 0 := by
      rw [perform_seen]
      rfl
    omega
  · intro newcomers
    have unencrypted (active : host.ble.pairingActive = true) (completes : ¬ host.Completes event)
        (handle : Nat) : event ≠ .gap (.encChange handle 0) :=
      fun encrypted => completes ⟨handle, encrypted, newcomers active handle encrypted⟩
    have lifetime (active : host.ble.pairingActive = true) (uncancelled : event ≠ .pairingCancel)
        (completes : ¬ host.Completes event) (unstarted : ∀ ttlMs, event ≠ .pairingStart ttlMs) :=
      window_kept radio uncancelled unstarted (unencrypted active completes) active
    refine ⟨fun active uncancelled completes => ?_, lifetime,
      fun active uncancelled completes unconfirmed _ =>
        refusals_kept radio uncancelled unconfirmed (unencrypted active completes) active _⟩
    by_cases started : ∃ ttlMs, event = .pairingStart ttlMs
    · obtain ⟨ttlMs, rfl⟩ := started
      exact pairingActive_start ttlMs
    · rw [not_exists] at started
      rw [pairingActive_kept radio (lifetime active uncancelled completes started), active]

end BleHost

open BleHost

/-- Along a run the window is kept open exactly when no peer that was bonded before it
opened encrypts its connection meanwhile. -/
theorem pairingWindow_stays (radio : Radio) (start : BleHost) (actions : List HostAction) :
    Guarded (BleHost.step radio) (Meets (KeepsWindow radio)) start actions ↔
      Guarded (BleHost.step radio) (Meets OnlyNewcomersEncrypt) start actions :=
  ⟨Guarded.mono fun _ _ => (keepsWindow_iff radio).mp,
    Guarded.mono fun _ _ => (keepsWindow_iff radio).mpr⟩

/-- A second phone compares its number while the bonded phone reconnects. -/
def reconnectInWindow : List HostAction :=
  [⟨1000000, .bonded ⟨phone, .publicId⟩⟩, ⟨1000000, .pairingStart 30000⟩,
    ⟨1000000, .gap (.connect 2 otherPhone)⟩, ⟨1000000, .gap (.passkeyAction 2 (some 123456))⟩,
    ⟨1000000, .gap (.connect 1 phone)⟩, ⟨1000000, .gap (.encChange 1 0)⟩]

/-- The reconnection closes the window and refuses the comparison. -/
theorem reconnectInWindow_closes :
    ¬ Guarded (BleHost.step Radio.oneConnect) (Meets (KeepsWindow Radio.oneConnect))
        (boot 0 .least []) reconnectInWindow ∧
      let host := run (BleHost.step Radio.oneConnect) (boot 0 .least []) reconnectInWindow
      host.ble.pairingActive = false ∧ host.refusals 2 = 1 := by
  refine ⟨fun guarded => ?_, by decide +kernel⟩
  have newcomers := (keepsWindow_iff Radio.oneConnect).mp guarded.2.2.2.2.2.1
  have new := newcomers (by decide +kernel) 1 rfl
  revert new
  decide +kernel

end LeanDingdong
