import Dingdong.BlePairing

/-!
The numeric comparison and the pairing window. A window is opened with a deadline, the
timer of an earlier window may still fire in it, and the HTTP calls and the GAP events
come in any order; comparison and window stay in step.
-/

namespace LeanDingdong

open Runs

namespace BleHost

/-- No comparison waits for the page. -/
def Unpending (host : BleHost) : Prop := host.numcmp = 0 ∧ host.numcmpHandle = noHandle

/-- How often a numeric comparison of the connection was accepted. -/
def acceptances (host : BleHost) (handle : Nat) : Nat :=
  host.stackCalls.count (.injectIo handle true)

end BleHost

/-- A window as `dd_ble_pairing_start` opens it. -/
structure PairingWindow where
  openedUs : Nat
  lastsMs : Nat
  lower : 5000 ≤ lastsMs
  upper : lastsMs ≤ 120000

namespace PairingWindow

def opened (clockUs : Nat) (ttlMs : Int) : PairingWindow where
  openedUs := clockUs
  lastsMs := max 5000 (min 120000 ttlMs.toNat)
  lower := le_max_left _ _
  upper := by omega

def endUs (window : PairingWindow) : Nat := window.openedUs + window.lastsMs * 1000

end PairingWindow

/-- A host with the window of the latest start that was not cancelled. -/
structure WatchedHost where
  host : BleHost
  window : Option PairingWindow

namespace WatchedHost

def boot (startUs : Nat) (timeout : PresenceTimeout) (log : List PeerEvent) : WatchedHost where
  host := BleHost.boot startUs timeout log
  window := none

/-- A pairing that succeeds cancels the window as the page does. -/
def windowAfter (clockUs : Nat) (window : Option PairingWindow) : HostEvent → Option PairingWindow
  | .pairingStart ttlMs => some (.opened clockUs ttlMs)
  | .pairingCancel => none
  | .gap (.encChange _ 0) => none
  | _ => window

def step (radio : Radio) (watched : WatchedHost) (action : HostAction) : WatchedHost where
  host := watched.host.step radio action
  window := windowAfter (watched.host.wait action.elapsedUs).ble.clockUs watched.window action.event

end WatchedHost

namespace BleHost

variable {host : BleHost} {event : HostEvent}

theorem unpending_clear (reject : Bool) (host : BleHost) :
    (clearNumcmpPending reject host).Unpending := ⟨rfl, rfl⟩

theorem unpending_cancel (host : BleHost) : host.pairingCancel.Unpending := unpending_clear _ _

theorem unpending_encChange (handle : Nat) :
    (host.gapEventCb (.encChange handle 0)).2.Unpending := by
  rw [gapEventCb, if_pos rfl]
  exact unpending_cancel _

/-- The window and the comparison after one event: a start opens a window, it is closed
with nothing pending, or it is as before and something is pending only if it was, or if
the window is open. -/
theorem perform_window (radio : Radio) (host : BleHost) (event : HostEvent) :
    (∃ ttlMs, event = .pairingStart ttlMs ∧
      (host.perform radio event).ble.pairingUntilUs =
        (PairingWindow.opened host.ble.clockUs ttlMs).endUs) ∨
    ((host.perform radio event).ble.pairingUntilUs = 0 ∧ (host.perform radio event).Unpending ∧
      (event = .pairingCancel ∨ (∃ handle, event = .gap (.encChange handle 0)) ∨
        event = .pairingExpire ∧ host.ble.pairingUntilUs ≤ host.ble.clockUs)) ∨
    ((host.perform radio event).ble.pairingUntilUs = host.ble.pairingUntilUs ∧
      (∀ clockUs window, WatchedHost.windowAfter clockUs window event = window) ∧
      (host.Unpending → (host.perform radio event).Unpending ∨ host.ble.pairingActive = true)) := by
  have window {next first : Ble} (same : next.environment = first.environment) :
      next.pairingUntilUs = first.pairingUntilUs := (Ble.environment_eq.mp same).2.1
  cases event with
  | pairingStart ttlMs =>
      refine .inl ⟨ttlMs, rfl, ?_⟩
      rw [perform_seen]
      rfl
  | pairingCancel =>
      refine .inr (.inl ⟨?_, unpending_cancel host, .inl rfl⟩)
      rw [perform_seen]
      rfl
  | pairingExpire =>
      by_cases due : host.ble.pairingUntilUs ≠ 0 ∧ host.ble.pairingUntilUs ≤ host.ble.clockUs
      · refine .inr (.inl ⟨?_, ?_, .inr (.inr ⟨rfl, due.2⟩)⟩)
        · rw [perform_seen, seen, if_pos due]
          rfl
        · rw [perform, pairingExpire, if_pos due]
          exact unpending_clear _ _
      · have stays : host.perform radio .pairingExpire = host := by
          rw [perform, pairingExpire, if_neg due]
        rw [stays]
        exact .inr (.inr ⟨rfl, fun _ _ => rfl, fun unpending => .inl unpending⟩)
  | pairingConfirm accept =>
      refine .inr (.inr ⟨?_, fun _ _ => rfl, fun unpending => .inl ?_⟩)
      · rw [perform_seen]
        rfl
      · rw [perform, pairingConfirm, if_pos unpending.2]
        exact unpending
  | bonded bond => exact .inr (.inr ⟨rfl, fun _ _ => rfl, fun unpending => .inl unpending⟩)
  | outside event outside =>
      exact .inr (.inr ⟨window_outside radio host.ble outside, fun _ _ => rfl,
        fun unpending => .inl unpending⟩)
  | gap gap =>
      cases gap with
      | connect handle peer =>
          refine .inr (.inr ⟨?_, fun _ _ => rfl, fun unpending => .inl ?_⟩)
          · rw [perform_seen]
            exact (window (Ble.environment_gapConnected _ _)).trans rfl
          · simp only [perform, gapEventCb]
            split_ifs <;> exact unpending
      | disconnect handle peer =>
          refine .inr (.inr ⟨?_, fun _ _ => rfl, fun unpending => .inl unpending⟩)
          exact (window (Ble.environment_gapDisconnected _ _)).trans rfl
      | passkeyAction handle numcmp =>
          refine .inr (.inr ⟨?_, fun _ _ => rfl, fun unpending => ?_⟩)
          · rw [perform, ble_passkeyAction]
          · cases numcmp with
            | none => exact .inl unpending
            | some numcmp =>
                cases active : host.ble.pairingActive with
                | true => exact .inr rfl
                | false =>
                    refine .inl ?_
                    rw [perform, gapEventCb, active]
                    exact unpending
      | encChange handle status =>
          cases status with
          | zero =>
              refine .inr (.inl ⟨?_, unpending_encChange handle, .inr (.inl ⟨handle, rfl⟩)⟩)
              rw [perform_seen]
              rfl
          | succ status =>
              exact .inr (.inr ⟨rfl, fun _ _ => rfl, fun unpending => .inl unpending⟩)
      | repeatPairing handle =>
          refine .inr (.inr ⟨?_, fun _ _ => rfl, fun unpending => .inl ?_⟩)
          · rw [perform, ble_repeatPairing]
          · simp only [perform, gapEventCb]
            cases host.connFind handle <;> exact unpending
      | connectFailed | advComplete | connUpdate | subscribe | other =>
          exact .inr (.inr ⟨rfl, fun _ _ => rfl, fun unpending => .inl unpending⟩)

@[simp] theorem acceptances_call (made : StackCall) (handle : Nat) :
    (host.call made).acceptances handle =
      host.acceptances handle + if made = .injectIo handle true then 1 else 0 := by
  simp [acceptances, call, List.count_cons, beq_eq_decide]

theorem acceptances_cancel (host : BleHost) (handle : Nat) :
    host.pairingCancel.acceptances handle = host.acceptances handle := by
  rw [pairingCancel, clearNumcmpPending]
  split_ifs
  · exact (acceptances_call _ _).trans (by simp; rfl)
  · rfl

/-- `gap_event_cb` accepts a comparison only while the window is open. -/
theorem acceptances_active {gap : GapEvent} {handle : Nat}
    (accepted : host.acceptances handle < (host.gapEventCb gap).2.acceptances handle) :
    host.ble.pairingActive = true := by
  by_contra closed
  have calls : (host.gapEventCb gap).2.acceptances handle = host.acceptances handle := by
    cases gap with
    | connect other peer =>
        simp only [gapEventCb]
        split_ifs with active
        · exact absurd active closed
        · rfl
    | passkeyAction other numcmp =>
        cases numcmp with
        | none => rfl
        | some numcmp =>
            rw [gapEventCb, if_neg closed]
            exact (acceptances_call _ _).trans (by simp)
    | encChange other status =>
        rw [gapEventCb]
        split_ifs
        · exact (acceptances_cancel _ _).trans rfl
        · rfl
    | repeatPairing other =>
        simp only [gapEventCb]
        cases host.connFind other with
        | none => rfl
        | some peer => exact (acceptances_call _ _).trans (by simp)
    | disconnect | connectFailed | advComplete | connUpdate | subscribe | other => rfl
  omega

end BleHost

namespace WatchedHost

open BleHost

variable {watched : WatchedHost}

/-- Nothing is pending without a window, an open window is that of the latest start, and
the window of the latest start is open until its end. -/
structure InStep (watched : WatchedHost) : Prop where
  idle : watched.host.ble.pairingUntilUs = 0 → watched.host.Unpending
  known : watched.host.ble.pairingUntilUs ≠ 0 → ∃ window ∈ watched.window,
    watched.host.ble.pairingUntilUs = window.endUs ∧ window.openedUs ≤ watched.host.ble.clockUs
  stands : ∀ window ∈ watched.window, watched.host.ble.pairingUntilUs = window.endUs ∨
    window.endUs ≤ watched.host.ble.clockUs

theorem InStep.boot (startUs : Nat) (timeout : PresenceTimeout) (log : List PeerEvent) :
    (WatchedHost.boot startUs timeout log).InStep :=
  ⟨fun _ => ⟨rfl, rfl⟩, fun set => absurd rfl set, fun _ none => absurd none (Option.not_mem_none _)⟩

theorem InStep.wait (inStep : watched.InStep) (elapsedUs : Nat) :
    InStep { watched with host := watched.host.wait elapsedUs } := by
  have clock : watched.host.ble.clockUs ≤ (watched.host.wait elapsedUs).ble.clockUs :=
    Nat.le_add_right _ _
  refine ⟨inStep.idle, fun set => ?_, fun window held => ?_⟩
  · obtain ⟨window, held, deadline, opened⟩ := inStep.known set
    exact ⟨window, held, deadline, opened.trans clock⟩
  · exact (inStep.stands window held).imp id fun lapsed => lapsed.trans clock

theorem InStep.step (inStep : watched.InStep) (radio : Radio) (action : HostAction) :
    (watched.step radio action).InStep := by
  have waited := inStep.wait action.elapsedUs
  generalize reached : watched.host.wait action.elapsedUs = host at waited
  have clock : (host.perform radio action.event).ble.clockUs = host.ble.clockUs := by
    rw [perform_seen, Ble.clockUs_perform]
  have next : watched.step radio action =
      { host := host.perform radio action.event
        window := windowAfter host.ble.clockUs watched.window action.event } := by
    rw [WatchedHost.step, BleHost.step, reached]
  rw [next]
  rcases perform_window radio host action.event with
    ⟨ttlMs, started, deadline⟩ | ⟨closed, unpending, cause⟩ | ⟨deadline, quiet, pending⟩
  · have window : windowAfter host.ble.clockUs watched.window action.event =
        some (.opened host.ble.clockUs ttlMs) := by
      rw [started]
      rfl
    have lasts := (PairingWindow.opened host.ble.clockUs ttlMs).lower
    refine ⟨fun zero => ?_, fun _ => ⟨_, Option.mem_def.mpr window, deadline, clock.ge⟩,
      fun other held => .inl ?_⟩
    · dsimp only at zero
      rw [deadline, PairingWindow.endUs] at zero
      omega
    · rw [deadline, Option.some.inj (window.symm.trans (Option.mem_def.mp held))]
  · refine ⟨fun _ => unpending, fun set => absurd closed set, fun window held => .inr ?_⟩
    rcases cause with cancelled | ⟨handle, encrypted⟩ | ⟨expired, lapsed⟩
    · rw [cancelled] at held
      cases held
    · rw [encrypted] at held
      cases held
    · rw [expired] at held
      have ended := waited.stands window held
      dsimp only at ended ⊢
      omega
  · rw [quiet]
    refine ⟨fun zero => ?_, fun set => ?_, fun window held => ?_⟩
    · have none : host.ble.pairingUntilUs = 0 := deadline.symm.trans zero
      rcases pending (waited.idle none) with unpending | active
      · exact unpending
      · rw [Ble.pairingActive, none] at active
        cases active
    · obtain ⟨window, held, same, opened⟩ := waited.known (deadline ▸ set)
      exact ⟨window, held, deadline.trans same, opened.trans clock.ge⟩
    · exact (waited.stands window held).imp deadline.trans fun lapsed => lapsed.trans clock.ge

end WatchedHost

/-- In every run `gap_event_cb` accepts a numeric comparison only inside the window of the
latest start that was not cancelled; nothing is pending when `s_pairing_until_us` is 0, so
that no cancel, successful pairing or expiry leaves anything pending; and the expiry timer,
whenever it fires, does not touch a window before its end. -/
theorem numcmp_inWindow (radio : Radio) (startUs : Nat) (timeout : PresenceTimeout)
    (log : List PeerEvent) (actions : List HostAction) (elapsedUs : Nat) :
    let watched := run (WatchedHost.step radio) (WatchedHost.boot startUs timeout log) actions
    let host := watched.host.wait elapsedUs
    (∀ gap handle, host.acceptances handle < (host.gapEventCb gap).2.acceptances handle →
      ∃ window ∈ watched.window,
        window.openedUs ≤ host.ble.clockUs ∧ host.ble.clockUs < window.endUs) ∧
    (host.ble.pairingUntilUs = 0 → host.Unpending) ∧
    host.pairingCancel.Unpending ∧
    (∀ handle, (host.gapEventCb (.encChange handle 0)).2.Unpending) ∧
    (host.ble.pairingUntilUs ≤ host.ble.clockUs → host.pairingExpire.Unpending) ∧
    ∀ window ∈ watched.window, host.ble.clockUs < window.endUs →
      host.pairingExpire = host ∧ host.ble.pairingActive = true := by
  intro watched host
  have inStep : watched.InStep :=
    run_kept WatchedHost.InStep (fun _ action inStep => inStep.step radio action)
      (WatchedHost.InStep.boot startUs timeout log)
  have waited := inStep.wait elapsedUs
  have active : host.ble.pairingActive = true ↔ host.ble.clockUs < host.ble.pairingUntilUs := by
    rw [Ble.pairingActive, decide_eq_true_iff]
  refine ⟨fun gap handle accepted => ?_, waited.idle, BleHost.unpending_cancel host,
    BleHost.unpending_encChange, fun lapsed => ?_, fun window held early => ?_⟩
  · have opened := active.mp (BleHost.acceptances_active accepted)
    obtain ⟨window, held, deadline, since⟩ := waited.known (Nat.ne_zero_of_lt opened)
    exact ⟨window, held, since, opened.trans_eq deadline⟩
  · rw [BleHost.pairingExpire]
    split_ifs with due
    · exact BleHost.unpending_clear _ _
    · exact waited.idle (by by_contra set; exact due ⟨set, lapsed⟩)
  · have deadline : host.ble.pairingUntilUs = window.endUs :=
      (waited.stands window held).resolve_right (Nat.not_le.mpr early)
    have opened : host.ble.clockUs < host.ble.pairingUntilUs := early.trans_eq deadline.symm
    rw [BleHost.pairingExpire, if_neg fun due => absurd opened (Nat.not_lt.mpr due.2)]
    exact ⟨rfl, active.mpr opened⟩

end LeanDingdong
