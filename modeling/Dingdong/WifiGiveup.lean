import Dingdong.ConfigCore
import Dingdong.Runs

/-!
The station side of `dd_wifi.c`: the retry counter, the start of the outage and the
periodic give-up timer, which the disconnect handler stops and starts again. A timer
callback runs at the instant it is due.
-/

namespace LeanDingdong

open Runs

def staRetryMax : Nat := 5

def staGiveUpMs : Nat := 10 * 60 * 1000

def giveupPeriodUs : Nat := 60 * 1000 * 1000

inductive WifiState where
  | down
  | ap
  | staConnecting
  | staGotIp
  deriving DecidableEq

structure Wifi where
  state : WifiState
  staRetry : Nat
  /-- `s_sta_down_since_us`, 0 outside an outage -/
  staDownSinceUs : Nat
  /-- when the give-up timer fires next, if it runs -/
  giveupAtUs : Option Nat
  config : Config
  /-- `esp_restart` has been called -/
  restarted : Bool
  clockUs : Nat
  deriving DecidableEq

/-- The events of `on_wifi_event` that write its state, and the timer's callback. -/
inductive WifiEvent where
  | staDisconnected
  | apStart
  | staGotIp
  | giveup
  deriving DecidableEq

namespace Wifi

/-- `on_wifi_event`: STA_DISCONNECTED. -/
def staDisconnected (wifi : Wifi) : Wifi :=
  let wifi := if wifi.staDownSinceUs = 0 then { wifi with staDownSinceUs := wifi.clockUs } else wifi
  if wifi.staRetry < staRetryMax then
    { wifi with staRetry := wifi.staRetry + 1, state := .staConnecting }
  else
    { wifi with
      state := .down
      staRetry := 0
      giveupAtUs := some (wifi.clockUs + giveupPeriodUs) }

/-- `on_wifi_event`: STA_GOT_IP. -/
def staGotIp (wifi : Wifi) : Wifi :=
  { wifi with staRetry := 0, staDownSinceUs := 0, giveupAtUs := none, state := .staGotIp }

/-- The boot-loop counter is raised to the threshold, so that the next boot recovers. -/
def forceRecovery (config : Config) : Config :=
  (Config.bootLoopInc^[ddBootLoopRecoveryThreshold - config.bootLoopCount] config).setRestartCause
    .bootLoop

/-- `sta_giveup_cb`; the timer is periodic and already waits for its next turn. -/
def staGiveupCb (wifi : Wifi) : Wifi :=
  let wifi := { wifi with giveupAtUs := wifi.giveupAtUs.map (· + giveupPeriodUs) }
  if wifi.state = .staGotIp then wifi
  else if wifi.staDownSinceUs = 0 then wifi
  else if staGiveUpMs ≤ (wifi.clockUs - wifi.staDownSinceUs) / 1000 then
    { wifi with config := forceRecovery wifi.config, restarted := true }
  else wifi

def perform (wifi : Wifi) : WifiEvent → Wifi
  | .staDisconnected => wifi.staDisconnected
  | .apStart => { wifi with state := .ap }
  | .staGotIp => wifi.staGotIp
  | .giveup => wifi.staGiveupCb

end Wifi

/-- An event after some time without one. -/
structure WifiAction where
  elapsedUs : Nat
  event : WifiEvent

namespace Wifi

def wait (wifi : Wifi) (elapsedUs : Nat) : Wifi := { wifi with clockUs := wifi.clockUs + elapsedUs }

/-- Nothing runs after `esp_restart`. -/
def step (wifi : Wifi) (action : WifiAction) : Wifi :=
  if wifi.restarted then wifi else (wifi.wait action.elapsedUs).perform action.event

/-- Time stops at the expiry of a running timer until its callback has run, which runs
then and only then. -/
def InTime (wifi : Wifi) (action : WifiAction) : Prop :=
  (∀ due ∈ wifi.giveupAtUs, wifi.clockUs + action.elapsedUs ≤ due) ∧
    (action.event = .giveup → wifi.giveupAtUs = some (wifi.clockUs + action.elapsedUs))

instance (wifi : Wifi) (action : WifiAction) : Decidable (wifi.InTime action) :=
  inferInstanceAs (Decidable (_ ∧ _))

/-- Boot and STA_GOT_IP leave no outage and no timer behind. The clock has left its
zero: `app_main` begins with a delay. -/
structure Linked (wifi : Wifi) : Prop where
  staDownSinceUs : wifi.staDownSinceUs = 0
  giveupAtUs : wifi.giveupAtUs = none
  restarted : wifi.restarted = false
  clockUs : 0 < wifi.clockUs

theorem bootLoopCount_forceRecovery (config : Config) :
    (forceRecovery config).bootLoopCount = max ddBootLoopRecoveryThreshold config.bootLoopCount := by
  have raised (rounds : Nat) : ∀ config : Config, config.bootLoopCount + rounds < 2 ^ 32 →
      (Config.bootLoopInc^[rounds] config).bootLoopCount = config.bootLoopCount + rounds := by
    induction rounds with
    | zero => exact fun _ _ => rfl
    | succ rounds ih =>
        intro config small
        have next : config.bootLoopInc.bootLoopCount = config.bootLoopCount + 1 :=
          Nat.mod_eq_of_lt (by omega)
        rw [Function.iterate_succ_apply, ih _ (by omega), next]
        omega
  have kept (config : Config) : (config.setRestartCause .bootLoop).bootLoopCount =
      config.bootLoopCount := rfl
  rw [forceRecovery, kept]
  by_cases low : config.bootLoopCount < ddBootLoopRecoveryThreshold
  · rw [raised _ _ (by rw [ddBootLoopRecoveryThreshold] at *; omega)]
    omega
  · rw [Nat.sub_eq_zero_of_le (Nat.not_lt.mp low), Function.iterate_zero_apply]
    omega

theorem forceRecovery_inRecoveryMode (config : Config) :
    (forceRecovery config).inRecoveryMode := by
  rw [Config.inRecoveryMode, bootLoopCount_forceRecovery]
  exact decide_eq_true (le_max_left _ _)

theorem staDisconnected_restarted (wifi : Wifi) :
    wifi.staDisconnected.restarted = wifi.restarted := by
  rw [staDisconnected]
  split_ifs <;> rfl

theorem staGiveupCb_cases (wifi : Wifi) :
    wifi.staGiveupCb.restarted = wifi.restarted ∨
      wifi.staGiveupCb.config = forceRecovery wifi.config := by
  rw [staGiveupCb]
  split_ifs
  · exact .inl rfl
  · exact .inl rfl
  · exact .inr rfl
  · exact .inl rfl

/-- The device restarts only for recovery. -/
theorem step_recovers {wifi : Wifi} (recovers : wifi.restarted → wifi.config.inRecoveryMode)
    (action : WifiAction) :
    (wifi.step action).restarted → (wifi.step action).config.inRecoveryMode := by
  rw [step]
  split
  · exact recovers
  · rename_i running
    intro restarted
    cases event : action.event with
    | staDisconnected =>
        rw [event, perform, staDisconnected_restarted] at restarted
        exact absurd restarted running
    | apStart =>
        rw [event] at restarted
        exact absurd restarted running
    | staGotIp =>
        rw [event] at restarted
        exact absurd restarted running
    | giveup =>
        rw [event, perform] at restarted
        rw [perform]
        rcases staGiveupCb_cases (wifi.wait action.elapsedUs) with same | forced
        · rw [same] at restarted
          exact absurd restarted running
        · rw [forced]
          exact forceRecovery_inRecoveryMode _

end Wifi

/-- A run through an outage, with the time of its first disconnect and the time the
give-up timer was first armed. -/
structure Outage where
  wifi : Wifi
  began : Option Nat
  armed : Option Nat
  deriving DecidableEq

namespace Outage

def before (wifi : Wifi) : Outage := { wifi := wifi, began := none, armed := none }

def step (outage : Outage) (action : WifiAction) : Outage :=
  let next := outage.wifi.step action
  { wifi := next
    began := outage.began.or (if action.event = .staDisconnected then some next.clockUs else none)
    armed := outage.armed.or (next.giveupAtUs.map fun _ => next.clockUs) }

/-- The last moment for the restart, the check's period apart. -/
def lastCheckUs (began armed : Nat) : Nat := max armed (began + staGiveUpMs * 1000)

/-- The device still runs later than it may. -/
def Overdue (outage : Outage) : Prop :=
  outage.wifi.restarted = false ∧ ∃ began ∈ outage.began, ∃ armed ∈ outage.armed,
    lastCheckUs began armed + giveupPeriodUs < outage.wifi.clockUs

/-- An outage: no address is obtained. -/
def Lasts (outage : Outage) (action : WifiAction) : Prop :=
  action.event ≠ .staGotIp ∧ outage.wifi.InTime action

/-- No disconnect enters slow-retry mode again, and so restarts the give-up timer, later
than the check is due. -/
def Unpostponed (outage : Outage) (action : WifiAction) : Prop :=
  action.event = .staDisconnected → staRetryMax ≤ outage.wifi.staRetry →
    ∀ began ∈ outage.began, ∀ armed ∈ outage.armed,
      outage.wifi.clockUs + action.elapsedUs ≤ lastCheckUs began armed

instance (outage : Outage) (action : WifiAction) : Decidable (outage.Lasts action) :=
  inferInstanceAs (Decidable (_ ∧ _))

instance (outage : Outage) (action : WifiAction) : Decidable (outage.Unpostponed action) :=
  inferInstanceAs (Decidable (_ → _))

/-- The state of an outage on a device that has not restarted: a timer that was armed
runs, and fires before the check is overdue. -/
structure Checked (outage : Outage) : Prop where
  clockUs : 0 < outage.wifi.clockUs
  quiet : outage.began = none → outage.wifi.staDownSinceUs = 0
  began : ∀ began ∈ outage.began,
    outage.wifi.staDownSinceUs = began ∧ 0 < began ∧ outage.wifi.state ≠ .staGotIp
  armed : outage.armed.isSome → outage.wifi.giveupAtUs.isSome
  due : ∀ due ∈ outage.wifi.giveupAtUs, outage.wifi.clockUs ≤ due ∧
    ∃ began ∈ outage.began, ∃ armed ∈ outage.armed,
      due ≤ lastCheckUs began armed + giveupPeriodUs

namespace Checked

variable {outage : Outage}

theorem before {wifi : Wifi} (linked : wifi.Linked) : (Outage.before wifi).Checked where
  clockUs := linked.clockUs
  quiet _ := linked.staDownSinceUs
  began _ member := by cases member
  armed isArmed := by cases isArmed
  due _ running := by cases linked.giveupAtUs.symm.trans running

theorem notOverdue (checked : outage.Checked) : ¬ outage.Overdue := by
  rintro ⟨_, began, isBegan, armed, isArmed, late⟩
  obtain ⟨due, running⟩ := Option.isSome_iff_exists.mp (checked.armed (Option.isSome_of_mem isArmed))
  obtain ⟨reached, began', isBegan', armed', isArmed', soon⟩ := checked.due due running
  cases isBegan.symm.trans isBegan'
  cases isArmed.symm.trans isArmed'
  omega

theorem wait (checked : outage.Checked) {elapsedUs : Nat}
    (inTime : ∀ due ∈ outage.wifi.giveupAtUs, outage.wifi.clockUs + elapsedUs ≤ due) :
    Checked { outage with wifi := outage.wifi.wait elapsedUs } where
  clockUs := Nat.add_pos_left checked.clockUs _
  quiet := checked.quiet
  began := checked.began
  armed := checked.armed
  due due running := ⟨inTime due running, (checked.due due running).2⟩

end Checked

/-- What an event at the present instant does. -/
def react (outage : Outage) (event : WifiEvent) : Outage :=
  let next := outage.wifi.perform event
  { wifi := next
    began := outage.began.or (if event = .staDisconnected then some next.clockUs else none)
    armed := outage.armed.or (next.giveupAtUs.map fun _ => next.clockUs) }

theorem step_running {outage : Outage} (running : outage.wifi.restarted = false)
    (action : WifiAction) :
    outage.step action =
      react { outage with wifi := outage.wifi.wait action.elapsedUs } action.event := by
  simp [step, react, Wifi.step, running]

theorem staDisconnected_frame (wifi : Wifi) :
    wifi.staDisconnected.clockUs = wifi.clockUs ∧
      wifi.staDisconnected.state ≠ .staGotIp ∧
      wifi.staDisconnected.staDownSinceUs =
        (if wifi.staDownSinceUs = 0 then wifi.clockUs else wifi.staDownSinceUs) ∧
      wifi.staDisconnected.giveupAtUs =
        if wifi.staRetry < staRetryMax then wifi.giveupAtUs
        else some (wifi.clockUs + giveupPeriodUs) := by
  rw [Wifi.staDisconnected]
  split_ifs <;> simp [*]

namespace Checked

variable {outage : Outage}

/-- A disconnect begins the outage, or finds it begun. -/
theorem downSince (checked : outage.Checked) :
    ∃ began, outage.began.or (some outage.wifi.clockUs) = some began ∧ 0 < began ∧
      outage.wifi.staDisconnected.staDownSinceUs = began := by
  have now := checked.clockUs
  rw [(staDisconnected_frame outage.wifi).2.2.1]
  cases known : outage.began with
  | none =>
      rw [if_pos (checked.quiet known)]
      exact ⟨_, rfl, now, rfl⟩
  | some began =>
      obtain ⟨same, positive, _⟩ := checked.began began known
      rw [if_neg (by omega)]
      exact ⟨began, rfl, positive, same⟩

theorem staDisconnected (checked : outage.Checked)
    (soon : staRetryMax ≤ outage.wifi.staRetry → ∀ began ∈ outage.began, ∀ armed ∈ outage.armed,
      outage.wifi.clockUs ≤ lastCheckUs began armed) :
    (outage.react .staDisconnected).Checked := by
  obtain ⟨clock, state, _, timer⟩ := staDisconnected_frame outage.wifi
  obtain ⟨began, isBegan, positive, since⟩ := checked.downSince
  have begins : (outage.react .staDisconnected).began = some began := by
    simpa [react, Wifi.perform, clock] using isBegan
  have same : (outage.react .staDisconnected).wifi = outage.wifi.staDisconnected := rfl
  have kept {armed : Nat} (isArmed : armed ∈ outage.armed) :
      armed ∈ (outage.react .staDisconnected).armed := by
    rw [react, Option.mem_def.mp isArmed, Option.some_or]
    rfl
  refine ⟨by rw [same, clock]; exact checked.clockUs, by simp [begins], ?_, ?_, ?_⟩
  · intro other member
    rw [begins, Option.mem_some] at member
    exact member ▸ ⟨since, positive, state⟩
  · intro isArmed
    rw [same, timer]
    split
    · rename_i retries
      rw [if_pos retries] at timer
      have := checked.armed
      cases armed : outage.armed <;> simp_all [react, Wifi.perform]
    · rfl
  · intro due running
    rw [same, timer] at running
    rw [same, clock]
    split at running
    · -- the timer is left alone
      obtain ⟨reached, began', isBegan', armed, isArmed, bound⟩ := checked.due due running
      rw [Option.mem_def.mp isBegan', Option.some_or] at isBegan
      cases isBegan
      exact ⟨reached, began, begins, armed, kept isArmed, bound⟩
    · rename_i slow
      cases running
      refine ⟨Nat.le_add_right _ _, began, begins, ?_⟩
      cases isArmed : outage.armed with
      | none =>
          refine ⟨outage.wifi.clockUs, by simp [react, Wifi.perform, timer, slow, clock, isArmed], ?_⟩
          exact Nat.add_le_add_right (le_max_left _ _) _
      | some armed =>
          refine ⟨armed, kept isArmed, Nat.add_le_add_right ?_ _⟩
          obtain ⟨_, running⟩ := Option.isSome_iff_exists.mp (checked.armed (by simp [isArmed]))
          obtain ⟨_, began', isBegan', _⟩ := checked.due _ running
          rw [Option.mem_def.mp isBegan', Option.some_or] at isBegan
          cases isBegan
          exact soon (Nat.not_lt.mp slow) began isBegan' armed isArmed

theorem apStart (checked : outage.Checked) : (outage.react .apStart).Checked where
  clockUs := checked.clockUs
  quiet := by simpa [react, Wifi.perform] using checked.quiet
  began began member := by
    obtain ⟨same, positive, _⟩ := checked.began began (by simpa [react] using member)
    exact ⟨same, positive, fun state => by cases state⟩
  armed isArmed := by
    have := checked.armed
    cases armed : outage.armed <;> simp_all [react, Wifi.perform]
  due due running := by
    obtain ⟨reached, began, isBegan, armed, isArmed, bound⟩ := checked.due due running
    refine ⟨reached, began, by simpa [react] using isBegan, armed, ?_, bound⟩
    rw [react, Option.mem_def.mp isArmed, Option.some_or]
    rfl

/-- A check that does not restart the device came before the outage had lasted. -/
theorem giveup (checked : outage.Checked)
    (onTime : outage.wifi.giveupAtUs = some outage.wifi.clockUs)
    (stays : (outage.react .giveup).wifi.restarted = false) : (outage.react .giveup).Checked := by
  obtain ⟨_, began, isBegan, armed, isArmed, _⟩ := checked.due _ onTime
  obtain ⟨since, positive, state⟩ := checked.began began isBegan
  have early : outage.wifi.clockUs < began + staGiveUpMs * 1000 ∧ (outage.react .giveup).wifi =
      { outage.wifi with giveupAtUs := some (outage.wifi.clockUs + giveupPeriodUs) } := by
    simp only [react, Wifi.perform, Wifi.staGiveupCb, onTime, Option.map_some, state, if_false,
      since, Nat.ne_of_gt positive] at stays ⊢
    split at stays
    · cases stays
    · rename_i short
      rw [if_neg short]
      exact ⟨by omega, rfl⟩
  obtain ⟨early, same⟩ := early
  have begins : (outage.react .giveup).began = outage.began := by simp [react]
  have arms : (outage.react .giveup).armed = outage.armed := by
    rw [react, Option.mem_def.mp isArmed, Option.some_or]
  refine ⟨?_, ?_, ?_, ?_, ?_⟩
  · rw [same]
    exact checked.clockUs
  · rw [begins, same]
    exact checked.quiet
  · rw [begins, same]
    exact checked.began
  · rw [same]
    exact fun _ => rfl
  · intro due running
    rw [same] at running ⊢
    cases running
    rw [begins, arms]
    refine ⟨Nat.le_add_right _ _, began, isBegan, armed, isArmed, Nat.add_le_add_right ?_ _⟩
    exact (Nat.le_of_lt early).trans (le_max_right _ _)

theorem step (checked : outage.wifi.restarted = false → outage.Checked) {action : WifiAction}
    (lasts : outage.Lasts action) (unpostponed : outage.Unpostponed action)
    (stays : (outage.step action).wifi.restarted = false) : (outage.step action).Checked := by
  have running : outage.wifi.restarted = false := by
    cases restarted : outage.wifi.restarted with
    | false => rfl
    | true => simp [Outage.step, Wifi.step, restarted] at stays
  obtain ⟨elapsedUs, event⟩ := action
  obtain ⟨noAddress, inTime, onTime⟩ := lasts
  rw [step_running running] at stays ⊢
  have waited := (checked running).wait inTime
  cases event with
  | staDisconnected => exact waited.staDisconnected (unpostponed rfl)
  | apStart => exact waited.apStart
  | staGotIp => exact absurd rfl noAddress
  | giveup => exact waited.giveup (onTime rfl) stays

end Checked

/-- In an outage whose disconnects do not re-enter slow-retry mode once the check is due,
the device restarts for recovery before the check is overdue. -/
theorem giveup_notOverdue {wifi : Wifi} (linked : wifi.Linked) (actions : List WifiAction)
    (guarded : Guarded step (fun outage action => outage.Lasts action ∧ outage.Unpostponed action)
      (before wifi) actions) :
    ¬ (run step (before wifi) actions).Overdue ∧
      ((run step (before wifi) actions).wifi.restarted →
        (run step (before wifi) actions).wifi.config.inRecoveryMode) := by
  refine ⟨fun overdue => ?_, run_kept
    (fun outage : Outage => outage.wifi.restarted → outage.wifi.config.inRecoveryMode)
    (fun outage action recovers => Wifi.step_recovers recovers action)
    fun restarted => absurd restarted (by simp [before, linked.restarted])⟩
  have checked := run_invariant
    (fun outage : Outage => outage.wifi.restarted = false → outage.Checked)
    (fun _ _ checked guard stays => Checked.step checked guard.1 guard.2 stays)
    (fun _ => Checked.before linked) guarded
  exact (checked overdue.1).notOverdue overdue

/-- A device that has obtained an address. -/
def online : Wifi where
  state := .staGotIp
  staRetry := 0
  staDownSinceUs := 0
  giveupAtUs := none
  config := Config.blank
  restarted := false
  clockUs := 5000000

/-- Disconnects spaced apart by whole seconds. -/
def disconnects (seconds count : Nat) : List WifiAction :=
  List.replicate count ⟨seconds * 1000000, .staDisconnected⟩

theorem giveup_notOverdue_quiet :
    let actions := disconnects 20 6 ++ List.replicate 9 ⟨60000000, .giveup⟩
    ¬ (run step (before online) actions).Overdue ∧
      ((run step (before online) actions).wifi.restarted →
        (run step (before online) actions).wifi.config.inRecoveryMode) :=
  giveup_notOverdue ⟨rfl, rfl, rfl, by decide⟩ _ (by decide +kernel)

/-- Disconnects nine seconds apart restart the timer every 54 seconds: it never fires. -/
theorem giveup_postponed :
    let actions := disconnects 9 80
    Guarded step Outage.Lasts (before online) actions ∧
      (run step (before online) actions).Overdue := by
  refine ⟨by decide +kernel, by decide +kernel, 14000000, by decide +kernel, 59000000,
    by decide +kernel, by decide +kernel⟩

end Outage

end LeanDingdong
