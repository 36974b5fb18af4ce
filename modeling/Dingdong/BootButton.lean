import Dingdong.AttendanceCore
import Dingdong.FactoryReset
import Dingdong.HttpLogins

/-!
The BOOT button of `main.c`. A task looks at it ten times a second, whatever else the device
does, and resets the device once the button was found down at every look of five seconds.
-/

namespace LeanDingdong

open Runs

/-- `LONG_PRESS_MS` -/
def longPressMs : Int := 5000

/-- More than any task of the device waits for its turn. -/
def stallUs : Nat := 24 * 86400 * 1000000

/-- The variables of `boot_button_task`. -/
structure ButtonTask where
  /-- 0 while the button is up -/
  pressStartUs : Nat
  lastLogSec : Int

def ButtonTask.start : ButtonTask := { pressStartUs := 0, lastLogSec := 0 }

/-- A look at the button. -/
structure ButtonPoll where
  pressed : Bool
  nowUs : Nat
  /-- from the first reading of the clock to the second -/
  readUs : Nat

def ButtonPoll.endUs (poll : ButtonPoll) : Nat := poll.nowUs + poll.readUs

structure Polled where
  task : ButtonTask
  /-- the seconds in the line about a button that is held -/
  line : Option Int
  resets : Bool

/-- One round of the loop, up to the reset. -/
def ButtonTask.poll (task : ButtonTask) (poll : ButtonPoll) : Polled :=
  if poll.pressed then
    let task := if task.pressStartUs = 0 then
      { pressStartUs := poll.nowUs, lastLogSec := 0 } else task
    let durMs := castInt (((poll.endUs : Int) - task.pressStartUs).tdiv 1000)
    let durSec := durMs.tdiv 1000
    if task.lastLogSec < durSec then
      { task := { task with lastLogSec := durSec }
        line := some durSec
        resets := longPressMs ≤ durMs }
    else { task := task, line := none, resets := longPressMs ≤ durMs }
  else { task := { task with pressStartUs := 0 }, line := none, resets := false }

/-- The looks since the button was last found up, the newest first. -/
def holdOf (polls : List ButtonPoll) : List ButtonPoll := polls.takeWhile ButtonPoll.pressed

/-- The newest look ends a hold of five seconds. -/
def HeldLong (poll : ButtonPoll) (polls : List ButtonPoll) : Prop :=
  ∃ first ∈ holdOf (poll :: polls), first.nowUs + 5000000 ≤ poll.endUs

instance (poll : ButtonPoll) (polls : List ButtonPoll) : Decidable (HeldLong poll polls) :=
  inferInstanceAs (Decidable (∃ first ∈ _, _))

/-- The device and the task that looks at its button. -/
structure ButtonDevice where
  device : Device
  task : ButtonTask
  /-- the looks since the start, the newest first -/
  polls : List ButtonPoll
  /-- the task has reset the device and waits half a second before it restarts it -/
  leaving : Bool

def DeviceEvent.isButton : DeviceEvent → Bool
  | .bootButton _ => true
  | _ => false

def DeviceEvent.isRestart : DeviceEvent → Bool
  | .restart => true
  | _ => false

inductive ButtonEvent where
  /-- anything else the device does -/
  | device (event : DeviceEvent) (apart : event.isButton = false)
  | look (pressed : Bool) (readUs : Nat) (world : World)

/-- An event after some time without one. -/
structure ButtonAction where
  elapsedUs : Nat
  event : ButtonEvent

namespace ButtonDevice

def boot (device : Device) : ButtonDevice :=
  { device := device, task := ButtonTask.start, polls := [], leaving := false }

def wait (held : ButtonDevice) (elapsedUs : Nat) : ButtonDevice :=
  { held with device := held.device.wait elapsedUs }

/-- What the task sees at a look. -/
def sees (held : ButtonDevice) (pressed : Bool) (readUs : Nat) : ButtonPoll :=
  { pressed := pressed, nowUs := held.device.clockUs, readUs := readUs }

variable (platform : Platform)

def perform (held : ButtonDevice) : ButtonEvent → ButtonDevice
  | .device event _ =>
      let device := held.device.perform platform event
      if event.isRestart then boot device else { held with device := device }
  | .look pressed readUs world =>
      let poll := held.sees pressed readUs
      let polled := held.task.poll poll
      let device := held.device.wait readUs
      { device := if polled.resets then device.bootButton world else device
        task := polled.task
        polls := poll :: held.polls
        leaving := polled.resets }

def step (held : ButtonDevice) (action : ButtonAction) : ButtonDevice :=
  (held.wait action.elapsedUs).perform platform action.event

/-- The task runs, some seconds after the start, is not kept from it for weeks, and looks no
more once it has reset the device. -/
def Prompt (held : ButtonDevice) : ButtonEvent → Prop
  | .device _ _ => True
  | .look _ readUs _ =>
      held.leaving = false ∧ 0 < held.device.clockUs ∧ readUs < stallUs ∧
        ∀ last ∈ held.polls.head?, held.device.clockUs + readUs < last.endUs + stallUs

instance (held : ButtonDevice) : ∀ event, Decidable (held.Prompt event)
  | .device _ _ => isTrue trivial
  | .look _ _ _ => inferInstanceAs (Decidable (_ ∧ _ ∧ _ ∧ ∀ last ∈ _, _))

end ButtonDevice

section Task

variable {task : ButtonTask} {polls : List ButtonPoll} {poll : ButtonPoll} {clockUs : Nat}

/-- The task knows when the button was first found down. -/
structure Watches (task : ButtonTask) (polls : List ButtonPoll) (clockUs : Nat) : Prop where
  up : task.pressStartUs = 0 → holdOf polls = []
  first : task.pressStartUs ≠ 0 → ∃ first ∈ holdOf polls, first.nowUs = task.pressStartUs
  least : ∀ poll ∈ holdOf polls, task.pressStartUs ≤ poll.nowUs
  short : task.pressStartUs ≠ 0 → ∀ last ∈ polls.head?, last.endUs < task.pressStartUs + 5000000
  clock : ∀ poll ∈ polls, poll.endUs ≤ clockUs

theorem Watches.start : Watches ButtonTask.start [] clockUs where
  up _ := rfl
  first down := absurd rfl down
  least _ member := absurd member List.not_mem_nil
  short down := absurd rfl down
  clock _ member := absurd member List.not_mem_nil

theorem Watches.later {laterUs : Nat} (watches : Watches task polls clockUs)
    (later : clockUs ≤ laterUs) : Watches task polls laterUs :=
  { watches with clock := fun poll member => (watches.clock poll member).trans later }

/-- The start of the press a look belongs to. -/
def ButtonTask.since (task : ButtonTask) (poll : ButtonPoll) : Nat :=
  if task.pressStartUs = 0 then poll.nowUs else task.pressStartUs

theorem holdOf_pressed (down : poll.pressed = true) (polls : List ButtonPoll) :
    holdOf (poll :: polls) = poll :: holdOf polls := List.takeWhile_cons_of_pos down

theorem holdOf_up (up : poll.pressed = false) (polls : List ButtonPoll) :
    holdOf (poll :: polls) = [] := List.takeWhile_cons_of_neg (by simp [up])

/-- A look at a button that is down, with the start of its press. -/
theorem poll_pressed (task : ButtonTask) (down : poll.pressed = true) :
    (task.poll poll).task.pressStartUs = task.since poll ∧
      (task.poll poll).resets = decide
        (longPressMs ≤ castInt (((poll.endUs : Int) - task.since poll).tdiv 1000)) := by
  rw [ButtonTask.poll, if_pos down, ButtonTask.since]
  dsimp only
  by_cases up : task.pressStartUs = 0
  · rw [if_pos up, if_pos up]
    split_ifs <;> exact ⟨rfl, rfl⟩
  · rw [if_neg up, if_neg up]
    split_ifs <;> exact ⟨rfl, rfl⟩

theorem Watches.since_le (watches : Watches task polls poll.nowUs) :
    task.since poll ≤ poll.nowUs := by
  rw [ButtonTask.since]
  split_ifs with up
  · exact le_rfl
  · obtain ⟨first, member, same⟩ := watches.first up
    have before := watches.clock first (List.takeWhile_subset _ member)
    rw [ButtonPoll.endUs] at before
    omega

/-- As long as the task is not kept waiting, the milliseconds fit an `int`. -/
theorem Watches.since_short (watches : Watches task polls poll.nowUs)
    (quick : poll.readUs < stallUs)
    (prompt : ∀ last ∈ polls.head?, poll.endUs < last.endUs + stallUs) :
    poll.endUs < task.since poll + (5000000 + stallUs) := by
  rw [ButtonTask.since]
  split_ifs with up
  · rw [ButtonPoll.endUs]
    omega
  · obtain ⟨first, member, _⟩ := watches.first up
    obtain ⟨last, earlier, rfl⟩ := List.exists_cons_of_ne_nil
      (List.ne_nil_of_mem (List.takeWhile_subset _ member))
    have recent := watches.short up last rfl
    have soon := prompt last rfl
    omega

/-- The task resets the device at a look that ends a hold of five seconds. -/
theorem Watches.resets_iff (watches : Watches task polls poll.nowUs)
    (quick : poll.readUs < stallUs)
    (prompt : ∀ last ∈ polls.head?, poll.endUs < last.endUs + stallUs) :
    (task.poll poll).resets = true ↔ HeldLong poll polls := by
  cases down : poll.pressed with
  | false =>
      rw [HeldLong, holdOf_up down]
      simp [ButtonTask.poll, down]
  | true =>
      have begun := watches.since_le
      have short := watches.since_short quick prompt
      have ends : poll.nowUs ≤ poll.endUs := Nat.le_add_right _ _
      have exact : castInt (((poll.endUs : Int) - task.since poll).tdiv 1000) =
          ((poll.endUs : Int) - task.since poll) / 1000 := by
        rw [stallUs] at short
        rw [Int.tdiv_eq_ediv_of_nonneg (by omega)]
        exact castInt_exact (by omega) (by omega)
      have since : (task.poll poll).resets = true ↔ task.since poll + 5000000 ≤ poll.endUs := by
        rw [(poll_pressed task down).2, exact, decide_eq_true_eq, longPressMs]
        omega
      rw [since, HeldLong, holdOf_pressed down]
      constructor
      · intro long
        by_cases up : task.pressStartUs = 0
        · rw [ButtonTask.since, if_pos up] at long
          exact ⟨poll, List.mem_cons_self, long⟩
        · obtain ⟨first, member, same⟩ := watches.first up
          rw [ButtonTask.since, if_neg up, ← same] at long
          exact ⟨first, List.mem_cons_of_mem _ member, long⟩
      · rintro ⟨first, member, long⟩
        rcases List.mem_cons.mp member with rfl | older
        · omega
        · have least := watches.least first older
          have nonzero : task.pressStartUs ≠ 0 := fun up =>
            List.ne_nil_of_mem older (watches.up up)
          rw [ButtonTask.since, if_neg nonzero]
          omega

/-- Without a reset the task still knows. -/
theorem Watches.looked (watches : Watches task polls poll.nowUs) (positive : 0 < poll.nowUs)
    (quick : poll.readUs < stallUs)
    (prompt : ∀ last ∈ polls.head?, poll.endUs < last.endUs + stallUs)
    (goesOn : (task.poll poll).resets = false) :
    Watches (task.poll poll).task (poll :: polls) poll.endUs := by
  have ends : poll.nowUs ≤ poll.endUs := Nat.le_add_right _ _
  have clock : ∀ look ∈ poll :: polls, look.endUs ≤ poll.endUs := by
    intro look member
    rcases List.mem_cons.mp member with rfl | older
    · exact le_rfl
    · exact (watches.clock look older).trans ends
  cases down : poll.pressed with
  | false =>
      have released : (task.poll poll).task.pressStartUs = 0 := by simp [ButtonTask.poll, down]
      have none := holdOf_up down polls
      refine ⟨fun _ => none, fun held => absurd released held, ?_, fun held => absurd released held,
        clock⟩
      rw [none]
      exact fun _ member => absurd member List.not_mem_nil
  | true =>
      have begun := watches.since_le
      have unheld : ¬ HeldLong poll polls := fun long =>
        absurd ((watches.resets_iff quick prompt).mpr long) (by simp [goesOn])
      have start := (poll_pressed task down).1
      have stretch := holdOf_pressed down polls
      have first : ∃ first ∈ holdOf (poll :: polls), first.nowUs = task.since poll := by
        rw [stretch, ButtonTask.since]
        split_ifs with up
        · exact ⟨poll, List.mem_cons_self, rfl⟩
        · obtain ⟨first, member, same⟩ := watches.first up
          exact ⟨first, List.mem_cons_of_mem _ member, same⟩
      obtain ⟨oldest, member, same⟩ := first
      constructor
      · intro up
        rw [start, ButtonTask.since] at up
        split_ifs at up with before
        · omega
        · exact absurd up before
      · exact fun _ => ⟨oldest, member, same.trans start.symm⟩
      · rw [start, stretch]
        intro look inside
        rcases List.mem_cons.mp inside with rfl | older
        · exact begun
        · rw [ButtonTask.since, if_neg fun up => List.ne_nil_of_mem older (watches.up up)]
          exact watches.least look older
      · intro _ last newest
        obtain rfl : poll = last := Option.some.inj newest
        rw [start]
        by_contra long
        exact unheld ⟨oldest, member, by omega⟩
      · exact clock

end Task

section Run

variable {platform : Platform} {held : ButtonDevice}

/-- The clock of a device that stays up does not go back. -/
theorem Device.clock_perform (device : Device) {event : DeviceEvent}
    (apart : event.isButton = false) (stays : event.isRestart = false) :
    device.clockUs ≤ (device.perform platform event).clockUs := by
  cases event with
  | bootButton => cases apart
  | restart => cases stays
  | healthyBoot | saveUptime | background => exact le_rfl
  | request uri method request world =>
      rw [Device.perform, serve]
      cases findRoute uri method with
      | none => exact le_rfl
      | some route =>
          show device.clockUs ≤ (handle platform world request device route).2.clockUs
          by_cases other : route ∉ [Route.authLoginPost, .authLogoutPost, .authChangePasswordPost]
          · exact (congrArg Prod.snd (handle_seated platform world request device other)).ge
          cases route with
          | authLoginPost =>
              rw [handle]
              rcases authLoginPost_cases platform world request device with
                ⟨_, _, _, same⟩ | ⟨_, elapsedUs, same⟩ <;> rw [same]
              exact Nat.le_add_right _ _
          | authLogoutPost => rw [handle, authLogoutPost_eq]
          | authChangePasswordPost =>
              rw [handle]
              rcases authChangePasswordPost_cases platform world request device with
                ⟨_, _, same⟩ | ⟨_, _, later, _⟩
              · exact same.ge
              · exact later
          | _ => exact absurd (by decide) other

namespace ButtonDevice

/-- As long as it looks, the task knows the looks of its device. -/
def Aware (held : ButtonDevice) : Prop :=
  held.leaving = false → Watches held.task held.polls held.device.clockUs

theorem Aware.wait (aware : held.Aware) (elapsedUs : Nat) : (held.wait elapsedUs).Aware :=
  fun stays => (aware stays).later (Nat.le_add_right _ _)

theorem Aware.resets_iff (aware : held.Aware) {pressed : Bool} {readUs : Nat} {world : World}
    (prompt : held.Prompt (.look pressed readUs world)) :
    (held.task.poll (held.sees pressed readUs)).resets = true ↔
      HeldLong (held.sees pressed readUs) held.polls := by
  have watches : Watches held.task held.polls (held.sees pressed readUs).nowUs := aware prompt.1
  exact watches.resets_iff prompt.2.2.1 prompt.2.2.2

theorem Aware.perform (aware : held.Aware) {event : ButtonEvent} (prompt : held.Prompt event) :
    (held.perform platform event).Aware := by
  cases event with
  | device event apart =>
      rw [ButtonDevice.perform]
      cases restarts : event.isRestart with
      | true => exact fun _ => Watches.start
      | false =>
          exact fun stays =>
            (aware stays).later (Device.clock_perform held.device apart restarts)
  | look pressed readUs world =>
      intro goesOn
      have stays : (held.task.poll (held.sees pressed readUs)).resets = false := goesOn
      have watches : Watches held.task held.polls (held.sees pressed readUs).nowUs :=
        aware prompt.1
      have looked := watches.looked prompt.2.1 prompt.2.2.1 prompt.2.2.2 stays
      simp only [ButtonDevice.perform, stays, Bool.false_eq_true, if_false]
      exact looked

/-- In every run, whatever requests, writes and restarts come between the looks at the BOOT
button: a look resets the device, at once, exactly when the button was found down at every look
from one five seconds earlier on, and a restart that follows comes up as after a factory reset.
Any other look leaves the device alone. -/
theorem look_resets_iff (platform : Platform) (start : Device) (actions : List ButtonAction)
    (guarded : Guarded (step platform)
      (fun held action => (held.wait action.elapsedUs).Prompt action.event)
      (boot start) actions)
    (reached : ButtonDevice) (isReached : run (step platform) (boot start) actions = reached)
    (elapsedUs : Nat) (pressed : Bool) (readUs : Nat) (world : World)
    (prompt : (reached.wait elapsedUs).Prompt (.look pressed readUs world)) :
    let before := reached.wait elapsedUs
    let after := reached.step platform ⟨elapsedUs, .look pressed readUs world⟩
    (HeldLong (before.sees pressed readUs) reached.polls →
      after.device = (before.device.wait readUs).bootButton world ∧
        (world.reset = (fun _ => false) → world.unlinkFails = false →
          let restarted := after.device.restart platform
          restarted.chassis.config.bootMode = .firstRun ∧
            restarted.bootCause = .factory ∧ restarted.store = Store.empty)) ∧
      (¬ HeldLong (before.sees pressed readUs) reached.polls →
        after.device = before.device.wait readUs) := by
  intro before after
  have aware : reached.Aware := by
    rw [← isReached]
    refine run_invariant Aware (fun held action kept here => ?_) (fun _ => Watches.start) guarded
    exact (kept.wait action.elapsedUs).perform here
  have resets := (aware.wait elapsedUs).resets_iff prompt
  have stepped : after = before.perform platform (.look pressed readUs world) := rfl
  rw [ButtonDevice.perform] at stepped
  constructor
  · intro long
    have device : after.device = (before.device.wait readUs).bootButton world := by
      rw [stepped]
      exact if_pos (resets.mpr long)
    refine ⟨device, fun erased unlinked => ?_⟩
    have booted := (@Device.ResetAndRestarted.button platform (before.device.wait readUs) world
      erased unlinked).boots
    rw [Device.perform] at booted
    rw [device, booted]
    exact ⟨rfl, rfl, rfl⟩
  · intro short
    rw [stepped]
    exact if_neg fun reset => short (resets.mp reset)

/-- The button is found down from the fifth second on, ten times a second. -/
def pressedLooks (count : Nat) : List ButtonAction :=
  ⟨5000000, .look true 0 sampleWorld⟩ ::
    List.replicate count ⟨100000, .look true 0 sampleWorld⟩

theorem look_resets_iff_fiveSeconds :
    let start := Device.boot samplePlatform Flash.blank
    let reached := run (step samplePlatform) (boot start) (pressedLooks 49)
    let after := reached.step samplePlatform ⟨100000, .look true 0 sampleWorld⟩
    reached.device.bootCause ≠ .factory ∧
      (after.device.restart samplePlatform).bootCause = .factory := by
  have result := look_resets_iff samplePlatform (Device.boot samplePlatform Flash.blank)
    (pressedLooks 49) (by decide +kernel) _ rfl 100000 true 0 sampleWorld (by decide +kernel)
  exact ⟨by decide +kernel, ((result.1 (by decide +kernel)).2 rfl rfl).2.1⟩

end ButtonDevice

end Run

end LeanDingdong
