import Dingdong.HttpWrites

/-!
The forced recovery of a device whose boots failed, and the setup that it keeps open.
Recovery is decided at boot by the boot-loop counter, and the setup looks at the same
counter again when a request comes.
-/

namespace LeanDingdong

open Runs

namespace Device

variable {platform : Platform} {device : Device}

/-- The event leaves the device running. -/
def StaysUp (_ : Device) : DeviceEvent → Prop
  | .restart => False
  | _ => True

/-- The event does not clear the boot-loop counter: neither the timer of a healthy boot
nor a factory reset. -/
def KeepsCounter (platform : Platform) (device : Device) (event : DeviceEvent) : Prop :=
  event ≠ .healthyBoot ∧ ¬ ResetsConfig platform device event

theorem bootLoopCount_clear (config : Config) : config.bootLoopClear.bootLoopCount = 0 := by
  rw [Config.bootLoopClear]
  split_ifs with zero
  · exact zero
  · rfl

/-- What one event does to the counter while the device stays up. -/
theorem perform_counter (platform : Platform) {event : DeviceEvent} (up : StaysUp device event) :
    KeepsCounter platform device event ∧
        (device.perform platform event).chassis.config.bootLoop = device.chassis.config.bootLoop ∨
      ¬ KeepsCounter platform device event ∧
        (device.perform platform event).chassis.config.bootLoopCount = 0 := by
  cases event with
  | request uri method request world =>
      rcases request_config platform device uri method request world with
        ⟨resets, after⟩ | ⟨unreset, writes⟩
      · exact .inr ⟨fun keeps => keeps.2 resets, by rw [after]; rfl⟩
      · refine .inl ⟨⟨by simp, unreset⟩, ?_⟩
        exact writes.invariant (P := fun config => config.bootLoop = device.chassis.config.bootLoop)
          (fun _ _ write same => write.bootLoop.trans same) rfl
  | healthyBoot => exact .inr ⟨fun keeps => keeps.1 rfl, bootLoopCount_clear _⟩
  | saveUptime | background => exact .inl ⟨⟨by simp, id⟩, rfl⟩
  | bootButton world =>
      rw [perform, bootButton, chassis_scheduleRestart, factoryReset_config]
      cases fails : world.reset .dingdong with
      | true => exact .inl ⟨⟨by simp, by simp [ResetsConfig, fails]⟩, rfl⟩
      | false => exact .inr ⟨fun keeps => keeps.2 fails, rfl⟩
  | restart => exact up.elim

/-- Along a run the counter stays until it is cleared, and is zero from then on. -/
theorem run_counter {start : Device} {actions : List DeviceAction}
    (up : Guarded (step platform) (Meets StaysUp) start actions) :
    Guarded (step platform) (Meets (KeepsCounter platform)) start actions ∧
        (run (step platform) start actions).chassis.config.bootLoop = start.chassis.config.bootLoop ∨
      ¬ Guarded (step platform) (Meets (KeepsCounter platform)) start actions ∧
        (run (step platform) start actions).chassis.config.bootLoopCount = 0 := by
  induction actions using List.reverseRecOn with
  | nil => exact .inl ⟨trivial, rfl⟩
  | append_singleton past action ih =>
      rw [guarded_snoc] at up
      rw [guarded_snoc, run_append]
      have last := perform_counter platform up.2
      rcases ih up.1 with ⟨kept, counter⟩ | ⟨cleared, zero⟩
      · rcases last with ⟨keeps, same⟩ | ⟨clears, zero⟩
        · exact .inl ⟨⟨kept, keeps⟩, same.trans counter⟩
        · exact .inr ⟨fun both => clears both.2, zero⟩
      · refine .inr ⟨fun both => cleared both.1, ?_⟩
        rcases last with ⟨_, same⟩ | ⟨_, zero⟩
        · rw [Config.bootLoopCount_stored] at zero ⊢
          exact (congrArg (fun stored => stored.getD 0) same).trans zero
        · exact zero

/-- The refusal comes from the lock of the setup and from nothing else. -/
theorem setupPost_conflict (world : World) (request : Request) :
    (setupPost platform world request device).1 = .text "409 Conflict" "already configured" ↔
      setupLocked device.chassis.config world.reads = true := by
  have other {status message : String} (different : status ≠ "409 Conflict") :
      Reply.text status message ≠ .text "409 Conflict" "already configured" :=
    fun same => different (congrArg Reply.status same)
  constructor
  · intro refused
    by_contra unlocked
    rw [setupPost, if_neg unlocked, withBody] at refused
    revert refused
    cases recvJsonBody platform world request with
    | none => exact other (by decide)
    | some body =>
        dsimp only
        cases refusal : setupRefusal body (device.chassis.config.hasAdmin world.reads) with
        | some reply =>
            rw [setupRefusal] at refusal
            dsimp only at refusal ⊢
            split_ifs at refusal
            all_goals
              rw [← Option.some.inj refusal]
              exact other (by decide)
        | none =>
            dsimp only
            split_ifs <;> exact other (by decide)
  · intro locked
    rw [setupPost, if_pos locked]

/-- In a forced recovery the setup is refused as configured exactly when the counter has
been cleared meanwhile, or is not read, and both credentials are seen. -/
theorem recovery_setupRefused (platform : Platform) (start : Device)
    (recovering : start.chassis.config.inRecoveryMode = true) (actions : List DeviceAction)
    (up : Guarded (step platform) (Meets StaysUp) start actions)
    (hasAdmin : (run (step platform) start actions).chassis.config.hasAdmin = true)
    (world : World) (request : Request) :
    (setupPost platform world request (run (step platform) start actions)).1 =
        .text "409 Conflict" "already configured" ↔
      (¬ Guarded (step platform) (Meets (KeepsCounter platform)) start actions ∨
          world.reads.bootLoopFails = true) ∧
        world.reads.hasAdminFails = false ∧ world.reads.hasWifiFails = false ∧
        (run (step platform) start actions).chassis.config.hasWifi = true := by
  have admin : (run (step platform) start actions).chassis.config.hasAdmin world.reads = true ↔
      world.reads.hasAdminFails = false := by
    rw [Config.hasAdmin_stored] at hasAdmin
    rw [Config.hasAdmin, hasAdmin]
    cases world.reads.hasAdminFails <;> simp
  have wifi : (run (step platform) start actions).chassis.config.hasWifi world.reads = true ↔
      world.reads.hasWifiFails = false ∧
        (run (step platform) start actions).chassis.config.hasWifi = true := by
    rw [Config.hasWifi]
    cases world.reads.hasWifiFails <;> simp [Config.hasWifi_stored]
  have settled : (run (step platform) start actions).chassis.config.inRecoveryMode world.reads =
        false ↔ ¬ Guarded (step platform) (Meets (KeepsCounter platform)) start actions ∨
          world.reads.bootLoopFails = true := by
    rw [Config.inRecoveryMode, decide_eq_false_iff_not, Config.bootLoopCount]
    rw [Config.inRecoveryMode, decide_eq_true_iff, Config.bootLoopCount_stored] at recovering
    cases world.reads.bootLoopFails with
    | true => simp [ddBootLoopRecoveryThreshold]
    | false =>
        rw [if_neg Bool.false_ne_true, or_iff_left Bool.false_ne_true]
        rcases run_counter up with ⟨kept, counter⟩ | ⟨cleared, zero⟩
        · rw [counter]
          exact ⟨fun below => absurd recovering below, fun cleared => absurd kept cleared⟩
        · rw [← Config.bootLoopCount_stored, zero]
          exact ⟨fun _ => cleared, fun _ => by decide⟩
  rw [setupPost_conflict, setupLocked, Bool.and_eq_true, Bool.and_eq_true, Bool.not_eq_true',
    admin, wifi, settled]
  tauto

/-- A configured device whose last two boots failed. -/
def failingFlash : Flash :=
  { Flash.blank with
    chassis := { Chassis.blank with
      config := { Config.blank with
        adminSalt := some (List.replicate 16 7)
        adminHash := some (List.replicate 32 5)
        wifiSsid := some (ascii "home")
        wifiPass := some (ascii "old secret")
        bootLoop := some 2 } } }

/-- New WiFi credentials and nothing else. -/
def wifiOnly : Request where
  cookie := []
  body := (JsonTree.object [(ascii "wifi_ssid", .text (ascii "home")),
    (ascii "wifi_password", .text (ascii "new secret"))]).print

theorem recovery_setupRefused_saved :
    let device := run (step samplePlatform) (boot samplePlatform failingFlash)
      [⟨30000000, .saveUptime 30 30⟩]
    (setupPost samplePlatform sampleWorld wifiOnly device).1 =
        .text "409 Conflict" "already configured" ↔
      (¬ Guarded (step samplePlatform) (Meets (KeepsCounter samplePlatform))
            (boot samplePlatform failingFlash) [⟨30000000, .saveUptime 30 30⟩] ∨
          sampleWorld.reads.bootLoopFails = true) ∧
        sampleWorld.reads.hasAdminFails = false ∧ sampleWorld.reads.hasWifiFails = false ∧
        device.chassis.config.hasWifi = true :=
  recovery_setupRefused samplePlatform (boot samplePlatform failingFlash) (by decide +kernel)
    [⟨30000000, .saveUptime 30 30⟩] ⟨trivial, trivial⟩ (by decide +kernel) sampleWorld wifiOnly

/-- The third boot comes up in recovery, and a minute later its timer closes the setup. -/
theorem healthyBoot_closesSetup :
    (boot samplePlatform failingFlash).chassis.config.inRecoveryMode = true ∧
      (setupPost samplePlatform sampleWorld wifiOnly (boot samplePlatform failingFlash)).1.status =
        "200 OK" ∧
      (setupPost samplePlatform sampleWorld wifiOnly
        (run (step samplePlatform) (boot samplePlatform failingFlash)
          [⟨60000000, .healthyBoot⟩])).1 = .text "409 Conflict" "already configured" :=
  ⟨by decide +kernel, by decide +kernel, (setupPost_conflict _ _).mpr (by decide +kernel)⟩

end Device

end LeanDingdong
