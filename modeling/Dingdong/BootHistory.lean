import Dingdong.BootRecovery
import Dingdong.WifiGiveup

/-!
Boots one after another. Each counts itself in flash before anything else, a healthy one
clears the count, and the give-up of the station raises it before it restarts; whether
the next boot recovers depends on the last two alone.
-/

namespace LeanDingdong

open Runs

/-- One boot, from the start of WiFi to its end. -/
structure BootCycle where
  actions : List DeviceAction
  /-- it ends by `sta_giveup_cb` -/
  giveup : Bool

namespace BootCycle

variable (platform : Platform)

/-- The boot reached its healthy mark. -/
def Healthy (cycle : BootCycle) : Prop := ∃ action ∈ cycle.actions, action.event = .healthyBoot

/-- What the boot leaves in flash. -/
def after (flash : Flash) (cycle : BootCycle) : Flash :=
  let device := run (Device.step platform) (Device.boot platform flash) cycle.actions
  let config := device.chassis.config
  (device.setConfig (if cycle.giveup then Wifi.forceRecovery config else config)).flash

/-- Within one boot, and without a factory reset. -/
def Inside (device : Device) (event : DeviceEvent) : Prop :=
  Device.StaysUp device event ∧ ¬ Device.ResetsConfig platform device event

/-- No boot resets the device. -/
def Unreset (flash : Flash) (cycle : BootCycle) : Prop :=
  Guarded (Device.step platform) (Device.Meets (Inside platform)) (Device.boot platform flash)
    cycle.actions

/-- Counting the boot does not take the counter past 32 bits. -/
def Counts (flash : Flash) (_ : BootCycle) : Prop :=
  flash.chassis.config.bootLoopCount + 1 < 2 ^ 32

instance decidableCounts (flash : Flash) (cycle : BootCycle) : Decidable (cycle.Counts flash) :=
  inferInstanceAs (Decidable (_ < _))

/-- The two boots before died before their healthy mark, or an earlier one gave up and all
after it died before theirs. -/
def Troubled (past : List BootCycle) : Prop :=
  (∃ older first second, past = older ++ [first, second] ∧ ¬ first.Healthy ∧ ¬ second.Healthy) ∨
    ∃ older gaveUp later, past = older ++ gaveUp :: later ∧ gaveUp.giveup = true ∧
      ∀ cycle ∈ later, ¬ cycle.Healthy

variable {platform} {flash : Flash} {past : List BootCycle} {cycle : BootCycle}

theorem bootLoopCount_boot (platform : Platform) (flash : Flash) :
    (Device.boot platform flash).chassis.config.bootLoopCount =
      (flash.chassis.config.bootLoopCount + 1) % 2 ^ 32 := by
  have counted : (Device.boot platform flash).chassis.config.bootLoop =
      flash.chassis.config.bootLoopInc.bootLoop := by
    show (Device.countBoot flash.chassis.config).2.bootLoop = _
    rw [Device.countBoot]
    dsimp only
    split_ifs <;> rfl
  rw [Config.bootLoopCount, counted]
  rfl

/-- A run within one boot clears the counter if it reaches the mark and else keeps it. -/
theorem run_inside {start : Device} {actions : List DeviceAction}
    (inside : Guarded (Device.step platform) (Device.Meets (Inside platform)) start actions) :
    let reached := (run (Device.step platform) start actions).chassis.config
    (∃ action ∈ actions, action.event = .healthyBoot) ∧ reached.bootLoopCount = 0 ∨
      (¬ ∃ action ∈ actions, action.event = .healthyBoot) ∧
        reached.bootLoopCount = start.chassis.config.bootLoopCount := by
  induction actions using List.reverseRecOn with
  | nil => exact .inr ⟨by simp, rfl⟩
  | append_singleton past action ih =>
      rw [guarded_snoc] at inside
      rw [run_append]
      have last := Device.perform_counter platform inside.2.1
      have kept : Device.KeepsCounter platform
          ((run (Device.step platform) start past).wait action.elapsedUs) action.event ↔
            action.event ≠ .healthyBoot :=
        ⟨fun keeps => keeps.1, fun other => ⟨other, inside.2.2⟩⟩
      by_cases marks : action.event = .healthyBoot
      · refine .inl ⟨⟨action, by simp, marks⟩, ?_⟩
        rcases last with ⟨keeps, _⟩ | ⟨_, zero⟩
        · exact absurd marks keeps.1
        · exact zero
      · have same : (Device.step platform (run (Device.step platform) start past)
            action).chassis.config.bootLoopCount =
              (run (Device.step platform) start past).chassis.config.bootLoopCount := by
          rcases last with ⟨_, same⟩ | ⟨clears, _⟩
          · exact congrArg (fun stored => stored.getD 0) same
          · exact absurd (kept.mpr marks) clears
        have still : (∃ other ∈ past ++ [action], other.event = .healthyBoot) ↔
            ∃ other ∈ past, other.event = .healthyBoot := by
          constructor
          · rintro ⟨other, member, here⟩
            rcases List.mem_append.mp member with before | last
            · exact ⟨other, before, here⟩
            · rw [List.mem_singleton.mp last] at here
              exact absurd here marks
          · rintro ⟨other, member, here⟩
            exact ⟨other, List.mem_append_left _ member, here⟩
        rw [still]
        rcases ih inside.1 with ⟨healthy, zero⟩ | ⟨died, counter⟩
        · exact .inl ⟨healthy, same.trans zero⟩
        · exact .inr ⟨died, same.trans counter⟩

/-- What one boot makes of the counter. -/
theorem after_count (unreset : cycle.Unreset platform flash) (counts : cycle.Counts flash) :
    let count := (cycle.after platform flash).chassis.config.bootLoopCount
    cycle.giveup = true ∧ 3 ≤ count ∨
      cycle.giveup = false ∧ cycle.Healthy ∧ count = 0 ∨
      cycle.giveup = false ∧ ¬ cycle.Healthy ∧
        count = flash.chassis.config.bootLoopCount + 1 := by
  have counted := bootLoopCount_boot platform flash
  rw [Nat.mod_eq_of_lt counts] at counted
  have inside := run_inside unreset
  dsimp only
  rw [after]
  cases gaveUp : cycle.giveup with
  | true =>
      have forced := Wifi.forceRecovery_inRecoveryMode
        (run (Device.step platform) (Device.boot platform flash) cycle.actions).chassis.config
      rw [Config.inRecoveryMode, decide_eq_true_iff] at forced
      exact .inl ⟨rfl, forced⟩
  | false =>
      refine .inr ?_
      rcases inside with ⟨healthy, zero⟩ | ⟨died, same⟩
      · exact .inl ⟨rfl, healthy, zero⟩
      · exact .inr ⟨rfl, died, same.trans counted⟩

theorem after_count_le (unreset : cycle.Unreset platform flash) (counts : cycle.Counts flash) :
    (cycle.after platform flash).chassis.config.bootLoopCount ≤
      max 3 (flash.chassis.config.bootLoopCount + 1) := by
  have counted := bootLoopCount_boot platform flash
  rw [Nat.mod_eq_of_lt counts] at counted
  have reached : (run (Device.step platform) (Device.boot platform flash)
      cycle.actions).chassis.config.bootLoopCount ≤ flash.chassis.config.bootLoopCount + 1 := by
    rcases run_inside unreset with ⟨_, zero⟩ | ⟨_, same⟩ <;> omega
  show (if cycle.giveup then Wifi.forceRecovery _ else _ : Config).bootLoopCount ≤ _
  split_ifs
  · rw [Wifi.bootLoopCount_forceRecovery, ddBootLoopRecoveryThreshold]
    omega
  · omega

/-- Trouble shows in the last boots: it gave up, or died and so did or gave up the one
before. -/
theorem troubled_snoc : Troubled (past ++ [cycle]) ↔
    cycle.giveup = true ∨ ¬ cycle.Healthy ∧
      ∃ older last, past = older ++ [last] ∧ (last.giveup = true ∨ ¬ last.Healthy) := by
  constructor
  · rintro (⟨older, first, second, split, died, diedToo⟩ | ⟨older, gaveUp, later, split, forced, died⟩)
    · have whole : past ++ [cycle] = (older ++ [first]) ++ [second] := by
        rw [split]
        simp
      obtain ⟨rfl, same⟩ := List.append_inj' whole rfl
      rw [List.singleton_inj.mp same]
      exact .inr ⟨diedToo, older, first, rfl, .inr died⟩
    · rcases List.eq_nil_or_concat later with rfl | ⟨front, last, rfl⟩
      · obtain ⟨_, same⟩ := List.append_inj' split rfl
        rw [List.singleton_inj.mp same]
        exact .inl forced
      · rw [List.concat_eq_append] at split died
        have whole : past ++ [cycle] = (older ++ gaveUp :: front) ++ [last] := by
          rw [split]
          simp
        obtain ⟨rfl, same⟩ := List.append_inj' whole rfl
        rw [List.singleton_inj.mp same]
        refine .inr ⟨died last (by simp), ?_⟩
        rcases List.eq_nil_or_concat front with rfl | ⟨front, before, rfl⟩
        · exact ⟨older, gaveUp, rfl, .inl forced⟩
        · refine ⟨older ++ gaveUp :: front, before, by simp, .inr (died before (by simp))⟩
  · rintro (forced | ⟨died, older, last, rfl, forced | diedToo⟩)
    · exact .inr ⟨past, cycle, [], rfl, forced, by simp⟩
    · exact .inr ⟨older, last, [cycle], by simp, forced, by simpa using died⟩
    · exact .inl ⟨older, last, cycle, by simp, diedToo, died⟩

/-- The counter says how the last boots ended. -/
structure Told (past : List BootCycle) (flash : Flash) : Prop where
  once : 1 ≤ flash.chassis.config.bootLoopCount ↔
    ∃ older last, past = older ++ [last] ∧ (last.giveup = true ∨ ¬ last.Healthy)
  twice : 2 ≤ flash.chassis.config.bootLoopCount ↔ Troubled past

theorem Told.start (first : flash.chassis.config.bootLoopCount = 0) : Told [] flash := by
  constructor
  · simp [first]
  · simp [first, Troubled]

theorem Told.next (told : Told past flash) (unreset : cycle.Unreset platform flash)
    (counts : cycle.Counts flash) : Told (past ++ [cycle]) (cycle.after platform flash) := by
  have last : (∃ older other, past ++ [cycle] = older ++ [other] ∧
      (other.giveup = true ∨ ¬ other.Healthy)) ↔ cycle.giveup = true ∨ ¬ cycle.Healthy := by
    constructor
    · rintro ⟨older, other, split, ended⟩
      obtain ⟨_, same⟩ := List.append_inj' split rfl
      rwa [List.singleton_inj.mp same]
    · exact fun ended => ⟨past, cycle, rfl, ended⟩
  have once := told.once
  rcases after_count unreset counts with
    ⟨forced, count⟩ | ⟨ended, healthy, count⟩ | ⟨ended, died, count⟩
  · constructor
    · rw [last]
      exact ⟨fun _ => .inl forced, fun _ => by omega⟩
    · rw [troubled_snoc]
      exact ⟨fun _ => .inl forced, fun _ => by omega⟩
  · constructor
    · rw [last, count]
      simp [ended, healthy]
    · rw [troubled_snoc, count]
      simp [ended, healthy]
  · constructor
    · rw [last, count]
      exact ⟨fun _ => .inr died, fun _ => by omega⟩
    · rw [troubled_snoc, ← once, count]
      constructor
      · exact fun two => .inr ⟨died, by omega⟩
      · rintro (forced | ⟨_, one⟩)
        · rw [ended] at forced
          cases forced
        · omega

variable (platform) in
/-- Flash after a series of boots. -/
def series (flash : Flash) (cycles : List BootCycle) : Flash := run (after platform) flash cycles

/-- A boot adds one to the counter, and a give-up makes it three at least. -/
theorem series_count_le {cycles : List BootCycle} (first : flash.chassis.config.bootLoopCount = 0)
    (unreset : Guarded (after platform) (fun flash cycle => cycle.Unreset platform flash) flash
      cycles) (few : cycles.length + 2 < 2 ^ 32) :
    (series platform flash cycles).chassis.config.bootLoopCount ≤ cycles.length + 2 := by
  induction cycles using List.reverseRecOn with
  | nil =>
      rw [series, run_nil, first]
      exact Nat.zero_le _
  | append_singleton past cycle ih =>
      rw [guarded_snoc] at unreset
      rw [List.length_append, List.length_singleton] at few ⊢
      have before := ih unreset.1 (by omega)
      have counts : cycle.Counts (series platform flash past) := by
        rw [Counts]
        omega
      have room : max 3 ((series platform flash past).chassis.config.bootLoopCount + 1) ≤
          past.length + 1 + 2 := by omega
      have last := (after_count_le unreset.2 counts).trans room
      rw [series, run_append]
      exact last

/-- No series of boots a device lives through takes the counter past 32 bits. -/
theorem counts_of_few {cycles : List BootCycle} (first : flash.chassis.config.bootLoopCount = 0)
    (unreset : Guarded (after platform) (fun flash cycle => cycle.Unreset platform flash) flash
      cycles) (few : cycles.length + 2 < 2 ^ 32) :
    Guarded (after platform) (fun flash cycle => cycle.Counts flash) flash cycles := by
  refine guarded_of_prefixes fun past cycle within => ?_
  obtain ⟨rest, rfl⟩ := within
  rw [guarded_append, guarded_snoc] at unreset
  rw [List.length_append, List.length_append, List.length_singleton] at few
  have count := series_count_le first unreset.1.1 (by omega)
  rw [series] at count
  rw [Counts]
  omega

/-- As long as the counter does not pass 32 bits, a boot enters recovery exactly when the
two before it died early, or an earlier one gave up and all since then died early. -/
theorem recovery_iff_troubled (platform : Platform) (flash : Flash)
    (first : flash.chassis.config.bootLoopCount = 0) (cycles : List BootCycle)
    (unreset : Guarded (after platform) (fun flash cycle => cycle.Unreset platform flash) flash
      cycles)
    (counts : Guarded (after platform) (fun flash cycle => cycle.Counts flash) flash cycles)
    (past : List BootCycle) (next : BootCycle) (within : past ++ [next] <+: cycles) :
    (Device.boot platform (series platform flash past)).chassis.config.inRecoveryMode = true ↔
      Troubled past := by
  obtain ⟨rest, rfl⟩ := within
  have both := ((guarded_append _ _).mp unreset).1
  have bothCount := ((guarded_append _ _).mp counts).1
  rw [guarded_snoc] at both bothCount
  have told : Told past (series platform flash past) := by
    have guarded : Guarded (after platform)
        (fun flash cycle => cycle.Unreset platform flash ∧ cycle.Counts flash) flash past := by
      refine guarded_of_prefixes fun earlier other before => ?_
      obtain ⟨later, rfl⟩ := before
      have here := ((guarded_append _ _).mp both.1).1
      have hereCount := ((guarded_append _ _).mp bothCount.1).1
      rw [guarded_snoc] at here hereCount
      exact ⟨here.2, hereCount.2⟩
    exact run_history Told (fun _ _ _ told fits => told.next fits.1 fits.2) (Told.start first)
      guarded
  have counted := bootLoopCount_boot platform (series platform flash past)
  have small : (series platform flash past).chassis.config.bootLoopCount + 1 < 2 ^ 32 := bothCount.2
  rw [Nat.mod_eq_of_lt small] at counted
  rw [Config.inRecoveryMode, decide_eq_true_iff, counted, ← told.twice, ddBootLoopRecoveryThreshold]
  omega

/-- A boot that dies at once. -/
def failed : BootCycle := { actions := [], giveup := false }

/-- A boot that reaches its mark and gives up ten minutes later. -/
def stranded : BootCycle := { actions := [⟨60000000, .healthyBoot⟩], giveup := true }

theorem recovery_iff_troubled_stranded :
    (Device.boot samplePlatform (series samplePlatform Flash.blank
        [failed, stranded, failed])).chassis.config.inRecoveryMode = true ↔
      Troubled [failed, stranded, failed] :=
  recovery_iff_troubled samplePlatform Flash.blank rfl [failed, stranded, failed, failed]
    ⟨trivial, ⟨⟨trivial, id⟩, trivial⟩, trivial, trivial, trivial⟩
    (counts_of_few rfl ⟨trivial, ⟨⟨trivial, id⟩, trivial⟩, trivial, trivial, trivial⟩ (by decide))
    [failed, stranded, failed] failed (List.prefix_refl _)

/-- Dead boots are counted modulo 2^32. -/
theorem failed_count (rounds : Nat) :
    (series samplePlatform Flash.blank (List.replicate rounds failed)).chassis.config.bootLoopCount =
      rounds % 2 ^ 32 := by
  induction rounds with
  | zero => rfl
  | succ rounds ih =>
      have after : (failed.after samplePlatform (series samplePlatform Flash.blank
          (List.replicate rounds failed))).chassis.config.bootLoopCount =
            (Device.boot samplePlatform (series samplePlatform Flash.blank
              (List.replicate rounds failed))).chassis.config.bootLoopCount := rfl
      rw [List.replicate_succ', series, run_append]
      refine after.trans ?_
      rw [bootLoopCount_boot, ih]
      omega

/-- The bound cannot go: after 2^32 - 1 dead boots the next one wraps the counter to 0 and does
not recover. -/
theorem recovery_wraps :
    Troubled (List.replicate (2 ^ 32 - 1) failed) ∧
      (Device.boot samplePlatform (series samplePlatform Flash.blank
        (List.replicate (2 ^ 32 - 1) failed))).chassis.config.inRecoveryMode = false := by
  have dead : ¬ failed.Healthy := by simp [Healthy, failed]
  constructor
  · refine .inl ⟨List.replicate (2 ^ 32 - 3) failed, failed, failed, ?_, dead, dead⟩
    have split := List.replicate_add (2 ^ 32 - 3) 2 failed
    exact split
  · have counted := bootLoopCount_boot samplePlatform
      (series samplePlatform Flash.blank (List.replicate (2 ^ 32 - 1) failed))
    rw [failed_count] at counted
    rw [Config.inRecoveryMode, counted]
    decide

end BootCycle

end LeanDingdong
