import Mathlib.Data.UInt
import Dingdong.DeviceCore
import Dingdong.Runs

/-!
The uptime that is kept over boots. A save adds what came since the last sample, which is
remembered before the first call of NVS: what a save does not store is not asked for again.
Each key is stored for good when its write returns.
-/

namespace LeanDingdong

/-- What goes wrong in a call of `dd_metrics_save_uptime`. -/
structure UptimeFaults where
  openFails : Bool := false
  /-- `nvs_get_u64` fails on a total that is there; its result is not looked at -/
  getFails : Bool := false
  setTotalFails : Bool := false
  setLastFails : Bool := false
  commitFails : Bool := false
  deriving DecidableEq

/-- What the function works on: the keys in NVS and its static variable. -/
structure UptimeState where
  config : Config
  lastSaved : UInt32
  deriving DecidableEq

namespace Config

/-- The stored total; the key is missing until the first save. -/
def storedTotal (config : Config) : UInt64 := UInt64.ofNat (config.totalUptime.getD 0)

theorem storedTotal_some {config : Config} {total : UInt64}
    (stored : config.totalUptime = some total.toNat) : config.storedTotal = total := by
  rw [storedTotal, stored, Option.getD_some, UInt64.ofNat_toNat]

end Config

namespace UptimeState

/-- At boot the static variable is 0. -/
def powerOn (config : Config) : UptimeState := { config := config, lastSaved := 0 }

/-- What a sample adds. -/
def delta (state : UptimeState) (seconds : UInt32) : UInt32 :=
  if state.lastSaved < seconds then seconds - state.lastSaved else seconds

/-- `dd_metrics_save_uptime` -/
def saveUptime (faults : UptimeFaults) (seconds : UInt32) (state : UptimeState) :
    EspErr × UptimeState :=
  let delta := state.delta seconds
  let state := { state with lastSaved := seconds }
  if faults.openFails then (.fail, state)
  else
    let total := (if faults.getFails then 0 else state.config.storedTotal) + delta.toUInt64
    if faults.setTotalFails then (.fail, state)
    else
      let config := { state.config with totalUptime := some total.toNat }
      if faults.setLastFails then (.fail, { state with config := config })
      else
        let config := { config with lastUptime := some seconds.toNat }
        (if faults.commitFails then .fail else .ok, { state with config := config })

@[simp] theorem saveUptime_lastSaved (faults : UptimeFaults) (seconds : UInt32)
    (state : UptimeState) : (state.saveUptime faults seconds).2.lastSaved = seconds := by
  rw [saveUptime]
  split_ifs <;> rfl

theorem saveUptime_storedTotal (faults : UptimeFaults) (seconds : UInt32) (state : UptimeState) :
    (state.saveUptime faults seconds).2.config.storedTotal =
      if faults.openFails ∨ faults.setTotalFails then state.config.storedTotal
      else (if faults.getFails then 0 else state.config.storedTotal) +
        (state.delta seconds).toUInt64 := by
  rw [saveUptime]
  by_cases opens : faults.openFails = true
  · rw [if_pos opens, if_pos (.inl opens)]
  · by_cases sets : faults.setTotalFails = true
    · rw [if_neg opens, if_pos sets, if_pos (.inr sets)]
    · rw [if_neg opens, if_neg sets, if_neg (not_or.mpr ⟨opens, sets⟩)]
      split_ifs <;> exact Config.storedTotal_some rfl

end UptimeState

/-- A call, with what goes wrong in its course. -/
structure SaveCall where
  faults : UptimeFaults := {}
  seconds : UInt32
  deriving DecidableEq

namespace SaveCall

/-- The call stores what it adds: it reaches the write of the total with the total that was
stored, or there is nothing to add. -/
def Stores (state : UptimeState) (call : SaveCall) : Prop :=
  if call.faults.openFails ∨ call.faults.setTotalFails then state.delta call.seconds = 0
  else call.faults.getFails → state.config.storedTotal = 0

instance (state : UptimeState) (call : SaveCall) : Decidable (call.Stores state) :=
  inferInstanceAs (Decidable (ite _ _ _))

def step (state : UptimeState) (call : SaveCall) : UptimeState :=
  (state.saveUptime call.faults call.seconds).2

theorem toUInt64_eq_zero {value : UInt32} : value.toUInt64 = 0 ↔ value = 0 := by
  rw [← UInt64.toNat_inj, ← UInt32.toNat_inj]
  rfl

/-- A call adds its delta to the stored total if and only if it stores it. -/
theorem adds_iff (state : UptimeState) (call : SaveCall) :
    (step state call).config.storedTotal =
        state.config.storedTotal + (state.delta call.seconds).toUInt64 ↔ call.Stores state := by
  rw [step, UptimeState.saveUptime_storedTotal, Stores]
  split_ifs with unreached unread
  · rw [UInt64.left_eq_add, toUInt64_eq_zero]
  · rw [UInt64.add_left_inj, eq_comm]
    exact ⟨fun empty _ => empty, fun empty => empty unread⟩
  · exact iff_of_true rfl fun unreadable => absurd unreadable unread

end SaveCall

/-- A sample that comes after the last one adds what lies between them. -/
theorem UptimeState.delta_spec {state : UptimeState} {seconds : UInt32}
    (later : state.lastSaved = 0 ∨ state.lastSaved < seconds) :
    state.lastSaved.toUInt64 + (state.delta seconds).toUInt64 = seconds.toUInt64 := by
  have small := seconds.toNat_lt
  rw [delta]
  split_ifs with after
  · have order : state.lastSaved.toNat ≤ seconds.toNat := (UInt32.lt_iff_toNat_lt.mp after).le
    rw [← UInt64.toNat_inj, UInt64.toNat_add, UInt32.toNat_toUInt64, UInt32.toNat_toUInt64,
      UInt32.toNat_toUInt64, UInt32.toNat_sub_of_le _ _ (UInt32.le_iff_toNat_le.mpr order)]
    omega
  · rcases later with zero | below
    · rw [zero]
      exact UInt64.zero_add _
    · exact absurd below after

section Boots

/-- The samples grow from call to call, as `app_main` takes them. -/
def Increasing (calls : List SaveCall) : Prop :=
  (calls.map SaveCall.seconds).Pairwise (· < ·)

instance (calls : List SaveCall) : Decidable (Increasing calls) :=
  inferInstanceAs (Decidable (List.Pairwise _ _))

/-- The uptime of a boot, by its last sample. -/
def lastSample (calls : List SaveCall) : UInt32 := (calls.map SaveCall.seconds).getLastD 0

theorem lastSample_snoc (past : List SaveCall) (call : SaveCall) :
    lastSample (past ++ [call]) = call.seconds := by
  simp [lastSample]

/-- The sample of the next call is later than the last one, if there was one. -/
theorem Increasing.later {past : List SaveCall} {call : SaveCall}
    (increasing : Increasing (past ++ [call])) :
    lastSample past = 0 ∨ lastSample past < call.seconds := by
  rcases List.eq_nil_or_concat past with rfl | ⟨front, before, rfl⟩
  · exact .inl rfl
  · rw [List.concat_eq_append] at increasing ⊢
    rw [Increasing, List.map_append, List.pairwise_append] at increasing
    rw [lastSample_snoc]
    exact .inr (increasing.2.2 _ (by simp) _ (by simp))

/-- What is stored when power goes after the calls of a boot. -/
def bootStep (config : Config) (calls : List SaveCall) : Config :=
  (Runs.run SaveCall.step (UptimeState.powerOn config) calls).config

/-- The calls of a boot are made in order and each of them stores. -/
def BootStores (config : Config) (calls : List SaveCall) : Prop :=
  Increasing calls ∧
    Runs.Guarded SaveCall.step (fun state call => call.Stores state) (UptimeState.powerOn config) calls

instance (config : Config) (calls : List SaveCall) : Decidable (BootStores config calls) :=
  inferInstanceAs (Decidable (_ ∧ _))

/-- Within a boot the total is what was stored at its start and the last sample. -/
theorem bootStep_total {config : Config} {calls : List SaveCall} (stores : BootStores config calls) :
    (bootStep config calls).storedTotal = config.storedTotal + (lastSample calls).toUInt64 := by
  obtain ⟨increasing, guarded⟩ := stores
  have run := @Runs.run_history _ _ SaveCall.step (fun state call => call.Stores state)
    (fun past state => Increasing past → state.lastSaved = lastSample past ∧
      state.config.storedTotal = config.storedTotal + (lastSample past).toUInt64) ?_ _ _ ?_ guarded
  · exact (run increasing).2
  · intro past state call known stored ordered
    have before : Increasing past := by
      rw [Increasing, List.map_append, List.pairwise_append] at ordered
      exact ordered.1
    obtain ⟨last, total⟩ := known before
    have later := ordered.later
    rw [← last] at later
    rw [lastSample_snoc]
    refine ⟨UptimeState.saveUptime_lastSaved _ _ _, ?_⟩
    rw [(SaveCall.adds_iff state call).mpr stored, total, ← last, UInt64.add_assoc,
      UptimeState.delta_spec later]
  · intro _
    exact ⟨rfl, (UInt64.add_zero _).symm⟩

/-- The uptime of the boots so far, each by its last sample. -/
def accounted (boots : List (List SaveCall)) : UInt64 :=
  (boots.map fun calls => (lastSample calls).toUInt64).sum

theorem accounted_snoc (boots : List (List SaveCall)) (calls : List SaveCall) :
    accounted (boots ++ [calls]) = accounted boots + (lastSample calls).toUInt64 := by
  simp [accounted]

/-- While every call stores what it adds, the total is after every call what was stored at
the start, the uptime of the boots before and the sample of the call. -/
theorem saveUptime_total (config : Config) (boots : List (List SaveCall)) (calls : List SaveCall)
    (call : SaveCall)
    (stored : Runs.Guarded bootStep BootStores config (boots ++ [calls ++ [call]])) :
    (Runs.run bootStep config (boots ++ [calls ++ [call]])).storedTotal =
      config.storedTotal + accounted boots + call.seconds.toUInt64 := by
  have run := @Runs.run_history _ _ bootStep BootStores
    (fun past config' => config'.storedTotal = config.storedTotal + accounted past) ?_ _ _ ?_ stored
  · rw [run, accounted_snoc, lastSample_snoc, UInt64.add_assoc]
  · intro past config' calls known guarded
    rw [bootStep_total guarded, known, accounted_snoc, UInt64.add_assoc]
  · exact (UInt64.add_zero _).symm

/-- Two boots with a write of the last sample and a commit that fail. -/
theorem saveUptime_total_kept :
    (Runs.run bootStep Config.blank
      ([[{ seconds := 60 }, { faults := { setLastFails := true }, seconds := 120 }]] ++
        [[{ faults := { commitFails := true }, seconds := 30 }] ++ [{ seconds := 90 }]])).storedTotal =
      120 + 90 :=
  saveUptime_total Config.blank _ _ _ (by decide +kernel)

/-- A minute is lost with a save that cannot open NVS, and the next save reports success. -/
theorem saveUptime_total_lost :
    let lost : SaveCall := { faults := { openFails := true }, seconds := 60 }
    let saved := (SaveCall.step (UptimeState.powerOn Config.blank) lost).saveUptime {} 120
    Increasing [lost, { seconds := 120 }] ∧ saved.1 = .ok ∧ saved.2.config.storedTotal = 60 ∧
      saved.2.config.storedTotal ≠ Config.blank.storedTotal + 120 := by
  decide +kernel

end Boots

/-- What the device stores in the steps of its run is what a call without faults stores. -/
theorem Device.saveUptime_step (device : Device) (state : UptimeState) (seconds : UInt32)
    (same : device.chassis.config = state.config) :
    (device.saveUptime (state.delta seconds).toNat seconds.toNat).chassis.config =
      (state.saveUptime {} seconds).2.config := by
  have total : (state.config.storedTotal + (state.delta seconds).toUInt64).toNat =
      (state.config.totalUptime.getD 0 + (state.delta seconds).toNat) % 2 ^ 64 := by
    rw [UInt64.toNat_add, Config.storedTotal, UInt64.toNat_ofNat', UInt32.toNat_toUInt64,
      Nat.mod_add_mod]
  rw [Device.saveUptime, config_setConfig, same, UptimeState.saveUptime, ← total]
  rfl

end LeanDingdong
