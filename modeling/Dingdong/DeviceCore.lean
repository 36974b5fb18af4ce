import Dingdong.BleCore
import Dingdong.JsonTree
import Dingdong.SessionCore
import Dingdong.StorageCore
import Dingdong.WorkerCore

/-!
The whole device: what its components keep in flash, what they hold in RAM, and the
boot of `app_main` that makes the one from the other. `Platform` is the code outside
the components; `World` is how it answers during one call.
-/

namespace LeanDingdong

structure Platform where
  /-- `cJSON` on the records of the registry -/
  json : Json
  /-- `cJSON` on the bodies of requests -/
  codec : Codec
  /-- the derivation of the crypto library, `none` when it fails -/
  pbkdf2 : Bytes → AdminSalt → Option AdminHash
  /-- `ESP_MAC_BT` -/
  mac : Addr

structure World where
  /-- the body of the request does not arrive -/
  recvFails : Bool := false
  reads : ReadFaults := {}
  /-- the NVS calls on the admin credential and the preferences -/
  config : ConfigFaults := {}
  /-- the NVS calls on the WiFi credentials -/
  wifi : ConfigFaults := {}
  reset : Namespace → Bool := fun _ => false
  workers : NvsFaults := {}
  rewrite : RewriteFaults := {}
  append : AppendFaults := {}
  unlinkFails : Bool := false
  bondDeleteFails : Bool := false
  otaFails : Bool := false
  /-- what `esp_fill_random` gives for a salt -/
  salt : AdminSalt
  /-- what `esp_fill_random` gives for a token -/
  random : Blob 32
  /-- `time(NULL)` -/
  now : Int
  /-- `dd_time_now_unix`, 0 before SNTP has answered -/
  nowUnix : Int

section Settings

/-- The preferences in RAM. -/
structure Settings where
  deviceName : Bytes
  ntpServer : Bytes
  ledEnabled : Bool
  presenceTimeout : PresenceTimeout

def ddNtpServerMax : Nat := 64

def ntpServerDefault : Bytes := ascii "ntp.aliyun.com"

/-- `%02X` -/
def hexByteUpper (byte : UInt8) : Bytes :=
  (hexByte byte).map fun digit => if 97 ≤ digit then digit - 32 else digit

/-- `dingdong-%02X%02X` of the last bytes of the address. -/
def defaultDeviceName (mac : Addr) : Bytes :=
  ascii "dingdong-" ++ hexByteUpper mac.byte4 ++ hexByteUpper mac.byte5

/-- The stored text when it fits and is not empty. -/
def loadText (capacity : Nat) (stored : Option Bytes) (default : Bytes) : Bytes :=
  match Config.getStr capacity stored with
  | none => default
  | some text => if text = [] then default else text

/-- `load_presence_settings` -/
def PresenceTimeout.load (stored : Option Int) : PresenceTimeout :=
  match stored with
  | none => .initial
  | some seconds =>
      if inside : 30 ≤ seconds ∧ seconds ≤ 600 then
        { seconds := seconds.toNat, lower := by omega, upper := by omega }
      else .initial

/-- What the components load at boot. -/
def Settings.load (mac : Addr) (chassis : Chassis) : Settings where
  deviceName := loadText ddDeviceNameMax chassis.config.deviceName (defaultDeviceName mac)
  ntpServer := loadText ddNtpServerMax chassis.ntpServer ntpServerDefault
  ledEnabled := chassis.ledEnabled.getD true
  presenceTimeout := .load chassis.presenceTimeout

end Settings

/-- What survives a restart. -/
structure Flash where
  chassis : Chassis
  /-- the namespace `dd_workers` -/
  workers : Nvs
  /-- `events.jsonl` -/
  events : Option Bytes
  /-- the bond store of NimBLE -/
  bonds : List Bond

/-- A device nobody has used. -/
def Flash.blank : Flash where
  chassis := Chassis.blank
  workers := Nvs.blank
  events := none
  bonds := []

structure Device where
  chassis : Chassis
  registry : WorkerStore
  store : Store
  bonds : List Bond
  settings : Settings
  sessions : Sessions
  /-- why the device restarted, as it learned at boot -/
  bootCause : RestartCause
  clockUs : Nat
  /-- when a scheduled restart comes -/
  restartAtUs : Option Nat

namespace Device

def flash (device : Device) : Flash where
  chassis := device.chassis
  workers := device.registry.nvs
  events := device.store.events
  bonds := device.bonds

/-- The counters `app_main` keeps before it starts anything. -/
def countBoot (config : Config) : RestartCause × Config :=
  let consumed := config.recordBoot.consumeRestartCause
  let counted := consumed.2.bootLoopInc
  (consumed.1, if counted.inRecoveryMode then counted.setRestartCause .bootLoop else counted)

/-- `app_main` up to the start of the server, no call failing. -/
def boot (platform : Platform) (flash : Flash) : Device :=
  let counted := countBoot flash.chassis.config
  let chassis := { flash.chassis with config := counted.2 }
  { chassis := chassis
    registry := workerInit platform.json flash.workers
    store := { events := flash.events, eventCount := scanEventCount .none flash.events }
    bonds := flash.bonds
    settings := Settings.load platform.mac chassis
    sessions := Sessions.blank
    bootCause := counted.1
    clockUs := 0
    restartAtUs := none }

def restart (platform : Platform) (device : Device) : Device := boot platform device.flash

def wait (device : Device) (elapsedUs : Nat) : Device :=
  { device with clockUs := device.clockUs + elapsedUs }

/-- `schedule_restart`; the first of several comes first. -/
def scheduleRestart (device : Device) (delayMs : Nat) : Device :=
  let atUs := device.clockUs + delayMs * 1000
  { device with restartAtUs := some ((device.restartAtUs.map (min atUs)).getD atUs) }

def setConfig (device : Device) (config : Config) : Device :=
  { device with chassis := { device.chassis with config := config } }

def setRestartCause (device : Device) (cause : RestartCause) : Device :=
  device.setConfig (device.chassis.config.setRestartCause cause)

/-- What both ways to a factory reset do before the restart. -/
def factoryReset (world : World) (device : Device) : Device :=
  let device := { device with chassis := (device.chassis.factoryReset world.reset).2 }
  let device := { device with store := (eventWipe world.unlinkFails device.store).2 }
  device.setRestartCause .factory

/-- `boot_button_task` after the long press. Half a second passes before the restart. -/
def bootButton (world : World) (device : Device) : Device :=
  (device.factoryReset world).scheduleRestart 500

/-- `ota_mark_valid_cb`, a minute after boot. -/
def otaMarkValidCb (device : Device) : Device := device.setConfig device.chassis.config.bootLoopClear

/-- `dd_metrics_save_uptime` -/
def saveUptime (device : Device) (delta seconds : Nat) : Device :=
  let config := device.chassis.config
  device.setConfig
    { config with
      totalUptime := some ((config.totalUptime.getD 0 + delta) % 2 ^ 64)
      lastUptime := some seconds }

@[simp] theorem chassis_scheduleRestart (device : Device) (delayMs : Nat) :
    (device.scheduleRestart delayMs).chassis = device.chassis := rfl

@[simp] theorem config_setConfig (device : Device) (config : Config) :
    (device.setConfig config).chassis.config = config := rfl

@[simp] theorem config_setRestartCause (device : Device) (cause : RestartCause) :
    (device.setRestartCause cause).chassis.config =
      device.chassis.config.setRestartCause cause := rfl

end Device

end LeanDingdong
