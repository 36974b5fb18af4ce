import Dingdong.Util

/-!
The NVS namespaces of the chassis and the functions of `dd_config.c` on them: the
admin credential, the WiFi credentials, the device name, the counters kept across
boots and the factory reset. A credential is two keys written one after the other;
the calls that fail are a parameter.
-/

namespace LeanDingdong

def ddAdminSaltLen : Nat := 16

def ddAdminHashLen : Nat := 32

def ddWifiSsidMax : Nat := 32

def ddWifiPassMax : Nat := 64

def ddDeviceNameMax : Nat := 20

def ddBootLoopRecoveryThreshold : Nat := 3

/-- `uint8_t[size]` -/
structure Blob (size : Nat) where
  bytes : Bytes
  length_eq : bytes.length = size
  deriving DecidableEq

/-- `nvs_get_blob` into an array, with the check of the length read. -/
def Blob.ofStored (size : Nat) (stored : Option Bytes) : Option (Blob size) :=
  match stored with
  | none => none
  | some bytes => if exact : bytes.length = size then some ⟨bytes, exact⟩ else none

abbrev AdminSalt := Blob ddAdminSaltLen

abbrev AdminHash := Blob ddAdminHashLen

inductive RestartCause where
  | unknown
  | ota
  | admin
  | factory
  | setup
  | heapCritical
  | bootLoop
  deriving DecidableEq, Repr

/-- The keys of the namespace `dingdong`; `none` for a key that is not stored. -/
structure Config where
  adminSalt : Option Bytes
  adminHash : Option Bytes
  wifiSsid : Option Bytes
  wifiPass : Option Bytes
  deviceName : Option Bytes
  bootCount : Option Nat
  totalUptime : Option Nat
  lastUptime : Option Nat
  restartCause : Option RestartCause
  bootLoop : Option Nat
  deriving DecidableEq

def Config.blank : Config where
  adminSalt := none
  adminHash := none
  wifiSsid := none
  wifiPass := none
  deviceName := none
  bootCount := none
  totalUptime := none
  lastUptime := none
  restartCause := none
  bootLoop := none

/-- The NVS calls of a function that stores two keys. -/
structure ConfigFaults where
  openFails : Bool := false
  firstFails : Bool := false
  secondFails : Bool := false
  commitFails : Bool := false
  deriving DecidableEq

def ConfigFaults.none : ConfigFaults := {}

/-- The reads of a request. Each opens the namespace for itself. -/
structure ReadFaults where
  hasAdminFails : Bool := false
  hasWifiFails : Bool := false
  bootLoopFails : Bool := false
  verifyFails : Bool := false
  deriving DecidableEq

def ReadFaults.none : ReadFaults := {}

namespace Config

section Admin

-- the derivation of the crypto library, `none` when it fails
variable (pbkdf2 : Bytes → AdminSalt → Option AdminHash)

/-- A namespace that does not open has no admin. -/
def hasAdmin (config : Config) (reads : ReadFaults := .none) : Bool :=
  if reads.hasAdminFails then false
  else config.adminHash.any fun hash => hash.length = ddAdminHashLen

def setAdminBlob (faults : ConfigFaults) (salt : AdminSalt) (hash : AdminHash) (config : Config) :
    EspErr × Config :=
  if faults.openFails then (.fail, config)
  else if faults.firstFails then (.fail, config)
  else
    let config := { config with adminSalt := some salt.bytes }
    if faults.secondFails then (.fail, config)
    else
      let config := { config with adminHash := some hash.bytes }
      (if faults.commitFails then .fail else .ok, config)

/-- `salt` is what `esp_fill_random` gives. -/
def setAdminPassword (faults : ConfigFaults) (salt : AdminSalt) (plaintext : Bytes)
    (config : Config) : EspErr × Config :=
  if cstr plaintext = [] then (.invalidArg, config)
  else
    match pbkdf2 (cstr plaintext) salt with
    | none => (.fail, config)
    | some hash => config.setAdminBlob faults salt hash

def getAdminBlob (config : Config) : Option (AdminSalt × AdminHash) :=
  match Blob.ofStored ddAdminSaltLen config.adminSalt, Blob.ofStored ddAdminHashLen config.adminHash with
  | some salt, some hash => some (salt, hash)
  | _, _ => none

def verifyAdminPassword (plaintext : Bytes) (config : Config) (reads : ReadFaults := .none) :
    EspErr × Bool :=
  if reads.verifyFails then (.fail, false)
  else
    match config.getAdminBlob with
    | none => (.notFound, false)
    | some (salt, want) =>
        match pbkdf2 (cstr plaintext) salt with
        | none => (.fail, false)
        | some got => (.ok, want = got)

end Admin

/-- The string is not empty; its stored size counts the NUL. -/
def hasWifi (config : Config) (reads : ReadFaults := .none) : Bool :=
  if reads.hasWifiFails then false else config.wifiSsid.any fun ssid => 1 < ssid.length + 1

def setWifi (faults : ConfigFaults) (ssid password : Bytes) (config : Config) : EspErr × Config :=
  if cstr ssid = [] ∨ ddWifiSsidMax ≤ (cstr ssid).length then (.invalidArg, config)
  else if ddWifiPassMax ≤ (cstr password).length then (.invalidArg, config)
  else if faults.openFails then (.fail, config)
  else if faults.firstFails then (.fail, config)
  else
    let config := { config with wifiSsid := some (cstr ssid) }
    if faults.secondFails then (.fail, config)
    else
      let config := { config with wifiPass := some (cstr password) }
      (if faults.commitFails then .fail else .ok, config)

/-- `nvs_get_str` into a buffer of `capacity` bytes. -/
def getStr (capacity : Nat) (stored : Option Bytes) : Option Bytes :=
  stored.filter fun text => text.length < capacity

/-- `dd_config_get_wifi` with the capacities its callers pass; `none` for any error. -/
def getWifi (config : Config) : Option (Bytes × Bytes) :=
  match getStr ddWifiSsidMax config.wifiSsid with
  | none => none
  | some ssid =>
      match config.wifiPass with
      | none => some (ssid, [])
      | some pass => if pass.length < ddWifiPassMax then some (ssid, pass) else none

/-- One key only, so that the second write of the faults is never made. -/
def setDeviceName (faults : ConfigFaults) (name : Bytes) (config : Config) : EspErr × Config :=
  if cstr name = [] ∨ ddDeviceNameMax ≤ (cstr name).length then (.invalidArg, config)
  else if faults.openFails then (.fail, config)
  else if faults.firstFails then (.fail, config)
  else
    (if faults.commitFails then .fail else .ok, { config with deviceName := some (cstr name) })

/-- `dd_metrics_record_boot` -/
def recordBoot (config : Config) : Config :=
  { config with bootCount := some ((config.bootCount.getD 0 + 1) % 2 ^ 32) }

/-- `dd_metrics_reset` -/
def metricsReset (config : Config) : Config :=
  { config with bootCount := none, totalUptime := none, lastUptime := none }

/-- `dd_metrics_boot_loop_count` -/
def bootLoopCount (config : Config) (reads : ReadFaults := .none) : Nat :=
  if reads.bootLoopFails then 0 else config.bootLoop.getD 0

/-- `dd_metrics_boot_loop_inc` -/
def bootLoopInc (config : Config) : Config :=
  { config with bootLoop := some ((config.bootLoopCount + 1) % 2 ^ 32) }

/-- `dd_metrics_boot_loop_clear` -/
def bootLoopClear (config : Config) : Config :=
  if config.bootLoopCount = 0 then config else { config with bootLoop := none }

/-- `dd_metrics_in_recovery_mode` -/
def inRecoveryMode (config : Config) (reads : ReadFaults := .none) : Bool :=
  ddBootLoopRecoveryThreshold ≤ config.bootLoopCount reads

def setRestartCause (cause : RestartCause) (config : Config) : Config :=
  { config with restartCause := some cause }

/-- `dd_metrics_consume_restart_cause`, at boot. -/
def consumeRestartCause (config : Config) : RestartCause × Config :=
  (config.restartCause.getD .unknown, { config with restartCause := none })

end Config

inductive BootMode where
  | firstRun
  | noWifi
  | normal
  deriving DecidableEq, Repr

/-- `dd_config_boot_mode` -/
def Config.bootMode (config : Config) (reads : ReadFaults := .none) : BootMode :=
  if !config.hasAdmin reads then .firstRun
  else if !config.hasWifi reads then .noWifi
  else .normal

namespace Config

theorem setDeviceName_writes (faults : ConfigFaults) (name : Bytes) (config : Config) :
    ∃ stored, (config.setDeviceName faults name).2 = { config with deviceName := stored } := by
  rw [setDeviceName]
  split_ifs <;> exact ⟨_, rfl⟩

section Reads

variable {config : Config} {reads : ReadFaults}

theorem hasAdmin_stored (config : Config) :
    config.hasAdmin = config.adminHash.any fun hash => hash.length = ddAdminHashLen := rfl

theorem hasWifi_stored (config : Config) :
    config.hasWifi = config.wifiSsid.any fun ssid => 1 < ssid.length + 1 := rfl

theorem bootLoopCount_stored (config : Config) : config.bootLoopCount = config.bootLoop.getD 0 := rfl

theorem verifyAdminPassword_stored (pbkdf2 : Bytes → AdminSalt → Option AdminHash)
    (plaintext : Bytes) (config : Config) :
    config.verifyAdminPassword pbkdf2 plaintext =
      match config.getAdminBlob with
      | none => (.notFound, false)
      | some (salt, want) =>
          match pbkdf2 (cstr plaintext) salt with
          | none => (.fail, false)
          | some got => (.ok, want = got) := rfl

/-- A failing read hides what is stored and makes nothing up. -/
theorem hasAdmin_of_read (read : config.hasAdmin reads = true) : config.hasAdmin = true := by
  rw [hasAdmin] at read
  split_ifs at read
  exact read

theorem hasAdmin_of_blank (blank : config.hasAdmin = false) : config.hasAdmin reads = false := by
  by_contra read
  rw [Bool.not_eq_false] at read
  rw [hasAdmin_of_read read] at blank
  cases blank

theorem hasAdmin_reads (opens : reads.hasAdminFails = false) :
    config.hasAdmin reads = config.hasAdmin := by
  rw [hasAdmin, opens]
  rfl

theorem verifyAdminPassword_of_read {pbkdf2 : Bytes → AdminSalt → Option AdminHash}
    {plaintext : Bytes} (read : config.verifyAdminPassword pbkdf2 plaintext reads = (.ok, true)) :
    config.verifyAdminPassword pbkdf2 plaintext = (.ok, true) := by
  rw [verifyAdminPassword] at read
  split_ifs at read
  · cases read
  · exact read

end Reads

end Config

/-- The namespaces the chassis owns. -/
inductive Namespace where
  | dingdong
  | led
  | time
  | presence
  deriving DecidableEq

/-- What the chassis stores in NVS. -/
structure Chassis where
  config : Config
  /-- `led`: `enabled` -/
  ledEnabled : Option Bool
  /-- `time`: `ntp_server` -/
  ntpServer : Option Bytes
  /-- `presence`: `timeout_s` -/
  presenceTimeout : Option Int
  deriving DecidableEq

namespace Chassis

def blank : Chassis where
  config := Config.blank
  ledEnabled := none
  ntpServer := none
  presenceTimeout := none

/-- `nvs_erase_all` -/
def eraseAll (chassis : Chassis) : Namespace → Chassis
  | .dingdong => { chassis with config := Config.blank }
  | .led => { chassis with ledEnabled := none }
  | .time => { chassis with ntpServer := none }
  | .presence => { chassis with presenceTimeout := none }

/-- One round of the loop of `dd_config_factory_reset`. -/
def resetStep (fails : Namespace → Bool) (reset : EspErr × Chassis) (name : Namespace) :
    EspErr × Chassis :=
  if fails name then (.fail, reset.2) else (reset.1, reset.2.eraseAll name)

/-- `dd_config_factory_reset`; `fails` says for which namespaces NVS returns an error. -/
def factoryReset (fails : Namespace → Bool) (chassis : Chassis) : EspErr × Chassis :=
  [Namespace.dingdong, .led, .time, .presence].foldl (resetStep fails) (.ok, chassis)

/-- A reset in which every step succeeds leaves nothing of the chassis. -/
theorem factoryReset_none (chassis : Chassis) :
    chassis.factoryReset (fun _ => false) = (.ok, blank) := rfl

end Chassis

end LeanDingdong
