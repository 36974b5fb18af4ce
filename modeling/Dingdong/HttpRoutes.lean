import Dingdong.HttpBackup
import Dingdong.Runs

/-!
The routes of `dd_http_start` and the device that serves them: requests come one after
another, the timers and the other components in between. A handler that is not behind
`require_auth` has its own guard, or shows something and changes nothing.
-/

namespace LeanDingdong

open Runs

inductive Method where
  | get
  | post
  deriving DecidableEq

/-- The routes under the names of their handlers. -/
inductive Route where
  | rootGet | faviconGet | healthGet | metricsGet | statusGet | wifiScanGet | setupPost
  | authLoginPost | authLogoutPost | authMeGet | authChangePasswordPost
  | restartPost | factoryResetPost | timeResyncPost | deviceNameGet | deviceNamePost
  | ledGet | ledPost | presenceTimeoutGet | presenceTimeoutPost | ntpServerGet | ntpServerPost
  | metricsResetPost | logsGet | logsClearPost | backupGet | restorePost | diagGet | otaPost
  | pairingStartPost | pairingCancelPost | pairingStatusGet | pairingConfirmPost
  | eventsGet | eventsPost | eventsPairedGet | eventsExportGet | eventsWipePost | eventsDeletePost
  | workersGet | workersUpdatePost | workersDeletePost | bondsGet | bondsRevokePost
  | todayGet | calendarGet
  deriving DecidableEq

/-- `routes` -/
def routes : List (String × Method × Route) :=
  [("/", .get, .rootGet), ("/favicon.ico", .get, .faviconGet), ("/health", .get, .healthGet),
    ("/metrics", .get, .metricsGet), ("/api/system/status", .get, .statusGet),
    ("/api/wifi/scan", .get, .wifiScanGet), ("/api/setup", .post, .setupPost),
    ("/api/auth/login", .post, .authLoginPost), ("/api/auth/logout", .post, .authLogoutPost),
    ("/api/auth/me", .get, .authMeGet),
    ("/api/auth/change_password", .post, .authChangePasswordPost),
    ("/api/system/restart", .post, .restartPost),
    ("/api/system/factory_reset", .post, .factoryResetPost),
    ("/api/system/time_resync", .post, .timeResyncPost),
    ("/api/system/device_name", .get, .deviceNameGet),
    ("/api/system/device_name", .post, .deviceNamePost), ("/api/system/led", .get, .ledGet),
    ("/api/system/led", .post, .ledPost),
    ("/api/system/presence_timeout", .get, .presenceTimeoutGet),
    ("/api/system/presence_timeout", .post, .presenceTimeoutPost),
    ("/api/system/ntp_server", .get, .ntpServerGet),
    ("/api/system/ntp_server", .post, .ntpServerPost),
    ("/api/system/metrics_reset", .post, .metricsResetPost), ("/api/system/logs", .get, .logsGet),
    ("/api/system/logs/clear", .post, .logsClearPost), ("/api/system/backup", .get, .backupGet),
    ("/api/system/restore", .post, .restorePost), ("/api/system/diag", .get, .diagGet),
    ("/api/system/ota", .post, .otaPost), ("/api/pairing/start", .post, .pairingStartPost),
    ("/api/pairing/cancel", .post, .pairingCancelPost),
    ("/api/pairing/status", .get, .pairingStatusGet),
    ("/api/pairing/confirm", .post, .pairingConfirmPost), ("/api/events", .get, .eventsGet),
    ("/api/events", .post, .eventsPost), ("/api/events/paired", .get, .eventsPairedGet),
    ("/api/events/export", .get, .eventsExportGet), ("/api/events/wipe", .post, .eventsWipePost),
    ("/api/events/delete", .post, .eventsDeletePost), ("/api/workers", .get, .workersGet),
    ("/api/workers/update", .post, .workersUpdatePost),
    ("/api/workers/delete", .post, .workersDeletePost), ("/api/bonds", .get, .bondsGet),
    ("/api/bonds/revoke", .post, .bondsRevokePost), ("/api/today", .get, .todayGet),
    ("/api/calendar", .get, .calendarGet)]

/-- What `esp_http_server` registers a handler for; anything else is redirected. -/
def findRoute (uri : String) (method : Method) : Option Route :=
  (routes.find? fun entry => entry.1 = uri ∧ entry.2.1 = method).map fun entry => entry.2.2

section Serve

variable (platform : Platform) (world : World) (request : Request) (device : Device)

/-- The handler behind `require_auth` of a component that keeps nothing here. -/
def shownWithAuth : Reply × Device := requireAuth request device (.shown, device)

def handle : Route → Reply × Device
  | .rootGet | .faviconGet | .healthGet | .metricsGet | .statusGet | .pairingStatusGet =>
      (.shown, device)
  | .wifiScanGet => wifiScanGet world request device
  | .setupPost => setupPost platform world request device
  | .authLoginPost => authLoginPost platform world request device
  | .authLogoutPost => authLogoutPost request device
  | .authMeGet => authMeGet request device
  | .authChangePasswordPost => authChangePasswordPost platform world request device
  | .restartPost => restartPost request device
  | .factoryResetPost => factoryResetPost platform world request device
  | .deviceNamePost => deviceNamePost platform world request device
  | .ledPost => ledPost platform world request device
  | .presenceTimeoutPost => presenceTimeoutPost platform world request device
  | .ntpServerPost => ntpServerPost platform world request device
  | .metricsResetPost => metricsResetPost world request device
  | .backupGet => backupGet platform world device request
  | .restorePost => restorePost platform world request device
  | .otaPost => otaPost world request device
  | .eventsPost => eventsPost platform world request device
  | .eventsWipePost => eventsWipePost world request device
  | .eventsDeletePost => eventsDeletePost platform world request device
  | .workersUpdatePost => workersUpdatePost platform world request device
  | .workersDeletePost => workersDeletePost platform world request device
  | .bondsRevokePost => bondsRevokePost platform world request device
  | .timeResyncPost | .deviceNameGet | .ledGet | .presenceTimeoutGet | .ntpServerGet | .logsGet
  | .logsClearPost | .diagGet | .pairingStartPost | .pairingCancelPost | .pairingConfirmPost
  | .eventsGet | .eventsPairedGet | .eventsExportGet | .workersGet | .bondsGet | .todayGet
  | .calendarGet => shownWithAuth request device

/-- A request to any path, `not_found_redirect` for a path without a handler. -/
def serve (uri : String) (method : Method) : Reply × Device :=
  match findRoute uri method with
  | some route => handle platform world request device route
  | none => (.text "302 Found" "redirect", device)

end Serve

inductive DeviceEvent where
  | request (uri : String) (method : Method) (request : Request) (world : World)
  /-- the timer a minute after boot -/
  | healthyBoot
  | saveUptime (delta seconds : Nat)
  /-- the other components write what they keep -/
  | background (registry : WorkerStore) (store : Store) (bonds : List Bond)
  /-- the BOOT button is held; the restart is an event of its own -/
  | bootButton (world : World)
  /-- a restart, scheduled or not -/
  | restart

/-- An event after some time without one. -/
structure DeviceAction where
  elapsedUs : Nat
  event : DeviceEvent

namespace Device

variable (platform : Platform)

def perform (device : Device) : DeviceEvent → Device
  | .request uri method request world => (serve platform world request device uri method).2
  | .healthyBoot => device.otaMarkValidCb
  | .saveUptime delta seconds => device.saveUptime delta seconds
  | .background registry store bonds =>
      { device with registry := registry, store := store, bonds := bonds }
  | .bootButton world => device.bootButton world
  | .restart => device.restart platform

def step (device : Device) (action : DeviceAction) : Device :=
  (device.wait action.elapsedUs).perform platform action.event

/-- The guard of an event, in the state the event finds. -/
def Meets (guard : Device → DeviceEvent → Prop) (device : Device) (action : DeviceAction) : Prop :=
  guard (device.wait action.elapsedUs) action.event

instance (guard : Device → DeviceEvent → Prop)
    [decided : ∀ device event, Decidable (guard device event)] (device : Device)
    (action : DeviceAction) : Decidable (Meets guard device action) :=
  decided _ _

end Device

section Sample

theorem samplePbkdf2_length (password : Bytes) (salt : AdminSalt) :
    ((password ++ salt.bytes ++ List.replicate 32 0).take 32).length = ddAdminHashLen := by
  simp only [List.length_take, List.length_append, List.length_replicate, ddAdminHashLen]
  omega

/-- A derivation that keeps the start of password and salt. -/
def samplePbkdf2 (password : Bytes) (salt : AdminSalt) : Option AdminHash :=
  some ⟨(password ++ salt.bytes ++ List.replicate 32 0).take 32, samplePbkdf2_length password salt⟩

def samplePlatform : Platform where
  json := plainJson
  codec := plainCodec
  pbkdf2 := samplePbkdf2
  mac := ⟨0x40, 0x4c, 0xca, 0x51, 0x0a, 0x7f⟩

/-- Every call succeeds. -/
def sampleWorld : World where
  salt := ⟨List.replicate 16 7, rfl⟩
  random := ⟨List.replicate 32 9, rfl⟩
  now := 1700000000
  nowUnix := 1700000000

def sampleToken : Bytes := (SessionToken.ofRandom sampleWorld.random).bytes

/-- A request with string members, a second after the last event. -/
def postTexts (uri : String) (cookie : Bytes) (members : List (String × String)) : DeviceAction where
  elapsedUs := 1000000
  event := .request uri .post
    { cookie := cookie
      body := (JsonTree.object
        (members.map fun member => (ascii member.1, .text (ascii member.2)))).print } sampleWorld

/-- A device after its first run without WiFi. -/
def configuredDevice : Device :=
  run (Device.step samplePlatform) (Device.boot samplePlatform Flash.blank)
    [postTexts "/api/setup" [] [("admin_password", "correct horse")]]

end Sample

end LeanDingdong
