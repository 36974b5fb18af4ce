import Dingdong.AttendanceCore
import Dingdong.DeviceCore
import Dingdong.StorageDelete
import Dingdong.WorkerHardDelete

/-!
The handlers of `http_app`, one for each route of `dd_http_start`. A handler sees the
request and the device and gives a reply and the device after it. What a handler only
shows is left out of its reply, as are the components that keep nothing.
-/

namespace LeanDingdong

structure Request where
  /-- the `Cookie` header, empty when there is none -/
  cookie : Bytes
  body : Bytes

inductive Content where
  | text (message : String)
  | json (tree : JsonTree)
  /-- a page, a file or a report -/
  | other

structure Reply where
  status : String
  content : Content
  /-- the token of a `Set-Cookie` header -/
  setCookie : Option Bytes := none

def Reply.text (status message : String) : Reply := { status := status, content := .text message }

def Reply.shown : Reply := { status := "200 OK", content := .other }

section Helpers

variable (platform : Platform) (world : World) (request : Request) (device : Device)

/-- `recv_json_body` -/
def recvJsonBody : Option JsonTree :=
  if request.body.length = 0 ∨ 8192 < request.body.length then none
  else if world.recvFails then none
  else platform.codec.parse request.body

/-- `is_authed` -/
def isAuthed : Bool :=
  match extractCookieValue request.cookie cookieName ddSessionTokenLen with
  | none => false
  | some token => device.sessions.isValid token device.clockUs

/-- `require_auth` and the handler after it. -/
def requireAuth (handler : Reply × Device) : Reply × Device :=
  if isAuthed request device then handler
  else (.text "401 Unauthorized" "auth required", device)

/-- The handler on a body, and the refusal of a body that is none. -/
def withBody (handler : JsonTree → Reply × Device) : Reply × Device :=
  match recvJsonBody platform world request with
  | none => (.text "400 Bad Request" "bad json", device)
  | some body => handler body

/-- The reply of a handler whose only error is that of one call. -/
def replyOf (err : EspErr) (failed done : String) : Reply :=
  if err = .ok then .text "200 OK" done else .text "500 Internal Server Error" failed

/-- `strlen` of a text of the body. -/
def textLength (text : Bytes) : Nat := (cstr text).length

end Helpers

section Auth

variable (platform : Platform) (world : World) (request : Request) (device : Device)

def authLoginPost : Reply × Device :=
  if !device.chassis.config.hasAdmin world.reads then
    (.text "409 Conflict" "no admin set; use /api/setup first", device)
  else
    withBody platform world request device fun body =>
      match body.getText (ascii "password") with
      | none => (.text "400 Bad Request" "password required", device)
      | some password =>
          match device.chassis.config.verifyAdminPassword platform.pbkdf2 password world.reads with
          | (.ok, true) =>
              let created := device.sessions.create world.random device.clockUs
              ({ Reply.text "200 OK" "ok" with setCookie := some created.1.bytes },
                { device with sessions := created.2 })
          -- a miss takes 800 ms
          | (.ok, false) => (.text "401 Unauthorized" "bad password", device.wait 800000)
          | _ => (.text "500 Internal Server Error" "verify failed", device)

def authLogoutPost : Reply × Device :=
  let reply := { Reply.text "200 OK" "ok" with setCookie := some [] }
  match extractCookieValue request.cookie cookieName ddSessionTokenLen with
  | some token => (reply, { device with sessions := device.sessions.destroy token })
  | none => (reply, device)

def authMeGet : Reply × Device :=
  if isAuthed request device then (.text "200 OK" "authed", device)
  else (.text "401 Unauthorized" "not authed", device)

def authChangePasswordPost : Reply × Device :=
  requireAuth request device <|
    withBody platform world request device fun body =>
      match body.getText (ascii "old_password"), body.getText (ascii "new_password") with
      | some old, some new =>
          if textLength new < 8 then (.text "400 Bad Request" "new password too short", device)
          else
            match device.chassis.config.verifyAdminPassword platform.pbkdf2 old world.reads with
            | (.ok, true) =>
                let saved := device.chassis.config.setAdminPassword platform.pbkdf2 world.config
                  world.salt new
                if saved.1 ≠ .ok then
                  (.text "500 Internal Server Error" "set failed", device.setConfig saved.2)
                else
                  (.text "200 OK" "password changed; all sessions revoked",
                    { device.setConfig saved.2 with sessions := device.sessions.destroyAll })
            | _ => (.text "401 Unauthorized" "old password wrong", device.wait 800000)
      | _, _ => (.text "400 Bad Request" "old_password + new_password required", device)

end Auth

section System

variable (platform : Platform) (world : World) (request : Request) (device : Device)

def restartPost : Reply × Device :=
  requireAuth request device
    (.text "200 OK" "restarting in 1s", (device.setRestartCause .admin).scheduleRestart 1000)

def factoryResetPost : Reply × Device :=
  requireAuth request device <|
    withBody platform world request device fun body =>
      if (body.getText (ascii "confirm")).map cstr ≠ some (ascii "FACTORY_RESET") then
        (.text "400 Bad Request" "must POST \x7b\"confirm\":\"FACTORY_RESET\"\x7d", device)
      else
        (.text "200 OK" "factory reset, restarting",
          (device.factoryReset world).scheduleRestart 1500)

def deviceNamePost : Reply × Device :=
  requireAuth request device <|
    withBody platform world request device fun body =>
      match body.getText (ascii "name") with
      | none => (.text "400 Bad Request" "name required (1..20 chars)", device)
      | some name =>
          if textLength name = 0 ∨ ddDeviceNameMax ≤ textLength name then
            (.text "400 Bad Request" "name required (1..20 chars)", device)
          else
            let saved := device.chassis.config.setDeviceName world.config name
            if saved.1 ≠ .ok then
              (.text "500 Internal Server Error" "save failed", device.setConfig saved.2)
            else
              (.text "200 OK" "ok (already-bonded iPhones still show old name until re-paired)",
                { device.setConfig saved.2 with
                  settings := { device.settings with deviceName := cstr name } })

/-- A preference is set in RAM first and then stored; only opening and committing are
looked at. -/
def storePreference (store : Chassis → Chassis) : EspErr × Device :=
  if world.config.openFails then (.fail, device)
  else
    let device :=
      if world.config.firstFails then device else { device with chassis := store device.chassis }
    (if world.config.commitFails then .fail else .ok, device)

def ledPost : Reply × Device :=
  requireAuth request device <|
    withBody platform world request device fun body =>
      match body.getBool (ascii "enabled") with
      | none => (.text "400 Bad Request" "enabled (bool) required", device)
      | some enabled =>
          let set := { device with settings := { device.settings with ledEnabled := enabled } }
          let saved := storePreference world set fun chassis =>
            { chassis with ledEnabled := some enabled }
          (replyOf saved.1 "save failed" "ok", saved.2)

def presenceTimeoutPost : Reply × Device :=
  requireAuth request device <|
    withBody platform world request device fun body =>
      match body.getInt (ascii "timeout_s") with
      | none => (.text "400 Bad Request" "timeout_s (int) required", device)
      | some seconds =>
          let timeout := PresenceTimeout.clamp seconds
          let set := { device with settings := { device.settings with presenceTimeout := timeout } }
          let saved := storePreference world set fun chassis =>
            { chassis with presenceTimeout := some timeout.seconds }
          (replyOf saved.1 "save failed" "ok", saved.2)

def ntpServerPost : Reply × Device :=
  requireAuth request device <|
    withBody platform world request device fun body =>
      match (body.getText (ascii "server")).map cstr with
      | none => (.text "400 Bad Request" "server (string) required", device)
      | some server =>
          if server = [] then (.text "400 Bad Request" "server (string) required", device)
          else if ddNtpServerMax ≤ server.length then
            (.text "400 Bad Request" "server too long", device)
          else
            let set := { device with settings := { device.settings with ntpServer := server } }
            let saved := storePreference world set fun chassis =>
              { chassis with ntpServer := some server }
            (replyOf saved.1 "save failed" "ok, resyncing", saved.2)

def metricsResetPost : Reply × Device :=
  requireAuth request device <|
    if world.config.openFails then (.text "500 Internal Server Error" "reset failed", device)
    else (.text "200 OK" "ok", device.setConfig device.chassis.config.metricsReset)

/-- The image is written to the other slot, which the device does not read itself. -/
def otaPost : Reply × Device :=
  requireAuth request device <|
    if request.body.length = 0 then (.text "400 Bad Request" "no content", device)
    else if world.otaFails then (.text "500 Internal Server Error" "write failed", device)
    else
      (.text "200 OK" "ok, rebooting into new image",
        (device.setRestartCause .ota).scheduleRestart 2000)

end System

section Devices

variable (platform : Platform) (world : World) (request : Request) (device : Device)

/-- `dd_ble_bond_revoke`, as far as the bond store goes. -/
def Device.bondRevoke (addr : Addr) : EspErr × Device :=
  if device.bonds.all fun bond => bond.addr ≠ addr then (.notFound, device)
  else if world.bondDeleteFails then (.fail, device)
  else (.ok, { device with bonds := device.bonds.filter fun bond => bond.addr ≠ addr })

def workersUpdatePost : Reply × Device :=
  requireAuth request device <|
    withBody platform world request device fun body =>
      match body.getInt (ascii "id") with
      | none => (.text "400 Bad Request" "id required", device)
      | some id =>
          let updated := workerUpdate platform.json world.workers (castU16 id)
            (body.getText (ascii "name")) (body.getText (ascii "category")) device.registry
          (if updated.1 = .notFound then .text "404 Not Found" "no such worker"
            else replyOf updated.1 "update failed" "ok",
            { device with registry := updated.2 })

def workersDeletePost : Reply × Device :=
  requireAuth request device <|
    withBody platform world request device fun body =>
      match body.getInt (ascii "id") with
      | none => (.text "400 Bad Request" "id required", device)
      | some value =>
          let id := castU16 value
          let device := match workerGet device.registry.workers id with
            | some worker => (device.bondRevoke world worker.addr).2
            | none => device
          let store := (eventDeleteByWorker world.rewrite id device.store).2
          let deleted := workerDelete world.workers id device.registry
          (if deleted.1 = .notFound then .text "404 Not Found" "no such worker"
            else replyOf deleted.1 "delete failed" "ok",
            { device with store := store, registry := deleted.2 })

def bondsRevokePost : Reply × Device :=
  requireAuth request device <|
    withBody platform world request device fun body =>
      match body.getText (ascii "addr") with
      | none => (.text "400 Bad Request" "addr required", device)
      | some text =>
          match scanMac (cstr text) with
          | none => (.text "400 Bad Request" "bad addr format", device)
          | some addr =>
              let revoked := device.bondRevoke world addr
              (if revoked.1 = .ok then .text "200 OK" "ok" else .text "404 Not Found" "no such bond",
                revoked.2)

section Setup

variable (body : JsonTree)

def settingWifi : Bool := ((body.getText (ascii "wifi_ssid")).map textLength).getD 0 ≠ 0

/-- The checks of `setup_post` on its body. -/
def setupRefusal (hasAdmin : Bool) : Option Reply :=
  let admLength := ((body.getText (ascii "admin_password")).map textLength).getD 0
  if !hasAdmin && admLength < 8 then
    some (.text "400 Bad Request" "admin_password >= 8 chars")
  else if hasAdmin && admLength ≠ 0 then
    some (.text "403 Forbidden" "admin already set; use /api/auth/change_password")
  else if hasAdmin && !settingWifi body then
    some (.text "400 Bad Request" "wifi_ssid required for wifi-only setup")
  else if settingWifi body &&
      ddWifiSsidMax ≤ ((body.getText (ascii "wifi_ssid")).map textLength).getD 0 then
    some (.text "400 Bad Request" "wifi_ssid too long")
  else none

def setupAdmin (config : Config) : EspErr × Config :=
  if config.hasAdmin world.reads then (.ok, config)
  else
    config.setAdminPassword platform.pbkdf2 world.config world.salt
      ((body.getText (ascii "admin_password")).getD [])

def setupWifi (config : Config) : EspErr × Config :=
  if settingWifi body then
    config.setWifi world.wifi ((body.getText (ascii "wifi_ssid")).getD [])
      ((body.getText (ascii "wifi_password")).getD [])
  else (.ok, config)

end Setup

/-- The setup is closed: an admin, WiFi credentials and no recovery. -/
def setupLocked (config : Config) (reads : ReadFaults := .none) : Bool :=
  config.hasAdmin reads && config.hasWifi reads && !config.inRecoveryMode reads

/-- First run, or the WiFi of a device that has none or cannot be reached. -/
def setupPost : Reply × Device :=
  if setupLocked device.chassis.config world.reads then
    (.text "409 Conflict" "already configured", device)
  else
    withBody platform world request device fun body =>
      match setupRefusal body (device.chassis.config.hasAdmin world.reads) with
      | some reply => (reply, device)
      | none =>
          -- the admin first, then the WiFi, each kept if the next one fails
          let admin := setupAdmin platform world body device.chassis.config
          if admin.1 ≠ .ok then
            (.text "500 Internal Server Error" "set admin failed", device.setConfig admin.2)
          else
            let wifi := setupWifi world body admin.2
            if wifi.1 ≠ .ok then
              (.text "500 Internal Server Error" "set wifi failed", device.setConfig wifi.2)
            else
              (.text "200 OK" "ok, restarting in 2s",
                ((device.setConfig wifi.2).setRestartCause .setup).scheduleRestart 2000)

/-- The scan needs a login only when the device has joined its network. -/
def wifiScanGet : Reply × Device :=
  let config := device.chassis.config
  if config.bootMode world.reads = .normal ∧ !config.inRecoveryMode world.reads then
    requireAuth request device (.shown, device)
  else (.shown, device)

end Devices

section Events

variable (platform : Platform) (world : World) (request : Request) (device : Device)

/-- The object `dd_event_record` prints for a click on the page. -/
def manualEvent (type : EventType) (peer : Option Addr) (workerId : Nat) (note : Bytes) : JsonTree :=
  .object <|
    [(ascii "ts", .number world.nowUnix), (ascii "mono_us", .number device.clockUs),
      (ascii "type", .text (eventTypeStr type)),
      (ascii "src", .text (eventSourceStr .srcManualWeb))] ++
    (match peer with
      | none => []
      | some addr => [(ascii "peer", .text (formatMac addr))]) ++
    (if workerId = 0 then [] else [(ascii "worker_id", .number workerId)]) ++
    (if type = .evOut then [(ascii "reason", .number 0)] else []) ++
    if note = [] then [] else [(ascii "note", .text note)]

/-- `dd_event_record` for a click, which is never debounced. -/
def recordManual (type : EventType) (peer : Option Addr) (note : Bytes) : EspErr × Device :=
  let found := workerLookupOrCreate platform.json world.workers peer world.now device.registry
  let line := platform.codec.print (manualEvent world device type peer found.1 note)
  let appended := eventAppend world.append line device.store
  (appended.1, { device with registry := found.2, store := appended.2 })

def eventsPost : Reply × Device :=
  requireAuth request device <|
    withBody platform world request device fun body =>
      match (body.getText (ascii "type")).map cstr with
      | none => (.text "400 Bad Request" "type required", device)
      | some text =>
          let type :=
            if text = ascii "in" then some EventType.evIn
            else if text = ascii "out" then some EventType.evOut
            else none
          match type with
          | none => (.text "400 Bad Request" "type must be in|out", device)
          | some type =>
              let worker := (body.getInt (ascii "worker_id")).bind fun value =>
                workerGet device.registry.workers (castU16 value)
              let recorded := recordManual platform world device type (worker.map Worker.addr)
                (cstr ((body.getText (ascii "note")).getD []))
              (if recorded.1 = .ok then .text "201 Created" "ok"
                else .text "500 Internal Server Error" "record failed", recorded.2)

def eventsWipePost : Reply × Device :=
  requireAuth request device <|
    let wiped := eventWipe world.unlinkFails device.store
    (replyOf wiped.1 "wipe failed" "wiped", { device with store := wiped.2 })

def eventsDeletePost : Reply × Device :=
  requireAuth request device <|
    withBody platform world request device fun body =>
      match body.getInt (ascii "ts"), body.getInt (ascii "mono_us") with
      | some ts, some monoUs =>
          let deleted := eventDeleteOne world.rewrite ts monoUs device.store
          (replyOf deleted.1 "delete failed" "ok", { device with store := deleted.2 })
      | _, _ => (.text "400 Bad Request" "ts and mono_us required", device)

end Events

end LeanDingdong
