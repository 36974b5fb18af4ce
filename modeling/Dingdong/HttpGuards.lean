import Dingdong.HttpRoutes

/-!
What requests without a login can do to a configured device: they may set the WiFi of
a device that has none or is in recovery, and nothing else that is kept. The guards of
the setup and the restore read NVS, and where that fails they take the device for new.
-/

namespace LeanDingdong

open Runs

section Config

variable {config : Config} {faults : ConfigFaults}

theorem setWifi_writes (faults : ConfigFaults) (ssid password : Bytes) (config : Config) :
    ∃ storedSsid storedPass, (config.setWifi faults ssid password).2 =
      { config with wifiSsid := storedSsid, wifiPass := storedPass } := by
  rw [Config.setWifi]
  split_ifs <;> exact ⟨_, _, rfl⟩

theorem setAdminBlob_writes (faults : ConfigFaults) (salt : AdminSalt) (hash : AdminHash)
    (config : Config) :
    ∃ storedSalt storedHash, (config.setAdminBlob faults salt hash).2 =
      { config with adminSalt := storedSalt, adminHash := storedHash } := by
  rw [Config.setAdminBlob]
  split_ifs <;> exact ⟨_, _, rfl⟩

theorem setAdminPassword_writes (pbkdf2 : Bytes → AdminSalt → Option AdminHash)
    (faults : ConfigFaults) (salt : AdminSalt) (plaintext : Bytes) (config : Config) :
    ∃ storedSalt storedHash, (config.setAdminPassword pbkdf2 faults salt plaintext).2 =
      { config with adminSalt := storedSalt, adminHash := storedHash } := by
  rw [Config.setAdminPassword]
  split_ifs
  · exact ⟨_, _, rfl⟩
  · split
    · exact ⟨_, _, rfl⟩
    · exact setAdminBlob_writes _ _ _ _

end Config

namespace Device

/-- What a device keeps from requests without a login. -/
structure Protects (before after : Device) : Prop where
  clock : before.clockUs ≤ after.clockUs
  adminSalt : after.chassis.config.adminSalt = before.chassis.config.adminSalt
  adminHash : after.chassis.config.adminHash = before.chassis.config.adminHash
  registry : after.registry = before.registry
  store : after.store = before.store
  bonds : after.bonds = before.bonds
  /-- the valid sessions are those of before that have not expired -/
  sessions : ∀ token laterUs, after.clockUs ≤ laterUs →
    after.sessions.isValid token laterUs = before.sessions.isValid token laterUs

namespace Protects

variable {device first second third : Device}

theorem refl (device : Device) : Protects device device :=
  ⟨le_rfl, rfl, rfl, rfl, rfl, rfl, fun _ _ _ => rfl⟩

theorem trans (early : Protects first second) (late : Protects second third) :
    Protects first third where
  clock := early.clock.trans late.clock
  adminSalt := late.adminSalt.trans early.adminSalt
  adminHash := late.adminHash.trans early.adminHash
  registry := late.registry.trans early.registry
  store := late.store.trans early.store
  bonds := late.bonds.trans early.bonds
  sessions token laterUs later :=
    (late.sessions token laterUs later).trans
      (early.sessions token laterUs (late.clock.trans later))

theorem wait (device : Device) (elapsedUs : Nat) : Protects device (device.wait elapsedUs) :=
  ⟨Nat.le_add_right _ _, rfl, rfl, rfl, rfl, rfl, fun _ _ _ => rfl⟩

theorem hasAdmin (kept : Protects first second) :
    second.chassis.config.hasAdmin = first.chassis.config.hasAdmin := by
  rw [Config.hasAdmin, Config.hasAdmin, kept.adminHash]

end Protects

/-- What one request keeps: the WiFi credentials too, where a setup is refused. -/
structure Spares (before after : Device) : Prop extends Protects before after where
  wifi : setupLocked before.chassis.config = true →
    after.chassis.config.wifiSsid = before.chassis.config.wifiSsid ∧
      after.chassis.config.wifiPass = before.chassis.config.wifiPass

theorem Spares.refl (device : Device) : Spares device device := ⟨Protects.refl device, fun _ => ⟨rfl, rfl⟩⟩

theorem Spares.wait (device : Device) (elapsedUs : Nat) : Spares device (device.wait elapsedUs) :=
  ⟨Protects.wait device elapsedUs, fun _ => ⟨rfl, rfl⟩⟩

variable (platform : Platform)

/-- The body has the admin's password where a login looks for it. -/
def carriesPassword (world : World) (request : Request) (device : Device) : Bool :=
  ((recvJsonBody platform world request).bind fun body => body.getText (ascii "password")).any
    fun password =>
      device.chassis.config.verifyAdminPassword platform.pbkdf2 password = (.ok, true)

/-- The request carries neither a valid token nor the admin's password. -/
def Uncredentialed (device : Device) : DeviceEvent → Prop
  | .request _ _ request world =>
      isAuthed request device = false ∧ carriesPassword platform world request device = false
  | _ => False

instance (device : Device) : ∀ event, Decidable (Uncredentialed platform device event)
  | .request _ _ _ _ => inferInstanceAs (Decidable (_ ∧ _))
  | .healthyBoot | .saveUptime _ _ | .background _ _ _ | .bootButton _ | .restart => isFalse id

/-- The checks of `setup_post` behind its guard refuse the body, or none arrives. -/
def setupRefuses (world : World) (request : Request) (device : Device) : Bool :=
  (recvJsonBody platform world request).all fun body =>
    (setupRefusal body (device.chassis.config.hasAdmin world.reads)).isSome

/-- So do those of `restore_post`. -/
def restoreRefuses (world : World) (request : Request) : Bool :=
  (recvJsonBody platform world request).all fun body => body.getInt (ascii "version") ≠ some 1

/-- The guard of the route sees the admin and the closed setup that are stored, or what comes
behind it refuses the body. -/
def GuardSees (world : World) (request : Request) (device : Device) : Route → Prop
  | .setupPost =>
      (device.chassis.config.hasAdmin world.reads = true ∧
        (setupLocked device.chassis.config = true →
          setupLocked device.chassis.config world.reads = true)) ∨
      setupRefuses platform world request device = true
  | .restorePost =>
      device.chassis.config.hasAdmin world.reads = true ∨
        restoreRefuses platform world request = true
  | _ => True

instance (world : World) (request : Request) (device : Device) :
    ∀ route, Decidable (GuardSees platform world request device route) := by
  intro route
  unfold GuardSees
  cases route <;> infer_instance

/-- The guards of a request see what is stored. -/
def Sees (device : Device) : DeviceEvent → Prop
  | .request uri method request world =>
      ∀ route ∈ findRoute uri method, GuardSees platform world request device route
  | _ => True

instance (device : Device) : ∀ event, Decidable (Sees platform device event)
  | .request _ _ _ _ => inferInstanceAs (Decidable (∀ _ ∈ _, _))
  | .healthyBoot | .saveUptime _ _ | .background _ _ _ | .bootButton _ | .restart => isTrue trivial

/-- The WiFi credentials stay when there are some and the device is not in recovery. -/
def KeepsWifi (device : Device) (event : DeviceEvent) : Prop :=
  device.chassis.config.hasWifi = true → device.chassis.config.inRecoveryMode = false →
    (device.perform platform event).chassis.config.wifiSsid = device.chassis.config.wifiSsid ∧
      (device.perform platform event).chassis.config.wifiPass = device.chassis.config.wifiPass

variable {platform : Platform} {world : World} {request : Request} {device : Device}

theorem requireAuth_refuses (unauthed : isAuthed request device = false) (handler : Reply × Device) :
    (requireAuth request device handler).2 = device := by
  rw [requireAuth, unauthed]
  rfl

theorem setupWifi_writes (world : World) (body : JsonTree) (config : Config) :
    ∃ ssid pass, (setupWifi world body config).2 = { config with wifiSsid := ssid, wifiPass := pass } := by
  rw [setupWifi]
  split_ifs
  · exact setWifi_writes _ _ _ _
  · exact ⟨_, _, rfl⟩

/-- A setup that sees the admin writes at most the WiFi credentials, and only where it does
not see them or the device is in recovery. -/
theorem setupPost_cases (platform : Platform) (world : World) (request : Request)
    (seen : device.chassis.config.hasAdmin world.reads = true) :
    (setupPost platform world request device).2 = device ∨
      setupLocked device.chassis.config world.reads = false ∧
        ∃ ssid pass cause restartAtUs, (setupPost platform world request device).2 =
          { device with
            chassis := { device.chassis with
              config := { device.chassis.config with
                wifiSsid := ssid, wifiPass := pass, restartCause := cause } }
            restartAtUs := restartAtUs } := by
  rw [setupPost, withBody]
  split_ifs with locked
  · exact .inl rfl
  cases recvJsonBody platform world request with
  | none => exact .inl rfl
  | some body =>
      dsimp only
      cases setupRefusal body (device.chassis.config.hasAdmin world.reads) with
      | some reply => exact .inl rfl
      | none =>
          have admin : setupAdmin platform world body device.chassis.config =
              (.ok, device.chassis.config) := by rw [setupAdmin, if_pos seen]
          obtain ⟨ssid, pass, written⟩ := setupWifi_writes world body device.chassis.config
          simp only [admin, ne_eq, not_true_eq_false, if_false, written]
          refine .inr ⟨by simpa using locked, ?_⟩
          split_ifs <;> exact ⟨_, _, _, _, rfl⟩

theorem setupPost_refused (refuses : setupRefuses platform world request device = true) :
    (setupPost platform world request device).2 = device := by
  rw [setupRefuses] at refuses
  rw [setupPost, withBody]
  split_ifs
  · rfl
  cases received : recvJsonBody platform world request with
  | none => rfl
  | some body =>
      rw [received, Option.all_some] at refuses
      obtain ⟨reply, refusal⟩ := Option.isSome_iff_exists.mp refuses
      dsimp only
      rw [refusal]

theorem restorePost_refuses (seen : device.chassis.config.hasAdmin world.reads = true) :
    (restorePost platform world request device).2 = device := by
  rw [restorePost, if_pos seen]

theorem restorePost_refused (refuses : restoreRefuses platform world request = true) :
    (restorePost platform world request device).2 = device := by
  rw [restoreRefuses] at refuses
  rw [restorePost, withBody]
  split_ifs
  · rfl
  cases received : recvJsonBody platform world request with
  | none => rfl
  | some body =>
      rw [received, Option.all_some, decide_eq_true_eq] at refuses
      dsimp only
      rw [if_pos refuses]

theorem setupPost_spares (sees : GuardSees platform world request device .setupPost) :
    Spares device (setupPost platform world request device).2 := by
  rcases sees with ⟨seen, closed⟩ | refuses
  swap
  · rw [setupPost_refused refuses]
    exact Spares.refl device
  rcases setupPost_cases platform world request seen with
    same | ⟨unlocked, _, _, _, _, same⟩
  · rw [same]
    exact Spares.refl device
  · rw [same]
    refine ⟨⟨le_rfl, rfl, rfl, rfl, rfl, rfl, fun _ _ _ => rfl⟩, fun locked => ?_⟩
    rw [closed locked] at unlocked
    cases unlocked

theorem restorePost_spares (sees : GuardSees platform world request device .restorePost) :
    Spares device (restorePost platform world request device).2 := by
  rcases sees with seen | refuses
  · rw [restorePost_refuses seen]
    exact Spares.refl device
  · rw [restorePost_refused refuses]
    exact Spares.refl device

theorem authLoginPost_spares
    (wrong : carriesPassword platform world request device = false) :
    Spares device (authLoginPost platform world request device).2 := by
  rw [carriesPassword] at wrong
  rw [authLoginPost, withBody]
  split
  · exact Spares.refl device
  cases received : recvJsonBody platform world request with
  | none => exact Spares.refl device
  | some body =>
      dsimp only
      cases given : body.getText (ascii "password") with
      | none => exact Spares.refl device
      | some password =>
          dsimp only
          split
          · rename_i verified
            simp [received, given, Config.verifyAdminPassword_of_read verified] at wrong
          · exact Spares.wait device _
          · exact Spares.refl device

theorem authLogoutPost_spares (unauthed : isAuthed request device = false) :
    Spares device (authLogoutPost request device).2 := by
  rw [isAuthed] at unauthed
  rw [authLogoutPost]
  cases carried : extractCookieValue request.cookie cookieName ddSessionTokenLen with
  | none => exact Spares.refl device
  | some token =>
      rw [carried] at unauthed
      exact ⟨⟨le_rfl, rfl, rfl, rfl, rfl, rfl,
        fun _ _ later => Sessions.isValid_destroy (extractCookieValue_length carried) unauthed
          later⟩, fun _ => ⟨rfl, rfl⟩⟩

/-- No handler gets past a guard that sees without a login. -/
theorem handle_spares (unauthed : isAuthed request device = false)
    (wrong : carriesPassword platform world request device = false)
    {route : Route} (sees : GuardSees platform world request device route) :
    Spares device (handle platform world request device route).2 := by
  have refused (handler : Reply × Device) : Spares device (requireAuth request device handler).2 := by
    rw [requireAuth_refuses unauthed]
    exact Spares.refl device
  cases route with
  | setupPost => exact setupPost_spares sees
  | authLoginPost => exact authLoginPost_spares wrong
  | authLogoutPost => exact authLogoutPost_spares unauthed
  | restorePost => exact restorePost_spares sees
  | authMeGet =>
      rw [handle, authMeGet]
      split_ifs <;> exact Spares.refl device
  | wifiScanGet =>
      rw [handle, wifiScanGet]
      split_ifs
      · exact refused _
      · exact Spares.refl device
  | rootGet | faviconGet | healthGet | metricsGet | statusGet | pairingStatusGet =>
      exact Spares.refl device
  | authChangePasswordPost | restartPost | factoryResetPost | timeResyncPost | deviceNameGet
  | deviceNamePost | ledGet | ledPost | presenceTimeoutGet | presenceTimeoutPost | ntpServerGet
  | ntpServerPost | metricsResetPost | logsGet | logsClearPost | backupGet | diagGet | otaPost
  | pairingStartPost | pairingCancelPost | pairingConfirmPost | eventsGet | eventsPost
  | eventsPairedGet | eventsExportGet | eventsWipePost | eventsDeletePost | workersGet
  | workersUpdatePost | workersDeletePost | bondsGet | bondsRevokePost | todayGet | calendarGet =>
      exact refused _

/-- A request without a login spares the device where its guards see. -/
theorem perform_spares {event : DeviceEvent}
    (uncredentialed : Uncredentialed platform device event) (sees : Sees platform device event) :
    Spares device (device.perform platform event) := by
  cases event with
  | request uri method request world =>
      rw [Sees] at sees
      rw [perform, serve]
      cases found : findRoute uri method with
      | none => exact Spares.refl device
      | some route =>
          exact handle_spares uncredentialed.1 uncredentialed.2 (sees route found)
  | healthyBoot | saveUptime | background | bootButton | restart => exact uncredentialed.elim

/-- A wrong password, a foreign cookie, a WiFi setup, a delete and a restore. -/
def strangerRequests : List DeviceAction :=
  [postTexts "/api/auth/login" [] [("password", "battery staple")],
    postTexts "/api/auth/logout" (ascii "dd_session=0123") [],
    postTexts "/api/setup" [] [("wifi_ssid", "cafe"), ("wifi_password", "espresso")],
    postTexts "/api/workers/delete" (ascii "dd_session=0123") [],
    postTexts "/api/system/restore" [] []]

/-- A setup with a password of its own, which NVS does not open for once. -/
def takeover : DeviceAction where
  elapsedUs := 1000000
  event := .request "/api/setup" .post
    { cookie := []
      body := (JsonTree.object [(ascii "admin_password", .text (ascii "battery staple"))]).print }
    { sampleWorld with reads := { hasAdminFails := true } }

end Device

end LeanDingdong
