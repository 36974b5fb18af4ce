import Dingdong.HttpRoutes

/-!
What a request leaves alone. Most routes touch neither the credential, nor the sessions, nor a
preference; the ten that may are listed, and their handlers are looked at one by one where it
matters.
-/

namespace LeanDingdong

namespace Device

/-- What a request to most routes leaves alone. -/
structure Unmoved (before after : Device) : Prop where
  sessions : after.sessions = before.sessions
  clockUs : after.clockUs = before.clockUs
  adminSalt : after.chassis.config.adminSalt = before.chassis.config.adminSalt
  adminHash : after.chassis.config.adminHash = before.chassis.config.adminHash
  settings : after.settings = before.settings
  deviceName : after.chassis.config.deviceName = before.chassis.config.deviceName
  ledEnabled : after.chassis.ledEnabled = before.chassis.ledEnabled
  ntpServer : after.chassis.ntpServer = before.chassis.ntpServer
  presenceTimeout : after.chassis.presenceTimeout = before.chassis.presenceTimeout

namespace Unmoved

variable {platform : Platform} {world : World} {request : Request} {device : Device}

theorem refl (device : Device) : Unmoved device device :=
  ⟨rfl, rfl, rfl, rfl, rfl, rfl, rfl, rfl, rfl⟩

theorem requireAuth {handler : Reply × Device} (kept : Unmoved device handler.2) :
    Unmoved device (requireAuth request device handler).2 := by
  rw [LeanDingdong.requireAuth]
  split_ifs
  · exact kept
  · exact refl device

theorem withBody {handler : JsonTree → Reply × Device}
    (kept : ∀ body, Unmoved device (handler body).2) :
    Unmoved device (withBody platform world request device handler).2 := by
  rw [LeanDingdong.withBody]
  split
  · exact refl device
  · exact kept _

theorem bondRevoke (addr : Addr) : Unmoved device (device.bondRevoke world addr).2 := by
  rw [Device.bondRevoke]
  split_ifs <;> exact ⟨rfl, rfl, rfl, rfl, rfl, rfl, rfl, rfl, rfl⟩

theorem workersDeletePost :
    Unmoved device (workersDeletePost platform world request device).2 := by
  refine .requireAuth (.withBody fun body => ?_)
  split
  · exact refl device
  · dsimp only
    split
    · rename_i worker _
      obtain ⟨sessions, clockUs, salt, hash, settings, name, led, ntp, presence⟩ :=
        @bondRevoke world device worker.addr
      exact ⟨sessions, clockUs, salt, hash, settings, name, led, ntp, presence⟩
    · exact ⟨rfl, rfl, rfl, rfl, rfl, rfl, rfl, rfl, rfl⟩

theorem bondsRevokePost : Unmoved device (bondsRevokePost platform world request device).2 := by
  refine .requireAuth (.withBody fun body => ?_)
  split
  · exact refl device
  · split
    · exact refl device
    · exact bondRevoke _

theorem eventsPost : Unmoved device (eventsPost platform world request device).2 := by
  refine .requireAuth (.withBody fun body => ?_)
  split
  · exact refl device
  · dsimp only
    split
    · exact refl device
    · exact ⟨rfl, rfl, rfl, rfl, rfl, rfl, rfl, rfl, rfl⟩

theorem eventsDeletePost : Unmoved device (eventsDeletePost platform world request device).2 := by
  refine .requireAuth (.withBody fun body => ?_)
  split
  · exact ⟨rfl, rfl, rfl, rfl, rfl, rfl, rfl, rfl, rfl⟩
  · exact refl device

theorem workersUpdatePost :
    Unmoved device (workersUpdatePost platform world request device).2 := by
  refine .requireAuth (.withBody fun body => ?_)
  split
  · exact refl device
  · exact ⟨rfl, rfl, rfl, rfl, rfl, rfl, rfl, rfl, rfl⟩

theorem otaPost : Unmoved device (otaPost world request device).2 := by
  refine .requireAuth ?_
  split_ifs <;> exact ⟨rfl, rfl, rfl, rfl, rfl, rfl, rfl, rfl, rfl⟩

theorem metricsResetPost : Unmoved device (metricsResetPost world request device).2 := by
  refine .requireAuth ?_
  split_ifs <;> exact ⟨rfl, rfl, rfl, rfl, rfl, rfl, rfl, rfl, rfl⟩

end Unmoved

/-- The routes that write the credential, the sessions or a preference. -/
def movingRoutes : List Route :=
  [.authLoginPost, .authLogoutPost, .authChangePasswordPost, .setupPost, .restorePost,
    .factoryResetPost, .deviceNamePost, .ledPost, .presenceTimeoutPost, .ntpServerPost]

/-- The others leave all of these alone. -/
theorem handle_unmoved (platform : Platform) (world : World) (request : Request) (device : Device)
    {route : Route} (other : route ∉ movingRoutes) :
    Unmoved device (handle platform world request device route).2 := by
  cases route with
  | authLoginPost | authLogoutPost | authChangePasswordPost | setupPost | restorePost
  | factoryResetPost | deviceNamePost | ledPost | presenceTimeoutPost | ntpServerPost =>
      exact absurd (by decide) other
  | workersDeletePost => exact .workersDeletePost
  | workersUpdatePost => exact .workersUpdatePost
  | bondsRevokePost => exact .bondsRevokePost
  | eventsPost => exact .eventsPost
  | eventsDeletePost => exact .eventsDeletePost
  | otaPost => exact .otaPost
  | metricsResetPost => exact .metricsResetPost
  | restartPost | eventsWipePost =>
      exact .requireAuth ⟨rfl, rfl, rfl, rfl, rfl, rfl, rfl, rfl, rfl⟩
  | wifiScanGet =>
      rw [handle, wifiScanGet]
      split_ifs
      · exact .requireAuth (.refl device)
      · exact .refl device
  | authMeGet =>
      rw [handle, authMeGet]
      split_ifs <;> exact .refl device
  | rootGet | faviconGet | healthGet | metricsGet | statusGet | pairingStatusGet =>
      exact .refl device
  | backupGet | timeResyncPost | deviceNameGet | ledGet | presenceTimeoutGet
  | ntpServerGet | logsGet | logsClearPost | diagGet | pairingStartPost | pairingCancelPost
  | pairingConfirmPost | eventsGet | eventsPairedGet | eventsExportGet | workersGet | bondsGet
  | todayGet | calendarGet => exact .requireAuth (.refl device)

/-- A part of the device that a handler leaves alone. -/
def Keeps {α : Type*} (view : Device → α) (device : Device) (result : Reply × Device) : Prop :=
  view result.2 = view device

namespace Keeps

variable {platform : Platform} {world : World} {request : Request} {device : Device}
  {α : Type*} {view : Device → α}

theorem requireAuth {handler : Reply × Device} (kept : Keeps view device handler) :
    Keeps view device (requireAuth request device handler) := by
  rw [LeanDingdong.requireAuth]
  split_ifs
  · exact kept
  · rfl

theorem withBody {handler : JsonTree → Reply × Device}
    (kept : ∀ body, Keeps view device (handler body)) :
    Keeps view device (withBody platform world request device handler) := by
  rw [LeanDingdong.withBody]
  split
  · rfl
  · exact kept _

end Keeps

/-- What a preference has nothing to do with. -/
def account (device : Device) : Sessions × Nat × Option Bytes × Option Bytes :=
  (device.sessions, device.clockUs, device.chassis.config.adminSalt,
    device.chassis.config.adminHash)

section Preferences

variable {platform : Platform} {world : World} {request : Request} {device : Device}

theorem storePreference_account {store : Chassis → Chassis}
    (aside : ∀ chassis, (store chassis).config = chassis.config) :
    (storePreference world device store).2.account = device.account := by
  rw [storePreference]
  dsimp only
  split_ifs <;> first | rfl | simp only [account, aside]

theorem ledPost_account : Keeps account device (ledPost platform world request device) := by
  refine .requireAuth (.withBody fun body => ?_)
  split
  · rfl
  · exact storePreference_account fun _ => rfl

theorem presenceTimeoutPost_account :
    Keeps account device (presenceTimeoutPost platform world request device) := by
  refine .requireAuth (.withBody fun body => ?_)
  split
  · rfl
  · exact storePreference_account fun _ => rfl

theorem ntpServerPost_account :
    Keeps account device (ntpServerPost platform world request device) := by
  refine .requireAuth (.withBody fun body => ?_)
  split
  · rfl
  · split_ifs
    · rfl
    · rfl
    · exact storePreference_account fun _ => rfl

theorem deviceNamePost_account :
    Keeps account device (deviceNamePost platform world request device) := by
  refine .requireAuth (.withBody fun body => ?_)
  split
  · rfl
  rename_i name _
  obtain ⟨stored, saved⟩ :=
    Config.setDeviceName_writes world.config name device.chassis.config
  split_ifs
  · rfl
  · dsimp only
    split_ifs <;> simp only [Keeps, account, setConfig, saved]

end Preferences

/-- The logins of a device, and the time they are measured by. -/
def seated (device : Device) : Sessions × Nat := (device.sessions, device.clockUs)

section Seats

variable {platform : Platform} {world : World} {request : Request} {device : Device}

theorem setupPost_seated : Keeps seated device (setupPost platform world request device) := by
  rw [setupPost]
  split_ifs
  · rfl
  refine .withBody fun body => ?_
  split
  · rfl
  dsimp only
  split_ifs <;> rfl

theorem restorePost_seated : Keeps seated device (restorePost platform world request device) := by
  rw [restorePost]
  split_ifs
  · rfl
  refine .withBody fun body => ?_
  split_ifs <;> rfl

theorem factoryResetPost_seated :
    Keeps seated device (factoryResetPost platform world request device) := by
  refine .requireAuth (.withBody fun body => ?_)
  split_ifs <;> rfl

/-- Only the routes of `auth` touch the sessions. -/
theorem handle_seated (platform : Platform) (world : World) (request : Request) (device : Device)
    {route : Route}
    (other : route ∉ [Route.authLoginPost, .authLogoutPost, .authChangePasswordPost]) :
    Keeps seated device (handle platform world request device route) := by
  by_cases moving : route ∈ movingRoutes
  · cases route with
    | setupPost => exact setupPost_seated
    | restorePost => exact restorePost_seated
    | factoryResetPost => exact factoryResetPost_seated
    | deviceNamePost => exact congrArg (fun view => (view.1, view.2.1)) deviceNamePost_account
    | ledPost => exact congrArg (fun view => (view.1, view.2.1)) ledPost_account
    | presenceTimeoutPost =>
        exact congrArg (fun view => (view.1, view.2.1)) presenceTimeoutPost_account
    | ntpServerPost => exact congrArg (fun view => (view.1, view.2.1)) ntpServerPost_account
    | authLoginPost | authLogoutPost | authChangePasswordPost => exact absurd (by decide) other
    | _ => exact absurd moving (by decide)
  · have kept := handle_unmoved platform world request device moving
    simp only [Keeps, seated, kept.sessions, kept.clockUs]

end Seats

end Device

end LeanDingdong
