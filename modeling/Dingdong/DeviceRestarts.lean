import Dingdong.HttpLogins
import Dingdong.WorkerFaults

/-!
What a restart brings back. Most preferences are set in RAM before they are stored, and the
result of storing them is looked at late or not at all; the name is stored first, and kept out
of RAM when its commit fails. The registry is loaded blob by blob.
-/

namespace LeanDingdong

open Runs

section Settings

variable {capacity : Nat} {text default : Bytes}

theorem loadText_stored (nonempty : text ≠ []) (short : text.length < capacity) :
    loadText capacity (some text) default = text := by
  have read : Config.getStr capacity (some text) = some text := by
    rw [Config.getStr, Option.filter_some, if_pos (by simpa using short)]
  rw [loadText, read]
  exact if_neg nonempty

theorem load_presenceTimeout (timeout : PresenceTimeout) :
    PresenceTimeout.load (some (timeout.seconds : Int)) = timeout := by
  have lower := timeout.lower
  have upper := timeout.upper
  rw [PresenceTimeout.load, dif_pos (by omega)]
  rfl

end Settings

namespace Device

/-- The preferences in RAM are those in flash. -/
def Loads (platform : Platform) (device : Device) : Prop :=
  Settings.load platform.mac device.chassis = device.settings

/-- What `Loads` looks at. -/
def preferences (device : Device) :
    Settings × Option Bytes × Option Bool × Option Bytes × Option Int :=
  (device.settings, device.chassis.config.deviceName, device.chassis.ledEnabled,
    device.chassis.ntpServer, device.chassis.presenceTimeout)

/-- The routes that look at the result of storing late or not at all. -/
def preferenceRoutes : List Route := [.ledPost, .presenceTimeoutPost, .ntpServerPost]

/-- The name a request with a login asks for, where the handler takes it. -/
def askedName (platform : Platform) (world : World) (request : Request) (device : Device) :
    Option Bytes :=
  if isAuthed request device then
    (((recvJsonBody platform world request).bind fun body => body.getText (ascii "name")).map
      cstr).filter fun name => 0 < name.length ∧ name.length < ddDeviceNameMax
  else none

/-- NVS takes the preference, or the value is the one in force; a name is not set in NVS and then
refused by the commit; and a factory reset that goes through finds every preference at its
default. -/
def Saved (platform : Platform) (device : Device) : DeviceEvent → Prop
  | .request uri method request world =>
      (∀ route ∈ preferenceRoutes, findRoute uri method = some route →
        (world.config.openFails = false ∧ world.config.firstFails = false) ∨
          (handle platform world request device route).2.settings = device.settings) ∧
      (findRoute uri method = some .deviceNamePost →
        ∀ name ∈ askedName platform world request device,
          world.config.openFails = true ∨ world.config.firstFails = true ∨
            world.config.commitFails = false ∨ name = device.settings.deviceName) ∧
      (findRoute uri method = some .factoryResetPost →
        resetConfirmed platform world request device = true →
          Settings.load platform.mac (device.chassis.factoryReset world.reset).2 = device.settings)
  | .bootButton world =>
      Settings.load platform.mac (device.chassis.factoryReset world.reset).2 = device.settings
  | _ => True

section Preferences

variable {platform : Platform} {world : World} {request : Request} {device : Device}

theorem Loads.congr {before after : Device} (loads : before.Loads platform)
    (same : after.preferences = before.preferences) : after.Loads platform := by
  simp only [preferences, Prod.mk.injEq] at same
  obtain ⟨settings, name, led, ntp, presence⟩ := same
  rw [Loads, Settings.load, settings, name, led, ntp, presence]
  exact loads

theorem Loads.boot (flash : Flash) : (boot platform flash).Loads platform := rfl

/-- Boot writes its counters and nothing else. -/
theorem countBoot_writes (config : Config) :
    ∃ bootCount cause bootLoop, (countBoot config).2 =
      { config with bootCount := bootCount, restartCause := cause, bootLoop := bootLoop } := by
  rw [countBoot]
  dsimp only
  split_ifs <;> exact ⟨_, _, _, rfl⟩

theorem config_restart (device : Device) :
    (device.restart platform).chassis.config = (countBoot device.chassis.config).2 := rfl

theorem settings_restart (device : Device) :
    (device.restart platform).settings = Settings.load platform.mac device.chassis := by
  obtain ⟨_, _, _, counted⟩ := countBoot_writes device.chassis.config
  have same : (device.restart platform).settings = Settings.load platform.mac
      { device.chassis with config := (countBoot device.chassis.config).2 } := rfl
  rw [same, counted]
  rfl

/-- A preference is right after a restart if it was stored or is the old one. -/
theorem storePreference_loads (loads : device.Loads platform) {settings : Settings}
    {store : Chassis → Chassis} (stored : Settings.load platform.mac (store device.chassis) = settings) :
    (storePreference world { device with settings := settings } store).2.Loads platform ↔
      (world.config.openFails = false ∧ world.config.firstFails = false) ∨
        (storePreference world { device with settings := settings } store).2.settings =
          device.settings := by
  have unstored : Loads platform { device with settings := settings } ↔
      settings = device.settings := by
    rw [Loads, loads]
    exact eq_comm
  rw [storePreference]
  cases opens : world.config.openFails with
  | true => simpa using unstored
  | false =>
      cases sets : world.config.firstFails with
      | true => simpa using unstored
      | false => simpa [Loads] using stored

/-- Without a login or a well-formed body nothing is set. -/
theorem loads_iff_refused (loads : device.Loads platform) {P : Prop} :
    device.Loads platform ↔ P ∨ device.settings = device.settings :=
  iff_of_true loads (.inr rfl)

theorem requireAuth_loads (loads : device.Loads platform) {P : Prop} {handler : Reply × Device}
    (handled : handler.2.Loads platform ↔ P ∨ handler.2.settings = device.settings) :
    (requireAuth request device handler).2.Loads platform ↔
      P ∨ (requireAuth request device handler).2.settings = device.settings := by
  rw [requireAuth]
  split_ifs
  · exact handled
  · exact loads_iff_refused loads

theorem withBody_loads (loads : device.Loads platform) {P : Prop}
    {handler : JsonTree → Reply × Device}
    (handled : ∀ body, (handler body).2.Loads platform ↔
      P ∨ (handler body).2.settings = device.settings) :
    (withBody platform world request device handler).2.Loads platform ↔
      P ∨ (withBody platform world request device handler).2.settings = device.settings := by
  rw [withBody]
  split
  · exact loads_iff_refused loads
  · exact handled _

theorem ledPost_loads (loads : device.Loads platform) :
    (ledPost platform world request device).2.Loads platform ↔
      (world.config.openFails = false ∧ world.config.firstFails = false) ∨
        (ledPost platform world request device).2.settings = device.settings := by
  refine requireAuth_loads loads (withBody_loads loads fun body => ?_)
  split
  · exact loads_iff_refused loads
  · refine storePreference_loads loads ?_
    rw [← loads]
    rfl

theorem presenceTimeoutPost_loads (loads : device.Loads platform) :
    (presenceTimeoutPost platform world request device).2.Loads platform ↔
      (world.config.openFails = false ∧ world.config.firstFails = false) ∨
        (presenceTimeoutPost platform world request device).2.settings = device.settings := by
  refine requireAuth_loads loads (withBody_loads loads fun body => ?_)
  split
  · exact loads_iff_refused loads
  · refine storePreference_loads loads ?_
    rw [← loads, Settings.load, load_presenceTimeout]
    rfl

theorem ntpServerPost_loads (loads : device.Loads platform) :
    (ntpServerPost platform world request device).2.Loads platform ↔
      (world.config.openFails = false ∧ world.config.firstFails = false) ∨
        (ntpServerPost platform world request device).2.settings = device.settings := by
  refine requireAuth_loads loads (withBody_loads loads fun body => ?_)
  split
  · exact loads_iff_refused loads
  · split_ifs with empty long
    · exact loads_iff_refused loads
    · exact loads_iff_refused loads
    · refine storePreference_loads loads ?_
      rw [← loads, Settings.load, loadText_stored empty (Nat.lt_of_not_le long)]
      rfl

/-- A name that the handler takes goes to flash when NVS sets it, and to RAM when it commits. -/
theorem deviceNamePost_eq :
    (deviceNamePost platform world request device).2 =
      match askedName platform world request device with
      | none => device
      | some name =>
          if world.config.openFails ∨ world.config.firstFails then device
          else
            { device.setConfig { device.chassis.config with deviceName := some name } with
              settings := if world.config.commitFails then device.settings
                else { device.settings with deviceName := name } } := by
  rw [deviceNamePost, requireAuth, askedName, withBody]
  by_cases authed : isAuthed request device = true
  swap
  · rw [if_neg authed, if_neg authed]
  rw [if_pos authed, if_pos authed]
  cases recvJsonBody platform world request with
  | none => rfl
  | some body =>
      dsimp only [Option.bind_some]
      cases body.getText (ascii "name") with
      | none => rfl
      | some name =>
          dsimp only [Option.map_some]
          by_cases size : textLength name = 0 ∨ ddDeviceNameMax ≤ textLength name
          · rw [if_pos size, Option.filter_some, if_neg]
            rw [decide_eq_true_eq]
            rw [textLength] at size
            omega
          have fits : 0 < (cstr name).length ∧ (cstr name).length < ddDeviceNameMax := by
            rw [textLength] at size
            omega
          have nonempty : ¬ (cstr name = [] ∨ ddDeviceNameMax ≤ (cstr name).length) := by
            rintro (empty | long)
            · rw [empty] at fits
              exact absurd fits.1 (by simp)
            · omega
          rw [if_neg size, Option.filter_some, if_pos (decide_eq_true fits), Config.setDeviceName,
            if_neg nonempty]
          cases world.config.openFails <;> cases world.config.firstFails <;>
            cases world.config.commitFails <;> simp [setConfig]

/-- The name is stored first; a commit that fails leaves the old one in RAM. -/
theorem deviceNamePost_loads (loads : device.Loads platform) :
    (deviceNamePost platform world request device).2.Loads platform ↔
      ∀ name ∈ askedName platform world request device,
        world.config.openFails = true ∨ world.config.firstFails = true ∨
          world.config.commitFails = false ∨ name = device.settings.deviceName := by
  rw [deviceNamePost_eq]
  cases asked : askedName platform world request device with
  | none => exact iff_of_true loads (by simp)
  | some name =>
      have fits : 0 < name.length ∧ name.length < ddDeviceNameMax := by
        rw [askedName] at asked
        split_ifs at asked
        simpa using (Option.filter_eq_some_iff.mp asked).2
      have stored (settings : Settings) : Loads platform
          { device.setConfig { device.chassis.config with deviceName := some name } with
            settings := settings } ↔ { device.settings with deviceName := name } = settings := by
        rw [Loads, Settings.load, setConfig,
          loadText_stored (List.ne_nil_of_length_pos fits.1) fits.2, ← loads]
        exact Iff.rfl
      simp only [Option.mem_some_iff, forall_eq']
      cases opens : world.config.openFails with
      | true => simpa using loads
      | false =>
          cases sets : world.config.firstFails with
          | true => simpa using loads
          | false =>
              rw [if_neg (by simp), stored]
              cases commits : world.config.commitFails with
              | false => simp
              | true =>
                  simp only [if_true, Bool.false_eq_true, Bool.true_eq_false, false_or]
                  constructor
                  · exact fun same => congrArg Settings.deviceName same
                  · exact fun same => by rw [same]

theorem authLoginPost_preferences :
    Keeps preferences device (authLoginPost platform world request device) := by
  rcases authLoginPost_cases platform world request device with
    ⟨_, _, _, same⟩ | ⟨_, elapsedUs, same⟩
  · rw [Keeps, same]
    rfl
  · rw [Keeps, same]
    rfl

theorem authLogoutPost_preferences : Keeps preferences device (authLogoutPost request device) := by
  rw [Keeps, authLogoutPost_eq]
  rfl

/-- The credential is no preference. -/
theorem setConfig_preferences {config : Config}
    (name : config.deviceName = device.chassis.config.deviceName) :
    (device.setConfig config).preferences = device.preferences := by
  simp only [preferences, setConfig, name]

theorem setAdminPassword_deviceName (salt : AdminSalt) (plaintext : Bytes) (config : Config) :
    (config.setAdminPassword platform.pbkdf2 world.config salt plaintext).2.deviceName =
      config.deviceName := by
  obtain ⟨_, _, same⟩ := setAdminPassword_writes platform.pbkdf2 world.config salt plaintext config
  rw [same]

theorem setupAdmin_deviceName (body : JsonTree) (config : Config) :
    (setupAdmin platform world body config).2.deviceName = config.deviceName := by
  rw [setupAdmin]
  split_ifs
  · rfl
  · exact setAdminPassword_deviceName _ _ _

theorem setupWifi_deviceName (body : JsonTree) (config : Config) :
    (setupWifi world body config).2.deviceName = config.deviceName := by
  obtain ⟨_, _, same⟩ := setupWifi_writes world body config
  rw [same]

theorem restoreConfig_deviceName (body : JsonTree) (config : Config) :
    (restoreConfig world body config).deviceName = config.deviceName := by
  have wifi (ssid password : Bytes) (config : Config) :
      (config.setWifi world.wifi ssid password).2.deviceName = config.deviceName := by
    obtain ⟨_, _, same⟩ := setWifi_writes world.wifi ssid password config
    rw [same]
  have admin (salt : AdminSalt) (hash : AdminHash) (config : Config) :
      (config.setAdminBlob world.config salt hash).2.deviceName = config.deviceName := by
    obtain ⟨_, _, same⟩ := setAdminBlob_writes world.config salt hash config
    rw [same]
  rw [restoreConfig]
  split
  · rfl
  · dsimp only
    split <;> split <;> (try split) <;> simp only [wifi, admin]

theorem authChangePasswordPost_preferences :
    Keeps preferences device (authChangePasswordPost platform world request device) := by
  refine .requireAuth (.withBody fun body => ?_)
  split
  · split_ifs
    · rfl
    · split
      · dsimp only
        split_ifs
        · exact setConfig_preferences (setAdminPassword_deviceName _ _ _)
        · show (device.setConfig _).preferences = device.preferences
          exact setConfig_preferences (setAdminPassword_deviceName _ _ _)
      · rfl
  · rfl

theorem setupPost_preferences : Keeps preferences device (setupPost platform world request device) := by
  have admin (body : JsonTree) := @setupAdmin_deviceName platform world body device.chassis.config
  have both (body : JsonTree) := (@setupWifi_deviceName world body _).trans (admin body)
  rw [setupPost]
  split_ifs
  · rfl
  refine .withBody fun body => ?_
  split
  · rfl
  · dsimp only
    split_ifs
    · exact setConfig_preferences (admin body)
    · exact setConfig_preferences (both body)
    · exact setConfig_preferences (both body)

theorem restorePost_preferences :
    Keeps preferences device (restorePost platform world request device) := by
  rw [restorePost]
  split_ifs
  · rfl
  refine .withBody fun body => ?_
  split_ifs
  · rfl
  · exact setConfig_preferences (restoreConfig_deviceName body device.chassis.config)

/-- A factory reset goes on with the preferences of before until the restart. -/
theorem factoryResetPost_loads (loads : device.Loads platform) :
    (factoryResetPost platform world request device).2.Loads platform ↔
      (resetConfirmed platform world request device = true →
        Settings.load platform.mac (device.chassis.factoryReset world.reset).2 = device.settings) := by
  rw [factoryResetPost_eq]
  split_ifs with confirmed
  · rw [forall_prop_of_true confirmed]
    exact Iff.rfl
  · exact iff_of_true loads fun sure => absurd sure confirmed

/-- A request keeps RAM and flash in agreement exactly when what it sets is stored. -/
theorem handle_loads (loads : device.Loads platform) (route : Route) :
    (handle platform world request device route).2.Loads platform ↔
      (route ∈ preferenceRoutes →
        (world.config.openFails = false ∧ world.config.firstFails = false) ∨
          (handle platform world request device route).2.settings = device.settings) ∧
      (route = .deviceNamePost → ∀ name ∈ askedName platform world request device,
        world.config.openFails = true ∨ world.config.firstFails = true ∨
          world.config.commitFails = false ∨ name = device.settings.deviceName) ∧
      (route = .factoryResetPost → resetConfirmed platform world request device = true →
        Settings.load platform.mac (device.chassis.factoryReset world.reset).2 =
          device.settings) := by
  have other {stored named reset : Prop}
      (apart : route ∉ Route.deviceNamePost :: .factoryResetPost :: preferenceRoutes)
      (kept : Keeps preferences device (handle platform world request device route)) :
      (handle platform world request device route).2.Loads platform ↔
        (route ∈ preferenceRoutes → stored) ∧ (route = .deviceNamePost → named) ∧
          (route = .factoryResetPost → reset) := by
    simp only [List.mem_cons, not_or] at apart
    exact iff_of_true (loads.congr kept) ⟨fun member => absurd member apart.2.2,
      fun same => absurd same apart.1, fun same => absurd same apart.2.1⟩
  by_cases moving : route ∈ movingRoutes
  · cases route with
    | authLoginPost => exact other (by decide) authLoginPost_preferences
    | authLogoutPost => exact other (by decide) authLogoutPost_preferences
    | authChangePasswordPost => exact other (by decide) authChangePasswordPost_preferences
    | setupPost => exact other (by decide) setupPost_preferences
    | restorePost => exact other (by decide) restorePost_preferences
    | factoryResetPost =>
        refine (factoryResetPost_loads loads).trans ?_
        simp [preferenceRoutes]
    | deviceNamePost =>
        refine (deviceNamePost_loads loads).trans ?_
        simp [preferenceRoutes]
    | ledPost =>
        refine (ledPost_loads loads).trans ?_
        simp [preferenceRoutes, handle]
    | presenceTimeoutPost =>
        refine (presenceTimeoutPost_loads loads).trans ?_
        simp [preferenceRoutes, handle]
    | ntpServerPost =>
        refine (ntpServerPost_loads loads).trans ?_
        simp [preferenceRoutes, handle]
    | _ => exact absurd moving (by decide)
  · obtain ⟨_, _, _, _, settings, name, led, ntp, presence⟩ :=
      handle_unmoved platform world request device moving
    refine other (fun member => moving ?_) ?_
    · exact (show Route.deviceNamePost :: .factoryResetPost :: preferenceRoutes ⊆ movingRoutes by
        decide) member
    · rw [Keeps, preferences, preferences, settings, name, led, ntp, presence]

/-- The same for every event. -/
theorem perform_loads (loads : device.Loads platform) (event : DeviceEvent) :
    (device.perform platform event).Loads platform ↔ Saved platform device event := by
  cases event with
  | bootButton => exact Iff.rfl
  | restart => exact iff_of_true (.boot _) trivial
  | saveUptime | background => exact iff_of_true loads trivial
  | healthyBoot =>
      refine iff_of_true (loads.congr (setConfig_preferences ?_)) trivial
      rw [Config.bootLoopClear]
      split_ifs <;> rfl
  | request uri method request world =>
      rw [perform, serve, Saved]
      cases findRoute uri method with
      | none => exact iff_of_true loads ⟨by simp, by simp, by simp⟩
      | some route =>
          refine (handle_loads loads route).trans (and_congr ?_ (and_congr ?_ ?_))
          · constructor
            · rintro stored other member same
              obtain rfl := Option.some.inj same
              exact stored member
            · exact fun stored member => stored route member rfl
          · rw [Option.some.injEq]
          · rw [Option.some.injEq]

/-- In every run of a device: a restart at any moment brings back the preferences as they are
shown, exactly when each request to set one finds NVS willing or sets the value in force, no name
is set in NVS and then refused by its commit, and each factory reset finds them at their
defaults. -/
theorem restart_settings (platform : Platform) (flash : Flash) (actions : List DeviceAction) :
    (∀ past, past <+: actions →
      ((run (step platform) (boot platform flash) past).restart platform).settings =
        (run (step platform) (boot platform flash) past).settings) ↔
      Guarded (step platform) (Meets (Saved platform)) (boot platform flash) actions := by
  simp only [settings_restart]
  exact prefixes_iff_guarded (Loads platform)
    (fun device action _ loads => @perform_loads platform (device.wait action.elapsedUs) loads
      action.event) (.boot flash)

end Preferences

section Registry

/-- The routes that write the registry. -/
def registryRoutes : List Route := [.workersUpdatePost, .workersDeletePost, .eventsPost, .restorePost]

/-- The ids of a backup leave room for a next one, and its times are printed exactly. -/
def RestoreFits (body : JsonTree) : Prop :=
  ∀ items ∈ body.getArray (ascii "workers"), ∀ tree ∈ items, ∀ id ∈ tree.getInt (ascii "id"),
    (Worker.ofBackup tree id).id < 65535 ∧ (Worker.ofBackup tree id).Exact

/-- NVS takes the entries that a request changes, a restore is refused or stays below the last id,
and the other components change the registry by its operations, none of which fails between the
table and flash. -/
def SparesRegistry (platform : Platform) (device : Device) : DeviceEvent → Prop
  | .request uri method request world =>
      (findRoute uri method = some .workersUpdatePost → world.workers.Saves) ∧
      (findRoute uri method = some .workersDeletePost →
        world.workers.openFails = false ∧ world.workers.commitFails = false ∧
          ∀ key, world.workers.eraseFails key = false) ∧
      (findRoute uri method = some .restorePost →
        device.chassis.config.hasAdmin world.reads = true ∨
          (world.workers = .none ∧
            ∀ body ∈ recvJsonBody platform world request, RestoreFits body))
  | .background registry _ _ => ∃ actions,
      Guarded (RegistryAction.step platform.json) (fun store action => action.Safe store)
        device.registry actions ∧
      registry = run (RegistryAction.step platform.json) device.registry actions
  | _ => True

variable {platform : Platform} {world : World} {request : Request} {device : Device}

theorem storePreference_registry {store : Chassis → Chassis} :
    (storePreference world device store).2.registry = device.registry := by
  rw [storePreference]
  dsimp only
  split_ifs <;> rfl

theorem handle_registry {route : Route} (other : route ∉ registryRoutes) :
    Keeps Device.registry device (handle platform world request device route) := by
  cases route with
  | workersUpdatePost | workersDeletePost | eventsPost | restorePost =>
      exact absurd (by decide) other
  | authLoginPost =>
      rcases authLoginPost_cases platform world request device with
        ⟨_, _, _, same⟩ | ⟨_, _, same⟩
      · rw [handle, Keeps, same]
      · rw [handle, Keeps, same]
        rfl
  | authLogoutPost =>
      rw [handle, Keeps, authLogoutPost_eq]
  | authMeGet =>
      rw [handle, authMeGet]
      split_ifs <;> rfl
  | authChangePasswordPost =>
      refine .requireAuth (.withBody fun body => ?_)
      split
      · split_ifs
        · rfl
        · split
          · dsimp only
            split_ifs <;> rfl
          · rfl
      · rfl
  | setupPost =>
      rw [handle, setupPost]
      split_ifs
      · rfl
      refine .withBody fun body => ?_
      split
      · rfl
      · dsimp only
        split_ifs <;> rfl
  | factoryResetPost =>
      rw [handle, Keeps, factoryResetPost_eq]
      split_ifs <;> rfl
  | deviceNamePost =>
      rw [handle, Keeps, deviceNamePost_eq]
      split
      · rfl
      · split_ifs <;> rfl
  | ledPost | presenceTimeoutPost =>
      refine .requireAuth (.withBody fun body => ?_)
      split
      · rfl
      · exact storePreference_registry
  | ntpServerPost =>
      refine .requireAuth (.withBody fun body => ?_)
      split
      · rfl
      · split_ifs
        · rfl
        · rfl
        · exact storePreference_registry
  | metricsResetPost | otaPost =>
      refine .requireAuth ?_
      split_ifs <;> rfl
  | eventsDeletePost =>
      refine .requireAuth (.withBody fun body => ?_)
      split <;> rfl
  | bondsRevokePost =>
      refine .requireAuth (.withBody fun body => ?_)
      split
      · rfl
      · split
        · rfl
        · rw [Keeps, bondRevoke]
          split_ifs <;> rfl
  | wifiScanGet =>
      rw [handle, wifiScanGet]
      split_ifs
      · exact .requireAuth rfl
      · rfl
  | rootGet | faviconGet | healthGet | metricsGet | statusGet | pairingStatusGet => rfl
  | restartPost | eventsWipePost | backupGet | timeResyncPost | deviceNameGet | ledGet
  | presenceTimeoutGet | ntpServerGet | logsGet | logsClearPost | diagGet | pairingStartPost
  | pairingCancelPost | pairingConfirmPost | eventsGet | eventsPairedGet | eventsExportGet
  | workersGet | bondsGet | todayGet | calendarGet => exact .requireAuth rfl

theorem requireAuth_registered (registered : Registered platform.json device.registry)
    {handler : Reply × Device} (handled : Registered platform.json handler.2.registry) :
    Registered platform.json (requireAuth request device handler).2.registry := by
  rw [requireAuth]
  split_ifs
  · exact handled
  · exact registered

theorem withBody_registered (registered : Registered platform.json device.registry)
    {handler : JsonTree → Reply × Device}
    (handled : ∀ body, Registered platform.json (handler body).2.registry) :
    Registered platform.json (withBody platform world request device handler).2.registry := by
  rw [withBody]
  split
  · exact registered
  · exact handled _

theorem workersUpdatePost_registered (registered : Registered platform.json device.registry)
    (saves : world.workers.Saves) :
    Registered platform.json (workersUpdatePost platform world request device).2.registry := by
  refine requireAuth_registered registered (withBody_registered registered fun body => ?_)
  split
  · exact registered
  · exact (@WorkerOp.Settled.step platform.json device.registry world.workers registered
      (.update (castU16 _) _ _) fun _ _ _ _ => .inl saves).registered

theorem workersDeletePost_registered (registered : Registered platform.json device.registry)
    (erases : world.workers.openFails = false ∧ world.workers.commitFails = false ∧
      ∀ key, world.workers.eraseFails key = false) :
    Registered platform.json (workersDeletePost platform world request device).2.registry := by
  refine requireAuth_registered registered (withBody_registered registered fun body => ?_)
  split
  · exact registered
  · have deleted (id : Nat) :
        Registered platform.json (workerDelete world.workers id device.registry).2 :=
      (@WorkerOp.Settled.step platform.json device.registry world.workers registered (.delete id)
        fun _ _ _ => ⟨erases.1, erases.2.2 _, erases.2.1⟩).registered
    have revoked (addr : Addr) : (device.bondRevoke world addr).2.registry = device.registry := by
      rw [bondRevoke]
      split_ifs <;> rfl
    dsimp only
    split
    · rw [revoked]
      exact deleted _
    · exact deleted _

/-- A click on the page is for a worker that is there, or for none. -/
theorem eventsPost_registered (registered : Registered platform.json device.registry) :
    Registered platform.json (eventsPost platform world request device).2.registry := by
  refine requireAuth_registered registered (withBody_registered registered fun body => ?_)
  split
  · exact registered
  · dsimp only
    split
    · exact registered
    · refine (@WorkerOp.Settled.step platform.json device.registry world.workers registered
        (.lookupOrCreate _ world.now) ?_).registered
      cases found : (body.getInt (ascii "worker_id")).bind fun value =>
          workerGet device.registry.workers (castU16 value) with
      | none => trivial
      | some worker =>
          intro creates
          obtain ⟨value, _, held⟩ := Option.bind_eq_some_iff.mp found
          rw [workerGet] at held
          split_ifs at held
          exact absurd rfl (creates.1 worker (List.mem_of_find?_eq_some held))

/-- The loop of a restore writes what it enters. -/
theorem restoreSteps_registered (works : world.workers = .none) {items : List JsonTree}
    (fits : ∀ tree ∈ items, ∀ id ∈ tree.getInt (ascii "id"),
      (Worker.ofBackup tree id).id < 65535 ∧ (Worker.ofBackup tree id).Exact)
    {store : WorkerStore} (registered : Registered platform.json store) :
    Registered platform.json (items.foldl (restoreStep platform world) store) := by
  induction items generalizing store with
  | nil => exact registered
  | cons tree items ih =>
      refine ih (fun other member => fits other (List.mem_cons_of_mem _ member)) ?_
      rw [restoreStep]
      cases given : tree.getInt (ascii "id") with
      | none => exact registered
      | some id =>
          obtain ⟨small, exact⟩ := fits tree List.mem_cons_self id given
          rw [works]
          exact (registered.restore ⟨exact, small⟩).1

/-- A restore wipes the registry and enters the workers of the document, as far as it has any. -/
theorem restorePost_registered (registered : Registered platform.json device.registry)
    (spares : device.chassis.config.hasAdmin world.reads = true ∨ (world.workers = .none ∧
      ∀ body ∈ recvJsonBody platform world request, RestoreFits body)) :
    Registered platform.json (restorePost platform world request device).2.registry := by
  rcases spares with seen | ⟨works, fits⟩
  · rw [restorePost_refuses seen]
    exact registered
  rw [restorePost, withBody]
  split_ifs
  · exact registered
  cases received : recvJsonBody platform world request with
  | none => exact registered
  | some body =>
      dsimp only
      split_ifs
      · exact registered
      show Registered platform.json (restoreWorkers platform world body device.registry)
      rw [restoreWorkers]
      cases listed : body.getArray (ascii "workers") with
      | none => exact registered
      | some items =>
          refine restoreSteps_registered works (fits body received items listed) ?_
          rw [works]
          exact registered.wiped

theorem handle_registered {route : Route} (registered : Registered platform.json device.registry)
    (update : route = .workersUpdatePost → world.workers.Saves)
    (delete : route = .workersDeletePost → world.workers.openFails = false ∧
      world.workers.commitFails = false ∧ ∀ key, world.workers.eraseFails key = false)
    (restore : route = .restorePost → device.chassis.config.hasAdmin world.reads = true ∨
      (world.workers = .none ∧ ∀ body ∈ recvJsonBody platform world request, RestoreFits body)) :
    Registered platform.json (handle platform world request device route).2.registry := by
  by_cases writes : route ∈ registryRoutes
  · cases route with
    | workersUpdatePost => exact workersUpdatePost_registered registered (update rfl)
    | workersDeletePost => exact workersDeletePost_registered registered (delete rfl)
    | eventsPost => exact eventsPost_registered registered
    | restorePost => exact restorePost_registered registered (restore rfl)
    | _ => exact absurd writes (by decide)
  · rw [@handle_registry platform world request device route writes]
    exact registered

theorem perform_registered (faithful : platform.json.Faithful)
    (registered : Registered platform.json device.registry) {event : DeviceEvent}
    (spares : SparesRegistry platform device event) :
    Registered platform.json (device.perform platform event).registry := by
  cases event with
  | restart => exact registered.restart faithful
  | healthyBoot | saveUptime | bootButton => exact registered
  | background registry store bonds =>
      obtain ⟨actions, safe, rfl⟩ := spares
      exact (registered.actionRun faithful safe).1
  | request uri method request world =>
      rw [perform, serve]
      rw [SparesRegistry] at spares
      cases found : findRoute uri method with
      | none => exact registered
      | some route =>
          rw [found] at spares
          exact handle_registered registered (fun same => spares.1 (congrArg some same))
            (fun same => spares.2.1 (congrArg some same))
            (fun same => spares.2.2 (congrArg some same))

/-- A table without sessions knows no token. -/
theorem isValid_blank (token : Bytes) (nowUs : Nat) :
    Sessions.blank.isValid token nowUs = false := by
  simp [Sessions.isValid, Sessions.blank, SlotTable.first]

/-- In every run of a device on a sound registry, in which NVS takes the entries that are changed
and no restore brings the last id: a restart at any moment brings back the workers and the next
number, the log, the bonds, the credential and the WiFi, and asks everyone to log in again. -/
theorem restart_keeps (platform : Platform) (faithful : platform.json.Faithful) (flash : Flash)
    (sound : Registered platform.json (workerInit platform.json flash.workers))
    (actions : List DeviceAction)
    (spares : Guarded (step platform) (Meets (SparesRegistry platform)) (boot platform flash)
      actions) :
    let device := run (step platform) (boot platform flash) actions
    let after := device.restart platform
    after.registry.workers.Perm device.registry.workers ∧
      after.registry.nextId = device.registry.nextId ∧
      Registered platform.json after.registry ∧
      after.store.events = device.store.events ∧ after.bonds = device.bonds ∧
      after.credential = device.credential ∧
      (after.chassis.config.wifiSsid = device.chassis.config.wifiSsid ∧
        after.chassis.config.wifiPass = device.chassis.config.wifiPass) ∧
      ∀ request, isAuthed request after = false := by
  intro device after
  have registered : Registered platform.json device.registry :=
    run_invariant (fun device => Registered platform.json device.registry)
      (fun device action registered meets =>
        @perform_registered platform (device.wait action.elapsedUs) faithful registered _ meets)
      sound spares
  obtain ⟨perm, next⟩ := registered.reload faithful
  obtain ⟨bootCount, cause, bootLoop, counted⟩ := countBoot_writes device.chassis.config
  refine ⟨perm, next, registered.restart faithful, rfl, rfl, ?_, ?_, fun request => ?_⟩
  · rw [credential, credential, config_restart, counted]
  · rw [config_restart, counted]
    exact ⟨rfl, rfl⟩
  · rw [isAuthed]
    cases extractCookieValue request.cookie cookieName ddSessionTokenLen with
    | none => rfl
    | some token => exact isValid_blank token _

/-- A device that was set up keeps its credential over a restart, and the login is gone. -/
theorem restart_keeps_login :
    let device := run (step samplePlatform) (boot samplePlatform Flash.blank) loginActions
    isAuthed loggedInRequest device = true ∧
      isAuthed loggedInRequest (device.restart samplePlatform) = false ∧
      (device.restart samplePlatform).credential = device.credential := by
  intro device
  have spares : Guarded (step samplePlatform) (Meets (SparesRegistry samplePlatform))
      (boot samplePlatform Flash.blank) loginActions := by
    refine ⟨⟨fun found => ?_, fun found => ?_, fun found => ?_⟩,
      ⟨fun found => ?_, fun found => ?_, fun found => ?_⟩, trivial⟩ <;>
      exact absurd found (by decide)
  obtain ⟨_, _, _, _, _, credential, _, unauthed⟩ :=
    restart_keeps samplePlatform plainJson_faithful Flash.blank
      ((Registered.fresh plainJson).restart plainJson_faithful) loginActions spares
  exact ⟨by decide +kernel, unauthed loggedInRequest, credential⟩

end Registry

end Device

end LeanDingdong
