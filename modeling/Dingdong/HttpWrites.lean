import Mathlib.Logic.Relation
import Dingdong.HttpGuards

/-!
What a request can write in the namespace `dingdong`: a chain of the writes of
`dd_config.c`, or the erasure of a confirmed factory reset. What each write keeps, the
whole chain keeps.
-/

namespace LeanDingdong

open Relation

/-- One call of `dd_config.c` that writes, whatever fails in it. -/
inductive ConfigWrite (platform : Platform) : Config → Config → Prop where
  | adminPassword (config : Config) (faults : ConfigFaults) (salt : AdminSalt) (plaintext : Bytes) :
      ConfigWrite platform config
        (config.setAdminPassword platform.pbkdf2 faults salt plaintext).2
  | adminBlob (config : Config) (faults : ConfigFaults) (salt : AdminSalt) (hash : AdminHash) :
      ConfigWrite platform config (config.setAdminBlob faults salt hash).2
  | wifi (config : Config) (faults : ConfigFaults) (ssid password : Bytes) :
      ConfigWrite platform config (config.setWifi faults ssid password).2
  | deviceName (config : Config) (faults : ConfigFaults) (name : Bytes) :
      ConfigWrite platform config (config.setDeviceName faults name).2
  | metricsReset (config : Config) : ConfigWrite platform config config.metricsReset
  | restartCause (config : Config) (cause : RestartCause) :
      ConfigWrite platform config (config.setRestartCause cause)
  | uptime (config : Config) (total last : Nat) :
      ConfigWrite platform config { config with totalUptime := some total, lastUptime := some last }

abbrev ConfigWrites (platform : Platform) : Config → Config → Prop :=
  ReflTransGen (ConfigWrite platform)

theorem ConfigWrites.invariant {platform : Platform} {P : Config → Prop}
    (kept : ∀ before after, ConfigWrite platform before after → P before → P after)
    {first last : Config} (writes : ConfigWrites platform first last) (start : P first) : P last := by
  induction writes with
  | refl => exact start
  | tail _ write ih => exact kept _ _ write ih

/-- No write touches the boot-loop counter. -/
theorem ConfigWrite.bootLoop {platform : Platform} {before after : Config}
    (write : ConfigWrite platform before after) : after.bootLoop = before.bootLoop := by
  cases write with
  | adminPassword faults salt plaintext =>
      obtain ⟨_, _, same⟩ := setAdminPassword_writes platform.pbkdf2 faults salt plaintext before
      rw [same]
  | adminBlob faults salt hash =>
      obtain ⟨_, _, same⟩ := setAdminBlob_writes faults salt hash before
      rw [same]
  | wifi faults ssid password =>
      obtain ⟨_, _, same⟩ := setWifi_writes faults ssid password before
      rw [same]
  | deviceName faults name =>
      obtain ⟨_, same⟩ := Config.setDeviceName_writes faults name before
      rw [same]
  | metricsReset | restartCause | uptime => rfl

section Handlers

variable {platform : Platform} {world : World} {request : Request} {device : Device}

/-- The device after a handler is reached by writes of the configuration. -/
def Writes (platform : Platform) (device : Device) (result : Reply × Device) : Prop :=
  ConfigWrites platform device.chassis.config result.2.chassis.config

theorem Writes.same {reply : Reply} {after : Device} (same : after.chassis.config = device.chassis.config) :
    Writes platform device (reply, after) := by
  rw [Writes, same]

theorem Writes.single {result : Reply × Device}
    (write : ConfigWrite platform device.chassis.config result.2.chassis.config) :
    Writes platform device result :=
  ReflTransGen.single write

theorem Writes.requireAuth {handler : Reply × Device} (writes : Writes platform device handler) :
    Writes platform device (requireAuth request device handler) := by
  rw [LeanDingdong.requireAuth]
  split_ifs
  · exact writes
  · exact .same rfl

theorem Writes.withBody {handler : JsonTree → Reply × Device}
    (writes : ∀ body, Writes platform device (handler body)) :
    Writes platform device (withBody platform world request device handler) := by
  rw [LeanDingdong.withBody]
  split
  · exact .same rfl
  · exact writes _

theorem authLoginPost_writes :
    Writes platform device (authLoginPost platform world request device) := by
  rw [authLoginPost]
  split_ifs
  · exact .same rfl
  refine .withBody fun body => ?_
  split
  · exact .same rfl
  · split <;> exact .same rfl

theorem authLogoutPost_writes : Writes platform device (authLogoutPost request device) := by
  rw [authLogoutPost]
  dsimp only
  split <;> exact .same rfl

theorem authChangePasswordPost_writes :
    Writes platform device (authChangePasswordPost platform world request device) := by
  refine .requireAuth (.withBody fun body => ?_)
  split
  · split_ifs
    · exact .same rfl
    · split
      · dsimp only
        split_ifs <;> exact .single (.adminPassword _ _ _ _)
      · exact .same rfl
  · exact .same rfl

theorem deviceNamePost_writes :
    Writes platform device (deviceNamePost platform world request device) := by
  refine .requireAuth (.withBody fun body => ?_)
  split
  · exact .same rfl
  · split_ifs
    · exact .same rfl
    · dsimp only
      split_ifs <;> exact .single (.deviceName _ _ _)

theorem storePreference_config {store : Chassis → Chassis}
    (aside : ∀ chassis, (store chassis).config = chassis.config) :
    (storePreference world device store).2.chassis.config = device.chassis.config := by
  rw [storePreference]
  dsimp only
  split_ifs <;> first | rfl | exact aside _

theorem ledPost_writes : Writes platform device (ledPost platform world request device) := by
  refine .requireAuth (.withBody fun body => ?_)
  split
  · exact .same rfl
  · exact .same (storePreference_config fun _ => rfl)

theorem presenceTimeoutPost_writes :
    Writes platform device (presenceTimeoutPost platform world request device) := by
  refine .requireAuth (.withBody fun body => ?_)
  split
  · exact .same rfl
  · exact .same (storePreference_config fun _ => rfl)

theorem ntpServerPost_writes :
    Writes platform device (ntpServerPost platform world request device) := by
  refine .requireAuth (.withBody fun body => ?_)
  split
  · exact .same rfl
  · split_ifs
    · exact .same rfl
    · exact .same rfl
    · exact .same (storePreference_config fun _ => rfl)

theorem metricsResetPost_writes : Writes platform device (metricsResetPost world request device) := by
  refine .requireAuth ?_
  split_ifs
  · exact .same rfl
  · exact .single (.metricsReset _)

theorem otaPost_writes : Writes platform device (otaPost world request device) := by
  refine .requireAuth ?_
  split_ifs
  · exact .same rfl
  · exact .same rfl
  · exact .single (.restartCause _ _)

theorem bondRevoke_config (addr : Addr) :
    (device.bondRevoke world addr).2.chassis.config = device.chassis.config := by
  rw [Device.bondRevoke]
  split_ifs <;> rfl

theorem workersDeletePost_writes :
    Writes platform device (workersDeletePost platform world request device) := by
  refine .requireAuth (.withBody fun body => ?_)
  split
  · exact .same rfl
  · dsimp only
    refine .same ?_
    split
    · exact bondRevoke_config _
    · rfl

theorem bondsRevokePost_writes :
    Writes platform device (bondsRevokePost platform world request device) := by
  refine .requireAuth (.withBody fun body => ?_)
  split
  · exact .same rfl
  · split
    · exact .same rfl
    · exact .same (bondRevoke_config _)

theorem setupPost_writes : Writes platform device (setupPost platform world request device) := by
  rw [setupPost]
  split_ifs
  · exact .same rfl
  refine .withBody fun body => ?_
  split
  · exact .same rfl
  have admin : ConfigWrites platform device.chassis.config
      (setupAdmin platform world body device.chassis.config).2 := by
    rw [setupAdmin]
    split_ifs
    · exact ReflTransGen.refl
    · exact ReflTransGen.single (.adminPassword _ _ _ _)
  have wifi : ConfigWrites platform device.chassis.config
      (setupWifi world body (setupAdmin platform world body device.chassis.config).2).2 := by
    rw [setupWifi]
    split_ifs
    · exact admin.tail (.wifi _ _ _ _)
    · exact admin
  dsimp only
  split_ifs
  · exact admin
  · exact wifi
  · exact wifi.tail (.restartCause _ _)

theorem restoreConfig_writes (body : JsonTree) (config : Config) :
    ConfigWrites platform config (restoreConfig world body config) := by
  rw [restoreConfig]
  split
  · exact ReflTransGen.refl
  rename_i stored _
  cases stored.getText (ascii "wifi_ssid") with
  | none =>
      dsimp only
      split
      · split
        · exact ReflTransGen.single (.adminBlob _ _ _ _)
        · exact ReflTransGen.refl
      · exact ReflTransGen.refl
  | some ssid =>
      have wifi : ConfigWrites platform config (config.setWifi world.wifi ssid
          ((stored.getText (ascii "wifi_pass")).getD [])).2 := ReflTransGen.single (.wifi _ _ _ _)
      dsimp only
      split
      · split
        · exact wifi.tail (.adminBlob _ _ _ _)
        · exact wifi
      · exact wifi

theorem restorePost_writes : Writes platform device (restorePost platform world request device) := by
  rw [restorePost]
  split_ifs
  · exact .same rfl
  refine .withBody fun body => ?_
  split_ifs
  · exact .same rfl
  · exact (restoreConfig_writes body _).tail (.restartCause _ _)

theorem eventsPost_writes : Writes platform device (eventsPost platform world request device) := by
  refine .requireAuth (.withBody fun body => ?_)
  split
  · exact .same rfl
  · dsimp only
    split <;> exact .same rfl

theorem eventsDeletePost_writes :
    Writes platform device (eventsDeletePost platform world request device) := by
  refine .requireAuth (.withBody fun body => ?_)
  split <;> exact .same rfl

theorem workersUpdatePost_writes :
    Writes platform device (workersUpdatePost platform world request device) := by
  refine .requireAuth (.withBody fun body => ?_)
  split <;> exact .same rfl

/-- The request asks for a factory reset with a login and the word that confirms it. -/
def resetConfirmed (platform : Platform) (world : World) (request : Request) (device : Device) : Bool :=
  isAuthed request device &&
    ((recvJsonBody platform world request).bind fun body => body.getText (ascii "confirm")).map
      cstr = some (ascii "FACTORY_RESET")

theorem factoryResetPost_eq :
    (factoryResetPost platform world request device).2 =
      if resetConfirmed platform world request device then
        (device.factoryReset world).scheduleRestart 1500
      else device := by
  rw [factoryResetPost, requireAuth, resetConfirmed, withBody]
  by_cases authed : isAuthed request device = true
  · cases recvJsonBody platform world request with
    | none => simp [authed]
    | some body =>
        simp only [authed, if_true, Bool.true_and, Option.bind_some, decide_eq_true_eq]
        split_ifs <;> first | rfl | contradiction
  · simp [authed]

theorem factoryReset_config (world : World) (device : Device) :
    (device.factoryReset world).chassis.config =
      (if world.reset .dingdong then device.chassis.config else Config.blank).setRestartCause
        .factory := by
  have other (name : Namespace) (different : name ≠ .dingdong) (chassis : Chassis) :
      (chassis.eraseAll name).config = chassis.config := by
    cases name <;> first | rfl | exact absurd rfl different
  simp only [Device.factoryReset, Device.config_setRestartCause, Chassis.factoryReset,
    List.foldl_cons, List.foldl_nil, Chassis.resetStep]
  split_ifs <;> rfl

theorem factoryResetPost_writes
    (unreset : (resetConfirmed platform world request device && !world.reset .dingdong) = false) :
    Writes platform device (factoryResetPost platform world request device) := by
  rw [Writes, factoryResetPost_eq]
  split_ifs with confirmed
  · have kept : world.reset .dingdong = true := by simpa [confirmed] using unreset
    rw [Device.chassis_scheduleRestart, factoryReset_config, if_pos kept]
    exact ReflTransGen.single (.restartCause _ _)
  · exact ReflTransGen.refl

/-- Every handler writes through `dd_config.c`, a confirmed factory reset apart. -/
theorem handle_writes {route : Route}
    (unreset : route = .factoryResetPost →
      (resetConfirmed platform world request device && !world.reset .dingdong) = false) :
    Writes platform device (handle platform world request device route) := by
  cases route with
  | setupPost => exact setupPost_writes
  | authLoginPost => exact authLoginPost_writes
  | authLogoutPost => exact authLogoutPost_writes
  | authChangePasswordPost => exact authChangePasswordPost_writes
  | restorePost => exact restorePost_writes
  | factoryResetPost => exact factoryResetPost_writes (unreset rfl)
  | deviceNamePost => exact deviceNamePost_writes
  | ledPost => exact ledPost_writes
  | presenceTimeoutPost => exact presenceTimeoutPost_writes
  | ntpServerPost => exact ntpServerPost_writes
  | metricsResetPost => exact metricsResetPost_writes
  | otaPost => exact otaPost_writes
  | eventsPost => exact eventsPost_writes
  | eventsDeletePost => exact eventsDeletePost_writes
  | workersUpdatePost => exact workersUpdatePost_writes
  | workersDeletePost => exact workersDeletePost_writes
  | bondsRevokePost => exact bondsRevokePost_writes
  | restartPost => exact .requireAuth (.single (.restartCause _ _))
  | wifiScanGet =>
      rw [handle, wifiScanGet]
      split_ifs
      · exact .requireAuth (.same rfl)
      · exact .same rfl
  | authMeGet =>
      rw [handle, authMeGet]
      split_ifs <;> exact .same rfl
  | rootGet | faviconGet | healthGet | metricsGet | statusGet | pairingStatusGet => exact .same rfl
  | eventsWipePost | backupGet | timeResyncPost | deviceNameGet | ledGet | presenceTimeoutGet
  | ntpServerGet | logsGet | logsClearPost | diagGet | pairingStartPost | pairingCancelPost
  | pairingConfirmPost | eventsGet | eventsPairedGet | eventsExportGet | workersGet | bondsGet
  | todayGet | calendarGet => exact .requireAuth (.same rfl)

end Handlers

namespace Device

variable {platform : Platform} {device : Device}

/-- The event is a factory reset that erases the namespace. -/
def ResetsConfig (platform : Platform) (device : Device) : DeviceEvent → Prop
  | .request uri method request world =>
      findRoute uri method = some .factoryResetPost ∧
        (resetConfirmed platform world request device && !world.reset .dingdong) = true
  | .bootButton world => world.reset .dingdong = false
  | _ => False

/-- What a request does to the configuration. -/
theorem request_config (platform : Platform) (device : Device) (uri : String) (method : Method)
    (request : Request) (world : World) :
    let event := DeviceEvent.request uri method request world
    ResetsConfig platform device event ∧
        (device.perform platform event).chassis.config = Config.blank.setRestartCause .factory ∨
      ¬ ResetsConfig platform device event ∧
        ConfigWrites platform device.chassis.config
          (device.perform platform event).chassis.config := by
  dsimp only
  rw [perform, serve, ResetsConfig]
  cases findRoute uri method with
  | none => exact .inr ⟨by simp, Relation.ReflTransGen.refl⟩
  | some route =>
      by_cases resets : route = .factoryResetPost ∧
          (resetConfirmed platform world request device && !world.reset .dingdong) = true
      · refine .inl ⟨⟨congrArg some resets.1, resets.2⟩, ?_⟩
        obtain ⟨rfl, confirmed⟩ := resets
        rw [Bool.and_eq_true, Bool.not_eq_true'] at confirmed
        show (factoryResetPost platform world request device).2.chassis.config = _
        rw [factoryResetPost_eq, if_pos confirmed.1, chassis_scheduleRestart, factoryReset_config,
          confirmed.2]
        rfl
      · refine .inr ⟨fun both => resets ⟨Option.some.inj both.1, both.2⟩, ?_⟩
        refine handle_writes fun isReset => ?_
        by_contra confirmed
        exact resets ⟨isReset, by simpa using confirmed⟩

end Device

end LeanDingdong
