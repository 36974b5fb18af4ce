import Dingdong.HttpBackup
import Dingdong.HttpWrites
import Dingdong.WorkerNumbers

/-!
A backup posted to another device. The writer and the reader of the document are checked
field by field; what the configuration and the registry hold at any time is enough for
the reader to take it.
-/

namespace LeanDingdong

open Runs

section Sound

/-- What the configuration holds at any time: the arrays have their lengths, the strings
fit, and there is no hash without its salt. -/
structure Config.Sound (config : Config) : Prop where
  salt : ∀ salt ∈ config.adminSalt, salt.length = ddAdminSaltLen
  hash : ∀ hash ∈ config.adminHash, hash.length = ddAdminHashLen
  salted : config.adminHash.isSome → config.adminSalt.isSome
  ssid : ∀ ssid ∈ config.wifiSsid, 0 ∉ ssid ∧ ssid ≠ [] ∧ ssid.length < ddWifiSsidMax
  pass : ∀ pass ∈ config.wifiPass, 0 ∉ pass ∧ pass.length < ddWifiPassMax

namespace Config.Sound

variable {config : Config}

theorem blank : Config.blank.Sound := by
  constructor <;> simp [Config.blank]

theorem setAdminBlob (sound : config.Sound) (faults : ConfigFaults) (salt : AdminSalt)
    (hash : AdminHash) : (config.setAdminBlob faults salt hash).2.Sound := by
  rw [Config.setAdminBlob]
  split_ifs
  · exact sound
  · exact sound
  · refine { sound with salt := ?_, salted := fun _ => rfl }
    rintro _ ⟨⟩
    exact salt.length_eq
  all_goals
    refine { sound with salt := ?_, hash := ?_, salted := fun _ => rfl }
    · rintro _ ⟨⟩
      exact salt.length_eq
    · rintro _ ⟨⟩
      exact hash.length_eq

theorem setWifi (sound : config.Sound) (faults : ConfigFaults) (ssid password : Bytes) :
    (config.setWifi faults ssid password).2.Sound := by
  rw [Config.setWifi]
  split_ifs with badSsid badPass
  · exact sound
  · exact sound
  · exact sound
  · exact sound
  all_goals
    rw [not_or, Nat.not_le] at badSsid
    rw [Nat.not_le] at badPass
  · refine { sound with ssid := ?_ }
    rintro _ ⟨⟩
    exact ⟨cstr_noNul _, badSsid⟩
  all_goals
    refine { sound with ssid := ?_, pass := ?_ }
    · rintro _ ⟨⟩
      exact ⟨cstr_noNul _, badSsid⟩
    · rintro _ ⟨⟩
      exact ⟨cstr_noNul _, badPass⟩

theorem write {platform : Platform} {after : Config} (sound : config.Sound)
    (write : ConfigWrite platform config after) : after.Sound := by
  cases write with
  | adminPassword faults salt plaintext =>
      rw [Config.setAdminPassword]
      split_ifs
      · exact sound
      · split
        · exact sound
        · exact sound.setAdminBlob _ _ _
  | adminBlob faults salt hash => exact sound.setAdminBlob _ _ _
  | wifi faults ssid password => exact sound.setWifi _ _ _
  | deviceName faults name =>
      obtain ⟨_, same⟩ := Config.setDeviceName_writes faults name config
      rw [same]
      exact { sound with }
  | metricsReset | restartCause | uptime => exact { sound with }

theorem countBoot (sound : config.Sound) : (Device.countBoot config).2.Sound := by
  rw [Device.countBoot]
  dsimp only
  split_ifs <;> exact { sound with }

end Config.Sound

/-- Every event keeps what the configuration holds. -/
theorem Device.sound_perform {platform : Platform} {device : Device}
    (sound : device.chassis.config.Sound) (event : DeviceEvent) :
    (device.perform platform event).chassis.config.Sound := by
  cases event with
  | request uri method request world =>
      rcases request_config platform device uri method request world with
        ⟨_, after⟩ | ⟨_, writes⟩
      · rw [after]
        exact { Config.Sound.blank with }
      · exact writes.invariant (fun _ _ write sound => sound.write write) sound
  | healthyBoot =>
      rw [perform, otaMarkValidCb, config_setConfig, Config.bootLoopClear]
      split_ifs
      · exact sound
      · exact { sound with }
  | saveUptime | background => exact { sound with }
  | bootButton world =>
      rw [perform, bootButton, chassis_scheduleRestart, factoryReset_config]
      split_ifs
      · exact { sound with }
      · exact { Config.Sound.blank with }
  | restart => exact sound.countBoot

/-- The configuration of every device that was once new. -/
theorem Device.sound_run (platform : Platform) (actions : List DeviceAction) :
    (run (step platform) (boot platform Flash.blank) actions).chassis.config.Sound := by
  refine run_kept (fun device : Device => device.chassis.config.Sound) (fun device action sound => ?_)
    Config.Sound.blank.countBoot
  have waited : (device.wait action.elapsedUs).chassis.config.Sound := sound
  exact sound_perform waited action.event

end Sound

section Codec

theorem hexPairs_hexEncode (input : Bytes) : hexPairs (hexEncode input) = some input := by
  induction input with
  | nil => rfl
  | cons byte input ih =>
      have highSmall : byte.toNat / 16 < 16 := by
        have := byte.toNat_lt
        omega
      have lowSmall : byte.toNat % 16 < 16 := by omega
      have split : hexEncode (byte :: input) =
          hexDigit (byte.toNat / 16) :: hexDigit (byte.toNat % 16) :: hexEncode input := rfl
      rw [split, hexPairs]
      simp only [hexValue_hexDigit highSmall, hexValue_hexDigit lowSmall, ih, ofNat_hexByte,
        Option.map_some]

theorem hexDecode_hexEncodeStr {size : Nat} (blob : Blob size) :
    hexDecode size (hexEncodeStr blob.bytes) = some blob := by
  have length := hexEncode_length blob.bytes
  have size_eq := blob.length_eq
  rw [hexDecode, hexEncodeStr, cstr_of_noNul (hexEncode_noNul _), if_neg (by omega),
    hexPairs_hexEncode, Blob.ofStored]
  exact dif_pos blob.length_eq

theorem hexByteUpper_noNul (byte : UInt8) : 0 ∉ hexByteUpper byte := by
  have digits : ∀ digit ∈ hexDigits, (if 97 ≤ digit then digit - 32 else digit) ≠ 0 := by decide
  intro member
  obtain ⟨digit, inside, zero⟩ := List.mem_map.mp member
  simp only [hexByte, List.mem_cons, List.not_mem_nil, or_false] at inside
  rcases inside with rfl | rfl <;> exact digits _ (hexDigit_mem _) zero

theorem formatMacUpper_noNul (addr : Addr) : 0 ∉ formatMacUpper addr := by
  have colon : 0 ∉ ascii ":" := by decide
  simp [formatMacUpper, hexByteUpper_noNul, colon]

theorem workerToBackup_kept {worker : Worker} (exact : worker.Exact) (small : worker.id ≤ 65534) :
    (workerToBackup worker).Kept := by
  have id : (worker.id : Int).natAbs < 2 ^ 53 := by omega
  have keys : 0 ∉ ascii "id" ∧ 0 ∉ ascii "addr" ∧ 0 ∉ ascii "name" ∧ 0 ∉ ascii "category" ∧
      0 ∉ ascii "created_at" := by decide
  exact ⟨keys.1, id, keys.2.1, formatMac_noNul _, keys.2.2.1, worker.name.noNul, keys.2.2.2.1,
    worker.category.noNul, keys.2.2.2.2, exact, trivial⟩

/-- An element of the list is read back as the worker it was written for. -/
theorem ofBackup_workerToBackup {worker : Worker} (small : worker.id ≤ 65534) :
    (workerToBackup worker).getInt (ascii "id") = some (worker.id : Int) ∧
      Worker.ofBackup (workerToBackup worker) worker.id = worker := by
  have addr : (workerToBackup worker).getText (ascii "addr") = some (formatMac worker.addr) := rfl
  have name : (workerToBackup worker).getText (ascii "name") = some worker.name.bytes := rfl
  have category : (workerToBackup worker).getText (ascii "category") =
      some worker.category.bytes := rfl
  have createdAt : (workerToBackup worker).getInt (ascii "created_at") = some worker.createdAt := rfl
  have id : castU16 worker.id = worker.id := by
    rw [castU16]
    omega
  refine ⟨rfl, ?_⟩
  rw [Worker.ofBackup, addr, name, category, createdAt, Option.bind_some,
    cstr_of_noNul (formatMac_noNul _), scanMac_formatMac, id]
  simp only [Option.getD_some, copyName, copyCategory, Text.copy_bytes]

end Codec

section Restore

variable {platform : Platform} {world : World}

/-- Every write of a restore succeeds. -/
structure World.Restores (world : World) : Prop where
  received : world.recvFails = false
  admin : world.config = .none
  wifi : world.wifi = .none
  workers : world.workers = .none

/-- A worker with a new id is entered behind the others. -/
theorem workerRestore_new (json : Json) {worker : Worker} {store : WorkerStore}
    (positive : worker.id ≠ 0) (small : worker.id ≤ 65534)
    (absent : worker.id ∉ store.workers.map Worker.id)
    (room : store.workers.length < ddWorkerMax) :
    (workerRestore json .none worker store).2.workers = store.workers ++ [worker] ∧
      worker.id < (workerRestore json .none worker store).2.nextId ∧
      store.nextId ≤ (workerRestore json .none worker store).2.nextId := by
  have missing : (store.workers.findIdx? fun other => other.id = worker.id) = none := by
    rw [List.findIdx?_eq_none_iff]
    intro other member
    simpa using fun same => absent (List.mem_map.mpr ⟨other, member, same⟩)
  simp only [workerRestore, if_neg positive, missing, NvsFaults.none, saveOne, Bool.false_eq_true,
    if_false, true_and, Nat.not_le.mpr room]
  split_ifs with above
  · refine ⟨rfl, ?_, ?_⟩ <;> dsimp only <;> omega
  · exact ⟨rfl, by dsimp only; omega, le_rfl⟩

/-- The loop enters the workers of the list in their order. -/
theorem restoreSteps_workers (platform : Platform) (restores : world.Restores)
    {workers : List Worker} {limit : Nat} {store : WorkerStore}
    (numbered : Numbered (store.workers ++ workers) limit)
    (below : ∀ worker ∈ store.workers, worker.id < store.nextId) :
    ((workers.map workerToBackup).foldl (restoreStep platform world) store).workers =
        store.workers ++ workers ∧
      ∀ worker ∈ store.workers ++ workers,
        worker.id < ((workers.map workerToBackup).foldl (restoreStep platform world) store).nextId := by
  induction workers generalizing store with
  | nil => simpa using below
  | cons worker workers ih =>
      have ids := numbered.ids worker (by simp)
      have small : worker.id ≤ 65534 := by
        have := numbered.next
        omega
      have distinct := numbered.nodup
      rw [List.map_append, List.map_cons] at distinct
      have absent : worker.id ∉ store.workers.map Worker.id := fun inside =>
        (List.nodup_append.mp distinct).2.2 worker.id inside worker.id (by simp) rfl
      have room : store.workers.length < ddWorkerMax := by
        have := numbered.count
        rw [List.length_append, List.length_cons] at this
        omega
      obtain ⟨id, read⟩ := ofBackup_workerToBackup small
      obtain ⟨entered, above, grows⟩ := workerRestore_new platform.json (by omega) small absent room
      have step : restoreStep platform world store (workerToBackup worker) =
          (workerRestore platform.json .none worker store).2 := by
        rw [restoreStep, id]
        simp only [read, restores.workers]
      have split : store.workers ++ worker :: workers =
          (workerRestore platform.json .none worker store).2.workers ++ workers := by
        rw [entered, List.append_assoc, List.singleton_append]
      rw [split] at numbered ⊢
      rw [List.map_cons, List.foldl_cons, step]
      refine ih numbered fun other member => ?_
      rw [entered] at member
      rcases List.mem_append.mp member with old | new
      · exact Nat.lt_of_lt_of_le (below other old) grows
      · rw [List.mem_singleton.mp new]
        exact above

/-- A stored credential is complete. -/
theorem Config.Sound.adminBlob {config : Config} (sound : config.Sound)
    (hasAdmin : config.hasAdmin = true) :
    ∃ salt hash, config.getAdminBlob = some (salt, hash) ∧ config.adminSalt = some salt.bytes ∧
      config.adminHash = some hash.bytes := by
  obtain ⟨hash, isHash, _⟩ := (Option.any_eq_true _ _).mp hasAdmin
  obtain ⟨salt, isSalt⟩ := Option.isSome_iff_exists.mp
    (sound.salted (Option.isSome_iff_exists.mpr ⟨hash, isHash⟩))
  have saltLength := sound.salt salt isSalt
  have hashLength := sound.hash hash isHash
  refine ⟨⟨salt, saltLength⟩, ⟨hash, hashLength⟩, ?_, isSalt, isHash⟩
  rw [Config.getAdminBlob, isSalt, Option.mem_def.mp isHash, Blob.ofStored, Blob.ofStored]
  simp only [dif_pos saltLength, dif_pos hashLength]

/-- Stored WiFi credentials are read whole. -/
theorem Config.Sound.wifi {config : Config} (sound : config.Sound) :
    match config.wifiSsid with
    | none => config.hasWifi = false ∧ config.getWifi = none
    | some ssid => config.hasWifi = true ∧
        config.getWifi = some (ssid, config.wifiPass.getD []) ∧
        0 ∉ ssid ∧ ssid ≠ [] ∧ ssid.length < ddWifiSsidMax ∧
        0 ∉ config.wifiPass.getD [] ∧ (config.wifiPass.getD []).length < ddWifiPassMax := by
  cases isSsid : config.wifiSsid with
  | none => simp [Config.hasWifi_stored, Config.getWifi, Config.getStr, isSsid]
  | some ssid =>
      obtain ⟨noNul, nonempty, short⟩ := sound.ssid ssid isSsid
      have stored : Config.getStr ddWifiSsidMax (some ssid) = some ssid := by
        simp [Config.getStr, short]
      refine ⟨?_, ?_, noNul, nonempty, short, ?_⟩
      · have := List.length_pos_of_ne_nil nonempty
        simp only [Config.hasWifi_stored, isSsid, Option.any_some, decide_eq_true_eq]
        omega
      · simp only [Config.getWifi, isSsid, stored]
        cases isPass : config.wifiPass with
        | none => rfl
        | some pass => simp [(sound.pass pass isPass).2]
      · cases isPass : config.wifiPass with
        | none => exact ⟨List.not_mem_nil, by decide⟩
        | some pass => exact sound.pass pass isPass

/-- What the reader finds in the configuration of a document. -/
theorem backupConfig_texts {config : Config} {salt : AdminSalt} {hash : AdminHash}
    (admin : config.getAdminBlob = some (salt, hash)) :
    let stored := JsonTree.object (backupConfig config)
    stored.getText (ascii "wifi_ssid") = config.getWifi.map Prod.fst ∧
      stored.getText (ascii "wifi_pass") = config.getWifi.map Prod.snd ∧
      stored.getText (ascii "admin_salt_hex") = some (hexEncodeStr salt.bytes) ∧
      stored.getText (ascii "admin_hash_hex") = some (hexEncodeStr hash.bytes) := by
  dsimp only
  rw [backupConfig, admin]
  cases config.getWifi with
  | none => exact ⟨rfl, rfl, rfl, rfl⟩
  | some wifi => exact ⟨rfl, rfl, rfl, rfl⟩

/-- Credentials of a fitting length are stored as they are. -/
theorem setWifi_none {ssid pass : Bytes} (ssidNoNul : 0 ∉ ssid) (nonempty : ssid ≠ [])
    (short : ssid.length < ddWifiSsidMax) (passNoNul : 0 ∉ pass) (passShort : pass.length < ddWifiPassMax)
    (config : Config) :
    (config.setWifi .none ssid pass).2 =
      { config with wifiSsid := some ssid, wifiPass := some pass } := by
  rw [Config.setWifi, cstr_of_noNul ssidNoNul, cstr_of_noNul passNoNul, if_neg, if_neg]
  · rfl
  · exact Nat.not_le.mpr passShort
  · rw [not_or]
    exact ⟨nonempty, Nat.not_le.mpr short⟩

/-- The reader stores the credentials the writer read. -/
theorem restoreConfig_backup (restores : world.Restores) {config : Config} (target : Config)
    (sound : config.Sound) (hasAdmin : config.hasAdmin = true) {body : JsonTree}
    (stored : body.getObject (ascii "config") = some (.object (backupConfig config))) :
    (restoreConfig world body target).adminSalt = config.adminSalt ∧
      (restoreConfig world body target).adminHash = config.adminHash ∧
      (config.hasWifi = true →
        (restoreConfig world body target).getWifi = config.getWifi) := by
  obtain ⟨salt, hash, admin, isSalt, isHash⟩ := sound.adminBlob hasAdmin
  obtain ⟨ssidText, passText, saltHex, hashHex⟩ := backupConfig_texts admin
  have wifi := sound.wifi
  rw [restoreConfig, stored]
  simp only [ssidText, passText, saltHex, hashHex, hexDecode_hexEncodeStr, restores.admin,
    restores.wifi]
  cases isSsid : config.wifiSsid with
  | none =>
      rw [isSsid] at wifi
      rw [wifi.2]
      exact ⟨isSalt.symm, isHash.symm, fun hasWifi => by rw [wifi.1] at hasWifi; cases hasWifi⟩
  | some ssid =>
      rw [isSsid] at wifi
      obtain ⟨_, read, noNul, nonempty, short, passNoNul, passShort⟩ := wifi
      have again : Config.getStr ddWifiSsidMax (some ssid) = some ssid := by
        simp [Config.getStr, short]
      simp only [read, Option.map_some, Option.getD_some,
        setWifi_none noNul nonempty short passNoNul passShort]
      refine ⟨isSalt.symm, isHash.symm, fun _ => ?_⟩
      simp [Config.setAdminBlob, ConfigFaults.none, Config.getWifi, again, passShort]

end Restore

section Roundtrip

variable {platform : Platform}

/-- The document holds C strings and exact integers only. -/
theorem backupTree_kept {world : World} {device : Device} (sound : device.chassis.config.Sound)
    (hasAdmin : device.chassis.config.hasAdmin = true)
    (numbered : Numbered device.registry.workers device.registry.nextId) (clock : world.now.natAbs < 2 ^ 53) :
    (backupTree platform world device).Kept := by
  obtain ⟨salt, hash, admin, _⟩ := sound.adminBlob hasAdmin
  have keys : 0 ∉ ascii "version" ∧ 0 ∉ ascii "created_at" ∧ 0 ∉ ascii "device_mac" ∧
      0 ∉ ascii "config" ∧ 0 ∉ ascii "workers" := by decide
  have wifiKeys : 0 ∉ ascii "wifi_ssid" ∧ 0 ∉ ascii "wifi_pass" := by decide
  have adminKeys : 0 ∉ ascii "admin_salt_hex" ∧ 0 ∉ ascii "admin_hash_hex" := by decide
  have config : (JsonTree.object (backupConfig device.chassis.config)).Kept := by
    have wifi := sound.wifi
    rw [backupConfig, admin]
    cases isSsid : device.chassis.config.wifiSsid with
    | none =>
        rw [isSsid] at wifi
        rw [wifi.2]
        exact ⟨adminKeys.1, hexEncode_noNul _, adminKeys.2, hexEncode_noNul _, trivial⟩
    | some ssid =>
        rw [isSsid] at wifi
        obtain ⟨_, read, noNul, _, _, passNoNul, _⟩ := wifi
        rw [read]
        exact ⟨wifiKeys.1, noNul, wifiKeys.2, passNoNul, adminKeys.1, hexEncode_noNul _, adminKeys.2,
          hexEncode_noNul _, trivial⟩
  have workers : JsonTree.KeptItems (device.registry.workers.map workerToBackup) := by
    rw [JsonTree.keptItems_iff]
    intro item member
    obtain ⟨worker, inside, rfl⟩ := List.mem_map.mp member
    have ids := numbered.ids worker inside
    have next := numbered.next
    exact workerToBackup_kept (numbered.exact worker inside) (by omega)
  have version : (1 : Int).natAbs < 2 ^ 53 := by decide
  exact ⟨keys.1, version, keys.2.1, clock, keys.2.2.1, formatMacUpper_noNul _, keys.2.2.2.1, config,
    keys.2.2.2.2, workers, trivial⟩

section Received

variable {source target : Device} {backupWorld restoreWorld : World}

/-- What the handler does with the document of another device. -/
theorem restorePost_received (codec : platform.codec.Faithful) (sound : source.chassis.config.Sound)
    (hasAdmin : source.chassis.config.hasAdmin = true)
    (numbered : Numbered source.registry.workers source.registry.nextId)
    (clock : backupWorld.now.natAbs < 2 ^ 53)
    (short : (platform.codec.print (backupTree platform backupWorld source)).length ≤ 8192)
    (blank : target.chassis.config.hasAdmin = false) (restores : restoreWorld.Restores) :
    let restored := (restorePost platform restoreWorld
      { cookie := [], body := platform.codec.print (backupTree platform backupWorld source) } target).2
    restored.chassis.config = (restoreConfig restoreWorld (backupTree platform backupWorld source)
        target.chassis.config).setRestartCause .admin ∧
      restored.registry = (source.registry.workers.map workerToBackup).foldl
        (restoreStep platform restoreWorld) (workerWipe .none target.registry).2 := by
  have kept : (backupTree platform backupWorld source).Kept :=
    backupTree_kept sound hasAdmin numbered clock
  have received : recvJsonBody platform restoreWorld
      { cookie := [], body := platform.codec.print (backupTree platform backupWorld source) } =
        some (backupTree platform backupWorld source) := by
    have nonempty := List.length_pos_of_ne_nil (codec.print_ne_nil
      (backupTree platform backupWorld source))
    rw [recvJsonBody, if_neg (by dsimp only; omega), restores.received]
    exact codec.parse_print _ kept
  have version : (backupTree platform backupWorld source).getInt (ascii "version") = some 1 := rfl
  have workers : (backupTree platform backupWorld source).getArray (ascii "workers") =
      some (source.registry.workers.map workerToBackup) := rfl
  have unseen := @Config.hasAdmin_of_blank target.chassis.config restoreWorld.reads blank
  rw [restorePost, if_neg (by simp [unseen]), withBody, received]
  simp only [version, ne_eq, not_true_eq_false, if_false, restoreWorkers, workers, restores.workers]
  exact ⟨rfl, rfl⟩

/-- A device without an admin that is sent the document of another takes over the
credential, the WiFi and the registry. -/
theorem restorePost_backupTree (codec : platform.codec.Faithful)
    (sound : source.chassis.config.Sound) (hasAdmin : source.chassis.config.hasAdmin = true)
    (numbered : Numbered source.registry.workers source.registry.nextId)
    (clock : backupWorld.now.natAbs < 2 ^ 53)
    (short : (platform.codec.print (backupTree platform backupWorld source)).length ≤ 8192)
    (blank : target.chassis.config.hasAdmin = false) (restores : restoreWorld.Restores) :
    let restored := (restorePost platform restoreWorld
      { cookie := [], body := platform.codec.print (backupTree platform backupWorld source) } target).2
    restored.chassis.config.adminSalt = source.chassis.config.adminSalt ∧
      restored.chassis.config.adminHash = source.chassis.config.adminHash ∧
      (source.chassis.config.hasWifi = true →
        restored.chassis.config.getWifi = source.chassis.config.getWifi) ∧
      restored.registry.workers = source.registry.workers ∧
      ∀ worker ∈ restored.registry.workers, worker.id < restored.registry.nextId := by
  obtain ⟨configIs, registryIs⟩ := restorePost_received codec sound hasAdmin numbered clock short
    blank restores
  have config : (backupTree platform backupWorld source).getObject (ascii "config") =
      some (.object (backupConfig source.chassis.config)) := rfl
  obtain ⟨salt, hash, wifi⟩ := restoreConfig_backup restores target.chassis.config sound hasAdmin config
  have wiped : (workerWipe .none target.registry).2.workers = [] := rfl
  have appended : Numbered ((workerWipe .none target.registry).2.workers ++
      source.registry.workers) source.registry.nextId := by
    rw [wiped]
    exact numbered
  have steps := restoreSteps_workers platform restores appended (by simp [wiped])
  rw [wiped, List.nil_append, ← registryIs] at steps
  dsimp only
  rw [configIs]
  refine ⟨salt, hash, wifi, steps.1, fun worker member => steps.2 worker ?_⟩
  rw [← steps.1]
  exact member

end Received

/-- The JSON a download answers with. -/
theorem backupGet_document {world : World} {device : Device} {request : Request}
    {document : JsonTree}
    (sent : (backupGet platform world device request).1.content = .json document) :
    document = backupTree platform world device := by
  rw [backupGet, requireAuth] at sent
  split_ifs at sent
  · exact (Content.json.inj sent).symm
  · cases sent

/-- A backup posted to a device without an admin brings over the credential, the WiFi
and the registry of the device it was taken from. -/
theorem restorePost_backupGet (codec : platform.codec.Faithful) (json : platform.json.Faithful)
    {actions : List DeviceAction} {entries : List RegistryAction} {source target : Device}
    {backupWorld restoreWorld : World} {request : Request} {document : JsonTree}
    (reached : run (Device.step platform) (Device.boot platform Flash.blank) actions = source)
    (fits : Guarded (RegistryAction.step platform.json) (fun store entry => entry.Fits store)
      WorkerStore.fresh entries)
    (registered : run (RegistryAction.step platform.json) WorkerStore.fresh entries = source.registry)
    (hasAdmin : source.chassis.config.hasAdmin = true) (clock : backupWorld.now.natAbs < 2 ^ 53)
    (sent : (backupGet platform backupWorld source request).1.content = .json document)
    (short : (platform.codec.print document).length ≤ 8192)
    (blank : target.chassis.config.hasAdmin = false) (restores : restoreWorld.Restores) :
    let restored := (restorePost platform restoreWorld
      { cookie := [], body := platform.codec.print document } target).2
    restored.chassis.config.adminSalt = source.chassis.config.adminSalt ∧
      restored.chassis.config.adminHash = source.chassis.config.adminHash ∧
      (source.chassis.config.hasWifi = true →
        restored.chassis.config.getWifi = source.chassis.config.getWifi) ∧
      restored.registry.workers = source.registry.workers ∧
      ∀ worker ∈ restored.registry.workers, worker.id < restored.registry.nextId := by
  obtain rfl := backupGet_document sent
  have numbers := WorkerStore.Numbers.reached json fits
  rw [registered] at numbers
  have sound := Device.sound_run platform actions
  rw [reached] at sound
  exact restorePost_backupTree codec sound hasAdmin numbers.table clock short blank restores

/-- A phone paired, another entered by hand. -/
def visitEntries : List RegistryAction :=
  [.operation (.lookupOrCreate (some ⟨0x5c, 0x91, 0x57, 0x02, 0xaa, 0x10⟩) 1700000000) .none,
    .operation (.restore (newWorker 5 ⟨1, 2, 3, 4, 5, 6⟩ 1700000100)) .none]

def visitRegistry : WorkerStore :=
  run (RegistryAction.step plainJson) WorkerStore.fresh visitEntries

/-- A device set up, logged in and in use. -/
def visitActions : List DeviceAction :=
  [postTexts "/api/setup" []
      [("admin_password", "correct horse"), ("wifi_ssid", "cafe"), ("wifi_password", "espresso")],
    postTexts "/api/auth/login" [] [("password", "correct horse")],
    ⟨60000000, .background visitRegistry ⟨none, 0⟩ []⟩]

def visitedDevice : Device :=
  run (Device.step samplePlatform) (Device.boot samplePlatform Flash.blank) visitActions

/-- A download with the session of its login. -/
def visitedDownload : Request := { cookie := ascii "dd_session=" ++ sampleToken, body := [] }

theorem visitedDownload_sent :
    (backupGet samplePlatform sampleWorld visitedDevice visitedDownload).1.content =
      .json (backupTree samplePlatform sampleWorld visitedDevice) := by
  have authed : isAuthed visitedDownload visitedDevice = true := by decide +kernel
  rw [backupGet, requireAuth, if_pos authed]

theorem visitEntries_fits : Guarded (RegistryAction.step samplePlatform.json)
    (fun store entry => entry.Fits store) WorkerStore.fresh visitEntries := by
  decide +kernel

theorem visitEntries_registered :
    run (RegistryAction.step samplePlatform.json) WorkerStore.fresh visitEntries =
      visitedDevice.registry := by
  rw [visitedDevice, visitActions, run_cons, run_cons, run_cons, run_nil]
  rfl

theorem restorePost_backupGet_visited :
    let document := backupTree samplePlatform sampleWorld visitedDevice
    let restored := (restorePost samplePlatform sampleWorld
      { cookie := [], body := samplePlatform.codec.print document } (Device.boot samplePlatform Flash.blank)).2
    restored.chassis.config.adminHash = visitedDevice.chassis.config.adminHash ∧
      restored.chassis.config.getWifi = visitedDevice.chassis.config.getWifi ∧
      restored.registry.workers = visitedDevice.registry.workers := by
  have hasAdmin : visitedDevice.chassis.config.hasAdmin = true := by decide +kernel
  have hasWifi : visitedDevice.chassis.config.hasWifi = true := by decide +kernel
  have blank : (Device.boot samplePlatform Flash.blank).chassis.config.hasAdmin = false := by
    decide +kernel
  have reached : run (Device.step samplePlatform) (Device.boot samplePlatform Flash.blank)
      visitActions = visitedDevice := rfl
  have short : (samplePlatform.codec.print
      (backupTree samplePlatform sampleWorld visitedDevice)).length ≤ 8192 := by
    decide +kernel
  have clock : sampleWorld.now.natAbs < 2 ^ 53 := by decide
  have restores : sampleWorld.Restores := ⟨rfl, rfl, rfl, rfl⟩
  have result := restorePost_backupGet plainCodec_faithful plainJson_faithful reached
    visitEntries_fits visitEntries_registered hasAdmin clock visitedDownload_sent short blank restores
  exact ⟨result.2.1, result.2.2.1 hasWifi, result.2.2.2.1⟩

end Roundtrip

end LeanDingdong
