import Dingdong.BackupRestore
import Dingdong.WorkerNames

/-!
The size of a backup against the limit of `recv_json_body`. A control character of a name
takes six bytes where it is printed, so the bytes of the names do not bound the document.
-/

namespace LeanDingdong

section Strings

/-- The bytes printed as a backslash and one letter. -/
def shortEscaped (byte : UInt8) : Bool := [34, 92, 8, 12, 10, 13, 9].contains byte

/-- The bytes printed as `\u` and four digits. -/
def longEscaped (byte : UInt8) : Bool := byte < 32 && !shortEscaped byte

/-- What a string takes between its quotes. -/
def printedSize (text : Bytes) : Nat :=
  text.length + text.countP shortEscaped + 5 * text.countP longEscaped

theorem escapeByte_size (byte : UInt8) :
    (escapeByte byte).length =
      1 + (if shortEscaped byte then 1 else 0) + 5 * if longEscaped byte then 1 else 0 := by
  rw [longEscaped]
  by_cases short : shortEscaped byte = true
  · have listed : byte ∈ [34, 92, 8, 12, 10, 13, 9] := List.contains_iff_mem.mp short
    rw [short]
    simp only [List.mem_cons, List.not_mem_nil, or_false] at listed
    rcases listed with rfl | rfl | rfl | rfl | rfl | rfl | rfl <;> rfl
  · have unlisted : byte ∉ [34, 92, 8, 12, 10, 13, 9] := fun listed =>
      short (List.contains_iff_mem.mpr listed)
    simp only [List.mem_cons, List.not_mem_nil, or_false, not_or] at unlisted
    obtain ⟨quote, escape, back, feed, newline, carriage, tab⟩ := unlisted
    rw [escapeByte, if_neg quote, if_neg escape, if_neg back, if_neg feed, if_neg newline,
      if_neg carriage, if_neg tab]
    by_cases low : byte < 32
    · simp [low, short, hexByte, ascii]
    · simp [low, short]

theorem printString_size (text : Bytes) : (printString text).length = printedSize text + 2 := by
  have inner : (escapeText text).length = printedSize text := by
    induction text with
    | nil => rfl
    | cons byte text ih =>
        rw [escapeText, printedSize] at ih ⊢
        rw [List.flatMap_cons, List.length_append, ih, escapeByte_size, List.length_cons,
          List.countP_cons, List.countP_cons]
        ring
  rw [printString, List.length_cons, List.length_append, inner]
  rfl

/-- A string without escapes takes its own length. -/
theorem printedSize_plain {text : Bytes}
    (plain : ∀ byte ∈ text, shortEscaped byte = false ∧ longEscaped byte = false) :
    printedSize text = text.length := by
  have short : text.countP shortEscaped = 0 :=
    List.countP_eq_zero.mpr fun byte member => by simp [(plain byte member).1]
  have long : text.countP longEscaped = 0 :=
    List.countP_eq_zero.mpr fun byte member => by simp [(plain byte member).2]
  rw [printedSize, short, long, Nat.mul_zero, Nat.add_zero]

theorem hexDigits_plain :
    ∀ byte ∈ hexDigits, shortEscaped byte = false ∧ longEscaped byte = false := by
  decide

theorem formatMac_size (addr : Addr) : printedSize (formatMac addr) = 17 := by
  rw [printedSize_plain (formatMac_all hexDigits_plain (by decide) addr), formatMac_length]

/-- The same address in capitals. -/
theorem formatMacUpper_map (addr : Addr) :
    formatMacUpper addr =
      (formatMac addr).map fun digit => if 97 ≤ digit then digit - 32 else digit := by
  simp only [formatMacUpper, formatMac, hexByteUpper, List.map_append]
  rfl

theorem formatMacUpper_size (addr : Addr) : printedSize (formatMacUpper addr) = 17 := by
  have plain : ∀ digit ∈ hexDigits,
      shortEscaped (if 97 ≤ digit then digit - 32 else digit) = false ∧
        longEscaped (if 97 ≤ digit then digit - 32 else digit) = false := by decide
  have all := formatMac_all plain (by decide) addr
  rw [formatMacUpper_map, printedSize_plain, List.length_map, formatMac_length]
  intro byte member
  obtain ⟨digit, inside, rfl⟩ := List.mem_map.mp member
  exact all digit inside

theorem hexEncode_size (input : Bytes) : printedSize (hexEncode input) = 2 * input.length := by
  have plain := fun byte member => hexDigits_plain byte (hexEncode_digits input byte member)
  rw [printedSize_plain plain, hexEncode_length]

end Strings

namespace JsonTree

theorem printItems_size (items : List JsonTree) :
    (printItems items).length =
      (items.map fun item => item.print.length).sum + (items.length - 1) + 1 := by
  induction items with
  | nil => rfl
  | cons item items ih =>
      rw [printItems, List.length_append, List.length_append, ih, List.map_cons, List.sum_cons,
        List.length_cons]
      cases items with
      | nil => rfl
      | cons next items =>
          simp only [List.isEmpty_cons, Bool.false_eq_true, if_false, List.length_cons,
            List.length_nil]
          omega

theorem printMembers_size (members : List (Bytes × JsonTree)) :
    (printMembers members).length =
      (members.map fun member => printedSize member.1 + 3 + member.2.print.length).sum +
        (members.length - 1) + 1 := by
  induction members with
  | nil => rfl
  | cons member members ih =>
      rw [printMembers, List.length_append, List.length_cons, List.length_append,
        List.length_append, ih, printString_size, List.map_cons, List.sum_cons, List.length_cons]
      cases members with
      | nil =>
          simp only [List.isEmpty_nil, if_true, List.length_nil, List.map_nil, List.sum_nil]
          omega
      | cons next members =>
          simp only [List.isEmpty_cons, Bool.false_eq_true, if_false, List.length_cons,
            List.length_nil]
          omega

end JsonTree

section Sizes

/-- What the texts of `cJSON_PrintUnformatted` take: strings with their escapes, brackets, commas
and colons, integers that `%d` or 15 digits hold in full, and any number its buffer. -/
structure Codec.PrintSizes (codec : Codec) : Prop where
  text : ∀ value : Bytes, 0 ∉ value → (codec.print (.text value)).length = printedSize value + 2
  array : ∀ items : List JsonTree, (codec.print (.array items)).length =
    (items.map fun item => (codec.print item).length).sum + (items.length - 1) + 2
  object : ∀ members : List (Bytes × JsonTree), (∀ member ∈ members, 0 ∉ member.1) →
    (codec.print (.object members)).length =
      (members.map fun member => printedSize member.1 + 3 + (codec.print member.2).length).sum +
        (members.length - 1) + 2
  number : ∀ value : Int, value.natAbs < 10 ^ 15 →
    (codec.print (.number value)).length = (signedDecimal value).length
  wide : ∀ value : Int, value.natAbs < 2 ^ 53 → (codec.print (.number value)).length ≤ 25

theorem signedDecimal_size {value : Int} (exact : value.natAbs < 2 ^ 53) :
    (signedDecimal value).length ≤ 25 :=
  signedDecimal_length (by decide) (exact.trans (by decide))

theorem plainCodec_printSizes : plainCodec.PrintSizes where
  text value _ := printString_size value
  array items := by
    show (91 :: JsonTree.printItems items).length = _
    rw [List.length_cons, JsonTree.printItems_size]
    rfl
  object members _ := by
    show (123 :: JsonTree.printMembers members).length = _
    rw [List.length_cons, JsonTree.printMembers_size]
    rfl
  number _ _ := rfl
  wide _ exact := signedDecimal_size exact

variable (codec : Codec)

def numberSize (value : Int) : Nat := (codec.print (.number value)).length

/-- What an entry of the list takes. -/
def workerSize (worker : Worker) : Nat :=
  72 + numberSize codec worker.id + numberSize codec worker.createdAt +
    printedSize worker.name.bytes + printedSize worker.category.bytes

/-- What the object of the credentials takes. -/
def configSize (config : Config) : Nat :=
  2 + config.getWifi.elim 0 (fun wifi => 29 + printedSize wifi.1 + printedSize wifi.2) +
    (if config.getAdminBlob.isSome then 135 else 0) +
      if config.getWifi.isSome ∧ config.getAdminBlob.isSome then 1 else 0

/-- What the document takes. -/
def backupSize (world : World) (device : Device) : Nat :=
  83 + numberSize codec world.now + configSize device.chassis.config +
    (device.registry.workers.map (workerSize codec)).sum + (device.registry.workers.length - 1)

variable {codec} (sizes : codec.PrintSizes)

include sizes

theorem workerToBackup_size (worker : Worker) :
    (codec.print (workerToBackup worker)).length = workerSize codec worker := by
  have id : printedSize (ascii "id") = 2 := by decide
  have addr : printedSize (ascii "addr") = 4 := by decide
  have name : printedSize (ascii "name") = 4 := by decide
  have category : printedSize (ascii "category") = 8 := by decide
  have createdAt : printedSize (ascii "created_at") = 10 := by decide
  rw [workerToBackup, sizes.object _ (by simp [ascii]), workerSize]
  simp only [List.map_cons, List.map_nil, List.sum_cons, List.sum_nil, List.length_cons,
    List.length_nil, id, addr, name, category, createdAt, numberSize,
    sizes.text _ (formatMac_noNul _), sizes.text _ worker.name.noNul,
    sizes.text _ worker.category.noNul, formatMac_size]
  omega

theorem backupConfig_size {config : Config} (sound : config.Sound) :
    (codec.print (.object (backupConfig config))).length = configSize config := by
  have ssid : printedSize (ascii "wifi_ssid") = 9 := by decide
  have pass : printedSize (ascii "wifi_pass") = 9 := by decide
  have salt : printedSize (ascii "admin_salt_hex") = 14 := by decide
  have hash : printedSize (ascii "admin_hash_hex") = 14 := by decide
  have blob {size : Nat} (blob : Blob size) :
      (codec.print (.text (hexEncodeStr blob.bytes))).length = 2 * size + 2 := by
    rw [hexEncodeStr, sizes.text _ (hexEncode_noNul _), hexEncode_size, blob.length_eq]
  have keys : ∀ member ∈ backupConfig config, 0 ∉ member.1 := by
    rw [backupConfig]
    cases config.getWifi <;> cases config.getAdminBlob <;> simp [ascii]
  have wifi : ∀ wifi ∈ config.getWifi,
      (codec.print (.text wifi.1)).length = printedSize wifi.1 + 2 ∧
        (codec.print (.text wifi.2)).length = printedSize wifi.2 + 2 := by
    intro wifi stored
    have whole := sound.wifi
    cases isSsid : config.wifiSsid with
    | none =>
        rw [isSsid] at whole
        rw [whole.2] at stored
        cases stored
    | some ssid =>
        rw [isSsid] at whole
        obtain ⟨_, read, noNul, _, _, passNoNul, _⟩ := whole
        rw [read] at stored
        obtain rfl := Option.some.inj stored
        exact ⟨sizes.text _ noNul, sizes.text _ passNoNul⟩
  rw [sizes.object _ keys, backupConfig, configSize]
  cases read : config.getWifi with
  | none =>
      cases config.getAdminBlob with
      | none => rfl
      | some admin => simp [salt, hash, blob, ddAdminSaltLen, ddAdminHashLen]
  | some given =>
      obtain ⟨ssidSize, passSize⟩ := wifi given read
      cases config.getAdminBlob with
      | none =>
          simp [ssid, pass, ssidSize, passSize]
          omega
      | some admin =>
          simp [ssid, pass, salt, hash, blob, ssidSize, passSize, ddAdminSaltLen, ddAdminHashLen]
          omega

theorem backupTree_size (platform : Platform) (world : World) {device : Device}
    (sound : device.chassis.config.Sound) :
    (codec.print (backupTree platform world device)).length = backupSize codec world device := by
  have version : printedSize (ascii "version") = 7 := by decide
  have one : (codec.print (.number 1)).length = 1 := (sizes.number 1 (by decide)).trans (by decide)
  have createdAt : printedSize (ascii "created_at") = 10 := by decide
  have mac : printedSize (ascii "device_mac") = 10 := by decide
  have config : printedSize (ascii "config") = 6 := by decide
  have workers : printedSize (ascii "workers") = 7 := by decide
  have entries : (device.registry.workers.map workerToBackup).map
      (fun item => (codec.print item).length) = device.registry.workers.map (workerSize codec) := by
    rw [List.map_map]
    exact List.map_congr_left fun worker _ => workerToBackup_size sizes worker
  have array : (codec.print (.array (device.registry.workers.map workerToBackup))).length =
      (device.registry.workers.map (workerSize codec)).sum + (device.registry.workers.length - 1) +
        2 := by
    rw [sizes.array, entries, List.length_map]
  rw [backupTree, sizes.object _ (by simp [ascii]), backupSize]
  simp only [List.map_cons, List.map_nil, List.sum_cons, List.sum_nil, numberSize, one,
    backupConfig_size sizes sound, array, version, createdAt, mac, config, workers,
    sizes.text _ (formatMacUpper_noNul _), formatMacUpper_size, List.length_cons, List.length_nil]
  omega

end Sizes

/-- A printed document that arrives is read back when it is within the limit. -/
theorem recvJsonBody_print {platform : Platform} {world : World}
    (faithful : platform.codec.Faithful) (arrives : world.recvFails = false) {tree : JsonTree}
    (kept : tree.Kept) :
    recvJsonBody platform world { cookie := [], body := platform.codec.print tree } = some tree ↔
      (platform.codec.print tree).length ≤ 8192 := by
  have nonempty := List.length_pos_of_ne_nil (faithful.print_ne_nil tree)
  rw [recvJsonBody, arrives]
  dsimp only
  constructor
  · intro received
    by_contra long
    rw [if_pos (.inr (not_le.mp long))] at received
    cases received
  · intro short
    rw [if_neg (by omega), if_neg Bool.false_ne_true, faithful.parse_print tree kept]

/-- The body of a backup is within the limit of `recv_json_body`, and is read back by it, if
and only if the sizes of its parts add up to no more than the limit. -/
theorem backup_received_iff {platform : Platform} (sizes : platform.codec.PrintSizes)
    (faithful : platform.codec.Faithful) {actions : List DeviceAction} {device : Device}
    (reached : Runs.run (Device.step platform) (Device.boot platform Flash.blank) actions = device)
    {backupWorld restoreWorld : World} (arrives : restoreWorld.recvFails = false)
    {request : Request} {document : JsonTree}
    (sent : (backupGet platform backupWorld device request).1.content = .json document) :
    let body := platform.codec.print document
    (body.length ≤ 8192 ↔ backupSize platform.codec backupWorld device ≤ 8192) ∧
      (document.Kept →
        (recvJsonBody platform restoreWorld { cookie := [], body := body } = some document ↔
          backupSize platform.codec backupWorld device ≤ 8192)) := by
  obtain rfl := backupGet_document sent
  have sound := Device.sound_run platform actions
  rw [reached] at sound
  have size := backupTree_size sizes platform backupWorld sound
  dsimp only
  rw [size]
  refine ⟨Iff.rfl, fun kept => ?_⟩
  rw [recvJsonBody_print faithful arrives kept, size]

/-- A device with two workers hands out a backup it takes back. -/
theorem backup_received_visited :
    let document := backupTree samplePlatform sampleWorld visitedDevice
    let body := samplePlatform.codec.print document
    recvJsonBody samplePlatform sampleWorld { cookie := [], body := body } = some document := by
  have small : backupSize samplePlatform.codec sampleWorld visitedDevice ≤ 8192 := by
    decide +kernel
  have arrives : sampleWorld.recvFails = false := rfl
  have numbers := @WorkerStore.Numbers.reached samplePlatform.json plainJson_faithful _
    visitEntries_fits
  rw [visitEntries_registered] at numbers
  have sound := Device.sound_run samplePlatform visitActions
  rw [← visitedDevice] at sound
  have kept := @backupTree_kept samplePlatform sampleWorld visitedDevice sound (by decide +kernel)
    numbers.table (by decide)
  have reached : Runs.run (Device.step samplePlatform) (Device.boot samplePlatform Flash.blank)
      visitActions = visitedDevice := rfl
  exact ((backup_received_iff plainCodec_printSizes plainCodec_faithful reached arrives
    visitedDownload_sent).2 kept).mpr small

section Bound

/-- The control characters of the document that take six bytes each. -/
def longEscapes (device : Device) : Nat :=
  (device.registry.workers.map fun worker =>
    worker.name.bytes.countP longEscaped + worker.category.bytes.countP longEscaped).sum +
  device.chassis.config.getWifi.elim 0 fun wifi =>
    wifi.1.countP longEscaped + wifi.2.countP longEscaped

theorem printedSize_le (text : Bytes) :
    printedSize text ≤ 2 * text.length + 5 * text.countP longEscaped := by
  have short := @List.countP_le_length _ shortEscaped text
  rw [printedSize]
  omega

theorem workerSize_le {codec : Codec} (sizes : codec.PrintSizes) {worker : Worker}
    (small : worker.id < 65536) (exact : worker.Exact) :
    workerSize codec worker ≤ 194 + 5 * (worker.name.bytes.countP longEscaped +
      worker.category.bytes.countP longEscaped) := by
  have id : numberSize codec worker.id ≤ 5 := by
    rw [numberSize, sizes.number _ (by omega), signedDecimal, if_neg (by omega),
      Int.natAbs_natCast]
    exact decimal_length_le (by decide) (by omega)
  have createdAt : numberSize codec worker.createdAt ≤ 25 := sizes.wide _ exact
  have name := printedSize_le worker.name.bytes
  have category := printedSize_le worker.category.bytes
  have nameShort : worker.name.bytes.length < 32 := worker.name.short
  have categoryShort : worker.category.bytes.length < 16 := worker.category.short
  rw [workerSize]
  omega

theorem getWifi_short {config : Config} {wifi : Bytes × Bytes}
    (stored : config.getWifi = some wifi) : wifi.1.length < 32 ∧ wifi.2.length < 64 := by
  rw [Config.getWifi] at stored
  cases ssid : Config.getStr ddWifiSsidMax config.wifiSsid with
  | none => simp [ssid] at stored
  | some text =>
      have short : text.length < 32 := by
        rw [Config.getStr, Option.filter_eq_some_iff] at ssid
        exact of_decide_eq_true ssid.2
      cases pass : config.wifiPass with
      | none =>
          simp only [ssid, pass, Option.some.injEq] at stored
          subst stored
          exact ⟨short, (by decide : ([] : Bytes).length < 64)⟩
      | some password =>
          simp only [ssid, pass] at stored
          split_ifs at stored with fits
          obtain rfl := Option.some.inj stored
          exact ⟨short, fits⟩

theorem configSize_le (config : Config) :
    configSize config ≤ 355 + 5 * config.getWifi.elim 0 fun wifi =>
      wifi.1.countP longEscaped + wifi.2.countP longEscaped := by
  have admin : (if config.getAdminBlob.isSome then 135 else 0) ≤ 135 := by
    split_ifs <;> omega
  rw [configSize]
  cases stored : config.getWifi with
  | none =>
      simp only [Option.elim_none, Option.isSome_none, Bool.false_eq_true, false_and, if_false]
      omega
  | some wifi =>
      have short := getWifi_short stored
      have ssid := printedSize_le wifi.1
      have pass := printedSize_le wifi.2
      simp only [Option.elim_some]
      split_ifs <;> omega

/-- A full registry fits with room to spare, as far as those characters go. -/
theorem backupSize_le {codec : Codec} (sizes : codec.PrintSizes) {world : World} {device : Device}
    (numbered : Numbered device.registry.workers device.registry.nextId)
    (clock : world.now.natAbs < 2 ^ 53) :
    backupSize codec world device ≤ 6702 + 5 * longEscapes device := by
  have entries : ∀ workers : List Worker, (∀ worker ∈ workers, worker ∈ device.registry.workers) →
      (workers.map (workerSize codec)).sum ≤ 194 * workers.length + 5 * (workers.map fun worker =>
        worker.name.bytes.countP longEscaped + worker.category.bytes.countP longEscaped).sum := by
    intro workers listed
    induction workers with
    | nil => simp
    | cons worker workers ih =>
        have here := listed worker List.mem_cons_self
        have range := numbered.ids worker here
        have last := numbered.next
        have first := workerSize_le sizes (by omega) (numbered.exact worker here)
        have later := ih fun other member => listed other (List.mem_cons_of_mem _ member)
        simp only [List.map_cons, List.sum_cons, List.length_cons]
        omega
  have workers := entries device.registry.workers fun _ member => member
  have config := configSize_le device.chassis.config
  have now : numberSize codec world.now ≤ 25 := sizes.wide _ clock
  have few : device.registry.workers.length ≤ 32 := numbered.count
  rw [backupSize, longEscapes]
  omega

/-- The backup of every registry in use is within the limit while the document has no more than
298 of those characters. -/
theorem backup_short_few {platform : Platform} (sizes : platform.codec.PrintSizes)
    (json : platform.json.Faithful) {actions : List DeviceAction} {entries : List RegistryAction}
    {device : Device}
    (reached : Runs.run (Device.step platform) (Device.boot platform Flash.blank) actions = device)
    (fits : Runs.Guarded (RegistryAction.step platform.json) (fun store entry => entry.Fits store)
      WorkerStore.fresh entries)
    (registered : Runs.run (RegistryAction.step platform.json) WorkerStore.fresh entries =
      device.registry)
    {world : World} (clock : world.now.natAbs < 2 ^ 53) {request : Request} {document : JsonTree}
    (sent : (backupGet platform world device request).1.content = .json document)
    (few : longEscapes device ≤ 298) : (platform.codec.print document).length ≤ 8192 := by
  have numbers := WorkerStore.Numbers.reached json fits
  rw [registered] at numbers
  have sound := Device.sound_run platform actions
  rw [reached] at sound
  have size := backupSize_le sizes numbers.table clock
  obtain rfl := backupGet_document sent
  rw [backupTree_size sizes platform world sound]
  omega

end Bound

section Crowded

/-- 32 workers are created and named with control characters. -/
def crowdedCalls : List NameCall :=
  ((List.range 32).map fun number =>
    .create .none (some ⟨0, 0, 0, 0, 0, UInt8.ofNat number⟩) 1700000000) ++
  (List.range 32).map fun number =>
    .update .none (number + 1) (some (List.replicate 31 1)) (some (List.replicate 15 1))

def crowdedRegistry : WorkerStore :=
  Runs.run (NameCall.step plainJson) WorkerStore.fresh crowdedCalls

/-- A device set up, logged in and with all of its workers. -/
def crowdedActions : List DeviceAction :=
  [postTexts "/api/setup" []
      [("admin_password", "correct horse"), ("wifi_ssid", "cafe"), ("wifi_password", "espresso")],
    postTexts "/api/auth/login" [] [("password", "correct horse")],
    ⟨60000000, .background crowdedRegistry ⟨none, 0⟩ []⟩]

def crowdedDevice : Device :=
  Runs.run (Device.step samplePlatform) (Device.boot samplePlatform Flash.blank) crowdedActions

/-- The device hands out a backup it does not take back. -/
theorem backup_tooLong :
    let document := backupTree samplePlatform sampleWorld crowdedDevice
    (backupGet samplePlatform sampleWorld crowdedDevice
        { cookie := ascii "dd_session=" ++ sampleToken, body := [] }).1.content = .json document ∧
      8192 < (samplePlatform.codec.print document).length ∧
        recvJsonBody samplePlatform sampleWorld
          { cookie := [], body := samplePlatform.codec.print document } = none := by
  intro document
  have authed : isAuthed { cookie := ascii "dd_session=" ++ sampleToken, body := [] }
      crowdedDevice = true := by decide +kernel
  have long : 8192 < (samplePlatform.codec.print document).length := by
    have sound := Device.sound_run samplePlatform crowdedActions
    rw [← crowdedDevice] at sound
    have size := @backupTree_size samplePlatform.codec plainCodec_printSizes samplePlatform
      sampleWorld crowdedDevice sound
    rw [size]
    decide +kernel
  refine ⟨?_, long, ?_⟩
  · rw [backupGet, requireAuth, if_pos authed]
  · rw [recvJsonBody, if_pos (.inr long)]

end Crowded

end LeanDingdong
