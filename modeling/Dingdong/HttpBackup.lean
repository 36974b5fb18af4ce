import Dingdong.HttpCore

/-!
`backup_get` and `restore_post`: the admin credential, the WiFi credentials and the
registry as one JSON document, and the reading of it on a device without an admin.
-/

namespace LeanDingdong

/-- `hex_encode_str` -/
def hexEncodeStr (input : Bytes) : Bytes := hexEncode input

/-- Two hex digits for each byte; `none` for any other text. -/
def hexPairs : Bytes → Option Bytes
  | [] => some []
  | [_] => none
  | high :: low :: rest =>
      match hexValue high, hexValue low with
      | some high, some low => (hexPairs rest).map (UInt8.ofNat (16 * high + low) :: ·)
      | _, _ => none

/-- `hex_decode` into an array of `size` bytes that must be filled. -/
def hexDecode (size : Nat) (input : Bytes) : Option (Blob size) :=
  if (cstr input).length % 2 ≠ 0 ∨ size < (cstr input).length / 2 then none
  else Blob.ofStored size (hexPairs (cstr input))

/-- `worker_to_backup_cb` -/
def workerToBackup (worker : Worker) : JsonTree :=
  .object
    [(ascii "id", .number worker.id), (ascii "addr", .text (formatMac worker.addr)),
      (ascii "name", .text worker.name.bytes), (ascii "category", .text worker.category.bytes),
      (ascii "created_at", .number worker.createdAt)]

section Backup

variable (platform : Platform) (world : World) (device : Device)

/-- `%02X` with colons between. -/
def formatMacUpper (addr : Addr) : Bytes :=
  hexByteUpper addr.byte0 ++ ascii ":" ++ hexByteUpper addr.byte1 ++ ascii ":" ++
    hexByteUpper addr.byte2 ++ ascii ":" ++ hexByteUpper addr.byte3 ++ ascii ":" ++
      hexByteUpper addr.byte4 ++ ascii ":" ++ hexByteUpper addr.byte5

def backupConfig (config : Config) : List (Bytes × JsonTree) :=
  (match config.getWifi with
    | some (ssid, pass) => [(ascii "wifi_ssid", .text ssid), (ascii "wifi_pass", .text pass)]
    | none => []) ++
  match config.getAdminBlob with
    | some (salt, hash) =>
        [(ascii "admin_salt_hex", .text (hexEncodeStr salt.bytes)),
          (ascii "admin_hash_hex", .text (hexEncodeStr hash.bytes))]
    | none => []

/-- The document `backup_get` sends. -/
def backupTree : JsonTree :=
  .object
    [(ascii "version", .number 1), (ascii "created_at", .number world.now),
      (ascii "device_mac", .text (formatMacUpper platform.mac)),
      (ascii "config", .object (backupConfig device.chassis.config)),
      (ascii "workers", .array (device.registry.workers.map workerToBackup))]

def backupGet (request : Request) : Reply × Device :=
  requireAuth request device
    ({ status := "200 OK", content := .json (backupTree platform world device) }, device)

end Backup

section Restore

variable (platform : Platform) (world : World)

/-- The entry `restore_post` makes of an element of the list. -/
def Worker.ofBackup (tree : JsonTree) (id : Int) : Worker where
  id := castU16 id
  addr := ((tree.getText (ascii "addr")).bind fun text => scanMac (cstr text)).getD Addr.zero
  name := copyName ((tree.getText (ascii "name")).getD [])
  category := copyCategory ((tree.getText (ascii "category")).getD [])
  createdAt := (tree.getInt (ascii "created_at")).getD 0

/-- One round of the loop of `restore_post`, whose result is not looked at. -/
def restoreStep (registry : WorkerStore) (tree : JsonTree) : WorkerStore :=
  match tree.getInt (ascii "id") with
  | none => registry
  | some id => (workerRestore platform.json world.workers (Worker.ofBackup tree id) registry).2

/-- The credentials of the document, as far as they are there and well formed. -/
def restoreConfig (body : JsonTree) (config : Config) : Config :=
  match body.getObject (ascii "config") with
  | none => config
  | some stored =>
      let config := match stored.getText (ascii "wifi_ssid") with
        | some ssid =>
            (config.setWifi world.wifi ssid ((stored.getText (ascii "wifi_pass")).getD [])).2
        | none => config
      match stored.getText (ascii "admin_salt_hex"), stored.getText (ascii "admin_hash_hex") with
      | some saltHex, some hashHex =>
          match hexDecode ddAdminSaltLen saltHex, hexDecode ddAdminHashLen hashHex with
          | some salt, some hash => (config.setAdminBlob world.config salt hash).2
          | _, _ => config
      | _, _ => config

def restoreWorkers (body : JsonTree) (registry : WorkerStore) : WorkerStore :=
  match body.getArray (ascii "workers") with
  | none => registry
  | some items =>
      items.foldl (restoreStep platform world) (workerWipe world.workers registry).2

/-- A backup is accepted only where no admin is set; nothing it stores is checked. -/
def restorePost (request : Request) (device : Device) : Reply × Device :=
  if device.chassis.config.hasAdmin world.reads then
    (.text "409 Conflict" "device already configured; factory_reset first", device)
  else
    withBody platform world request device fun body =>
      if body.getInt (ascii "version") ≠ some 1 then
        (.text "400 Bad Request" "unsupported version", device)
      else
        let stored := { device.setConfig (restoreConfig world body device.chassis.config) with
          registry := restoreWorkers platform world body device.registry }
        (.text "200 OK" "restored, restarting",
          (stored.setRestartCause .admin).scheduleRestart 1500)

end Restore

end LeanDingdong
