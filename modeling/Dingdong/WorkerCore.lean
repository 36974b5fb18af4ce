import Mathlib.Logic.Function.Basic
import Dingdong.CJsonParse
import Dingdong.ListTable

/-!
The worker registry of `dd_worker.c`: the table in RAM, the blobs and `next_id` in
NVS, and the operations that write both. Every operation takes the NVS steps that
fail as a parameter.
-/

namespace LeanDingdong

/-- The string held in a `char` array. -/
structure Text (capacity : Nat) where
  bytes : Bytes
  short : bytes.length < capacity
  noNul : 0 ∉ bytes
  deriving DecidableEq

/-- A cleared array with at most `capacity - 1` bytes copied in by `strncpy`. -/
def Text.copy {capacity : Nat} (positive : 0 < capacity) (source : Bytes) : Text capacity where
  bytes := (cstr source).take (capacity - 1)
  short := by
    rw [List.length_take]
    omega
  noNul member := by
    have := List.mem_takeWhile_imp (List.mem_of_mem_take member)
    simp at this

def ddWorkerNameMax : Nat := 32

def ddWorkerCategoryMax : Nat := 16

def ddWorkerMax : Nat := 32

/-- `dd_worker_t` -/
structure Worker where
  id : Nat
  addr : Addr
  name : Text ddWorkerNameMax
  category : Text ddWorkerCategoryMax
  createdAt : Int
  deriving DecidableEq

def copyName (source : Bytes) : Text ddWorkerNameMax := Text.copy (by decide) source

def copyCategory (source : Bytes) : Text ddWorkerCategoryMax := Text.copy (by decide) source

section Storage

inductive NvsValue where
  | blob (bytes : Bytes)
  | u16 (value : Nat)
  deriving DecidableEq

/-- The keys of the namespace `dd_workers`. -/
abbrev Nvs := Bytes → Option NvsValue

def Nvs.blank : Nvs := fun _ => none

def Nvs.getBlob (nvs : Nvs) (key : Bytes) : Option Bytes :=
  match nvs key with
  | some (.blob bytes) => some bytes
  | _ => none

def Nvs.getU16 (nvs : Nvs) (key : Bytes) : Option Nat :=
  match nvs key with
  | some (.u16 value) => some value
  | _ => none

def Nvs.set (nvs : Nvs) (key : Bytes) (value : NvsValue) : Nvs :=
  Function.update nvs key (some value)

def Nvs.eraseKey (nvs : Nvs) (key : Bytes) : Nvs := Function.update nvs key none

/-- The NVS calls of one operation that fail. -/
structure NvsFaults where
  openFails : Bool := false
  setBlobFails : Bool := false
  commitFails : Bool := false
  setNextFails : Bool := false
  eraseFails : Bytes → Bool := fun _ => false

def NvsFaults.none : NvsFaults := {}

def keyNextId : Bytes := ascii "next_id"

/-- `%04u` -/
def padded (value : Nat) : Bytes :=
  List.replicate (4 - (decimal value).length) 48 ++ decimal value

def keyForId (id : Nat) : Bytes := ascii "w_" ++ padded id

/-- The object `save_one` prints. -/
def Worker.members (worker : Worker) : List Member :=
  [⟨ascii "addr", .text (formatMac worker.addr)⟩, ⟨ascii "name", .text worker.name.bytes⟩,
    ⟨ascii "category", .text worker.category.bytes⟩,
    ⟨ascii "created_at", .number worker.createdAt⟩]

/-- The worker `load_one` makes of a parsed object. -/
def Worker.ofMembers (id : Nat) (members : List Member) : Worker where
  id := id
  addr := ((getString members (ascii "addr")).bind scanMac).getD Addr.zero
  name := copyName ((getString members (ascii "name")).getD [])
  category := copyCategory ((getString members (ascii "category")).getD [])
  createdAt := (getNumber members (ascii "created_at")).getD 0

/-- `load_one`; `none` for any error. -/
def loadOne (json : Json) (nvs : Nvs) (id : Nat) : Option Worker :=
  match nvs.getBlob (keyForId id) with
  | none => none
  | some blob =>
      if blob.length = 0 ∨ 1024 < blob.length then none
      else (json.parse blob).map (Worker.ofMembers id)

def saveOne (json : Json) (faults : NvsFaults) (nvs : Nvs) (worker : Worker) : EspErr × Nvs :=
  if faults.setBlobFails then (.fail, nvs)
  else
    let nvs := nvs.set (keyForId worker.id) (.blob (json.print worker.members))
    if faults.commitFails then (.fail, nvs) else (.ok, nvs)

/-- `nvs_set_u16` of `next_id`, whose result is not looked at. -/
def saveNextId (faults : NvsFaults) (nvs : Nvs) (nextId : Nat) : Nvs :=
  if faults.setNextFails then nvs else nvs.set keyNextId (.u16 nextId)

end Storage

structure WorkerStore where
  /-- the first `s_count` entries of `s_workers` -/
  workers : List Worker
  /-- `s_next_id` -/
  nextId : Nat
  nvs : Nvs

/-- The registry of an empty namespace after `dd_worker_init`. -/
def WorkerStore.fresh : WorkerStore := { workers := [], nextId := 1, nvs := Nvs.blank }

/-- One round of the loading loop of `dd_worker_init`. -/
def loadStep (json : Json) (nvs : Nvs) (workers : List Worker) (id : Nat) : List Worker :=
  if workers.length < ddWorkerMax then
    match loadOne json nvs id with
    | some worker => workers ++ [worker]
    | none => workers
  else workers

/-- `dd_worker_init` on the namespace as it is. -/
def workerInit (json : Json) (nvs : Nvs) : WorkerStore :=
  let nextId := (nvs.getU16 keyNextId).getD 1
  { workers := (List.range' 1 (nextId - 1)).foldl (loadStep json nvs) []
    nextId := nextId
    nvs := nvs }

/-- `dd_worker_find_by_addr`, 0 when there is none. -/
def workerFindByAddr (workers : List Worker) (addr : Addr) : Nat :=
  ((workers.find? fun worker => worker.addr = addr).map Worker.id).getD 0

/-- `%04x` of an id. -/
def hexId (id : Nat) : Bytes :=
  [hexDigit (id / 4096), hexDigit (id / 256 % 16), hexDigit (id / 16 % 16), hexDigit (id % 16)]

/-- The entry a creation fills; `now` is `time(NULL)`. -/
def newWorker (nextId : Nat) (addr : Addr) (now : Int) : Worker where
  id := nextId
  addr := addr
  name := copyName (ascii "Unnamed_" ++ hexId nextId ++ hexByte addr.byte5)
  category := copyCategory []
  createdAt := now

def workerLookupOrCreate (json : Json) (faults : NvsFaults) (addr : Option Addr) (now : Int)
    (store : WorkerStore) : Nat × WorkerStore :=
  match addr with
  | none => (0, store)
  | some addr =>
      let existing := workerFindByAddr store.workers addr
      if existing ≠ 0 then (existing, store)
      else if ddWorkerMax ≤ store.workers.length then (0, store)
      else
        let worker := newWorker store.nextId addr now
        if faults.openFails then (0, store)
        else
          match saveOne json faults store.nvs worker with
          | (.ok, nvs) =>
              let nextId := (store.nextId + 1) % 65536
              (worker.id,
                { workers := store.workers ++ [worker]
                  nextId := nextId
                  nvs := saveNextId faults nvs nextId })
          | (_, nvs) => (0, { store with nvs := nvs })

/-- Nothing but spaces and tabs. -/
def blankName (name : Bytes) : Bool := (cstr name).all fun byte => byte = 32 ∨ byte = 9

/-- The entry with the new name and category; `none` leaves a field alone. -/
def Worker.updated (worker : Worker) (name category : Option Bytes) : Worker :=
  { worker with
    name := (name.map copyName).getD worker.name
    category := (category.map copyCategory).getD worker.category }

def workerUpdate (json : Json) (faults : NvsFaults) (id : Nat) (name category : Option Bytes)
    (store : WorkerStore) : EspErr × WorkerStore :=
  if id = 0 then (.invalidArg, store)
  else if name.any blankName then (.invalidArg, store)
  else
    match store.workers.find? fun worker => worker.id = id with
    | none => (.notFound, store)
    | some worker =>
        let worker := worker.updated name category
        let index := store.workers.findIdx fun worker => worker.id = id
        let store := { store with workers := store.workers.set index worker }
        if faults.openFails then (.fail, store)
        else
          let saved := saveOne json faults store.nvs worker
          (saved.1, { store with nvs := saved.2 })

def workerDelete (faults : NvsFaults) (id : Nat) (store : WorkerStore) : EspErr × WorkerStore :=
  if id = 0 then (.invalidArg, store)
  else
    match store.workers.findIdx? fun worker => worker.id = id with
    | none => (.notFound, store)
    | some index =>
        let workers := ListTable.swapRemove store.workers index
        if faults.openFails then (.fail, { store with workers := workers })
        else
          let key := keyForId id
          let nvs := if faults.eraseFails key then store.nvs else store.nvs.eraseKey key
          (if faults.commitFails then .fail else .ok, { store with workers := workers, nvs := nvs })

def workerRestore (json : Json) (faults : NvsFaults) (worker : Worker) (store : WorkerStore) :
    EspErr × WorkerStore :=
  if worker.id = 0 then (.invalidArg, store)
  else
    let slot := store.workers.findIdx? fun other => other.id = worker.id
    if slot = none ∧ ddWorkerMax ≤ store.workers.length then (.noMem, store)
    else
      let workers := match slot with
        | some slot => store.workers.set slot worker
        | none => store.workers ++ [worker]
      let store := { store with workers := workers }
      if faults.openFails then (.fail, store)
      else
        match saveOne json faults store.nvs worker with
        | (.ok, nvs) =>
            if store.nextId ≤ worker.id then
              let nextId := (worker.id + 1) % 65536
              (.ok, { store with nextId := nextId, nvs := saveNextId faults nvs nextId })
            else (.ok, { store with nvs := nvs })
        | (err, nvs) => (err, { store with nvs := nvs })

/-- Erase one key, whose result is not looked at. -/
def eraseStep (faults : NvsFaults) (nvs : Nvs) (key : Bytes) : Nvs :=
  if faults.eraseFails key then nvs else nvs.eraseKey key

def workerWipe (faults : NvsFaults) (store : WorkerStore) : EspErr × WorkerStore :=
  if faults.openFails then (.fail, store)
  else
    let keys := (List.range' 1 (store.nextId - 1)).map keyForId ++ [keyNextId]
    (.ok, { workers := [], nextId := 1, nvs := keys.foldl (eraseStep faults) store.nvs })

end LeanDingdong
