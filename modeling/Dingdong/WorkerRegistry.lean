import Dingdong.Runs
import Dingdong.WorkerCore

/-!
The registry as its three copies: the table in RAM, the blobs and `next_id`. An
invariant ties them together, every operation without an NVS failure keeps it, and
it makes a reload give back the table.
-/

namespace LeanDingdong

open ListTable Runs

section Codec

theorem padded_inj {first second : Nat} (same : padded first = padded second) : first = second := by
  have back (value : Nat) : readDecimal (padded value) = value := by
    have zeros : (List.replicate (4 - (decimal value).length) (48 : UInt8)).map
        (fun byte => byte.toNat - 48) = List.replicate (4 - (decimal value).length) 0 := by
      rw [List.map_replicate]
      rfl
    rw [readDecimal, padded, List.map_append, List.reverse_append, Nat.ofDigits_append,
      decimal_digits, Decimal.ofDigits_digits, zeros, List.reverse_replicate,
      Nat.ofDigits_replicate_zero]
    simp
  rw [← back first, same, back]

theorem keyForId_inj {first second : Nat} (same : keyForId first = keyForId second) :
    first = second :=
  padded_inj (List.append_cancel_left same)

theorem keyForId_ne_next (id : Nat) : keyForId id ≠ keyNextId := by
  intro same
  exact absurd (List.cons.inj same).1 (by decide)

theorem scanHexByte_hexByte (byte : UInt8) (rest : Bytes) :
    scanHexByte (hexByte byte ++ rest) = some (byte, rest) := by
  have high : byte.toNat / 16 < 16 := by
    have := byte.toNat_lt
    omega
  have low : byte.toNat % 16 < 16 := by omega
  have plain : ∀ digit ∈ hexDigits, isSpace digit = false ∧ digit ≠ 45 ∧ digit ≠ 43 := by decide
  have facts := plain _ (hexDigit_mem (byte.toNat / 16))
  rw [scanHexByte, hexByte, List.cons_append, List.dropWhile_cons, facts.1]
  simp only [Bool.false_eq_true, if_false, List.cons_append, List.nil_append, if_neg facts.2.1,
    if_neg facts.2.2, hexValue_hexDigit high, hexValue_hexDigit low, ofNat_hexByte]

theorem scanMac_formatMac (addr : Addr) : scanMac (formatMac addr) = some addr := by
  have split : formatMac addr = hexByte addr.byte0 ++ (58 :: (hexByte addr.byte1 ++ (58 ::
      (hexByte addr.byte2 ++ (58 :: (hexByte addr.byte3 ++ (58 :: (hexByte addr.byte4 ++ (58 ::
        (hexByte addr.byte5 ++ [])))))))))) := rfl
  have reads {α : Type} (byte : UInt8) (rest : Bytes) (next : UInt8 × Bytes → Option α) :
      (scanHexByte (hexByte byte ++ rest)).bind next = next (byte, rest) := by
    rw [scanHexByte_hexByte, Option.bind_some]
  rw [split]
  exact (reads addr.byte0 _ _).trans <| (reads addr.byte1 _ _).trans <|
    (reads addr.byte2 _ _).trans <| (reads addr.byte3 _ _).trans <|
      (reads addr.byte4 _ _).trans <| reads addr.byte5 _ _

theorem Text.copy_bytes {capacity : Nat} (positive : 0 < capacity) (text : Text capacity) :
    Text.copy positive text.bytes = text := by
  have noNul : cstr text.bytes = text.bytes := cstr_of_noNul text.noNul
  have fits : text.bytes.length ≤ capacity - 1 := by
    have := text.short
    omega
  simp [Text.copy, noNul, List.take_of_length_le fits]

theorem Worker.ofMembers_members (worker : Worker) :
    Worker.ofMembers worker.id worker.members = worker := by
  have addr : getString worker.members (ascii "addr") = some (formatMac worker.addr) := rfl
  have name : getString worker.members (ascii "name") = some worker.name.bytes := rfl
  have category : getString worker.members (ascii "category") = some worker.category.bytes := rfl
  have createdAt : getNumber worker.members (ascii "created_at") = some worker.createdAt := rfl
  rw [Worker.ofMembers, addr, name, category, createdAt]
  simp [scanMac_formatMac, copyName, copyCategory, Text.copy_bytes]

/-- The time is one a double holds exactly. -/
def Worker.Exact (worker : Worker) : Prop := worker.createdAt.natAbs < 2 ^ 53

instance (worker : Worker) : Decidable worker.Exact := inferInstanceAs (Decidable (_ < _))

theorem Worker.members_kept {worker : Worker} (exact : worker.Exact) :
    ∀ member ∈ worker.members, member.value.Kept := by
  intro member inside
  simp only [Worker.members, List.mem_cons, List.not_mem_nil, or_false] at inside
  rcases inside with rfl | rfl | rfl | rfl
  · exact formatMac_noNul _
  · exact worker.name.noNul
  · exact worker.category.noNul
  · exact exact

/-- The record of a worker leaves room in the buffer it is loaded into. -/
theorem Worker.members_room (worker : Worker) :
    2 + (worker.members.map Member.room).sum ≤ 1024 := by
  have name : worker.name.bytes.length < 32 := worker.name.short
  have category : worker.category.bytes.length < 16 := worker.category.short
  have mac := formatMac_length worker.addr
  have sum : (worker.members.map Member.room).sum =
      (6 * 4 + 4 + (6 * (formatMac worker.addr).length + 2)) +
        ((6 * 4 + 4 + (6 * worker.name.bytes.length + 2)) +
          ((6 * 8 + 4 + (6 * worker.category.bytes.length + 2)) + ((6 * 10 + 4 + 25) + 0))) := rfl
  omega

theorem Worker.print_length {json : Json} (faithful : json.Faithful) {worker : Worker}
    (exact : worker.Exact) : (json.print worker.members).length ≤ 1024 :=
  (faithful.print_length _ (Worker.members_kept exact)).trans (Worker.members_room worker)

theorem loadOne_saved {json : Json} (faithful : json.Faithful) {nvs : Nvs} {worker : Worker}
    (exact : worker.Exact)
    (saved : nvs.getBlob (keyForId worker.id) = some (json.print worker.members)) :
    loadOne json nvs worker.id = some worker := by
  have nonempty : (json.print worker.members).length ≠ 0 := by
    simpa using faithful.print_ne_nil worker.members
  have short := Worker.print_length faithful exact
  have fine : ¬ ((json.print worker.members).length = 0 ∨
      1024 < (json.print worker.members).length) := by omega
  rw [loadOne, saved]
  simp only [if_neg fine, faithful.parse_print _ (Worker.members_kept exact), Option.map_some,
    Worker.ofMembers_members]

end Codec

section Nvs

variable (nvs : Nvs) (key : Bytes)

@[simp] theorem Nvs.getBlob_set (bytes : Bytes) :
    (nvs.set key (.blob bytes)).getBlob key = some bytes := by
  simp [Nvs.getBlob, Nvs.set]

theorem Nvs.getBlob_set_other {other : Bytes} (different : other ≠ key) (value : NvsValue) :
    (nvs.set key value).getBlob other = nvs.getBlob other := by
  simp [Nvs.getBlob, Nvs.set, Function.update_of_ne different]

@[simp] theorem Nvs.getU16_set (value : Nat) :
    (nvs.set key (.u16 value)).getU16 key = some value := by
  simp [Nvs.getU16, Nvs.set]

theorem Nvs.getU16_set_other {other : Bytes} (different : other ≠ key) (value : NvsValue) :
    (nvs.set key value).getU16 other = nvs.getU16 other := by
  simp [Nvs.getU16, Nvs.set, Function.update_of_ne different]

@[simp] theorem Nvs.getBlob_eraseKey : (nvs.eraseKey key).getBlob key = none := by
  simp [Nvs.getBlob, Nvs.eraseKey]

theorem Nvs.eraseKey_other {other : Bytes} (different : other ≠ key) :
    (nvs.eraseKey key) other = nvs other := Function.update_of_ne different _ _

theorem Nvs.getBlob_eraseKey_other {other : Bytes} (different : other ≠ key) :
    (nvs.eraseKey key).getBlob other = nvs.getBlob other := by
  rw [Nvs.getBlob, Nvs.eraseKey_other _ _ different, Nvs.getBlob]

theorem Nvs.getU16_eraseKey_other {other : Bytes} (different : other ≠ key) :
    (nvs.eraseKey key).getU16 other = nvs.getU16 other := by
  rw [Nvs.getU16, Nvs.eraseKey_other _ _ different, Nvs.getU16]

/-- Erasing keys one after another leaves just the others. -/
theorem foldl_eraseStep (keys : List Bytes) (key : Bytes) :
    (keys.foldl (eraseStep .none) nvs) key = if key ∈ keys then none else nvs key := by
  induction keys generalizing nvs with
  | nil => simp
  | cons first keys ih =>
      rw [List.foldl_cons, ih]
      by_cases here : key = first
      · subst here
        simp [eraseStep, NvsFaults.none, Nvs.eraseKey]
      · simp [eraseStep, NvsFaults.none, Nvs.eraseKey_other, here]

end Nvs

/-- Table, blobs and `next_id` agree: distinct ids below `next_id`, a blob for each
entry of the table and for no other id. -/
structure Registered (json : Json) (store : WorkerStore) : Prop where
  nodup : (store.workers.map Worker.id).Nodup
  positive : ∀ worker ∈ store.workers, 1 ≤ worker.id
  below : ∀ worker ∈ store.workers, worker.id < store.nextId
  count : store.workers.length ≤ ddWorkerMax
  exact : ∀ worker ∈ store.workers, worker.Exact
  next : 1 ≤ store.nextId ∧ store.nextId ≤ 65535
  savedNext : (store.nvs.getU16 keyNextId).getD 1 = store.nextId
  saved : ∀ worker ∈ store.workers,
    store.nvs.getBlob (keyForId worker.id) = some (json.print worker.members)
  unsaved : ∀ id, id ∉ store.workers.map Worker.id → store.nvs.getBlob (keyForId id) = none

section Steps

variable {json : Json} {store : WorkerStore}

theorem Registered.fresh (json : Json) : Registered json WorkerStore.fresh := by
  constructor <;> simp [WorkerStore.fresh, Nvs.getU16, Nvs.getBlob, Nvs.blank, ddWorkerMax]

/-- The blob of one id is written: the entries of other ids are as they were. -/
theorem Registered.blob_other (registered : Registered json store) {id : Nat} (value : NvsValue)
    {worker : Worker} (member : worker ∈ store.workers) (other : worker.id ≠ id) :
    (store.nvs.set (keyForId id) value).getBlob (keyForId worker.id) =
      some (json.print worker.members) := by
  rw [Nvs.getBlob_set_other _ _ fun same => other (keyForId_inj same)]
  exact registered.saved worker member

theorem Registered.overwrite (registered : Registered json store) {front back : List Worker}
    {old new : Worker} (split : store.workers = front ++ old :: back) (same : new.id = old.id)
    (exact : new.Exact) :
    Registered json
      { store with
        workers := front ++ new :: back
        nvs := store.nvs.set (keyForId new.id) (.blob (json.print new.members)) } := by
  have ids := map_overwrite split same
  have inside : old ∈ store.workers := by simp [split]
  have others {worker : Worker} (member : worker ∈ front ++ new :: back) :=
    mem_overwrite registered.nodup split same member
  constructor
  · rw [ids]
    exact registered.nodup
  · intro worker member
    rcases others member with rfl | ⟨known, _⟩
    · exact same ▸ registered.positive old inside
    · exact registered.positive worker known
  · intro worker member
    rcases others member with rfl | ⟨known, _⟩
    · exact same ▸ registered.below old inside
    · exact registered.below worker known
  · have := registered.count
    simpa [split] using this
  · intro worker member
    rcases others member with rfl | ⟨known, _⟩
    · exact exact
    · exact registered.exact worker known
  · exact registered.next
  · rw [Nvs.getU16_set_other _ _ (keyForId_ne_next _).symm]
    exact registered.savedNext
  · intro worker member
    rcases others member with rfl | ⟨known, other⟩
    · simp
    · exact registered.blob_other _ known other
  · intro id absent
    rw [ids] at absent
    have other : id ≠ new.id := by
      rintro rfl
      exact absent (same ▸ List.mem_map_of_mem inside)
    rw [Nvs.getBlob_set_other _ _ fun eq => other (keyForId_inj eq)]
    exact registered.unsaved id absent

/-- Adding an entry under an id not in the table keeps the agreement, when `next_id` is
kept, or moved past the id and written. -/
theorem Registered.add (registered : Registered json store) {new : Worker} {nextId : Nat} {nvs : Nvs}
    (absent : new.id ∉ store.workers.map Worker.id) (room : store.workers.length < ddWorkerMax)
    (positive : 1 ≤ new.id) (below : new.id < nextId) (exact : new.Exact)
    (grows : store.nextId ≤ nextId) (small : nextId ≤ 65535)
    (blobs : ∀ id, nvs.getBlob (keyForId id) =
      (store.nvs.set (keyForId new.id) (.blob (json.print new.members))).getBlob (keyForId id))
    (next : (nvs.getU16 keyNextId).getD 1 = nextId) :
    Registered json { workers := store.workers ++ [new], nextId := nextId, nvs := nvs } := by
  have others {worker : Worker} (member : worker ∈ store.workers ++ [new]) := mem_add absent member
  constructor
  · exact nodup_add registered.nodup absent
  · intro worker member
    rcases others member with rfl | ⟨known, _⟩
    · exact positive
    · exact registered.positive worker known
  · intro worker member
    rcases others member with rfl | ⟨known, _⟩
    · exact below
    · exact lt_of_lt_of_le (registered.below worker known) grows
  · simpa using room
  · intro worker member
    rcases others member with rfl | ⟨known, _⟩
    · exact exact
    · exact registered.exact worker known
  · exact ⟨registered.next.1.trans grows, small⟩
  · exact next
  · intro worker member
    rw [blobs]
    rcases others member with rfl | ⟨known, other⟩
    · simp
    · exact registered.blob_other _ known other
  · intro id missing
    rw [List.map_append, List.mem_append, not_or, List.map_singleton, List.mem_singleton] at missing
    rw [blobs, Nvs.getBlob_set_other _ _ fun eq => missing.2 (keyForId_inj eq)]
    exact registered.unsaved id missing.1

theorem Registered.remove (registered : Registered json store) {front back workers : List Worker}
    {old : Worker} (split : store.workers = front ++ old :: back)
    (perm : workers.Perm (front ++ back)) :
    Registered json
      { store with workers := workers, nvs := store.nvs.eraseKey (keyForId old.id) } := by
  have nodup := registered.nodup
  have all : (store.workers.map Worker.id).Perm (old.id :: workers.map Worker.id) :=
    map_remove split perm
  have known {worker : Worker} (member : worker ∈ workers) := mem_remove nodup split perm member
  rw [all.nodup_iff, List.nodup_cons] at nodup
  constructor
  · exact nodup.2
  · exact fun worker member => registered.positive worker (known member).1
  · exact fun worker member => registered.below worker (known member).1
  · have count := all.length_eq
    rw [List.length_map, List.length_cons, List.length_map] at count
    have most := registered.count
    exact (by omega : workers.length ≤ ddWorkerMax)
  · exact fun worker member => registered.exact worker (known member).1
  · exact registered.next
  · show ((store.nvs.eraseKey (keyForId old.id)).getU16 keyNextId).getD 1 = store.nextId
    rw [Nvs.getU16_eraseKey_other _ _ (keyForId_ne_next _).symm]
    exact registered.savedNext
  · intro worker member
    obtain ⟨inside, other⟩ := known member
    exact (Nvs.getBlob_eraseKey_other _ _ fun same => other (keyForId_inj same)).trans
      (registered.saved worker inside)
  · intro id absent
    by_cases here : id = old.id
    · rw [here]
      exact Nvs.getBlob_eraseKey _ _
    · refine (Nvs.getBlob_eraseKey_other _ _ fun same => here (keyForId_inj same)).trans
        (registered.unsaved id fun present => absent ?_)
      rcases List.mem_cons.mp (all.mem_iff.mp present) with same | rest
      · exact absurd same here
      · exact rest

theorem saveOne_none (json : Json) (nvs : Nvs) (worker : Worker) :
    saveOne json .none nvs worker =
      (.ok, nvs.set (keyForId worker.id) (.blob (json.print worker.members))) := rfl

/-- Erasing the keys of all ids below `next_id` leaves no blob and no `next_id`. -/
theorem Registered.wiped (registered : Registered json store) :
    Registered json (workerWipe .none store).2 := by
  have keys (key : Bytes) : ((workerWipe .none store).2.nvs) key =
      if key ∈ (List.range' 1 (store.nextId - 1)).map keyForId ++ [keyNextId] then none
      else store.nvs key := foldl_eraseStep _ _ _
  constructor
  · exact List.nodup_nil
  · simp [workerWipe, NvsFaults.none]
  · simp [workerWipe, NvsFaults.none]
  · exact Nat.zero_le _
  · simp [workerWipe, NvsFaults.none]
  · exact ⟨le_rfl, show 1 ≤ 65535 by decide⟩
  · rw [Nvs.getU16, keys, if_pos (by simp)]
    rfl
  · simp [workerWipe, NvsFaults.none]
  · intro id _
    rw [Nvs.getBlob, keys]
    split_ifs with erased
    · rfl
    · refine registered.unsaved id fun present => erased ?_
      obtain ⟨worker, member, rfl⟩ := List.mem_map.mp present
      have low := registered.positive worker member
      have high := registered.below worker member
      refine List.mem_append_left _ (List.mem_map_of_mem (List.mem_range'_1.mpr ?_))
      omega

/-- Some worker has the address, or the search fails. -/
theorem workerFindByAddr_cases {workers : List Worker}
    (positive : ∀ worker ∈ workers, 1 ≤ worker.id) (addr : Addr) :
    (∃ worker ∈ workers, worker.addr = addr ∧ workerFindByAddr workers addr = worker.id ∧
        worker.id ≠ 0) ∨
      (∀ worker ∈ workers, worker.addr ≠ addr) ∧ workerFindByAddr workers addr = 0 := by
  rw [workerFindByAddr]
  cases found : workers.find? fun worker => worker.addr = addr with
  | some worker =>
      have inside := List.mem_of_find?_eq_some found
      have named : worker.addr = addr := by simpa using List.find?_some found
      exact .inl ⟨worker, inside, named, rfl, Nat.one_le_iff_ne_zero.mp (positive worker inside)⟩
  | none =>
      refine .inr ⟨fun worker member => ?_, rfl⟩
      simpa using List.find?_eq_none.mp found worker member

theorem Registered.nextId_absent (registered : Registered json store) {id : Nat}
    (high : store.nextId ≤ id) : id ∉ store.workers.map Worker.id := by
  intro present
  obtain ⟨worker, member, rfl⟩ := List.mem_map.mp present
  have := registered.below worker member
  omega

/-- A creation takes `next_id` and moves it by one. -/
theorem lookupOrCreate_new (registered : Registered json store) {addr : Addr} (now : Int)
    (unknown : ∀ worker ∈ store.workers, worker.addr ≠ addr)
    (room : store.workers.length < ddWorkerMax) (small : store.nextId < 65535) :
    workerLookupOrCreate json .none (some addr) now store =
      (store.nextId,
        { workers := store.workers ++ [newWorker store.nextId addr now]
          nextId := store.nextId + 1
          nvs := (store.nvs.set (keyForId store.nextId)
            (.blob (json.print (newWorker store.nextId addr now).members))).set keyNextId
              (.u16 (store.nextId + 1)) }) := by
  have missing : workerFindByAddr store.workers addr = 0 := by
    rcases workerFindByAddr_cases registered.positive addr with ⟨worker, member, same, _⟩ | ⟨_, zero⟩
    · exact absurd same (unknown worker member)
    · exact zero
  have moved : (store.nextId + 1) % 65536 = store.nextId + 1 := by omega
  simp [workerLookupOrCreate, missing, not_le.mpr room, NvsFaults.none, saveOne, saveNextId, moved,
    newWorker]

/-- Looking up a registered address changes nothing. -/
theorem lookupOrCreate_known (registered : Registered json store) {addr : Addr} (now : Int)
    {worker : Worker} (member : worker ∈ store.workers) (same : worker.addr = addr) :
    (workerLookupOrCreate json .none (some addr) now store).2 = store ∧
      ∃ known ∈ store.workers, known.addr = addr ∧
        (workerLookupOrCreate json .none (some addr) now store).1 = known.id := by
  rcases workerFindByAddr_cases registered.positive addr with
    ⟨known, inside, named, found, nonzero⟩ | ⟨unknown, _⟩
  · have result : workerLookupOrCreate json .none (some addr) now store = (known.id, store) := by
      simp [workerLookupOrCreate, found, nonzero]
    rw [result]
    exact ⟨rfl, known, inside, named, rfl⟩
  · exact absurd same (unknown worker member)

end Steps

section Reload

variable {json : Json} {store : WorkerStore}

/-- Under an id of the table its entry is loaded, under any other id nothing. -/
theorem Registered.loadOne_iff (registered : Registered json store) (faithful : json.Faithful)
    {id : Nat} {worker : Worker} :
    loadOne json store.nvs id = some worker ↔ worker ∈ store.workers ∧ worker.id = id := by
  constructor
  · intro loaded
    by_cases present : id ∈ store.workers.map Worker.id
    · obtain ⟨known, member, rfl⟩ := List.mem_map.mp present
      have own := loadOne_saved faithful (registered.exact known member)
        (registered.saved known member)
      rw [own] at loaded
      obtain rfl : known = worker := by simpa using loaded
      exact ⟨member, rfl⟩
    · rw [loadOne, registered.unsaved id present] at loaded
      simp at loaded
  · rintro ⟨member, rfl⟩
    exact loadOne_saved faithful (registered.exact worker member) (registered.saved worker member)

/-- The loading loop takes every entry as long as they fit the table. -/
theorem foldl_loadStep {nvs : Nvs} {ids : List Nat} {loaded : List Worker}
    (fits : loaded.length + (ids.filterMap (loadOne json nvs)).length ≤ ddWorkerMax) :
    ids.foldl (loadStep json nvs) loaded = loaded ++ ids.filterMap (loadOne json nvs) := by
  induction ids generalizing loaded with
  | nil => simp
  | cons id ids ih =>
      rw [List.foldl_cons, loadStep]
      cases found : loadOne json nvs id with
      | none =>
          rw [List.filterMap_cons_none found] at fits ⊢
          simpa using ih fits
      | some worker =>
          rw [List.filterMap_cons_some found] at fits ⊢
          rw [List.length_cons] at fits
          have room : loaded.length < ddWorkerMax := by omega
          have fitsLater : (loaded ++ [worker]).length +
              (ids.filterMap (loadOne json nvs)).length ≤ ddWorkerMax := by
            rw [List.length_append, List.length_singleton]
            omega
          rw [if_pos room, ih fitsLater, List.append_assoc, List.singleton_append]

/-- Reloading gives back the table, up to its order, and `next_id`. -/
theorem Registered.reload (registered : Registered json store) (faithful : json.Faithful) :
    (workerInit json store.nvs).workers.Perm store.workers ∧
      (workerInit json store.nvs).nextId = store.nextId := by
  refine ⟨?_, registered.savedNext⟩
  set ids := List.range' 1 (store.nextId - 1)
  have workersNodup : store.workers.Nodup := registered.nodup.of_map _
  have nodup : (ids.filterMap (loadOne json store.nvs)).Nodup := by
    refine List.Nodup.filterMap ?_ List.nodup_range'
    intro first second worker fromFirst fromSecond
    exact ((registered.loadOne_iff faithful).mp fromFirst).2.symm.trans
      ((registered.loadOne_iff faithful).mp fromSecond).2
  have perm : (ids.filterMap (loadOne json store.nvs)).Perm store.workers := by
    refine (List.perm_ext_iff_of_nodup nodup workersNodup).mpr fun worker => ?_
    rw [List.mem_filterMap]
    constructor
    · rintro ⟨id, _, loaded⟩
      exact ((registered.loadOne_iff faithful).mp loaded).1
    · intro member
      have low := registered.positive worker member
      have high := registered.below worker member
      refine ⟨worker.id, List.mem_range'_1.mpr ⟨low, ?_⟩,
        (registered.loadOne_iff faithful).mpr ⟨member, rfl⟩⟩
      omega
  have fits : ([] : List Worker).length + (ids.filterMap (loadOne json store.nvs)).length ≤
      ddWorkerMax := by
    rw [perm.length_eq, List.length_nil, Nat.zero_add]
    exact registered.count
  have next : (store.nvs.getU16 keyNextId).getD 1 = store.nextId := registered.savedNext
  rw [workerInit, next]
  show (ids.foldl (loadStep json store.nvs) []).Perm store.workers
  rw [foldl_loadStep fits, List.nil_append]
  exact perm

end Reload

section Run

inductive WorkerOp where
  | lookupOrCreate (addr : Option Addr) (now : Int)
  | update (id : Nat) (name category : Option Bytes)
  | delete (id : Nat)
  | restore (worker : Worker)
  | wipe

/-- The operations without an NVS failure. -/
def WorkerOp.step (json : Json) (store : WorkerStore) : WorkerOp → WorkerStore
  | .lookupOrCreate addr now => (workerLookupOrCreate json .none addr now store).2
  | .update id name category => (workerUpdate json .none id name category store).2
  | .delete id => (workerDelete .none id store).2
  | .restore worker => (workerRestore json .none worker store).2
  | .wipe => (workerWipe .none store).2

/-- The address is new and the table has room. -/
def WorkerStore.Creates (store : WorkerStore) (addr : Addr) : Prop :=
  (∀ worker ∈ store.workers, worker.addr ≠ addr) ∧ store.workers.length < ddWorkerMax

instance (store : WorkerStore) (addr : Addr) : Decidable (store.Creates addr) :=
  inferInstanceAs (Decidable (_ ∧ _))

/-- Times are exact, no restored id is 65535, and no creation moves `next_id` past it. -/
def WorkerOp.Fits (store : WorkerStore) : WorkerOp → Prop
  | .lookupOrCreate none _ => True
  | .lookupOrCreate (some addr) now =>
      now.natAbs < 2 ^ 53 ∧ (store.Creates addr → store.nextId < 65535)
  | .restore worker => worker.Exact ∧ worker.id < 65535
  | _ => True

instance decidableWorkerFits (store : WorkerStore) : ∀ op : WorkerOp, Decidable (op.Fits store)
  | .lookupOrCreate none _ => isTrue trivial
  | .lookupOrCreate (some _) _ => inferInstanceAs (Decidable (_ ∧ (_ → _)))
  | .restore _ => inferInstanceAs (Decidable (_ ∧ _))
  | .update .. => isTrue trivial
  | .delete _ => isTrue trivial
  | .wipe => isTrue trivial

/-- The registry with the ids any worker has carried since the last wipe. -/
structure WorkerRun where
  store : WorkerStore
  carried : List Nat

def WorkerRun.step (json : Json) (current : WorkerRun) (op : WorkerOp) : WorkerRun :=
  let store := op.step json current.store
  let carried := match op with
    | .wipe => []
    | _ => current.carried ++ store.workers.map Worker.id
  { store := store, carried := carried }

def WorkerRun.start : WorkerRun := { store := WorkerStore.fresh, carried := [] }

def runWorkers (json : Json) (ops : List WorkerOp) : WorkerRun :=
  run (WorkerRun.step json) WorkerRun.start ops

variable {json : Json} {store : WorkerStore}

theorem Registered.lookupOrCreate (registered : Registered json store) {addr : Option Addr}
    {now : Int} (fits : (WorkerOp.lookupOrCreate addr now).Fits store) :
    Registered json (workerLookupOrCreate json .none addr now store).2 ∧
      store.nextId ≤ (workerLookupOrCreate json .none addr now store).2.nextId := by
  cases addr with
  | none => exact ⟨registered, le_rfl⟩
  | some addr =>
      rcases workerFindByAddr_cases registered.positive addr with
        ⟨known, member, named, _⟩ | ⟨unknown, missing⟩
      · rw [(lookupOrCreate_known registered now member named).1]
        exact ⟨registered, le_rfl⟩
      · by_cases room : store.workers.length < ddWorkerMax
        · have small := fits.2 ⟨unknown, room⟩
          rw [lookupOrCreate_new registered now unknown room small]
          have absent : (newWorker store.nextId addr now).id ∉ store.workers.map Worker.id :=
            registered.nextId_absent le_rfl
          refine ⟨registered.add absent room registered.next.1 (Nat.lt_succ_self _) fits.1
            (Nat.le_succ _) small ?_ (by simp), Nat.le_succ _⟩
          exact fun id => Nvs.getBlob_set_other _ _ (keyForId_ne_next id) _
        · have result : workerLookupOrCreate json .none (some addr) now store = (0, store) := by
            simp [workerLookupOrCreate, missing, not_lt.mp room]
          rw [result]
          exact ⟨registered, le_rfl⟩

/-- An update is refused, or writes its worker over in the table and, as far as NVS lets it,
in its blob. -/
theorem workerUpdate_cases (json : Json) (faults : NvsFaults) (id : Nat)
    (name category : Option Bytes) (store : WorkerStore) :
    ((id = 0 ∨ name.any blankName = true ∨ ∀ worker ∈ store.workers, worker.id ≠ id) ∧
      (workerUpdate json faults id name category store).2 = store) ∨
    ∃ front worker back, store.workers = front ++ worker :: back ∧ worker.id = id ∧ id ≠ 0 ∧
      ¬ name.any blankName = true ∧
      (workerUpdate json faults id name category store).2 =
        { store with
          workers := front ++ worker.updated name category :: back
          nvs := if faults.openFails then store.nvs
            else (saveOne json faults store.nvs (worker.updated name category)).2 } := by
  by_cases zero : id = 0
  · exact .inl ⟨.inl zero, by rw [workerUpdate, if_pos zero]⟩
  by_cases unnamed : name.any blankName = true
  · exact .inl ⟨.inr (.inl unnamed), by rw [workerUpdate, if_neg zero, if_pos unnamed]⟩
  cases found : store.workers.find? fun worker => worker.id = id with
  | none =>
      have absent : ∀ worker ∈ store.workers, worker.id ≠ id := fun worker member =>
        of_decide_eq_false (Bool.eq_false_iff.mpr (List.find?_eq_none.mp found worker member))
      refine .inl ⟨.inr (.inr absent), ?_⟩
      simp only [workerUpdate, if_neg zero, if_neg unnamed, found]
  | some worker =>
      obtain ⟨front, back, split, index, here⟩ := find?_split found
      have written : store.workers.set (store.workers.findIdx fun worker => worker.id = id)
          (worker.updated name category) = front ++ worker.updated name category :: back := by
        rw [← index, split, set_split]
      refine .inr ⟨front, worker, back, split, of_decide_eq_true here, zero, unnamed, ?_⟩
      simp only [workerUpdate, if_neg zero, if_neg unnamed, found, written]
      split_ifs <;> rfl

theorem Registered.update (registered : Registered json store) (id : Nat)
    (name category : Option Bytes) :
    Registered json (workerUpdate json .none id name category store).2 ∧
      (workerUpdate json .none id name category store).2.nextId = store.nextId := by
  rcases workerUpdate_cases json .none id name category store with
    ⟨_, refused⟩ | ⟨front, worker, back, split, _, _, _, written⟩
  · rw [refused]
    exact ⟨registered, rfl⟩
  · have exact : (worker.updated name category).Exact := registered.exact worker (by simp [split])
    rw [written]
    exact ⟨registered.overwrite split rfl exact, rfl⟩

/-- A deletion is refused, or takes its worker out of the table and, as far as NVS lets it,
the blob out of flash. -/
theorem workerDelete_cases (faults : NvsFaults) (id : Nat) (store : WorkerStore) :
    (workerDelete faults id store).2 = store ∨
    ∃ front old back workers, store.workers = front ++ old :: back ∧ old.id = id ∧
      workers.Perm (front ++ back) ∧
      (workerDelete faults id store).2 =
        { store with
          workers := workers
          nvs := if faults.openFails then store.nvs
            else eraseStep faults store.nvs (keyForId id) } := by
  by_cases zero : id = 0
  · exact .inl (by rw [workerDelete, if_pos zero])
  cases found : store.workers.findIdx? fun worker => worker.id = id with
  | none => exact .inl (by simp only [workerDelete, if_neg zero, found])
  | some index =>
      obtain ⟨front, old, back, split, rfl, here⟩ := findIdx?_split found
      have perm := swapRemove_split front old back
      rw [← split] at perm
      refine .inr ⟨front, old, back, _, split, of_decide_eq_true here, perm, ?_⟩
      simp only [workerDelete, if_neg zero, found, eraseStep]
      split_ifs <;> rfl

theorem Registered.delete (registered : Registered json store) (id : Nat) :
    Registered json (workerDelete .none id store).2 ∧
      (workerDelete .none id store).2.nextId = store.nextId := by
  rcases workerDelete_cases .none id store with
    refused | ⟨front, old, back, workers, split, rfl, perm, removed⟩
  · rw [refused]
    exact ⟨registered, rfl⟩
  · rw [removed]
    exact ⟨registered.remove split perm, rfl⟩

/-- A restore whose blob gets through is refused, or enters the worker over the one with its
id or behind the others, and moves `next_id` past it. -/
theorem workerRestore_cases (json : Json) (faults : NvsFaults) (opens : faults.openFails = false)
    (sets : faults.setBlobFails = false) (commits : faults.commitFails = false)
    (worker : Worker) (store : WorkerStore) :
    let saved := store.nvs.set (keyForId worker.id) (.blob (json.print worker.members))
    let later := (worker.id + 1) % 65536
    (workerRestore json faults worker store).2 = store ∨
    ∃ workers,
      ((∃ front old back, store.workers = front ++ old :: back ∧ old.id = worker.id ∧
          workers = front ++ worker :: back) ∨
        worker.id ≠ 0 ∧ worker.id ∉ store.workers.map Worker.id ∧
          store.workers.length < ddWorkerMax ∧ workers = store.workers ++ [worker]) ∧
      (workerRestore json faults worker store).2 =
        if store.nextId ≤ worker.id then
          { workers := workers, nextId := later, nvs := saveNextId faults saved later }
        else { store with workers := workers, nvs := saved } := by
  intro saved later
  by_cases zero : worker.id = 0
  · exact .inl (by rw [workerRestore, if_pos zero])
  cases found : store.workers.findIdx? fun other => other.id = worker.id with
  | none =>
      by_cases full : ddWorkerMax ≤ store.workers.length
      · exact .inl (by simp only [workerRestore, if_neg zero, found, full, and_self, if_true])
      refine .inr ⟨store.workers ++ [worker],
        .inr ⟨zero, keys_absent found, not_le.mp full, rfl⟩, ?_⟩
      simp only [workerRestore, if_neg zero, found, full, and_false, opens, saveOne, sets, commits,
        if_false, Bool.false_eq_true]
      split_ifs <;> rfl
  | some index =>
      obtain ⟨front, old, back, split, rfl, here⟩ := findIdx?_split found
      have written : store.workers.set front.length worker = front ++ worker :: back := by
        rw [split, set_split]
      refine .inr ⟨front ++ worker :: back,
        .inl ⟨front, old, back, split, of_decide_eq_true here, rfl⟩, ?_⟩
      simp only [workerRestore, if_neg zero, found, reduceCtorEq, false_and, written, opens, saveOne,
        sets, commits, if_false, Bool.false_eq_true]
      split_ifs <;> rfl

theorem Registered.restore (registered : Registered json store) {worker : Worker}
    (fits : (WorkerOp.restore worker).Fits store) :
    Registered json (workerRestore json .none worker store).2 ∧
      store.nextId ≤ (workerRestore json .none worker store).2.nextId := by
  obtain ⟨exact, small⟩ := fits
  rcases workerRestore_cases json .none rfl rfl rfl worker store with
    refused | ⟨_, ⟨front, old, back, split, same, rfl⟩ | ⟨nonzero, absent, room, rfl⟩, entered⟩
  · rw [refused]
    exact ⟨registered, le_rfl⟩
  · have below : ¬ store.nextId ≤ worker.id := by
      have := registered.below old (by simp [split])
      omega
    rw [entered, if_neg below]
    exact ⟨registered.overwrite split same.symm exact, le_rfl⟩
  · have positive : 1 ≤ worker.id := Nat.one_le_iff_ne_zero.mpr nonzero
    have moved : (worker.id + 1) % 65536 = worker.id + 1 := by omega
    have below : worker.id < worker.id + 1 := Nat.lt_succ_self _
    rw [entered]
    split_ifs with past
    · have blobs (id : Nat) := Nvs.getBlob_set_other (store.nvs.set (keyForId worker.id)
        (.blob (json.print worker.members))) keyNextId (keyForId_ne_next id) (.u16 (worker.id + 1))
      rw [moved]
      exact ⟨registered.add absent room positive below exact (past.trans below.le) small blobs
        (by simp [saveNextId, NvsFaults.none]), past.trans below.le⟩
    · have next := Nvs.getU16_set_other store.nvs (keyForId worker.id)
        (keyForId_ne_next worker.id).symm (.blob (json.print worker.members))
      refine ⟨registered.add absent room positive (not_le.mp past) exact le_rfl registered.next.2
        (fun _ => rfl) ?_, le_rfl⟩
      rw [next]
      exact registered.savedNext

/-- Every operation keeps the agreement, and all but a wipe keep `next_id` or raise it. -/
theorem Registered.step (registered : Registered json store) {op : WorkerOp}
    (fits : op.Fits store) :
    Registered json (op.step json store) ∧
      (op ≠ .wipe → store.nextId ≤ (op.step json store).nextId) := by
  cases op with
  | lookupOrCreate addr now =>
      have kept := registered.lookupOrCreate fits
      exact ⟨kept.1, fun _ => kept.2⟩
  | update id name category =>
      have kept := registered.update id name category
      exact ⟨kept.1, fun _ => kept.2.ge⟩
  | delete id =>
      have kept := registered.delete id
      exact ⟨kept.1, fun _ => kept.2.ge⟩
  | restore worker =>
      have kept := registered.restore fits
      exact ⟨kept.1, fun _ => kept.2⟩
  | wipe => exact ⟨registered.wiped, fun other => absurd rfl other⟩

/-- The agreement, with every id carried so far below `next_id`. -/
structure WorkerRun.Sound (json : Json) (current : WorkerRun) : Prop where
  registered : Registered json current.store
  carriedBelow : ∀ id ∈ current.carried, id < current.store.nextId

theorem WorkerRun.Sound.step {current : WorkerRun} (sound : current.Sound json) {op : WorkerOp}
    (fits : op.Fits current.store) : (current.step json op).Sound json := by
  obtain ⟨kept, grows⟩ := sound.registered.step fits
  refine ⟨kept, ?_⟩
  have later (other : op ≠ .wipe) :
      ∀ id ∈ current.carried ++ (op.step json current.store).workers.map Worker.id,
        id < (op.step json current.store).nextId := by
    intro id member
    rcases List.mem_append.mp member with past | present
    · exact lt_of_lt_of_le (sound.carriedBelow id past) (grows other)
    · obtain ⟨worker, inside, rfl⟩ := List.mem_map.mp present
      exact kept.below worker inside
  cases op with
  | wipe => exact fun id member => absurd member List.not_mem_nil
  | lookupOrCreate => exact later (by simp)
  | update => exact later (by simp)
  | delete => exact later (by simp)
  | restore => exact later (by simp)

theorem runWorkers_sound {ops : List WorkerOp}
    (guarded : Guarded (WorkerRun.step json) (fun current op => op.Fits current.store)
      WorkerRun.start ops) : (runWorkers json ops).Sound json :=
  run_invariant (WorkerRun.Sound json) (fun _ _ sound fits => sound.step fits)
    ⟨Registered.fresh json, fun _ member => absurd member List.not_mem_nil⟩ guarded

/-- In every state the operations reach the table is consistent and survives a reload,
a creation hands out an id no worker carried before, and looking up a registered address
returns its id and changes nothing. -/
theorem workerRegistry_consistent (faithful : json.Faithful) (ops : List WorkerOp)
    (guarded : Guarded (WorkerRun.step json) (fun current op => op.Fits current.store)
      WorkerRun.start ops) (reached : WorkerRun) (isReached : runWorkers json ops = reached) :
    (reached.store.workers.map Worker.id).Nodup ∧
      (∀ worker ∈ reached.store.workers, 1 ≤ worker.id ∧ worker.id < reached.store.nextId) ∧
      reached.store.workers.length ≤ 32 ∧
      (workerInit json reached.store.nvs).workers.Perm reached.store.workers ∧
      (workerInit json reached.store.nvs).nextId = reached.store.nextId ∧
      (∀ addr now, (WorkerOp.lookupOrCreate (some addr) now).Fits reached.store →
        reached.store.Creates addr →
        ∃ worker, worker.addr = addr ∧ worker.id ≠ 0 ∧ worker.id ∉ reached.carried ∧
          (workerLookupOrCreate json .none (some addr) now reached.store).1 = worker.id ∧
          (workerLookupOrCreate json .none (some addr) now reached.store).2.workers =
            reached.store.workers ++ [worker]) ∧
      ∀ now, ∀ worker ∈ reached.store.workers,
        (workerLookupOrCreate json .none (some worker.addr) now reached.store).2 = reached.store ∧
          ∃ known ∈ reached.store.workers, known.addr = worker.addr ∧
            (workerLookupOrCreate json .none (some worker.addr) now reached.store).1 =
              known.id := by
  subst isReached
  obtain ⟨registered, carriedBelow⟩ := runWorkers_sound guarded
  obtain ⟨perm, next⟩ := registered.reload faithful
  refine ⟨registered.nodup, fun worker member => ⟨registered.positive worker member,
    registered.below worker member⟩, registered.count, perm, next, ?_, ?_⟩
  · intro addr now fits creates
    have small := fits.2 creates
    rw [lookupOrCreate_new registered now creates.1 creates.2 small]
    refine ⟨newWorker _ addr now, rfl, ?_, fun past => ?_, rfl, rfl⟩
    · have := registered.next.1
      simp only [newWorker]
      omega
    · exact absurd (carriedBelow _ past) (lt_irrefl _)
  · intro now worker member
    exact lookupOrCreate_known registered now member rfl

/-- A worker is created, one is restored under id 5, the first is deleted and its address
comes back. -/
def visitOps : List WorkerOp :=
  [.lookupOrCreate (some Addr.zero) 1700000000, .restore (newWorker 5 ⟨1, 2, 3, 4, 5, 6⟩ 1700000100),
    .delete 1, .lookupOrCreate (some Addr.zero) 1700000200]

theorem workerRegistry_consistent_visit :
    ((runWorkers plainJson visitOps).store.workers.map Worker.id).Nodup ∧
      (workerInit plainJson (runWorkers plainJson visitOps).store.nvs).workers.Perm
        (runWorkers plainJson visitOps).store.workers := by
  have result := workerRegistry_consistent plainJson_faithful visitOps (by decide) _ rfl
  exact ⟨result.1, result.2.2.2.1⟩

end Run

end LeanDingdong
