import Dingdong.WorkerRegistry

/-!
The counter of worker ids has 16 bits, and it bounds the loop that loads the table. An id of
65535 makes it wrap: the loop then loads nothing, and the next worker gets id 0. As long as no
step does that, the counter stays above every id and a reboot loads every worker.
-/

namespace LeanDingdong

open Runs ListTable

/-- One worker, whatever the time of its creation. -/
structure Worker.Same (first second : Worker) : Prop where
  id : first.id = second.id
  addr : first.addr = second.addr
  name : first.name = second.name
  category : first.category = second.category

/-- `created_at` is an `int64_t`. -/
def Worker.Timed (worker : Worker) : Prop := worker.createdAt.natAbs ≤ 2 ^ 63

instance (worker : Worker) : Decidable worker.Timed := inferInstanceAs (Decidable (_ ≤ _))

/-- The blob under the worker's id was written for it. -/
def Nvs.Holds (json : Json) (nvs : Nvs) (worker : Worker) : Prop :=
  ∃ written : Worker, written.Same worker ∧ written.Timed ∧
    nvs.getBlob (keyForId worker.id) = some (json.print written.members)

/-- The table's ids are below the counter, in flash as in RAM, and there is a blob for each
entry of the table and for no other id. -/
structure Enrolled (json : Json) (store : WorkerStore) : Prop where
  nodup : (store.workers.map Worker.id).Nodup
  ids : ∀ worker ∈ store.workers, 1 ≤ worker.id ∧ worker.id < store.nextId
  timed : ∀ worker ∈ store.workers, worker.Timed
  count : store.workers.length ≤ ddWorkerMax
  next : 1 ≤ store.nextId ∧ store.nextId ≤ 65535
  savedNext : (store.nvs.getU16 keyNextId).getD 1 = store.nextId
  saved : ∀ worker ∈ store.workers, store.nvs.Holds json worker
  unsaved : ∀ id, id ∉ store.workers.map Worker.id → store.nvs.getBlob (keyForId id) = none

section Load

variable {json : Json} {nvs : Nvs} {worker : Worker}

theorem Worker.members_stored (timed : worker.Timed) :
    ∀ member ∈ worker.members, member.value.Stored := by
  intro member inside
  simp only [Worker.members, List.mem_cons, List.not_mem_nil, or_false] at inside
  rcases inside with rfl | rfl | rfl | rfl
  · exact formatMac_noNul _
  · exact worker.name.noNul
  · exact worker.category.noNul
  · exact timed

/-- An entry with a blob is loaded. -/
theorem Nvs.Holds.load (held : nvs.Holds json worker) (keeps : json.KeepsTexts) :
    ∃ loaded : Worker, loadOne json nvs worker.id = some loaded ∧ loaded.Same worker ∧
      loaded.Timed := by
  obtain ⟨written, same, timed, blob⟩ := held
  have stored := Worker.members_stored timed
  obtain ⟨parsed, parses, texts, numbers⟩ := keeps.parse_print _ stored
  have nonempty : (json.print written.members).length ≠ 0 := by
    simpa using keeps.print_ne_nil written.members
  have short : (json.print written.members).length ≤ 1024 :=
    (keeps.print_length _ stored).trans (Worker.members_room written)
  refine ⟨Worker.ofMembers worker.id parsed, ?_, ?_, ?_⟩
  · rw [loadOne, blob]
    simp only [parses, Option.map_some]
    rw [if_neg (by omega)]
  · have whole := Worker.ofMembers_members written
    have addr := congrArg Worker.addr whole
    have name := congrArg Worker.name whole
    have category := congrArg Worker.category whole
    simp only [Worker.ofMembers] at addr name category
    refine ⟨rfl, ?_, ?_, ?_⟩
    · rw [← same.addr, ← addr]
      simp only [Worker.ofMembers, texts]
    · rw [← same.name, ← name]
      simp only [Worker.ofMembers, texts]
    · rw [← same.category, ← category]
      simp only [Worker.ofMembers, texts]
  · show ((getNumber parsed (ascii "created_at")).getD 0).natAbs ≤ 2 ^ 63
    cases created : getNumber parsed (ascii "created_at") with
    | none => exact Nat.zero_le _
    | some value => exact numbers _ _ created

/-- A write under another key leaves the blob alone. -/
theorem Nvs.Holds.other (held : nvs.Holds json worker) {key : Bytes} (value : NvsValue)
    (different : keyForId worker.id ≠ key) : (nvs.set key value).Holds json worker := by
  obtain ⟨written, same, timed, blob⟩ := held
  exact ⟨written, same, timed, (Nvs.getBlob_set_other _ _ different value).trans blob⟩

theorem Nvs.holds_set (timed : worker.Timed) :
    (nvs.set (keyForId worker.id) (.blob (json.print worker.members))).Holds json worker :=
  ⟨worker, ⟨rfl, rfl, rfl, rfl⟩, timed, Nvs.getBlob_set _ _ _⟩

end Load

section Steps

variable {json : Json} {store : WorkerStore}

namespace Enrolled

theorem fresh (json : Json) : Enrolled json WorkerStore.fresh := by
  constructor <;> simp [WorkerStore.fresh, Nvs.getU16, Nvs.getBlob, Nvs.blank, ddWorkerMax]

/-- An entry is written over by one of its id. -/
theorem overwrite (enrolled : Enrolled json store) {front back : List Worker} {old new : Worker}
    (split : store.workers = front ++ old :: back) (same : new.id = old.id) (timed : new.Timed) :
    Enrolled json
      { store with
        workers := front ++ new :: back
        nvs := store.nvs.set (keyForId new.id) (.blob (json.print new.members)) } := by
  have ids := map_overwrite split same
  have others {worker : Worker} (member : worker ∈ front ++ new :: back) :=
    mem_overwrite enrolled.nodup split same member
  have inside : old ∈ store.workers := by simp [split]
  constructor
  · rw [ids]
    exact enrolled.nodup
  · intro worker member
    rcases others member with rfl | ⟨known, _⟩
    · rw [same]
      exact enrolled.ids old inside
    · exact enrolled.ids worker known
  · intro worker member
    rcases others member with rfl | ⟨known, _⟩
    · exact timed
    · exact enrolled.timed worker known
  · have count := enrolled.count
    rwa [← List.length_map Worker.id, ← ids, List.length_map] at count
  · exact enrolled.next
  · rw [Nvs.getU16_set_other _ _ (keyForId_ne_next _).symm]
    exact enrolled.savedNext
  · intro worker member
    rcases others member with rfl | ⟨known, other⟩
    · exact Nvs.holds_set timed
    · exact (enrolled.saved worker known).other _ fun eq => other (keyForId_inj eq)
  · intro id absent
    rw [ids] at absent
    have other : id ≠ new.id := by
      rintro rfl
      exact absent (same ▸ List.mem_map_of_mem inside)
    rw [Nvs.getBlob_set_other _ _ fun eq => other (keyForId_inj eq)]
    exact enrolled.unsaved id absent

/-- An entry of a new id is added below a counter that is kept, or moved and written. -/
theorem add (enrolled : Enrolled json store) {new : Worker} {nextId : Nat} {nvs : Nvs}
    (absent : new.id ∉ store.workers.map Worker.id) (room : store.workers.length < ddWorkerMax)
    (id : 1 ≤ new.id ∧ new.id < nextId) (timed : new.Timed) (grows : store.nextId ≤ nextId)
    (small : nextId ≤ 65535)
    (blobs : ∀ id, nvs.getBlob (keyForId id) =
      (store.nvs.set (keyForId new.id) (.blob (json.print new.members))).getBlob (keyForId id))
    (next : (nvs.getU16 keyNextId).getD 1 = nextId) :
    Enrolled json { workers := store.workers ++ [new], nextId := nextId, nvs := nvs } := by
  have others {worker : Worker} (member : worker ∈ store.workers ++ [new]) := mem_add absent member
  constructor
  · exact nodup_add enrolled.nodup absent
  · intro worker member
    rcases others member with rfl | ⟨known, _⟩
    · exact id
    · have below := enrolled.ids worker known
      exact ⟨below.1, below.2.trans_le grows⟩
  · intro worker member
    rcases others member with rfl | ⟨known, _⟩
    · exact timed
    · exact enrolled.timed worker known
  · simpa using room
  · exact ⟨enrolled.next.1.trans grows, small⟩
  · exact next
  · intro worker member
    rcases others member with rfl | ⟨known, other⟩
    · obtain ⟨written, same, timed, blob⟩ := @Nvs.holds_set json store.nvs worker timed
      exact ⟨written, same, timed, (blobs _).trans blob⟩
    · obtain ⟨written, same, timed, blob⟩ := (enrolled.saved worker known).other
        (.blob (json.print new.members)) fun eq => other (keyForId_inj eq)
      exact ⟨written, same, timed, (blobs _).trans blob⟩
  · intro id missing
    rw [List.map_append, List.mem_append, not_or, List.map_singleton, List.mem_singleton] at missing
    rw [blobs, Nvs.getBlob_set_other _ _ fun eq => missing.2 (keyForId_inj eq)]
    exact enrolled.unsaved id missing.1

theorem remove (enrolled : Enrolled json store) {front back workers : List Worker} {old : Worker}
    (split : store.workers = front ++ old :: back) (perm : workers.Perm (front ++ back)) :
    Enrolled json
      { store with workers := workers, nvs := store.nvs.eraseKey (keyForId old.id) } := by
  have nodup := enrolled.nodup
  have all : (store.workers.map Worker.id).Perm (old.id :: workers.map Worker.id) :=
    map_remove split perm
  have known {worker : Worker} (member : worker ∈ workers) := mem_remove nodup split perm member
  rw [all.nodup_iff, List.nodup_cons] at nodup
  constructor
  · exact nodup.2
  · exact fun worker member => enrolled.ids worker (known member).1
  · exact fun worker member => enrolled.timed worker (known member).1
  · have count := all.length_eq
    rw [List.length_map, List.length_cons, List.length_map] at count
    have most := enrolled.count
    exact (by omega : workers.length ≤ ddWorkerMax)
  · exact enrolled.next
  · exact (congrArg (fun stored => Option.getD stored 1)
      (Nvs.getU16_eraseKey_other _ _ (keyForId_ne_next _).symm)).trans enrolled.savedNext
  · intro worker member
    obtain ⟨inside, other⟩ := known member
    obtain ⟨written, same, timed, blob⟩ := enrolled.saved worker inside
    exact ⟨written, same, timed,
      (Nvs.getBlob_eraseKey_other _ _ fun eq => other (keyForId_inj eq)).trans blob⟩
  · intro id absent
    by_cases here : id = old.id
    · rw [here]
      exact Nvs.getBlob_eraseKey _ _
    · refine (Nvs.getBlob_eraseKey_other _ _ fun same => here (keyForId_inj same)).trans
        (enrolled.unsaved id fun present => absent ?_)
      rcases List.mem_cons.mp (all.mem_iff.mp present) with same | rest
      · exact absurd same here
      · exact rest

theorem wiped (enrolled : Enrolled json store) : Enrolled json (workerWipe .none store).2 := by
  have keys (key : Bytes) : ((workerWipe .none store).2.nvs) key =
      if key ∈ (List.range' 1 (store.nextId - 1)).map keyForId ++ [keyNextId] then none
      else store.nvs key := foldl_eraseStep _ _ _
  constructor
  · exact List.nodup_nil
  · exact fun worker member => absurd member List.not_mem_nil
  · exact fun worker member => absurd member List.not_mem_nil
  · exact Nat.zero_le _
  · exact ⟨le_rfl, (by decide : 1 ≤ 65535)⟩
  · rw [Nvs.getU16, keys, if_pos (by simp)]
    rfl
  · exact fun worker member => absurd member List.not_mem_nil
  · intro id _
    rw [Nvs.getBlob, keys]
    split_ifs with erased
    · rfl
    · refine enrolled.unsaved id fun present => erased ?_
      obtain ⟨worker, member, rfl⟩ := List.mem_map.mp present
      have range := enrolled.ids worker member
      refine List.mem_append_left _ (List.mem_map_of_mem (List.mem_range'_1.mpr ?_))
      omega

/-- Under the id of an entry the loop finds it, under any other id it finds nothing. -/
theorem loadOne_iff (enrolled : Enrolled json store) (keeps : json.KeepsTexts) {id : Nat}
    {loaded : Worker} (found : loadOne json store.nvs id = some loaded) :
    ∃ worker ∈ store.workers, worker.id = id ∧ loaded.Same worker ∧ loaded.Timed := by
  by_cases present : id ∈ store.workers.map Worker.id
  · obtain ⟨worker, member, rfl⟩ := List.mem_map.mp present
    obtain ⟨own, loads, same, timed⟩ := (enrolled.saved worker member).load keeps
    rw [found] at loads
    obtain rfl := Option.some.inj loads
    exact ⟨worker, member, rfl, same, timed⟩
  · rw [loadOne, enrolled.unsaved id present] at found
    cases found

/-- A reboot loads the table, in the order of the ids. -/
theorem reload (enrolled : Enrolled json store) (keeps : json.KeepsTexts) :
    Enrolled json (workerInit json store.nvs) ∧
      ∀ worker ∈ store.workers, ∃ loaded ∈ (workerInit json store.nvs).workers,
        loaded.Same worker := by
  have next : (store.nvs.getU16 keyNextId).getD 1 = store.nextId := enrolled.savedNext
  set ids := List.range' 1 (store.nextId - 1)
  have loads (loaded : Worker) (member : loaded ∈ ids.filterMap (loadOne json store.nvs)) :
      loadOne json store.nvs loaded.id = some loaded ∧ ∃ worker ∈ store.workers,
        loaded.Same worker ∧ loaded.Timed := by
    obtain ⟨id, _, found⟩ := List.mem_filterMap.mp member
    obtain ⟨worker, inside, rfl, same, timed⟩ := enrolled.loadOne_iff keeps found
    exact ⟨same.id ▸ found, worker, inside, same, timed⟩
  have finds (worker : Worker) (member : worker ∈ store.workers) :
      ∃ loaded ∈ ids.filterMap (loadOne json store.nvs), loaded.Same worker := by
    obtain ⟨loaded, found, same, _⟩ := (enrolled.saved worker member).load keeps
    have range := enrolled.ids worker member
    refine ⟨loaded, List.mem_filterMap.mpr ⟨worker.id, List.mem_range'_1.mpr ?_, found⟩, same⟩
    omega
  have nodup : ((ids.filterMap (loadOne json store.nvs)).map Worker.id).Nodup := by
    refine List.Nodup.map_on ?_ (List.Nodup.filterMap ?_ List.nodup_range')
    · intro first inFirst second inSecond same
      have own := (loads first inFirst).1
      rw [same, (loads second inSecond).1] at own
      exact (Option.some.inj own).symm
    · intro first second loaded fromFirst fromSecond
      obtain ⟨worker, _, rfl, same, _⟩ := enrolled.loadOne_iff keeps fromFirst
      obtain ⟨other, _, rfl, same', _⟩ := enrolled.loadOne_iff keeps fromSecond
      exact same.id.symm.trans same'.id
  have perm : ((ids.filterMap (loadOne json store.nvs)).map Worker.id).Perm
      (store.workers.map Worker.id) := by
    refine (List.perm_ext_iff_of_nodup nodup enrolled.nodup).mpr fun id => ?_
    simp only [List.mem_map]
    constructor
    · rintro ⟨loaded, member, rfl⟩
      obtain ⟨_, worker, inside, same, _⟩ := loads loaded member
      exact ⟨worker, inside, same.id.symm⟩
    · rintro ⟨worker, member, rfl⟩
      obtain ⟨loaded, inside, same⟩ := finds worker member
      exact ⟨loaded, inside, same.id⟩
  have count := perm.length_eq
  rw [List.length_map, List.length_map] at count
  have most := enrolled.count
  have fits : ([] : List Worker).length + (ids.filterMap (loadOne json store.nvs)).length ≤
      ddWorkerMax := by
    rw [List.length_nil]
    omega
  have table : (workerInit json store.nvs).workers = ids.filterMap (loadOne json store.nvs) := by
    rw [workerInit, next]
    exact (foldl_loadStep fits).trans (List.nil_append _)
  have counter : (workerInit json store.nvs).nextId = store.nextId := next
  refine ⟨?_, by rwa [table]⟩
  constructor
  · rwa [table]
  · intro loaded member
    rw [table] at member
    obtain ⟨_, worker, inside, same, _⟩ := loads loaded member
    rw [same.id, counter]
    exact enrolled.ids worker inside
  · intro loaded member
    rw [table] at member
    obtain ⟨_, _, _, _, timed⟩ := loads loaded member
    exact timed
  · rw [table]
    omega
  · rw [counter]
    exact enrolled.next
  · rfl
  · intro loaded member
    rw [table] at member
    obtain ⟨_, worker, inside, same, _⟩ := loads loaded member
    obtain ⟨written, sameWritten, timed, blob⟩ := enrolled.saved worker inside
    refine ⟨written, ⟨?_, ?_, ?_, ?_⟩, timed, by rwa [same.id]⟩
    · rw [sameWritten.id, same.id]
    · rw [sameWritten.addr, same.addr]
    · rw [sameWritten.name, same.name]
    · rw [sameWritten.category, same.category]
  · intro id absent
    rw [table, perm.mem_iff] at absent
    exact enrolled.unsaved id absent

end Enrolled

end Steps

section Run

/-- An operation without an NVS failure, or a reboot. -/
inductive EnrolAction where
  | operation (op : WorkerOp)
  | reboot

/-- The values are those of the C types. -/
def EnrolAction.Typed : EnrolAction → Prop
  | .operation (.lookupOrCreate _ now) => now.natAbs ≤ 2 ^ 63
  | .operation (.restore worker) => worker.id ≤ 65535 ∧ worker.Timed
  | _ => True

instance decidableTyped : ∀ action : EnrolAction, Decidable action.Typed
  | .operation (.lookupOrCreate _ _) => inferInstanceAs (Decidable (_ ≤ _))
  | .operation (.restore _) => inferInstanceAs (Decidable (_ ∧ _))
  | .operation (.update ..) | .operation (.delete _) | .operation .wipe | .reboot => isTrue trivial

def EnrolAction.step (json : Json) (store : WorkerStore) : EnrolAction → WorkerStore
  | .operation op => op.step json store
  | .reboot => workerInit json store.nvs

/-- The counter does not wrap: no worker is created when it is 65535, and the table takes no
worker with that id. -/
def EnrolAction.StaysBelow (store : WorkerStore) : EnrolAction → Prop
  | .operation (.lookupOrCreate (some addr) _) => store.Creates addr → store.nextId < 65535
  | .operation (.restore worker) => worker.id < 65535 ∨ ddWorkerMax ≤ store.workers.length
  | _ => True

instance decidableStaysBelow (store : WorkerStore) :
    ∀ action : EnrolAction, Decidable (action.StaysBelow store)
  | .operation (.lookupOrCreate (some _) _) => inferInstanceAs (Decidable (_ → _))
  | .operation (.restore _) => inferInstanceAs (Decidable (_ ∨ _))
  | .operation (.lookupOrCreate none _) | .operation (.update ..) | .operation (.delete _)
  | .operation .wipe | .reboot => isTrue trivial

variable {json : Json} {store : WorkerStore}

namespace Enrolled

theorem lookupOrCreate (enrolled : Enrolled json store) {addr : Option Addr} {now : Int}
    (timed : now.natAbs ≤ 2 ^ 63)
    (below : (EnrolAction.operation (.lookupOrCreate addr now)).StaysBelow store) :
    Enrolled json (workerLookupOrCreate json .none addr now store).2 := by
  cases addr with
  | none => exact enrolled
  | some addr =>
      simp only [workerLookupOrCreate]
      split_ifs with known full unopened
      · exact enrolled
      · exact enrolled
      · exact enrolled
      have unknown : ∀ worker ∈ store.workers, worker.addr ≠ addr := by
        rcases workerFindByAddr_cases (fun worker member => (enrolled.ids worker member).1) addr with
          ⟨worker, _, _, found, nonzero⟩ | ⟨unknown, _⟩
        · exact absurd (found.symm.trans (not_not.mp known)) nonzero
        · exact unknown
      have small := below ⟨unknown, not_le.mp full⟩
      have moved : (store.nextId + 1) % 65536 = store.nextId + 1 := by omega
      have absent : (newWorker store.nextId addr now).id ∉ store.workers.map Worker.id := by
        intro present
        obtain ⟨worker, member, same⟩ := List.mem_map.mp present
        exact (enrolled.ids worker member).2.ne same
      rw [saveOne_none, moved]
      exact enrolled.add absent (not_le.mp full) ⟨enrolled.next.1, Nat.lt_succ_self _⟩ timed
        (Nat.le_succ _) small (fun id => Nvs.getBlob_set_other _ _ (keyForId_ne_next id) _)
        (by simp [saveNextId, NvsFaults.none])

theorem update (enrolled : Enrolled json store) (id : Nat) (name category : Option Bytes) :
    Enrolled json (workerUpdate json .none id name category store).2 := by
  rcases workerUpdate_cases json .none id name category store with
    ⟨_, refused⟩ | ⟨front, worker, back, split, _, _, _, written⟩
  · rw [refused]
    exact enrolled
  · have timed : (worker.updated name category).Timed := enrolled.timed worker (by simp [split])
    rw [written]
    exact enrolled.overwrite split rfl timed

theorem delete (enrolled : Enrolled json store) (id : Nat) :
    Enrolled json (workerDelete .none id store).2 := by
  rcases workerDelete_cases .none id store with
    refused | ⟨front, old, back, workers, split, rfl, perm, removed⟩
  · rw [refused]
    exact enrolled
  · rw [removed]
    exact enrolled.remove split perm

theorem restore (enrolled : Enrolled json store) {worker : Worker}
    (typed : (EnrolAction.operation (.restore worker)).Typed)
    (below : (EnrolAction.operation (.restore worker)).StaysBelow store) :
    Enrolled json (workerRestore json .none worker store).2 := by
  obtain ⟨_, timed⟩ := typed
  rcases workerRestore_cases json .none rfl rfl rfl worker store with
    refused | ⟨_, ⟨front, old, back, split, same, rfl⟩ | ⟨nonzero, absent, room, rfl⟩, entered⟩
  · rw [refused]
    exact enrolled
  · have known : ¬ store.nextId ≤ worker.id := by
      have := (enrolled.ids old (by simp [split])).2
      omega
    rw [entered, if_neg known]
    exact enrolled.overwrite split same.symm timed
  · have small : worker.id < 65535 := below.resolve_right (not_le.mpr room)
    have moved : (worker.id + 1) % 65536 = worker.id + 1 := by omega
    have next := enrolled.next
    rw [entered]
    split_ifs with past
    · rw [moved]
      exact enrolled.add absent room ⟨by omega, Nat.lt_succ_self _⟩ timed
        (past.trans (Nat.le_succ _)) small
        (fun id => Nvs.getBlob_set_other _ _ (keyForId_ne_next id) _)
        (by simp [saveNextId, NvsFaults.none])
    · refine enrolled.add absent room ⟨by omega, not_le.mp past⟩ timed le_rfl next.2
        (fun _ => rfl) ?_
      rw [Nvs.getU16_set_other _ _ (keyForId_ne_next _).symm]
      exact enrolled.savedNext

theorem step (enrolled : Enrolled json store) (keeps : json.KeepsTexts) {action : EnrolAction}
    (typed : action.Typed) (below : action.StaysBelow store) :
    Enrolled json (action.step json store) := by
  cases action with
  | reboot => exact (enrolled.reload keeps).1
  | operation op =>
      cases op with
      | lookupOrCreate addr now => exact enrolled.lookupOrCreate typed below
      | update id name category => exact enrolled.update id name category
      | delete id => exact enrolled.delete id
      | restore worker => exact enrolled.restore typed below
      | wipe => exact enrolled.wiped

end Enrolled

/-- A step that leaves no room: the counter is 0, below the worker of id 65535, and a reboot
loads nothing. -/
theorem Enrolled.wraps (enrolled : Enrolled json store) {action : EnrolAction}
    (typed : action.Typed) (exceeds : ¬ action.StaysBelow store) :
    (action.step json store).nextId = 0 ∧
      (∃ worker ∈ (action.step json store).workers, worker.id = 65535) ∧
      (workerInit json (action.step json store).nvs).workers = [] := by
  have unloaded {nvs : Nvs} (zero : nvs.getU16 keyNextId = some 0) :
      (workerInit json nvs).workers = [] := by
    rw [workerInit, zero]
    rfl
  obtain ⟨op⟩ | _ := action
  · cases op with
    | lookupOrCreate addr now =>
        cases addr with
        | none => exact absurd trivial exceeds
        | some addr =>
            simp only [EnrolAction.StaysBelow, Classical.not_imp] at exceeds
            obtain ⟨⟨unknown, room⟩, large⟩ := exceeds
            have last : store.nextId = 65535 := by
              have := enrolled.next
              omega
            have missing : workerFindByAddr store.workers addr = 0 := by
              have none : (store.workers.find? fun worker => worker.addr = addr) = none :=
                List.find?_eq_none.mpr fun worker member => by simpa using unknown worker member
              rw [workerFindByAddr, none]
              rfl
            have result : (EnrolAction.operation (.lookupOrCreate (some addr) now)).step json store =
                { workers := store.workers ++ [newWorker 65535 addr now]
                  nextId := 0
                  nvs := (store.nvs.set (keyForId 65535)
                    (.blob (json.print (newWorker 65535 addr now).members))).set keyNextId
                      (.u16 0) } := by
              simp [EnrolAction.step, WorkerOp.step, workerLookupOrCreate, missing, not_le.mpr room,
                NvsFaults.none, saveOne, saveNextId, last, newWorker]
            rw [result]
            exact ⟨rfl, ⟨newWorker 65535 addr now, by simp, rfl⟩, unloaded (Nvs.getU16_set _ _ _)⟩
    | restore worker =>
        simp only [EnrolAction.StaysBelow, not_or, not_lt, not_le] at exceeds
        obtain ⟨large, room⟩ := exceeds
        have last : worker.id = 65535 := le_antisymm typed.1 large
        have past : store.nextId ≤ worker.id := enrolled.next.2.trans large
        have absent : (store.workers.findIdx? fun other => other.id = worker.id) = none := by
          refine List.findIdx?_eq_none_iff.mpr fun other member => decide_eq_false ?_
          have := (enrolled.ids other member).2
          omega
        have result : (EnrolAction.operation (.restore worker)).step json store =
            { workers := store.workers ++ [worker]
              nextId := 0
              nvs := (store.nvs.set (keyForId worker.id)
                (.blob (json.print worker.members))).set keyNextId (.u16 0) } := by
          have nonzero : worker.id ≠ 0 := by omega
          have wrapped : (worker.id + 1) % 65536 = 0 := by omega
          simp [EnrolAction.step, WorkerOp.step, workerRestore, nonzero, absent, not_le.mpr room,
            NvsFaults.none, saveOne, saveNextId, past, wrapped]
        rw [result]
        exact ⟨rfl, ⟨worker, by simp, last⟩, unloaded (Nvs.getU16_set _ _ _)⟩
    | update => exact absurd trivial exceeds
    | delete => exact absurd trivial exceeds
    | wipe => exact absurd trivial exceeds
  · exact absurd trivial exceeds

/-- In every run whose steps leave the counter room it stays above every id, no worker has id 0,
and a reboot loads them all. -/
theorem counter_above (keeps : json.KeepsTexts) (actions : List EnrolAction)
    (below : Guarded (EnrolAction.step json)
      (fun store action => action.Typed ∧ action.StaysBelow store) WorkerStore.fresh actions)
    (reached : WorkerStore)
    (isReached : run (EnrolAction.step json) WorkerStore.fresh actions = reached) :
    (∀ worker ∈ reached.workers, worker.id < reached.nextId ∧ worker.id ≠ 0) ∧
      ∀ worker ∈ reached.workers, ∃ loaded ∈ (workerInit json reached.nvs).workers,
        loaded.Same worker := by
  subst isReached
  have enrolled := run_invariant (Enrolled json)
    (fun _ _ enrolled guard => enrolled.step keeps guard.1 guard.2) (Enrolled.fresh json) below
  refine ⟨fun worker member => ?_, (enrolled.reload keeps).2⟩
  have range : 1 ≤ worker.id ∧ worker.id <
      (run (EnrolAction.step json) WorkerStore.fresh actions).nextId := enrolled.ids worker member
  exact ⟨range.2, Nat.one_le_iff_ne_zero.mp range.1⟩

/-- A visitor, a reboot, a worker restored high up, and a visitor who takes the last number. -/
def lastNumbers : List EnrolAction :=
  [.operation (.lookupOrCreate (some Addr.zero) 1700000000), .reboot,
    .operation (.restore (newWorker 65533 ⟨1, 2, 3, 4, 5, 6⟩ 1700000100)),
    .operation (.lookupOrCreate (some ⟨6, 5, 4, 3, 2, 1⟩) 1700000200)]

theorem counter_above_last :
    ∃ reached, run (EnrolAction.step plainJson) WorkerStore.fresh lastNumbers = reached ∧
      reached.nextId = 65535 ∧
      (∀ worker ∈ reached.workers, worker.id < reached.nextId ∧ worker.id ≠ 0) ∧
      ∀ worker ∈ reached.workers, ∃ loaded ∈ (workerInit plainJson reached.nvs).workers,
        loaded.Same worker := by
  refine ⟨_, rfl, ?_, counter_above plainJson_keepsTexts lastNumbers ?_ _ rfl⟩
  · decide +kernel
  · decide +kernel

/-- A restored id of 65535: the counter is below it, a reboot loads nothing, and without one the
next visitor is entered under id 0. -/
theorem restore_wraps :
    ∃ restored, (EnrolAction.operation (.restore restored)).Typed ∧ restored.id = 65535 ∧
      (run (EnrolAction.step plainJson) WorkerStore.fresh
        [.operation (.restore restored)]).nextId = 0 ∧
      (run (EnrolAction.step plainJson) WorkerStore.fresh
        [.operation (.restore restored)]).workers.map Worker.id = [65535] ∧
      (run (EnrolAction.step plainJson) WorkerStore.fresh
        [.operation (.restore restored), .reboot]).workers = [] ∧
      (run (EnrolAction.step plainJson) WorkerStore.fresh
        [.operation (.restore restored),
          .operation (.lookupOrCreate (some Addr.zero) 1700000100)]).workers.map Worker.id =
            [65535, 0] := by
  refine ⟨newWorker 65535 ⟨1, 2, 3, 4, 5, 6⟩ 1700000000, ?_, rfl, ?_, ?_, ?_, ?_⟩
  · decide
  · decide
  · decide
  · decide
  · decide

end Run

end LeanDingdong
