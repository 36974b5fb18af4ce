import Dingdong.Runs
import Dingdong.WorkerRegistry

/-!
What the registry keeps whatever fails in NVS and whenever the device restarts. Blobs may
be missing or left over, and `next_id` may lag behind in flash, but the table stays a
numbering of its workers.
-/

namespace LeanDingdong

open Runs ListTable

/-- The ids are distinct and below the next one, and times are ones a double holds. -/
structure Numbered (workers : List Worker) (nextId : Nat) : Prop where
  nodup : (workers.map Worker.id).Nodup
  ids : ∀ worker ∈ workers, 1 ≤ worker.id ∧ worker.id < nextId
  count : workers.length ≤ ddWorkerMax
  exact : ∀ worker ∈ workers, worker.Exact
  next : 1 ≤ nextId ∧ nextId ≤ 65535

namespace Numbered

variable {workers : List Worker} {nextId : Nat}

theorem overwrite (numbered : Numbered workers nextId) {front back : List Worker}
    {old new : Worker} (split : workers = front ++ old :: back) (same : new.id = old.id)
    (exact : new.Exact) : Numbered (front ++ new :: back) nextId := by
  have others {worker : Worker} (member : worker ∈ front ++ new :: back) :=
    mem_overwrite numbered.nodup split same member
  constructor
  · rw [map_overwrite split same]
    exact numbered.nodup
  · intro worker member
    rcases others member with rfl | ⟨known, _⟩
    · rw [same]
      exact numbered.ids old (by simp [split])
    · exact numbered.ids worker known
  · simpa [split] using numbered.count
  · intro worker member
    rcases others member with rfl | ⟨known, _⟩
    · exact exact
    · exact numbered.exact worker known
  · exact numbered.next

theorem add (numbered : Numbered workers nextId) {new : Worker} {later : Nat}
    (absent : new.id ∉ workers.map Worker.id) (room : workers.length < ddWorkerMax)
    (id : 1 ≤ new.id ∧ new.id < later) (exact : new.Exact) (grows : nextId ≤ later)
    (small : later ≤ 65535) : Numbered (workers ++ [new]) later := by
  constructor
  · exact nodup_add numbered.nodup absent
  · intro worker member
    rcases mem_add absent member with rfl | ⟨known, _⟩
    · exact id
    · have below := numbered.ids worker known
      omega
  · simpa using room
  · intro worker member
    rcases mem_add absent member with rfl | ⟨known, _⟩
    · exact exact
    · exact numbered.exact worker known
  · have := numbered.next
    omega

theorem remove (numbered : Numbered workers nextId) {front back rest : List Worker}
    {old : Worker} (split : workers = front ++ old :: back) (perm : rest.Perm (front ++ back)) :
    Numbered rest nextId := by
  have nodup := numbered.nodup
  have all : (workers.map Worker.id).Perm (old.id :: rest.map Worker.id) := map_remove split perm
  have known {worker : Worker} (member : worker ∈ rest) := mem_remove nodup split perm member
  rw [all.nodup_iff, List.nodup_cons] at nodup
  constructor
  · exact nodup.2
  · exact fun worker member => numbered.ids worker (known member).1
  · have count := all.length_eq
    rw [List.length_map, List.length_cons, List.length_map] at count
    have most := numbered.count
    omega
  · exact fun worker member => numbered.exact worker (known member).1
  · exact numbered.next

theorem empty (next : 1 ≤ nextId ∧ nextId ≤ 65535) : Numbered [] nextId :=
  ⟨List.nodup_nil, by simp, Nat.zero_le _, by simp, next⟩

end Numbered

section Blobs

variable {json : Json} {nvs : Nvs}

/-- `next_id` is in range and every blob under an id was written for some worker. -/
structure Blobs (json : Json) (nvs : Nvs) : Prop where
  next : 1 ≤ (nvs.getU16 keyNextId).getD 1 ∧ (nvs.getU16 keyNextId).getD 1 ≤ 65535
  printed : ∀ id blob, nvs.getBlob (keyForId id) = some blob →
    ∃ worker : Worker, worker.Exact ∧ blob = json.print worker.members

theorem Blobs.saveOne (blobs : Blobs json nvs) (faults : NvsFaults) {worker : Worker}
    (exact : worker.Exact) : Blobs json (saveOne json faults nvs worker).2 := by
  have written : Blobs json
      (nvs.set (keyForId worker.id) (.blob (json.print worker.members))) := by
    constructor
    · rw [Nvs.getU16_set_other _ _ (keyForId_ne_next _).symm]
      exact blobs.next
    · intro id blob found
      by_cases same : id = worker.id
      · subst same
        rw [Nvs.getBlob_set] at found
        exact ⟨worker, exact, (Option.some.inj found).symm⟩
      · rw [Nvs.getBlob_set_other _ _ fun eq => same (keyForId_inj eq)] at found
        exact blobs.printed id blob found
  rw [LeanDingdong.saveOne]
  dsimp only
  split_ifs
  · exact blobs
  · exact written
  · exact written

theorem Blobs.saveNextId (blobs : Blobs json nvs) (faults : NvsFaults) {nextId : Nat}
    (next : 1 ≤ nextId ∧ nextId ≤ 65535) : Blobs json (saveNextId faults nvs nextId) := by
  rw [LeanDingdong.saveNextId]
  split_ifs
  · exact blobs
  · constructor
    · rw [Nvs.getU16_set]
      exact next
    · intro id blob found
      rw [Nvs.getBlob_set_other _ _ (keyForId_ne_next id)] at found
      exact blobs.printed id blob found

theorem Blobs.eraseKey (blobs : Blobs json nvs) (key : Bytes) : Blobs json (nvs.eraseKey key) := by
  constructor
  · by_cases same : keyNextId = key
    · have erased : (nvs.eraseKey key).getU16 keyNextId = none := by
        simp [same, Nvs.getU16, Nvs.eraseKey]
      rw [erased]
      decide
    · rw [Nvs.getU16_eraseKey_other _ _ same]
      exact blobs.next
  · intro id blob found
    by_cases same : keyForId id = key
    · subst same
      simp at found
    · rw [Nvs.getBlob_eraseKey_other _ _ same] at found
      exact blobs.printed id blob found

theorem Blobs.eraseSteps (blobs : Blobs json nvs) (faults : NvsFaults) (keys : List Bytes) :
    Blobs json (keys.foldl (eraseStep faults) nvs) := by
  induction keys generalizing nvs with
  | nil => exact blobs
  | cons key keys ih =>
      refine ih ?_
      rw [eraseStep]
      split_ifs
      · exact blobs
      · exact blobs.eraseKey key

/-- What is loaded under an id carries that id and an exact time. -/
theorem Blobs.loadOne (blobs : Blobs json nvs) (faithful : json.Faithful) {id : Nat}
    {worker : Worker} (loaded : loadOne json nvs id = some worker) :
    worker.id = id ∧ worker.Exact := by
  rw [LeanDingdong.loadOne] at loaded
  cases found : nvs.getBlob (keyForId id) with
  | none => simp [found] at loaded
  | some blob =>
      obtain ⟨writer, exact, rfl⟩ := blobs.printed id blob found
      simp only [found, faithful.parse_print _ (Worker.members_kept exact), Option.map_some] at loaded
      split_ifs at loaded
      obtain rfl := Option.some.inj loaded
      exact ⟨rfl, exact⟩

/-- The loading loop numbers what it takes by the ids it tries. -/
theorem Blobs.load (blobs : Blobs json nvs) (faithful : json.Faithful) {ids : List Nat}
    {workers : List Worker} {nextId : Nat} (numbered : Numbered workers nextId)
    (nodup : ids.Nodup) (absent : ∀ id ∈ ids, id ∉ workers.map Worker.id)
    (inRange : ∀ id ∈ ids, 1 ≤ id ∧ id < nextId) :
    Numbered (ids.foldl (loadStep json nvs) workers) nextId := by
  induction ids generalizing workers with
  | nil => exact numbered
  | cons id ids ih =>
      obtain ⟨here, later⟩ := List.nodup_cons.mp nodup
      have range := inRange id List.mem_cons_self
      have skip : Numbered (ids.foldl (loadStep json nvs) workers) nextId :=
        ih numbered later (fun other member => absent other (List.mem_cons_of_mem _ member))
          fun other member => inRange other (List.mem_cons_of_mem _ member)
      rw [List.foldl_cons, loadStep]
      split_ifs with room
      · cases loaded : LeanDingdong.loadOne json nvs id with
        | none => exact skip
        | some worker =>
            obtain ⟨rfl, exact⟩ := blobs.loadOne faithful loaded
            refine ih (numbered.add (absent _ List.mem_cons_self) room range exact le_rfl
              numbered.next.2) later ?_ fun other member => inRange other (List.mem_cons_of_mem _ member)
            intro other member present
            rw [List.map_append, List.mem_append, List.map_singleton, List.mem_singleton] at present
            rcases present with known | rfl
            · exact absent other (List.mem_cons_of_mem _ member) known
            · exact here member
      · exact skip

end Blobs

section Run

variable {json : Json} {store : WorkerStore}

/-- An operation with what fails in it, or a restart. -/
inductive RegistryAction where
  | operation (op : WorkerOp) (faults : NvsFaults)
  | restart

def WorkerOp.stepWith (json : Json) (faults : NvsFaults) (store : WorkerStore) :
    WorkerOp → WorkerStore
  | .lookupOrCreate addr now => (workerLookupOrCreate json faults addr now store).2
  | .update id name category => (workerUpdate json faults id name category store).2
  | .delete id => (workerDelete faults id store).2
  | .restore worker => (workerRestore json faults worker store).2
  | .wipe => (workerWipe faults store).2

def RegistryAction.step (json : Json) (store : WorkerStore) : RegistryAction → WorkerStore
  | .operation op faults => op.stepWith json faults store
  | .restart => workerInit json store.nvs

/-- The blob of a worker gets through to flash. -/
def NvsFaults.Saves (faults : NvsFaults) : Prop :=
  faults.openFails = false ∧ faults.setBlobFails = false ∧ faults.commitFails = false

instance decidableSaves (faults : NvsFaults) : Decidable faults.Saves := inferInstanceAs (Decidable (_ ∧ _ ∧ _))

/-- Ids and times are in range, and a restored worker is saved. -/
def RegistryAction.Fits (store : WorkerStore) : RegistryAction → Prop
  | .operation (.restore worker) faults => (WorkerOp.restore worker).Fits store ∧ faults.Saves
  | .operation op _ => op.Fits store
  | .restart => True

instance decidableEntryFits (store : WorkerStore) : ∀ action : RegistryAction, Decidable (action.Fits store)
  | .operation (.restore _) _ => inferInstanceAs (Decidable (_ ∧ _))
  | .operation (.lookupOrCreate addr now) _ =>
      decidableWorkerFits store (.lookupOrCreate addr now)
  | .operation (.update ..) _ | .operation (.delete _) _ | .operation .wipe _ => isTrue trivial
  | .restart => isTrue trivial

/-- Table and flash of a registry in use. -/
structure WorkerStore.Numbers (json : Json) (store : WorkerStore) : Prop where
  table : Numbered store.workers store.nextId
  blobs : Blobs json store.nvs

namespace WorkerStore.Numbers

theorem fresh (json : Json) : WorkerStore.fresh.Numbers json := by
  refine ⟨Numbered.empty (by decide), ?_, ?_⟩
  · decide
  · intro id blob found
    cases found

theorem restart (numbers : store.Numbers json) (faithful : json.Faithful) :
    (workerInit json store.nvs).Numbers json := by
  have next : 1 ≤ (workerInit json store.nvs).nextId ∧
      (workerInit json store.nvs).nextId ≤ 65535 := numbers.blobs.next
  refine ⟨?_, numbers.blobs⟩
  refine numbers.blobs.load faithful (Numbered.empty next) List.nodup_range' (by simp) ?_
  intro id member
  have range : 1 ≤ id ∧ id < 1 + ((workerInit json store.nvs).nextId - 1) :=
    List.mem_range'_1.mp member
  omega

/-- A worker of a new id is entered, with what gets through to flash. -/
theorem enter (numbers : store.Numbers json) {new : Worker} {nextId : Nat} {nvs : Nvs}
    (absent : new.id ∉ store.workers.map Worker.id) (room : store.workers.length < ddWorkerMax)
    (id : 1 ≤ new.id ∧ new.id < nextId) (exact : new.Exact) (grows : store.nextId ≤ nextId)
    (small : nextId ≤ 65535) (blobs : Blobs json nvs) :
    WorkerStore.Numbers json { workers := store.workers ++ [new], nextId := nextId, nvs := nvs } :=
  ⟨numbers.table.add absent room id exact grows small, blobs⟩

theorem lookupOrCreate (numbers : store.Numbers json) (faults : NvsFaults) {addr : Option Addr}
    {now : Int} (fits : (WorkerOp.lookupOrCreate addr now).Fits store) :
    (workerLookupOrCreate json faults addr now store).2.Numbers json := by
  cases addr with
  | none => exact numbers
  | some addr =>
      simp only [workerLookupOrCreate]
      split_ifs with known full unopened
      · exact numbers
      · exact numbers
      · exact numbers
      have unknown : ∀ worker ∈ store.workers, worker.addr ≠ addr := by
        intro worker member same
        have present : (store.workers.find? fun worker => worker.addr = addr).isSome :=
          List.find?_isSome.mpr ⟨worker, member, decide_eq_true same⟩
        obtain ⟨found, isFound⟩ := Option.isSome_iff_exists.mp present
        have positive := (numbers.table.ids found (List.mem_of_find?_eq_some isFound)).1
        rw [not_not, workerFindByAddr, isFound, Option.map_some, Option.getD_some] at known
        omega
      have small := fits.2 ⟨unknown, not_le.mp full⟩
      have moved : (store.nextId + 1) % 65536 = store.nextId + 1 := by omega
      have absent : (newWorker store.nextId addr now).id ∉ store.workers.map Worker.id := by
        intro present
        obtain ⟨worker, member, same⟩ := List.mem_map.mp present
        have below := (numbers.table.ids worker member).2
        exact below.ne same
      have exact : (newWorker store.nextId addr now).Exact := fits.1
      have saved := numbers.blobs.saveOne faults exact
      have next := numbers.table.next
      split
      · rename_i nvs result
        rw [result] at saved
        rw [moved]
        exact numbers.enter absent (not_le.mp full) ⟨next.1, Nat.lt_succ_self _⟩ fits.1
          (Nat.le_succ _) small (saved.saveNextId faults ⟨by omega, small⟩)
      · rename_i result
        rw [result] at saved
        exact ⟨numbers.table, saved⟩

theorem update (numbers : store.Numbers json) (faults : NvsFaults) (id : Nat)
    (name category : Option Bytes) :
    (workerUpdate json faults id name category store).2.Numbers json := by
  rcases workerUpdate_cases json faults id name category store with
    ⟨_, refused⟩ | ⟨front, worker, back, split, _, _, _, written⟩
  · rw [refused]
    exact numbers
  · have exact : (worker.updated name category).Exact :=
      numbers.table.exact worker (by simp [split])
    have table : Numbered (front ++ worker.updated name category :: back) store.nextId :=
      numbers.table.overwrite split rfl exact
    rw [written]
    by_cases unopened : faults.openFails = true
    · rw [if_pos unopened]
      exact ⟨table, numbers.blobs⟩
    · rw [if_neg unopened]
      exact ⟨table, numbers.blobs.saveOne faults exact⟩

theorem delete (numbers : store.Numbers json) (faults : NvsFaults) (id : Nat) :
    (workerDelete faults id store).2.Numbers json := by
  rcases workerDelete_cases faults id store with
    refused | ⟨front, old, back, workers, split, _, perm, removed⟩
  · rw [refused]
    exact numbers
  · have table : Numbered workers store.nextId := numbers.table.remove split perm
    rw [removed]
    by_cases unopened : faults.openFails = true
    · rw [if_pos unopened]
      exact ⟨table, numbers.blobs⟩
    · rw [if_neg unopened]
      exact ⟨table, numbers.blobs.eraseSteps faults [keyForId id]⟩

/-- A restored worker is saved, so that `next_id` is looked at. -/
theorem restore (numbers : store.Numbers json) {faults : NvsFaults} (saves : faults.Saves)
    {worker : Worker} (fits : (WorkerOp.restore worker).Fits store) :
    (workerRestore json faults worker store).2.Numbers json := by
  obtain ⟨exact, small⟩ := fits
  obtain ⟨opens, sets, commits⟩ := saves
  have saved : Blobs json
      (store.nvs.set (keyForId worker.id) (.blob (json.print worker.members))) :=
    numbers.blobs.saveOne .none exact
  have next := numbers.table.next
  have moved : (worker.id + 1) % 65536 = worker.id + 1 := by omega
  rcases workerRestore_cases json faults opens sets commits worker store with
    refused | ⟨_, ⟨front, old, back, split, same, rfl⟩ | ⟨nonzero, absent, room, rfl⟩, entered⟩
  · rw [refused]
    exact numbers
  · have below : ¬ store.nextId ≤ worker.id := by
      have := (numbers.table.ids old (by simp [split])).2
      omega
    rw [entered, if_neg below]
    exact ⟨numbers.table.overwrite split same.symm exact, saved⟩
  · rw [entered]
    split_ifs with past
    · rw [moved]
      exact numbers.enter absent room ⟨by omega, Nat.lt_succ_self _⟩ exact
        (past.trans (Nat.le_succ _)) small (saved.saveNextId faults ⟨by omega, small⟩)
    · exact numbers.enter absent room ⟨by omega, not_le.mp past⟩ exact le_rfl next.2 saved

theorem wipe (numbers : store.Numbers json) (faults : NvsFaults) :
    (workerWipe faults store).2.Numbers json := by
  have first : 1 ≤ 1 ∧ 1 ≤ 65535 := by decide
  rw [workerWipe]
  split_ifs
  · exact numbers
  · exact ⟨Numbered.empty first, numbers.blobs.eraseSteps faults _⟩

theorem step (numbers : store.Numbers json) (faithful : json.Faithful) {action : RegistryAction}
    (fits : action.Fits store) : (action.step json store).Numbers json := by
  cases action with
  | restart => exact numbers.restart faithful
  | operation op faults =>
      cases op with
      | lookupOrCreate addr now => exact numbers.lookupOrCreate faults fits
      | update id name category => exact numbers.update faults id name category
      | delete id => exact numbers.delete faults id
      | restore worker => exact numbers.restore fits.2 fits.1
      | wipe => exact numbers.wipe faults

/-- Every registry in use numbers its workers. -/
theorem reached (faithful : json.Faithful) {actions : List RegistryAction}
    (fits : Guarded (RegistryAction.step json) (fun store action => action.Fits store)
      WorkerStore.fresh actions) :
    (run (RegistryAction.step json) WorkerStore.fresh actions).Numbers json :=
  run_invariant (WorkerStore.Numbers json) (fun _ _ numbers fits => numbers.step faithful fits)
    (fresh json) fits

end WorkerStore.Numbers

end Run

end LeanDingdong
