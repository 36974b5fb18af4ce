import Dingdong.WorkerNumbers

/-!
NVS calls that fail inside an operation of the registry. `Safe` names the failures after
which the operation still does all or nothing; as long as every step is safe, what is
reported and what a restart loads agree with the table in RAM.
-/

namespace LeanDingdong

open Runs ListTable

section Outcome

/-- What the caller is told: an id, or `ESP_OK`. -/
def WorkerOp.succeeds (json : Json) (faults : NvsFaults) (store : WorkerStore) : WorkerOp → Bool
  | .lookupOrCreate addr now => (workerLookupOrCreate json faults addr now store).1 ≠ 0
  | .update id name category => (workerUpdate json faults id name category store).1 = .ok
  | .delete id => (workerDelete faults id store).1 = .ok
  | .restore worker => (workerRestore json faults worker store).1 = .ok
  | .wipe => (workerWipe faults store).1 = .ok

/-- A restart would load the table, up to its order, and `next_id`. -/
def WorkerStore.Reloads (json : Json) (store : WorkerStore) : Prop :=
  (workerInit json store.nvs).workers.Perm store.workers ∧
    (workerInit json store.nvs).nextId = store.nextId

/-- A reported failure leaves everything as it was, a success is what a restart loads. -/
structure WorkerOp.Kept (json : Json) (faults : NvsFaults) (store : WorkerStore)
    (op : WorkerOp) : Prop where
  failed : op.succeeds json faults store = false → op.stepWith json faults store = store
  succeeded : op.succeeds json faults store = true →
    (op.stepWith json faults store).Reloads json

/-- No call fails between the table and flash: a creation may fail before its blob is set,
and a worker that stays as it is may fail anywhere. Wipes are left out. -/
def WorkerOp.Safe (store : WorkerStore) (faults : NvsFaults) : WorkerOp → Prop
  | .lookupOrCreate none _ => True
  | .lookupOrCreate (some addr) now =>
      store.Creates addr →
        faults.openFails = true ∨ faults.setBlobFails = true ∨
          (faults.commitFails = false ∧ faults.setNextFails = false ∧
            store.nextId < 65535 ∧ now.natAbs < 2 ^ 53)
  | .update id name category =>
      ∀ worker ∈ store.workers, worker.id = id → name.any blankName = false →
        faults.Saves ∨ worker.updated name category = worker
  | .delete id =>
      ∀ worker ∈ store.workers, worker.id = id →
        faults.openFails = false ∧ faults.eraseFails (keyForId id) = false ∧
          faults.commitFails = false
  | .restore worker =>
      (∀ old ∈ store.workers, old.id = worker.id → (faults.Saves ∧ worker.Exact) ∨ old = worker) ∧
        ((∀ old ∈ store.workers, old.id ≠ worker.id) → worker.id ≠ 0 →
          store.workers.length < ddWorkerMax →
          faults.Saves ∧ worker.Exact ∧
            (store.nextId ≤ worker.id → faults.setNextFails = false ∧ worker.id < 65535))
  | .wipe => False

def RegistryAction.Safe (store : WorkerStore) : RegistryAction → Prop
  | .operation op faults => op.Safe store faults
  | .restart => True

instance decidableOpSafe (store : WorkerStore) (faults : NvsFaults) :
    ∀ op : WorkerOp, Decidable (op.Safe store faults)
  | .lookupOrCreate none _ => isTrue trivial
  | .lookupOrCreate (some _) _ => inferInstanceAs (Decidable (_ → _))
  | .update .. => inferInstanceAs (Decidable (∀ worker ∈ store.workers, _ → _ → _))
  | .delete _ => inferInstanceAs (Decidable (∀ worker ∈ store.workers, _ → _))
  | .restore _ => inferInstanceAs (Decidable (_ ∧ _))
  | .wipe => isFalse id

instance decidableActionSafe (store : WorkerStore) :
    ∀ action : RegistryAction, Decidable (action.Safe store)
  | .operation op faults => decidableOpSafe store faults op
  | .restart => isTrue trivial

end Outcome

section Steps

variable {json : Json} {store : WorkerStore} {faults : NvsFaults}

/-- What a safe operation leaves. -/
structure WorkerOp.Settled (json : Json) (faults : NvsFaults) (store : WorkerStore)
    (op : WorkerOp) : Prop where
  registered : Registered json (op.stepWith json faults store)
  grows : store.nextId ≤ (op.stepWith json faults store).nextId
  failed : op.succeeds json faults store = false → op.stepWith json faults store = store

theorem WorkerOp.Settled.still (registered : Registered json store) {op : WorkerOp}
    (same : op.stepWith json faults store = store) : op.Settled json faults store := by
  refine ⟨?_, ?_, fun _ => same⟩
  · rw [same]
    exact registered
  · rw [same]

theorem saveOne_saves (saves : faults.Saves) (nvs : Nvs) (worker : Worker) :
    saveOne json faults nvs worker = saveOne json .none nvs worker := by
  obtain ⟨_, sets, commits⟩ := saves
  simp [saveOne, NvsFaults.none, sets, commits]

theorem saveOne_same {nvs : Nvs} {worker : Worker}
    (saved : nvs.getBlob (keyForId worker.id) = some (json.print worker.members)) :
    (saveOne json faults nvs worker).2 = nvs := by
  have here : nvs (keyForId worker.id) = some (.blob (json.print worker.members)) := by
    rw [Nvs.getBlob] at saved
    split at saved
    · rename_i bytes found
      rw [found, Option.some.inj saved]
    · cases saved
  have written : nvs.set (keyForId worker.id) (.blob (json.print worker.members)) = nvs := by
    rw [Nvs.set, ← here, Function.update_eq_self]
  simp only [saveOne]
  split_ifs
  · rfl
  · exact written
  · exact written

/-- No entry is made for a known address or in a full table. -/
theorem lookupOrCreate_still (registered : Registered json store) {addr : Addr} (now : Int)
    (known : ¬ store.Creates addr) :
    (workerLookupOrCreate json faults (some addr) now store).2 = store := by
  rcases workerFindByAddr_cases registered.positive addr with
    ⟨worker, _, _, found, nonzero⟩ | ⟨unknown, missing⟩
  · simp [workerLookupOrCreate, found, nonzero]
  · have full : ddWorkerMax ≤ store.workers.length := by
      by_contra room
      exact known ⟨unknown, not_le.mp room⟩
    simp [workerLookupOrCreate, missing, full]

theorem lookupOrCreate_refused {addr : Addr} {now : Int}
    (registered : Registered json store) (creates : store.Creates addr)
    (refused : faults.openFails = true ∨ faults.setBlobFails = true) :
    workerLookupOrCreate json faults (some addr) now store = (0, store) := by
  have missing : workerFindByAddr store.workers addr = 0 := by
    rcases workerFindByAddr_cases registered.positive addr with ⟨worker, member, same, _⟩ | ⟨_, zero⟩
    · exact absurd same (creates.1 worker member)
    · exact zero
  have room : ¬ ddWorkerMax ≤ store.workers.length := not_le.mpr creates.2
  rcases refused with opens | sets
  · simp [workerLookupOrCreate, missing, room, opens]
  · by_cases opens : faults.openFails = true
    · simp [workerLookupOrCreate, missing, room, opens]
    · simp [workerLookupOrCreate, missing, room, opens, saveOne, sets]

theorem lookupOrCreate_saves {addr : Option Addr} {now : Int} (opens : ¬ faults.openFails = true)
    (sets : ¬ faults.setBlobFails = true) (commits : faults.commitFails = false)
    (next : faults.setNextFails = false) :
    workerLookupOrCreate json faults addr now store =
      workerLookupOrCreate json .none addr now store := by
  simp [workerLookupOrCreate, NvsFaults.none, saveOne, saveNextId, opens, sets, commits, next]

theorem WorkerOp.Settled.lookupOrCreate (registered : Registered json store) {addr : Option Addr}
    {now : Int} (safe : (WorkerOp.lookupOrCreate addr now).Safe store faults) :
    (WorkerOp.lookupOrCreate addr now).Settled json faults store := by
  cases addr with
  | none => exact .still registered rfl
  | some addr =>
      by_cases creates : store.Creates addr
      swap
      · exact .still registered (lookupOrCreate_still registered now creates)
      by_cases refused : faults.openFails = true ∨ faults.setBlobFails = true
      · refine .still registered ?_
        rw [WorkerOp.stepWith, lookupOrCreate_refused registered creates refused]
      obtain ⟨opens, sets⟩ := not_or.mp refused
      obtain ⟨commits, next, small, exact⟩ :=
        ((safe creates).resolve_left opens).resolve_left sets
      have same : workerLookupOrCreate json faults (some addr) now store =
          workerLookupOrCreate json .none (some addr) now store :=
        lookupOrCreate_saves opens sets commits next
      have fits : (WorkerOp.lookupOrCreate (some addr) now).Fits store := ⟨exact, fun _ => small⟩
      obtain ⟨kept, grows⟩ := registered.lookupOrCreate fits
      have made := lookupOrCreate_new registered now creates.1 creates.2 small
      constructor
      · rw [WorkerOp.stepWith, same]
        exact kept
      · rw [WorkerOp.stepWith, same]
        exact grows
      · intro failed
        have positive := registered.next.1
        rw [WorkerOp.succeeds, same, made, decide_eq_false_iff_not] at failed
        omega

theorem WorkerOp.Settled.update (registered : Registered json store) {id : Nat}
    {name category : Option Bytes} (safe : (WorkerOp.update id name category).Safe store faults) :
    (WorkerOp.update id name category).Settled json faults store := by
  by_cases zero : id = 0
  · refine .still registered ?_
    rw [WorkerOp.stepWith, workerUpdate, if_pos zero]
  by_cases unnamed : name.any blankName = true
  · refine .still registered ?_
    rw [WorkerOp.stepWith, workerUpdate, if_neg zero, if_pos unnamed]
  cases found : store.workers.find? fun worker => worker.id = id with
  | none =>
      refine .still registered ?_
      simp only [WorkerOp.stepWith, workerUpdate, if_neg zero, if_neg unnamed, found]
  | some worker =>
      have inside := List.mem_of_find?_eq_some found
      have here : worker.id = id := by simpa using List.find?_some found
      rcases safe worker inside here (by simpa using unnamed) with saves | unchanged
      · obtain ⟨opens, sets, commits⟩ := saves
        have same : workerUpdate json faults id name category store =
            workerUpdate json .none id name category store := by
          simp [workerUpdate, NvsFaults.none, saveOne, opens, sets, commits]
        obtain ⟨kept, next⟩ := registered.update id name category
        constructor
        · rw [WorkerOp.stepWith, same]
          exact kept
        · rw [WorkerOp.stepWith, same]
          exact next.ge
        · intro failed
          rw [WorkerOp.succeeds, same, decide_eq_false_iff_not] at failed
          exact absurd (by simp [workerUpdate, zero, unnamed, found, NvsFaults.none, saveOne]) failed
      · obtain ⟨front, back, split, index, _⟩ := find?_split found
        have table : store.workers.set (store.workers.findIdx fun worker => worker.id = id) worker =
            store.workers := by
          rw [← index, split, set_split]
        have flash : (saveOne json faults store.nvs worker).2 = store.nvs :=
          saveOne_same (registered.saved worker inside)
        refine .still registered ?_
        simp only [WorkerOp.stepWith, workerUpdate, if_neg zero, if_neg unnamed, found, unchanged,
          table, flash]
        split_ifs
        · rfl
        · rfl

theorem WorkerOp.Settled.delete (registered : Registered json store) {id : Nat}
    (safe : (WorkerOp.delete id).Safe store faults) :
    (WorkerOp.delete id).Settled json faults store := by
  by_cases zero : id = 0
  · refine .still registered ?_
    rw [WorkerOp.stepWith, workerDelete, if_pos zero]
  cases found : store.workers.findIdx? fun worker => worker.id = id with
  | none =>
      refine .still registered ?_
      simp only [WorkerOp.stepWith, workerDelete, if_neg zero, found]
  | some index =>
      obtain ⟨front, old, back, split, rfl, here⟩ := findIdx?_split found
      obtain ⟨opens, erases, commits⟩ := safe old (by simp [split]) (by simpa using here)
      have same : workerDelete faults id store = workerDelete .none id store := by
        simp [workerDelete, NvsFaults.none, opens, erases, commits]
      obtain ⟨kept, next⟩ := registered.delete id
      constructor
      · rw [WorkerOp.stepWith, same]
        exact kept
      · rw [WorkerOp.stepWith, same]
        exact next.ge
      · intro failed
        rw [WorkerOp.succeeds, same, decide_eq_false_iff_not] at failed
        exact absurd (by simp [workerDelete, zero, found, NvsFaults.none]) failed

/-- A restore whose writes all get through. -/
theorem WorkerOp.Settled.restoreSaved (registered : Registered json store) {worker : Worker}
    (saves : faults.Saves) (fits : (WorkerOp.restore worker).Fits store)
    (next : store.nextId ≤ worker.id → faults.setNextFails = false)
    (room : (∃ old ∈ store.workers, old.id = worker.id) ∨ store.workers.length < ddWorkerMax) :
    (WorkerOp.restore worker).Settled json faults store := by
  have opens : NvsFaults.none.openFails = false := rfl
  have same : workerRestore json faults worker store = workerRestore json .none worker store := by
    simp only [workerRestore, saveOne_saves saves, saves.1, opens, saveOne_none,
      Bool.false_eq_true, if_false]
    by_cases past : store.nextId ≤ worker.id
    · simp [saveNextId, next past, NvsFaults.none]
    · simp only [if_neg past]
  obtain ⟨kept, grows⟩ := registered.restore fits
  constructor
  · rw [WorkerOp.stepWith, same]
    exact kept
  · rw [WorkerOp.stepWith, same]
    exact grows
  · intro failed
    rw [WorkerOp.stepWith, same]
    rw [WorkerOp.succeeds, same, decide_eq_false_iff_not] at failed
    by_cases zero : worker.id = 0
    · rw [workerRestore, if_pos zero]
    have entered : ¬ ((store.workers.findIdx? fun other => other.id = worker.id) = none ∧
        ddWorkerMax ≤ store.workers.length) := by
      rintro ⟨missing, full⟩
      rcases room with ⟨old, member, here⟩ | room
      · have := List.findIdx?_eq_none_iff.mp missing old member
        simp [here] at this
      · omega
    refine absurd ?_ failed
    simp only [workerRestore, if_neg zero, if_neg entered, saveOne_none, opens,
      Bool.false_eq_true, if_false]
    split_ifs
    · rfl
    · rfl

theorem WorkerOp.Settled.restore (registered : Registered json store) {worker : Worker}
    (safe : (WorkerOp.restore worker).Safe store faults) :
    (WorkerOp.restore worker).Settled json faults store := by
  obtain ⟨known, fresh⟩ := safe
  by_cases zero : worker.id = 0
  · refine .still registered ?_
    rw [WorkerOp.stepWith, workerRestore, if_pos zero]
  by_cases present : ∃ old ∈ store.workers, old.id = worker.id
  · obtain ⟨old, inside, here⟩ := present
    rcases known old inside here with ⟨saves, exact⟩ | rfl
    · have below := registered.below old inside
      have small := registered.next.2
      exact .restoreSaved registered saves ⟨exact, by omega⟩ (fun past => by omega)
        (.inl ⟨old, inside, here⟩)
    · cases found : store.workers.findIdx? fun other => other.id = old.id with
      | none =>
          have := List.findIdx?_eq_none_iff.mp found old inside
          simp at this
      | some index =>
          obtain ⟨front, entry, back, split, rfl, named⟩ := findIdx?_split found
          have listed : entry ∈ store.workers := by simp [split]
          have same : entry.id = old.id := by simpa using named
          obtain rfl : entry = old := List.inj_on_of_nodup_map registered.nodup listed inside same
          have table : store.workers.set front.length entry = store.workers := by
            rw [split, set_split]
          have below : ¬ store.nextId ≤ entry.id := not_le.mpr (registered.below entry inside)
          have flash : (saveOne json faults store.nvs entry).2 = store.nvs :=
            saveOne_same (registered.saved entry inside)
          refine .still registered ?_
          simp only [WorkerOp.stepWith, workerRestore, if_neg zero, found, reduceCtorEq, false_and,
            if_false, table, below]
          split_ifs
          · rfl
          · split
            · rename_i result
              rw [result] at flash
              dsimp only at flash ⊢
              rw [flash]
            · rename_i result
              rw [result] at flash
              dsimp only at flash ⊢
              rw [flash]
  · have absent : ∀ old ∈ store.workers, old.id ≠ worker.id := by
      intro old member same
      exact present ⟨old, member, same⟩
    by_cases full : ddWorkerMax ≤ store.workers.length
    · have missing : (store.workers.findIdx? fun other => other.id = worker.id) = none := by
        rw [List.findIdx?_eq_none_iff]
        intro other member
        simpa using absent other member
      refine .still registered ?_
      simp only [WorkerOp.stepWith, workerRestore, if_neg zero, missing, full, and_self, if_true]
    · obtain ⟨saves, exact, next⟩ := fresh absent zero (not_le.mp full)
      have small : worker.id < 65535 := by
        by_cases past : store.nextId ≤ worker.id
        · exact (next past).2
        · have := registered.next.2
          omega
      exact .restoreSaved registered saves ⟨exact, small⟩ (fun past => (next past).1)
        (.inr (not_le.mp full))

theorem WorkerOp.Settled.step (registered : Registered json store) {op : WorkerOp}
    (safe : op.Safe store faults) : op.Settled json faults store := by
  cases op with
  | lookupOrCreate addr now => exact .lookupOrCreate registered safe
  | update id name category => exact .update registered safe
  | delete id => exact .delete registered safe
  | restore worker => exact .restore registered safe
  | wipe => exact safe.elim

theorem WorkerOp.Settled.kept (faithful : json.Faithful) {op : WorkerOp}
    (settled : op.Settled json faults store) : op.Kept json faults store :=
  ⟨settled.failed, fun _ => settled.registered.reload faithful⟩

/-- The table a restart loads is again in agreement with flash. -/
theorem Registered.restart (registered : Registered json store) (faithful : json.Faithful) :
    Registered json (workerInit json store.nvs) := by
  obtain ⟨perm, next⟩ := registered.reload faithful
  have member {worker : Worker} (loaded : worker ∈ (workerInit json store.nvs).workers) :
      worker ∈ store.workers := perm.mem_iff.mp loaded
  constructor
  · exact (perm.map Worker.id).nodup_iff.mpr registered.nodup
  · exact fun worker loaded => registered.positive worker (member loaded)
  · intro worker loaded
    rw [next]
    exact registered.below worker (member loaded)
  · rw [perm.length_eq]
    exact registered.count
  · exact fun worker loaded => registered.exact worker (member loaded)
  · rw [next]
    exact registered.next
  · rfl
  · exact fun worker loaded => registered.saved worker (member loaded)
  · intro id absent
    exact registered.unsaved id fun present => absent ((perm.map Worker.id).mem_iff.mpr present)

end Steps

section Run

variable {json : Json}

theorem Registered.actionStep {store : WorkerStore} (registered : Registered json store)
    (faithful : json.Faithful) {action : RegistryAction} (safe : action.Safe store) :
    Registered json (action.step json store) ∧ store.nextId ≤ (action.step json store).nextId := by
  cases action with
  | operation op faults =>
      have settled := WorkerOp.Settled.step registered safe
      exact ⟨settled.registered, settled.grows⟩
  | restart => exact ⟨registered.restart faithful, (registered.reload faithful).2.ge⟩

/-- Safe steps keep the agreement, and `next_id` never falls. -/
theorem Registered.actionRun {store : WorkerStore} (registered : Registered json store)
    (faithful : json.Faithful) {actions : List RegistryAction}
    (safe : Guarded (RegistryAction.step json) (fun store action => action.Safe store) store
      actions) :
    Registered json (run (RegistryAction.step json) store actions) ∧
      store.nextId ≤ (run (RegistryAction.step json) store actions).nextId := by
  refine run_invariant (fun later => Registered json later ∧ store.nextId ≤ later.nextId) ?_
    ⟨registered, le_rfl⟩ safe
  rintro later action ⟨kept, grown⟩ step
  obtain ⟨next, grows⟩ := kept.actionStep faithful step
  exact ⟨next, grown.trans grows⟩

/-- A creation that reports an id took `next_id` and moved past it. -/
theorem lookupOrCreate_took {store : WorkerStore} (registered : Registered json store)
    {faults : NvsFaults} {addr : Addr} {now : Int} (creates : store.Creates addr)
    (safe : (WorkerOp.lookupOrCreate (some addr) now).Safe store faults)
    (reported : (workerLookupOrCreate json faults (some addr) now store).1 ≠ 0) :
    (workerLookupOrCreate json faults (some addr) now store).1 = store.nextId ∧
      (workerLookupOrCreate json faults (some addr) now store).2.nextId = store.nextId + 1 := by
  by_cases refused : faults.openFails = true ∨ faults.setBlobFails = true
  · rw [lookupOrCreate_refused registered creates refused] at reported
    exact absurd rfl reported
  obtain ⟨opens, sets⟩ := not_or.mp refused
  obtain ⟨commits, next, small, _⟩ := ((safe creates).resolve_left opens).resolve_left sets
  rw [lookupOrCreate_saves opens sets commits next, lookupOrCreate_new registered now creates.1 creates.2 small]
  exact ⟨rfl, rfl⟩

/-- The registry after a run from an empty namespace. -/
def registryAfter (json : Json) (actions : List RegistryAction) : WorkerStore :=
  run (RegistryAction.step json) WorkerStore.fresh actions

/-- As long as no step fails between the table and flash, every operation does what it
reports, a restart loads the table of every state, and no created id is created again. -/
theorem registry_allOrNothing (faithful : json.Faithful) (actions : List RegistryAction)
    (safe : Guarded (RegistryAction.step json) (fun store action => action.Safe store)
      WorkerStore.fresh actions) :
    (∀ past op faults, past ++ [.operation op faults] <+: actions →
      op.Kept json faults (registryAfter json past)) ∧
    (∀ past, past <+: actions → (registryAfter json past).Reloads json) ∧
    ∀ past addr now faults between other later otherFaults,
      past ++ [.operation (.lookupOrCreate (some addr) now) faults] ++ between ++
          [.operation (.lookupOrCreate (some other) later) otherFaults] <+: actions →
      (registryAfter json past).Creates addr →
      (registryAfter json (past ++ [.operation (.lookupOrCreate (some addr) now) faults] ++
        between)).Creates other →
      (workerLookupOrCreate json faults (some addr) now (registryAfter json past)).1 ≠ 0 →
      (workerLookupOrCreate json otherFaults (some other) later
        (registryAfter json (past ++ [.operation (.lookupOrCreate (some addr) now) faults] ++
          between))).1 ≠
        (workerLookupOrCreate json faults (some addr) now (registryAfter json past)).1 := by
  have reached {past : List RegistryAction} (before : past <+: actions) :
      Guarded (RegistryAction.step json) (fun store action => action.Safe store)
        WorkerStore.fresh past ∧ Registered json (registryAfter json past) := by
    obtain ⟨rest, rfl⟩ := before
    have first := ((guarded_append _ _).mp safe).1
    exact ⟨first, ((Registered.fresh json).actionRun faithful first).1⟩
  refine ⟨?_, ?_, ?_⟩
  · intro past op faults before
    have guarded := (reached before).1
    rw [guarded_snoc] at guarded
    have registered := (reached ((List.prefix_append _ _).trans before)).2
    exact (WorkerOp.Settled.step registered guarded.2).kept faithful
  · intro past before
    exact (reached before).2.reload faithful
  · intro past addr now faults between other later otherFaults before creates createsOther reported
    set first := past ++ [.operation (.lookupOrCreate (some addr) now) faults] with isFirst
    have guarded := (reached before).1
    rw [guarded_snoc, guarded_append] at guarded
    obtain ⟨⟨guardedFirst, guardedBetween⟩, safeOther⟩ := guarded
    have upFirst : first <+: actions :=
      (List.prefix_append _ _).trans ((List.prefix_append _ _).trans before)
    have upPast : past <+: actions := (List.prefix_append _ _).trans upFirst
    have safeFirst : (WorkerOp.lookupOrCreate (some addr) now).Safe (registryAfter json past)
        faults := by
      rw [isFirst, guarded_snoc] at guardedFirst
      exact guardedFirst.2
    obtain ⟨taken, moved⟩ := lookupOrCreate_took (reached upPast).2 creates safeFirst reported
    have after : (registryAfter json first).nextId = (registryAfter json past).nextId + 1 := by
      rw [registryAfter, isFirst, run_append]
      exact moved
    have grown : (registryAfter json first).nextId ≤
        (registryAfter json (first ++ between)).nextId := by
      have split : registryAfter json (first ++ between) =
          run (RegistryAction.step json) (registryAfter json first) between := run_append _ _ _ _
      rw [split]
      exact ((reached upFirst).2.actionRun faithful guardedBetween).2
    have registeredOther := (reached ((List.prefix_append _ _).trans before)).2
    intro same
    have reportedOther : (workerLookupOrCreate json otherFaults (some other) later
        (registryAfter json (first ++ between))).1 ≠ 0 := by
      rw [same]
      exact reported
    have takenOther :=
      (lookupOrCreate_took registeredOther createsOther safeOther reportedOther).1
    omega

/-- A worker is created, the second creation fails to set its blob, a worker is renamed,
and the device restarts before the second address is seen again. -/
def faultyVisit : List RegistryAction :=
  [.operation (.lookupOrCreate (some Addr.zero) 1700000000) .none,
    .operation (.lookupOrCreate (some ⟨1, 2, 3, 4, 5, 6⟩) 1700000100) { setBlobFails := true },
    .operation (.update 1 (some (ascii "Ann")) none) .none, .restart,
    .operation (.lookupOrCreate (some ⟨1, 2, 3, 4, 5, 6⟩) 1700000200) .none]

theorem registry_allOrNothing_visit :
    (registryAfter plainJson faultyVisit).Reloads plainJson ∧
      (registryAfter plainJson faultyVisit).nextId = 3 := by
  have result := registry_allOrNothing plainJson_faithful faultyVisit (by decide +kernel)
  exact ⟨result.2.1 _ (List.prefix_refl _), by decide +kernel⟩

/-- An update that cannot open NVS reports it but has renamed the worker in RAM, and the
next restart takes the name back. -/
theorem update_unopened :
    ¬ (WorkerOp.update 1 (some (ascii "Ann")) none).Kept plainJson { openFails := true }
      (registryAfter plainJson [.operation (.lookupOrCreate (some Addr.zero) 1700000000) .none]) := by
  intro kept
  have unchanged := congrArg WorkerStore.workers (kept.failed (by decide +kernel))
  revert unchanged
  decide +kernel

end Run

end LeanDingdong
