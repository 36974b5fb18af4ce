import Dingdong.BleCore
import Dingdong.WorkerRegistry

/-!
Concurrent calls of `dd_worker_lookup_or_create`. A call is two critical sections,
the lookup of `dd_worker_find_by_addr` and the creation, and other calls run between
them. The creation does not look the address up again.
-/

namespace LeanDingdong

open Runs

/-- The creating section of `dd_worker_lookup_or_create`. -/
def workerCreate (json : Json) (faults : NvsFaults) (addr : Addr) (now : Int)
    (store : WorkerStore) : Nat × WorkerStore :=
  if ddWorkerMax ≤ store.workers.length then (0, store)
  else
    let worker := newWorker store.nextId addr now
    if faults.openFails then (0, store)
    else
      match saveOne json faults store.nvs worker with
      | (.ok, nvs) =>
          let nextId := (store.nextId + 1) % 65536
          (worker.id,
            { workers := store.workers ++ [worker]
              nextId := nextId
              nvs := saveNextId faults nvs nextId })
      | (_, nvs) => (0, { store with nvs := nvs })

/-- A call that runs alone is its two sections. -/
theorem workerLookupOrCreate_sections (json : Json) (faults : NvsFaults) (addr : Addr) (now : Int)
    (store : WorkerStore) :
    workerLookupOrCreate json faults (some addr) now store =
      if workerFindByAddr store.workers addr ≠ 0 then (workerFindByAddr store.workers addr, store)
      else workerCreate json faults addr now store := rfl

inductive LookupStage where
  /-- the lookup found nothing, the creation is still to come -/
  | missed
  | returned (id : Nat)
  deriving DecidableEq

/-- A call of `dd_worker_lookup_or_create` after its first section. -/
structure LookupCall where
  addr : Addr
  stage : LookupStage
  deriving DecidableEq

/-- The registry and the calls made so far, in the order of their lookups. -/
structure Lookups where
  store : WorkerStore
  calls : List LookupCall

inductive LookupAction where
  /-- the first section of a new call -/
  | lookup (addr : Addr)
  /-- the second section of a call -/
  | create (call : Nat) (now : Int)

namespace Lookups

variable (json : Json)

def start (store : WorkerStore) : Lookups := { store := store, calls := [] }

def lookup (lookups : Lookups) (addr : Addr) : Lookups :=
  let existing := workerFindByAddr lookups.store.workers addr
  { lookups with
    calls := lookups.calls ++
      [{ addr := addr, stage := if existing ≠ 0 then .returned existing else .missed }] }

/-- Only a call that missed comes to its second section; NVS does not fail. -/
def create (lookups : Lookups) (call : Nat) (now : Int) : Lookups :=
  match lookups.calls[call]? with
  | some ⟨addr, .missed⟩ =>
      let created := workerCreate json NvsFaults.none addr now lookups.store
      { store := created.2
        calls := lookups.calls.set call { addr := addr, stage := .returned created.1 } }
  | _ => lookups

def step (lookups : Lookups) : LookupAction → Lookups
  | .lookup addr => lookups.lookup addr
  | .create call now => lookups.create json call now

/-- No two workers have one address, and the calls for one address agree on its id. -/
structure Agrees (lookups : Lookups) : Prop where
  distinct : (lookups.store.workers.map Worker.addr).Nodup
  sameId : ∀ addr first second, ⟨addr, .returned first⟩ ∈ lookups.calls →
    ⟨addr, .returned second⟩ ∈ lookups.calls → first ≠ 0 → second ≠ 0 → first = second

/-- A call that comes to its creation finds the address still unregistered, or the table
full. -/
def Unraced (lookups : Lookups) : LookupAction → Prop
  | .lookup _ => True
  | .create call _ => ∀ addr, lookups.calls[call]? = some ⟨addr, .missed⟩ →
      addr ∉ lookups.store.workers.map Worker.addr ∨ ddWorkerMax ≤ lookups.store.workers.length

/-- Beyond `Agrees`: a returned id is that of the worker with the address. -/
structure Settled (lookups : Lookups) : Prop where
  distinct : (lookups.store.workers.map Worker.addr).Nodup
  found : ∀ addr id, ⟨addr, .returned id⟩ ∈ lookups.calls → id ≠ 0 →
    ∃ worker ∈ lookups.store.workers, worker.addr = addr ∧ worker.id = id

theorem workerFindByAddr_found {workers : List Worker} {addr : Addr}
    (found : workerFindByAddr workers addr ≠ 0) :
    ∃ worker ∈ workers, worker.addr = addr ∧ worker.id = workerFindByAddr workers addr := by
  rw [workerFindByAddr] at found ⊢
  cases search : workers.find? fun worker => worker.addr = addr with
  | none => simp [search] at found
  | some worker =>
      exact ⟨worker, List.mem_of_find?_eq_some search, by simpa using List.find?_some search, rfl⟩

theorem workerCreate_full {addr : Addr} {now : Int} {store : WorkerStore}
    (full : ddWorkerMax ≤ store.workers.length) :
    workerCreate json NvsFaults.none addr now store = (0, store) := if_pos full

theorem workerCreate_room (addr : Addr) (now : Int) {store : WorkerStore}
    (room : store.workers.length < ddWorkerMax) :
    (workerCreate json NvsFaults.none addr now store).1 = store.nextId ∧
      (workerCreate json NvsFaults.none addr now store).2.workers =
        store.workers ++ [newWorker store.nextId addr now] := by
  rw [workerCreate, if_neg (Nat.not_le.mpr room)]
  exact ⟨rfl, rfl⟩

namespace Settled

variable {json : Json} {lookups : Lookups}

theorem agrees (settled : lookups.Settled) : lookups.Agrees where
  distinct := settled.distinct
  sameId addr first second isFirst isSecond firstSet secondSet := by
    obtain ⟨one, isOne, oneAddr, oneId⟩ := settled.found addr first isFirst firstSet
    obtain ⟨other, isOther, otherAddr, otherId⟩ := settled.found addr second isSecond secondSet
    have same := List.inj_on_of_nodup_map settled.distinct isOne isOther (oneAddr.trans otherAddr.symm)
    rw [← oneId, ← otherId, same]

theorem start {store : WorkerStore} (distinct : (store.workers.map Worker.addr).Nodup) :
    (Lookups.start store).Settled where
  distinct := distinct
  found _ _ member := absurd member List.not_mem_nil

theorem lookup (settled : lookups.Settled) (addr : Addr) : (lookups.lookup addr).Settled where
  distinct := settled.distinct
  found other id member set := by
    rcases List.mem_append.mp member with earlier | new
    · exact settled.found other id earlier set
    · rw [List.mem_singleton, LookupCall.mk.injEq] at new
      obtain ⟨rfl, returned⟩ := new
      split at returned
      · cases returned
        exact workerFindByAddr_found set
      · cases returned

theorem create (settled : lookups.Settled) {call : Nat} {now : Int}
    (unraced : lookups.Unraced (.create call now)) : (lookups.create json call now).Settled := by
  rw [Lookups.create]
  split
  · rename_i addr missed
    by_cases full : ddWorkerMax ≤ lookups.store.workers.length
    · rw [workerCreate_full json full]
      refine ⟨settled.distinct, fun other id member set => ?_⟩
      rcases List.mem_or_eq_of_mem_set member with earlier | new
      · exact settled.found other id earlier set
      · cases new
        exact absurd rfl set
    · have absent := (unraced addr missed).resolve_right full
      obtain ⟨created, workers⟩ := workerCreate_room json addr now (Nat.not_le.mp full)
      refine ⟨?_, fun other id member set => ?_⟩
      · rw [workers, List.map_append, List.map_singleton]
        exact settled.distinct.append (List.nodup_singleton _) (List.disjoint_singleton.mpr absent)
      · rw [workers]
        rcases List.mem_or_eq_of_mem_set member with earlier | new
        · obtain ⟨worker, inside, found⟩ := settled.found other id earlier set
          exact ⟨worker, List.mem_append_left _ inside, found⟩
        · cases new
          exact ⟨_, List.mem_append_right _ (List.mem_singleton_self _), rfl, created.symm⟩
  · exact settled

end Settled

/-- A creation for an address that is registered by then duplicates it. -/
theorem agrees_unraced {lookups : Lookups} {action : LookupAction}
    (agrees : (lookups.step json action).Agrees) : lookups.Unraced action := by
  cases action with
  | lookup addr => trivial
  | create call now =>
      intro addr missed
      by_contra raced
      rw [not_or, not_not, Nat.not_le] at raced
      have distinct := agrees.distinct
      rw [step, Lookups.create, missed, (workerCreate_room json addr now raced.2).2,
        List.map_append, List.map_singleton] at distinct
      exact List.disjoint_of_nodup_append distinct raced.1 (List.mem_singleton_self _)

/-- In a run of calls the registry and the calls agree throughout if and only if no call
comes to its creation after its address was registered. -/
theorem lookups_agree_iff {store : WorkerStore} (distinct : (store.workers.map Worker.addr).Nodup)
    (actions : List LookupAction) :
    (∀ past, past <+: actions → (run (step json) (start store) past).Agrees) ↔
      Guarded (step json) Unraced (start store) actions := by
  constructor
  · intro agree
    refine guarded_of_prefixes fun past action within => ?_
    have agrees := agree _ within
    rw [run_append] at agrees
    exact agrees_unraced json agrees
  · rintro guarded past ⟨rest, rfl⟩
    rw [guarded_append] at guarded
    refine (run_invariant Settled (fun lookups action settled unraced => ?_) (Settled.start distinct)
      guarded.1).agrees
    cases action with
    | lookup addr => exact settled.lookup addr
    | create call now => exact settled.create unraced

/-- One peer looked up twice before either creation. -/
def racingLookups : List LookupAction :=
  [.lookup phone, .lookup phone, .create 0 0, .create 1 0]

theorem lookups_agree_iff_apart :
    (∀ past, past <+: [.lookup phone, .create 0 0, .lookup phone] →
        (run (step plainJson) (start WorkerStore.fresh) past).Agrees) ↔
      Guarded (step plainJson) Unraced (start WorkerStore.fresh)
        [.lookup phone, .create 0 0, .lookup phone] :=
  have distinct : (WorkerStore.fresh.workers.map Worker.addr).Nodup := List.nodup_nil
  lookups_agree_iff plainJson distinct _

/-- Both calls register the peer, under two ids. -/
theorem lookups_race :
    ¬ (run (step plainJson) (start WorkerStore.fresh) racingLookups).Agrees := by
  intro agrees
  have duplicate : (run (step plainJson) (start WorkerStore.fresh)
      racingLookups).store.workers.map Worker.addr = [phone, phone] := rfl
  have := duplicate ▸ agrees.distinct
  simp at this

end Lookups

end LeanDingdong
