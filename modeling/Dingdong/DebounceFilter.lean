import Dingdong.EventDebounce
import Dingdong.Runs

/-!
The debounce table of `dd_event_record` against the filter it stands for, which drops
what repeats an accepted event of the same peer and type. The table falls short of the
filter only for a peer whose slot was taken, and then four others came after it.
-/

namespace LeanDingdong

open Runs

/-- A call of `dd_event_record` with a peer and `DD_SRC_BLE_AUTO`. -/
structure EventCall where
  monoUs : Nat
  type : EventType
  peer : Addr
  deriving DecidableEq

namespace EventCall

/-- The earlier call is of the same peer and type, and less than ten seconds ago. -/
def Repeats (call earlier : EventCall) : Prop :=
  earlier.peer = call.peer ∧ earlier.type = call.type ∧ call.monoUs < earlier.monoUs + debounceUs

instance (call earlier : EventCall) : Decidable (call.Repeats earlier) :=
  inferInstanceAs (Decidable (_ ∧ _ ∧ _))

/-- The other peers of the calls that are no earlier than this one. -/
def others (call : EventCall) (accepted : List EventCall) : Finset Addr :=
  ((accepted.filter fun other => other.peer ≠ call.peer ∧ call.monoUs ≤ other.monoUs).map
    peer).toFinset

theorem mem_others {call : EventCall} {accepted : List EventCall} {addr : Addr} :
    addr ∈ call.others accepted ↔
      ∃ other ∈ accepted, other.peer = addr ∧ addr ≠ call.peer ∧ call.monoUs ≤ other.monoUs := by
  rw [others, List.mem_toFinset, List.mem_map]
  simp only [List.mem_filter, decide_eq_true_eq]
  constructor
  · rintro ⟨other, ⟨member, apart, later⟩, rfl⟩
    exact ⟨other, member, rfl, apart, later⟩
  · rintro ⟨other, member, rfl, apart, later⟩
    exact ⟨other, ⟨member, apart, later⟩, rfl⟩

theorem others_mono {call : EventCall} {accepted more : List EventCall}
    (within : accepted ⊆ more) : call.others accepted ⊆ call.others more := by
  intro addr member
  obtain ⟨other, inside, rest⟩ := mem_others.mp member
  exact mem_others.mpr ⟨other, within inside, rest⟩

theorem others_snoc {call next : EventCall} {accepted : List EventCall} {count : Nat}
    (many : count ≤ (call.others accepted).card) : count ≤ (call.others (accepted ++ [next])).card :=
  many.trans (Finset.card_le_card (others_mono (List.subset_append_left _ _)))

end EventCall

/-- The filter of the contract: drop what repeats an accepted call. -/
def referenceFilter (accepted : List EventCall) (call : EventCall) : List EventCall :=
  if ∃ earlier ∈ accepted, call.Repeats earlier then accepted else accepted ++ [call]

/-- The section of `dd_event_record` under the lock: whether the call is dropped, and the
table it leaves. -/
def DebounceTable.record (table : DebounceTable) (call : EventCall) : Bool × DebounceTable :=
  let (slot, table) := table.getSlot call.peer
  let last := (table slot).last call.type
  if last ≠ 0 ∧ call.monoUs - last < debounceUs then (true, table)
  else (false, Function.update table slot ((table slot).setLast call.monoUs call.type))

theorem eventRecord_record (call : EventCall) (ts : Nat) (events : EventState) :
    eventRecord call.monoUs ts call.type .srcBleAuto (some call.peer) events =
      { debounce := (events.debounce.record call).2
        log :=
          if (events.debounce.record call).1 then events.log
          else events.log ++ [⟨ts, call.monoUs, call.type, .srcBleAuto, some call.peer⟩] } := by
  rw [eventRecord, DebounceTable.record]
  dsimp only
  split_ifs <;> first | rfl | contradiction

/-- A call leaves the log or writes its line. -/
theorem eventRecord_cases (monoUs ts : Nat) (type : EventType) (addr : Addr) (events : EventState) :
    (eventRecord monoUs ts type .srcBleAuto (some addr) events).log = events.log ∨
      (eventRecord monoUs ts type .srcBleAuto (some addr) events).log =
        events.log ++ [⟨ts, monoUs, type, .srcBleAuto, some addr⟩] := by
  have recorded := congrArg EventState.log (eventRecord_record ⟨monoUs, type, addr⟩ ts events)
  split at recorded
  · exact .inl recorded
  · exact .inr recorded

/-- The table, and the calls that passed it so far. -/
structure Debounce where
  table : DebounceTable
  accepted : List EventCall

namespace Debounce

def boot : Debounce := { table := DebounceTable.blank, accepted := [] }

def step (debounce : Debounce) (call : EventCall) : Debounce :=
  let (dropped, table) := debounce.table.record call
  { table := table
    accepted := if dropped then debounce.accepted else debounce.accepted ++ [call] }

end Debounce

namespace DebounceTable

variable {table : DebounceTable} {call : EventCall}

/-- No address has two slots. -/
def Distinct (table : DebounceTable) : Prop :=
  ∀ slot other addr, (table slot).holds addr = true → (table other).holds addr = true → slot = other

theorem oldest_le (table : DebounceTable) (slot : Fin debounceSlots) :
    (table table.oldest).mostRecent ≤ (table slot).mostRecent := by
  have least (slots : List (Fin debounceSlots)) (start : Fin debounceSlots) :
      let best := slots.foldl (fun best slot =>
        if (table slot).mostRecent < (table best).mostRecent then slot else best) start
      (table best).mostRecent ≤ (table start).mostRecent ∧
        ∀ slot ∈ slots, (table best).mostRecent ≤ (table slot).mostRecent := by
    induction slots generalizing start with
    | nil => exact ⟨le_rfl, fun _ member => absurd member List.not_mem_nil⟩
    | cons slot slots ih =>
        rw [List.foldl_cons]
        split_ifs with newer
        · obtain ⟨below, rest⟩ := ih slot
          refine ⟨below.trans newer.le, fun other member => ?_⟩
          rcases List.mem_cons.mp member with rfl | inside
          · exact below
          · exact rest other inside
        · obtain ⟨below, rest⟩ := ih start
          refine ⟨below, fun other member => ?_⟩
          rcases List.mem_cons.mp member with rfl | inside
          · exact below.trans (not_lt.mp newer)
          · exact rest other inside
  exact (least _ _).2 slot (List.mem_finRange slot)

/-- The slot an unknown address is given: a free one, else the least recent. -/
def victim (table : DebounceTable) : Fin debounceSlots :=
  (SlotTable.first fun slot => !(table slot).used).getD table.oldest

theorem victim_cases (table : DebounceTable) :
    (table table.victim).used = false ∨
      (∀ slot, (table slot).used = true) ∧
        ∀ slot, (table table.victim).mostRecent ≤ (table slot).mostRecent := by
  rw [victim]
  cases found : SlotTable.first fun slot => !(table slot).used with
  | some slot =>
      have free := SlotTable.first_passes found
      exact .inl (by simpa using free)
  | none =>
      have full := SlotTable.first_none.mp found
      exact .inr ⟨fun slot => by simpa using full slot, table.oldest_le⟩

def fresh (call : EventCall) : DebounceSlot :=
  { DebounceSlot.cleared with addr := call.peer, used := true }.setLast call.monoUs call.type

/-- A call is dropped by its peer's slot, updates it, or takes the victim's. -/
theorem record_cases (table : DebounceTable) (call : EventCall) :
    (∃ slot, (table slot).holds call.peer = true ∧
      ((table slot).last call.type ≠ 0 ∧
          call.monoUs < (table slot).last call.type + debounceUs ∧
          table.record call = (true, table) ∨
        ((table slot).last call.type = 0 ∨
            (table slot).last call.type + debounceUs ≤ call.monoUs) ∧
          table.record call = (false, Function.update table slot
            ((table slot).setLast call.monoUs call.type)))) ∨
    (∀ slot, (table slot).holds call.peer = false) ∧
      table.record call = (false, Function.update table table.victim (fresh call)) := by
  rw [record, getSlot]
  cases found : table.find call.peer with
  | some slot =>
      left
      refine ⟨slot, SlotTable.first_passes found, ?_⟩
      have positive : 0 < debounceUs := by decide
      dsimp only
      split_ifs with recent
      · exact .inl ⟨recent.1, by omega, rfl⟩
      · exact .inr ⟨by omega, rfl⟩
  | none =>
      right
      refine ⟨SlotTable.first_none.mp found, ?_⟩
      have unknown : ({ DebounceSlot.cleared with addr := call.peer, used := true }).last call.type =
          0 := by
        cases call.type <;> rfl
      dsimp only
      rw [Function.update_self, Function.update_idem, unknown]
      exact if_neg fun recent => recent.1 rfl

end DebounceTable

/-- What the table keeps of the accepted calls: a call's time, or a later one of its peer
and type, unless its slot was taken. -/
structure Filters (table : DebounceTable) (accepted : List EventCall) : Prop where
  distinct : table.Distinct
  active : ∀ slot, (table slot).used = true → 0 < (table slot).mostRecent
  known : ∀ slot type addr, (table slot).holds addr = true → (table slot).last type ≠ 0 →
    ⟨(table slot).last type, type, addr⟩ ∈ accepted
  kept : ∀ call ∈ accepted,
    (∃ slot, (table slot).holds call.peer = true ∧ call.monoUs ≤ (table slot).last call.type) ∨
      debounceSlots ≤ (call.others accepted).card

namespace Filters

variable {table : DebounceTable} {accepted : List EventCall} {call earlier : EventCall}
  {slot : Fin debounceSlots}

theorem boot : Filters DebounceTable.blank [] where
  distinct _ _ _ held := absurd (Bool.and_eq_true_iff.mp held).1 Bool.false_ne_true
  active _ used := absurd used Bool.false_ne_true
  known _ _ _ held := absurd (Bool.and_eq_true_iff.mp held).1 Bool.false_ne_true
  kept _ member := absurd member List.not_mem_nil

theorem last_le_mostRecent (slot : DebounceSlot) (type : EventType) :
    slot.last type ≤ slot.mostRecent := by
  cases type
  · exact le_max_left _ _
  · exact le_max_right _ _

theorem dated (filters : Filters table accepted) (used : (table slot).used = true) :
    ∃ call ∈ accepted, call.peer = (table slot).addr ∧ call.monoUs = (table slot).mostRecent := by
  have held : (table slot).holds (table slot).addr = true := by
    simp [DebounceSlot.holds, used]
  have positive := filters.active slot used
  have latest : ∃ type, (table slot).last type = (table slot).mostRecent := by
    rcases le_total (table slot).lastInMono (table slot).lastOutMono with later | later
    · exact ⟨.evOut, (max_eq_right later).symm⟩
    · exact ⟨.evIn, (max_eq_left later).symm⟩
  obtain ⟨type, same⟩ := latest
  exact ⟨_, filters.known slot type _ held (by omega), rfl, same⟩

/-- A call of a new peer that takes the slot of another, all slots being used, makes four
others since any call that slot remembers. -/
theorem others_taken (filters : Filters table accepted) (full : ∀ slot, (table slot).used = true)
    (least : ∀ slot, (table table.victim).mostRecent ≤ (table slot).mostRecent)
    (unknown : ∀ slot, (table slot).holds call.peer = false)
    (held : (table table.victim).holds earlier.peer = true)
    (older : earlier.monoUs ≤ (table table.victim).mostRecent) (late : earlier.monoUs ≤ call.monoUs) :
    debounceSlots ≤ (earlier.others (accepted ++ [call])).card := by
  have holds (slot : Fin debounceSlots) : (table slot).holds (table slot).addr = true := by
    simp [DebounceSlot.holds, full slot]
  have injective : Function.Injective fun slot => (table slot).addr := by
    intro slot other same
    have here := holds other
    rw [← show (table slot).addr = (table other).addr from same] at here
    exact filters.distinct slot other _ (holds slot) here
  have taken : (table table.victim).addr = earlier.peer :=
    DebounceSlot.holds_same (holds table.victim) held
  have apart : call.peer ≠ earlier.peer := by
    intro same
    rw [← same] at held
    exact Bool.false_ne_true ((unknown table.victim).symm.trans held)
  set peers := Finset.univ.image fun slot => (table slot).addr with peersDef
  have four : peers.card = debounceSlots := by
    rw [peersDef, Finset.card_image_of_injective _ injective, Finset.card_fin]
  have inside : earlier.peer ∈ peers :=
    Finset.mem_image.mpr ⟨table.victim, Finset.mem_univ _, taken⟩
  have outside : call.peer ∉ peers.erase earlier.peer := by
    intro member
    obtain ⟨slot, _, same⟩ := Finset.mem_image.mp (Finset.mem_of_mem_erase member)
    have here := holds slot
    rw [same] at here
    exact Bool.false_ne_true ((unknown slot).symm.trans here)
  have within : insert call.peer (peers.erase earlier.peer) ⊆
      earlier.others (accepted ++ [call]) := by
    refine Finset.insert_subset ?_ ?_
    · exact EventCall.mem_others.mpr ⟨call, List.mem_append_right _ (List.mem_singleton.mpr rfl), rfl,
        apart, late⟩
    · intro addr member
      obtain ⟨different, listed⟩ := Finset.mem_erase.mp member
      obtain ⟨slot, _, rfl⟩ := Finset.mem_image.mp listed
      obtain ⟨other, member, same, date⟩ := filters.dated (full slot)
      refine EventCall.mem_others.mpr ⟨other, List.mem_append_left _ member, same, different, ?_⟩
      rw [date]
      exact older.trans (least slot)
  calc debounceSlots = (insert call.peer (peers.erase earlier.peer)).card := by
        rw [Finset.card_insert_of_notMem outside, Finset.card_erase_of_mem inside, four]
        rfl
    _ ≤ _ := Finset.card_le_card within

theorem renew (filters : Filters table accepted) (held : (table slot).holds call.peer = true)
    (ordered : ∀ earlier ∈ accepted, earlier.monoUs ≤ call.monoUs) (positive : 0 < call.monoUs) :
    Filters (Function.update table slot ((table slot).setLast call.monoUs call.type))
      (accepted ++ [call]) := by
  have holds (other : Fin debounceSlots) (addr : Addr) :
      (Function.update table slot ((table slot).setLast call.monoUs call.type) other).holds addr =
        (table other).holds addr := by
    rw [Function.update_apply]
    split_ifs with same
    · rw [DebounceSlot.holds_setLast, same]
    · rfl
  constructor
  · intro first second addr
    rw [holds, holds]
    exact filters.distinct first second addr
  · intro other used
    by_cases same : other = slot
    · subst same
      have latest := last_le_mostRecent ((table other).setLast call.monoUs call.type) call.type
      rw [DebounceSlot.last_setLast] at latest
      rw [Function.update_self]
      omega
    · rw [Function.update_of_ne same] at used ⊢
      exact filters.active other used
  · intro other type addr
    rw [holds]
    intro here
    by_cases same : other = slot
    · subst same
      rw [Function.update_self]
      obtain rfl := DebounceSlot.holds_same held here
      by_cases sameType : type = call.type
      · subst sameType
        rw [DebounceSlot.last_setLast]
        exact fun _ => List.mem_append_right _ (List.mem_singleton.mpr rfl)
      · rw [DebounceSlot.last_setLast_other sameType]
        exact fun nonzero => List.mem_append_left _ (filters.known other type _ here nonzero)
    · rw [Function.update_of_ne same]
      exact fun nonzero => List.mem_append_left _ (filters.known other type addr here nonzero)
  · intro earlier member
    rcases List.mem_append.mp member with past | new
    · rcases filters.kept earlier past with ⟨other, here, later⟩ | many
      · refine .inl ⟨other, (holds other _).trans here, ?_⟩
        by_cases same : other = slot
        · subst same
          rw [Function.update_self]
          by_cases sameType : earlier.type = call.type
          · rw [sameType, DebounceSlot.last_setLast]
            exact ordered earlier past
          · rwa [DebounceSlot.last_setLast_other sameType]
        · rwa [Function.update_of_ne same]
      · exact .inr (EventCall.others_snoc many)
    · obtain rfl := List.mem_singleton.mp new
      refine .inl ⟨slot, (holds slot _).trans held, ?_⟩
      rw [Function.update_self, DebounceSlot.last_setLast]

theorem take (filters : Filters table accepted)
    (unknown : ∀ slot, (table slot).holds call.peer = false)
    (ordered : ∀ earlier ∈ accepted, earlier.monoUs ≤ call.monoUs) (positive : 0 < call.monoUs) :
    Filters (Function.update table table.victim (DebounceTable.fresh call)) (accepted ++ [call]) := by
  have own : (DebounceTable.fresh call).holds call.peer = true := by
    rw [DebounceTable.fresh, DebounceSlot.holds_setLast]
    simp [DebounceSlot.holds]
  have time : (DebounceTable.fresh call).last call.type = call.monoUs := DebounceSlot.last_setLast ..
  have other {slot : Fin debounceSlots} (held : (table slot).holds call.peer = true) : False :=
    Bool.false_ne_true ((unknown slot).symm.trans held)
  constructor
  · intro first second addr here there
    by_cases firstTaken : first = table.victim
    · rw [firstTaken, Function.update_self] at here
      obtain rfl := DebounceSlot.holds_same own here
      by_cases secondTaken : second = table.victim
      · exact firstTaken.trans secondTaken.symm
      · rw [Function.update_of_ne secondTaken] at there
        exact (other there).elim
    · rw [Function.update_of_ne firstTaken] at here
      by_cases secondTaken : second = table.victim
      · rw [secondTaken, Function.update_self] at there
        obtain rfl := DebounceSlot.holds_same own there
        exact (other here).elim
      · rw [Function.update_of_ne secondTaken] at there
        exact filters.distinct first second addr here there
  · intro slot used
    by_cases taken : slot = table.victim
    · have latest := last_le_mostRecent (DebounceTable.fresh call) call.type
      rw [taken, Function.update_self]
      omega
    · rw [Function.update_of_ne taken] at used ⊢
      exact filters.active slot used
  · intro slot type addr held nonzero
    by_cases taken : slot = table.victim
    · rw [taken, Function.update_self] at held nonzero ⊢
      obtain rfl := DebounceSlot.holds_same own held
      by_cases sameType : type = call.type
      · subst sameType
        rw [time]
        exact List.mem_append_right _ (List.mem_singleton.mpr rfl)
      · rw [DebounceTable.fresh, DebounceSlot.last_setLast_other sameType] at nonzero
        cases type <;> exact absurd rfl nonzero
    · rw [Function.update_of_ne taken] at held nonzero ⊢
      exact List.mem_append_left _ (filters.known slot type addr held nonzero)
  · intro earlier member
    rcases List.mem_append.mp member with past | new
    · rcases filters.kept earlier past with ⟨slot, held, later⟩ | many
      · by_cases taken : slot = table.victim
        · subst taken
          rcases table.victim_cases with free | ⟨full, least⟩
          · simp [DebounceSlot.holds, free] at held
          · have older := later.trans (last_le_mostRecent (table table.victim) earlier.type)
            exact .inr (filters.others_taken full least unknown held older (ordered earlier past))
        · refine .inl ⟨slot, ?_, ?_⟩
          · rwa [Function.update_of_ne taken]
          · rwa [Function.update_of_ne taken]
      · exact .inr (EventCall.others_snoc many)
    · obtain rfl := List.mem_singleton.mp new
      refine .inl ⟨table.victim, ?_, ?_⟩
      · rw [Function.update_self]
        exact own
      · rw [Function.update_self, time]

theorem step (filters : Filters table accepted)
    (ordered : ∀ earlier ∈ accepted, earlier.monoUs ≤ call.monoUs) (positive : 0 < call.monoUs) :
    Filters (Debounce.step ⟨table, accepted⟩ call).table
      (Debounce.step ⟨table, accepted⟩ call).accepted := by
  rw [Debounce.step]
  rcases table.record_cases call with ⟨slot, held, ⟨_, _, drops⟩ | ⟨_, passes⟩⟩ | ⟨unknown, passes⟩
  · rw [drops]
    exact filters
  · rw [passes]
    exact filters.renew held ordered positive
  · rw [passes]
    exact filters.take unknown ordered positive

theorem repeats_of_dropped (filters : Filters table accepted)
    (dropped : (table.record call).1 = true) : ∃ earlier ∈ accepted, call.Repeats earlier := by
  rcases table.record_cases call with ⟨slot, held, ⟨nonzero, recent, _⟩ | ⟨_, passes⟩⟩ | ⟨_, passes⟩
  · exact ⟨_, filters.known slot call.type call.peer held nonzero, rfl, rfl, recent⟩
  · rw [passes] at dropped
    exact absurd dropped Bool.false_ne_true
  · rw [passes] at dropped
    exact absurd dropped Bool.false_ne_true

theorem dropped_of_repeats (filters : Filters table accepted) (member : earlier ∈ accepted)
    (positive : 0 < earlier.monoUs) (repeats : call.Repeats earlier) :
    (table.record call).1 = true ∨ debounceSlots ≤ (earlier.others accepted).card := by
  obtain ⟨samePeer, sameType, recent⟩ := repeats
  rcases filters.kept earlier member with ⟨slot, held, later⟩ | many
  swap
  · exact .inr many
  left
  rw [samePeer] at held
  rw [sameType] at later
  rcases table.record_cases call with ⟨other, here, ⟨_, _, drops⟩ | ⟨aged, _⟩⟩ | ⟨unknown, _⟩
  · rw [drops]
  · obtain rfl := filters.distinct slot other call.peer held here
    omega
  · exact absurd ((unknown slot).symm.trans held) Bool.false_ne_true

end Filters

section Run

variable {calls : List EventCall}

theorem accepted_sublist (calls : List EventCall) :
    (run Debounce.step Debounce.boot calls).accepted.Sublist calls := by
  induction calls using List.reverseRecOn with
  | nil => exact List.Sublist.slnil
  | append_singleton past call ih =>
      rw [run_append, run_cons, run_nil, Debounce.step]
      dsimp only
      split_ifs
      · exact ih.trans (List.sublist_append_left _ _)
      · exact ih.append_right [call]

theorem filters_run (positive : ∀ call ∈ calls, 0 < call.monoUs)
    (ordered : calls.Pairwise fun earlier later => earlier.monoUs ≤ later.monoUs) :
    Filters (run Debounce.step Debounce.boot calls).table
      (run Debounce.step Debounce.boot calls).accepted := by
  induction calls using List.reverseRecOn with
  | nil => exact Filters.boot
  | append_singleton past call ih =>
      obtain ⟨before, _, between⟩ := List.pairwise_append.mp ordered
      have filters := ih (fun other member => positive other (List.mem_append_left _ member)) before
      have last : call ∈ [call] := List.mem_singleton.mpr rfl
      rw [run_append, run_cons, run_nil]
      refine filters.step (fun earlier member => ?_) (positive call (List.mem_append_right _ last))
      exact between earlier ((accepted_sublist past).subset member) call last

/-- With four peers at most the table is the filter. -/
theorem accepted_reference (positive : ∀ call ∈ calls, 0 < call.monoUs)
    (ordered : calls.Pairwise fun earlier later => earlier.monoUs ≤ later.monoUs)
    (few : (calls.map EventCall.peer).toFinset.card ≤ debounceSlots) :
    (run Debounce.step Debounce.boot calls).accepted = run referenceFilter [] calls := by
  induction calls using List.reverseRecOn with
  | nil => rfl
  | append_singleton past call ih =>
      have before : past ⊆ past ++ [call] := List.subset_append_left _ _
      have pastPositive : ∀ earlier ∈ past, 0 < earlier.monoUs := fun earlier member =>
        positive earlier (before member)
      have pastOrdered := (List.pairwise_append.mp ordered).1
      have peers : (past.map EventCall.peer).toFinset ⊆ ((past ++ [call]).map EventCall.peer).toFinset := by
        intro addr member
        rw [List.mem_toFinset] at member ⊢
        exact List.map_subset _ before member
      have same := ih pastPositive pastOrdered ((Finset.card_le_card peers).trans few)
      have filters := filters_run pastPositive pastOrdered
      rw [run_append, run_append, run_cons, run_nil, run_cons, run_nil, ← same, Debounce.step,
        referenceFilter]
      refine if_congr ⟨filters.repeats_of_dropped, ?_⟩ rfl rfl
      rintro ⟨earlier, member, repeats⟩
      have listed := (accepted_sublist past).subset member
      refine (filters.dropped_of_repeats member (pastPositive earlier listed) repeats).resolve_right ?_
      -- the peer of the earlier call is not among its own others
      have others : earlier.others (run Debounce.step Debounce.boot past).accepted ⊆
          ((past ++ [call]).map EventCall.peer).toFinset.erase earlier.peer := by
        intro addr inside
        obtain ⟨other, heard, rfl, apart, _⟩ := EventCall.mem_others.mp inside
        refine Finset.mem_erase.mpr ⟨apart, ?_⟩
        rw [List.mem_toFinset]
        exact List.mem_map_of_mem (before ((accepted_sublist past).subset heard))
      have own : earlier.peer ∈ ((past ++ [call]).map EventCall.peer).toFinset := by
        rw [List.mem_toFinset]
        exact List.mem_map_of_mem (before listed)
      have fewer := Finset.card_le_card others
      rw [Finset.card_erase_of_mem own] at fewer
      have four : debounceSlots = 4 := rfl
      omega

/-- A call is dropped only when it repeats an accepted one of the ten seconds before it;
then it is dropped unless four others were accepted since; with four peers at most the
accepted calls are those of the filter. -/
theorem debounce_filters (calls : List EventCall) (positive : ∀ call ∈ calls, 0 < call.monoUs)
    (ordered : calls.Pairwise fun earlier later => earlier.monoUs ≤ later.monoUs) :
    (∀ past call, past ++ [call] <+: calls →
      let reached := run Debounce.step Debounce.boot past
      ((reached.table.record call).1 = true →
        ∃ earlier ∈ reached.accepted, call.Repeats earlier ∧ earlier.monoUs ≤ call.monoUs) ∧
      ∀ earlier ∈ reached.accepted, call.Repeats earlier →
        (reached.table.record call).1 = true ∨
          debounceSlots ≤ (earlier.others reached.accepted).card) ∧
    ((calls.map EventCall.peer).toFinset.card ≤ debounceSlots →
      (run Debounce.step Debounce.boot calls).accepted = run referenceFilter [] calls) := by
  refine ⟨?_, accepted_reference positive ordered⟩
  rintro past call ⟨rest, rfl⟩
  intro reached
  have orders := List.pairwise_append.mp (List.pairwise_append.mp ordered).1
  have listed {earlier : EventCall} (member : earlier ∈ reached.accepted) : earlier ∈ past :=
    (accepted_sublist past).subset member
  have pastPositive : ∀ earlier ∈ past, 0 < earlier.monoUs := fun earlier member =>
    positive earlier (List.mem_append_left _ (List.mem_append_left _ member))
  have filters := filters_run pastPositive orders.1
  constructor
  · intro dropped
    obtain ⟨earlier, member, repeats⟩ := filters.repeats_of_dropped dropped
    exact ⟨earlier, member, repeats,
      orders.2.2 earlier (listed member) call (List.mem_singleton.mpr rfl)⟩
  · exact fun earlier member repeats =>
      filters.dropped_of_repeats member (pastPositive earlier (listed member)) repeats

/-- Five peers within five seconds. -/
def fivePeers : List EventCall :=
  (List.range 5).map fun second =>
    ⟨(second + 1) * 1000000, .evIn, { Addr.zero with byte5 := UInt8.ofNat second }⟩

/-- A second later the first peer is back, its slot taken and four others since. -/
def firstPeerAgain : EventCall := ⟨6000000, .evIn, Addr.zero⟩

theorem debounce_filters_five :
    let reached := run Debounce.step Debounce.boot fivePeers
    (reached.table.record firstPeerAgain).1 = false ∧
      ∀ earlier ∈ reached.accepted, firstPeerAgain.Repeats earlier →
        debounceSlots ≤ (earlier.others reached.accepted).card := by
  intro reached
  have passes : (reached.table.record firstPeerAgain).1 = false := by decide +kernel
  have filters := debounce_filters (fivePeers ++ [firstPeerAgain]) (by decide) (by decide)
  refine ⟨passes, fun earlier member repeats => ?_⟩
  have either := (filters.1 fivePeers firstPeerAgain List.prefix_rfl).2 earlier member repeats
  exact either.resolve_left (Bool.eq_false_iff.mp passes)

end Run

end LeanDingdong
