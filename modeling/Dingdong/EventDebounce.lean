import Dingdong.EventCore
import Dingdong.SlotTable

/-!
`dd_event_record` with its debounce table, and the lookup of the latest event of a
peer. The log is the list of the lines `events.jsonl` holds, every append succeeding.
-/

namespace LeanDingdong

def debounceUs : Nat := 10 * 1000 * 1000

def debounceSlots : Nat := 4

/-- `debounce_slot_t` -/
structure DebounceSlot where
  addr : Addr
  lastInMono : Nat
  lastOutMono : Nat
  used : Bool
  deriving DecidableEq

namespace DebounceSlot

def cleared : DebounceSlot := { addr := Addr.zero, lastInMono := 0, lastOutMono := 0, used := false }

def last (slot : DebounceSlot) : EventType → Nat
  | .evIn => slot.lastInMono
  | .evOut => slot.lastOutMono

def setLast (slot : DebounceSlot) (monoUs : Nat) : EventType → DebounceSlot
  | .evIn => { slot with lastInMono := monoUs }
  | .evOut => { slot with lastOutMono := monoUs }

def mostRecent (slot : DebounceSlot) : Nat := max slot.lastInMono slot.lastOutMono

def holds (addr : Addr) (slot : DebounceSlot) : Bool := slot.used && slot.addr = addr

variable {slot : DebounceSlot} {addr other : Addr}

@[simp] theorem holds_setLast (slot : DebounceSlot) (monoUs : Nat) (type : EventType) :
    (slot.setLast monoUs type).holds addr = slot.holds addr := by
  cases type <;> rfl

@[simp] theorem last_setLast (slot : DebounceSlot) (monoUs : Nat) (type : EventType) :
    (slot.setLast monoUs type).last type = monoUs := by
  cases type <;> rfl

theorem last_setLast_other {type other : EventType} (different : other ≠ type)
    (slot : DebounceSlot) (monoUs : Nat) :
    (slot.setLast monoUs type).last other = slot.last other := by
  cases type <;> cases other <;> first | rfl | exact absurd rfl different

theorem holds_same (first : slot.holds addr = true) (second : slot.holds other = true) :
    addr = other := by
  simp only [holds, Bool.and_eq_true, decide_eq_true_eq] at first second
  exact first.2.symm.trans second.2

end DebounceSlot

/-- `s_debounce` -/
abbrev DebounceTable := Fin debounceSlots → DebounceSlot

def DebounceTable.blank : DebounceTable := fun _ => DebounceSlot.cleared

/-- The first slot whose last event is no later than that of any other. -/
def DebounceTable.oldest (table : DebounceTable) : Fin debounceSlots :=
  (List.finRange debounceSlots).foldl
    (fun best slot => if (table slot).mostRecent < (table best).mostRecent then slot else best)
    ⟨0, by decide⟩

def DebounceTable.find (table : DebounceTable) (addr : Addr) : Option (Fin debounceSlots) :=
  SlotTable.first fun slot => (table slot).holds addr

/-- `get_slot`: the slot of the address, else a free or the oldest one cleared for it. -/
def DebounceTable.getSlot (table : DebounceTable) (addr : Addr) :
    Fin debounceSlots × DebounceTable :=
  match table.find addr with
  | some slot => (slot, table)
  | none =>
      let slot := (SlotTable.first fun slot => !(table slot).used).getD table.oldest
      (slot, Function.update table slot { DebounceSlot.cleared with addr := addr, used := true })

/-- One line of `events.jsonl`, as far as the presence machine reads it back. -/
structure PeerEvent where
  ts : Nat
  monoUs : Nat
  type : EventType
  src : EventSource
  peer : Option Addr
  deriving DecidableEq

structure EventState where
  debounce : DebounceTable
  log : List PeerEvent

/-- `dd_event_record` at the times of the two clocks. -/
def eventRecord (monoUs ts : Nat) (type : EventType) (src : EventSource) (peer : Option Addr)
    (events : EventState) : EventState :=
  let line : PeerEvent := { ts := ts, monoUs := monoUs, type := type, src := src, peer := peer }
  match peer, src with
  | some addr, .srcBleAuto =>
      let (slot, table) := events.debounce.getSlot addr
      let last := (table slot).last type
      if last ≠ 0 ∧ monoUs - last < debounceUs then { events with debounce := table }
      else
        { debounce := Function.update table slot ((table slot).setLast monoUs type)
          log := events.log ++ [line] }
  | _, _ => { events with log := events.log ++ [line] }

/-- The type of the latest event found so far, with its times. -/
structure PeerTrack where
  bestTs : Nat
  bestMono : Nat
  type : EventType

/-- `bulk_iter_cb` for one peer. -/
def latestStep (addr : Addr) (track : Option PeerTrack) (line : PeerEvent) : Option PeerTrack :=
  if line.peer ≠ some addr then track
  else
    let new : PeerTrack := { bestTs := line.ts, bestMono := line.monoUs, type := line.type }
    match track with
    | none => some new
    | some best =>
        if 0 < line.ts ∧ 0 < best.bestTs then
          if best.bestTs < line.ts ∨ line.ts = best.bestTs ∧ best.bestMono < line.monoUs then
            some new
          else some best
        else some new

/-- `dd_event_latest_for_peers` for one peer. -/
def latestForPeer (log : List PeerEvent) (addr : Addr) : Option EventType :=
  (log.foldl (latestStep addr) none).map PeerTrack.type

theorem latestForPeer_absent {log : List PeerEvent} {addr : Addr}
    (absent : ∀ line ∈ log, line.peer ≠ some addr) : latestForPeer log addr = none := by
  have skipped : log.foldl (latestStep addr) none = none := by
    induction log with
    | nil => rfl
    | cons line log ih =>
        rw [List.foldl_cons, latestStep, if_pos (absent line (by simp))]
        exact ih fun other member => absent other (List.mem_cons_of_mem _ member)
  rw [latestForPeer, skipped]
  rfl

namespace DebounceTable

variable {table : DebounceTable} {addr other : Addr} {type : EventType}

/-- Some slot of the address has this last time for the type. -/
def Remembers (table : DebounceTable) (type : EventType) (addr : Addr) (monoUs : Nat) : Prop :=
  ∃ slot, (table slot).holds addr = true ∧ (table slot).last type = monoUs

/-- The table drops an event of this type at this time. -/
def debounced (table : DebounceTable) (type : EventType) (addr : Addr) (monoUs : Nat) : Bool :=
  match table.find addr with
  | none => false
  | some slot =>
      let last := (table slot).last type
      last ≠ 0 ∧ monoUs - last < debounceUs

theorem remembers_blank {monoUs : Nat} : ¬ blank.Remembers type addr monoUs := by
  rintro ⟨slot, held, _⟩
  simp [blank, DebounceSlot.cleared, DebounceSlot.holds] at held

theorem debounced_remembers {monoUs : Nat} (dropped : table.debounced type addr monoUs = true) :
    ∃ last, table.Remembers type addr last ∧ monoUs - last < debounceUs := by
  rw [debounced] at dropped
  cases found : table.find addr with
  | none => simp [found] at dropped
  | some slot =>
      simp only [found, decide_eq_true_eq] at dropped
      exact ⟨_, ⟨slot, SlotTable.first_passes found, rfl⟩, dropped.2⟩

theorem getSlot_holds (table : DebounceTable) (addr : Addr) :
    ((table.getSlot addr).2 (table.getSlot addr).1).holds addr = true := by
  rw [getSlot]
  cases found : table.find addr with
  | none => simp [DebounceSlot.holds]
  | some slot => exact SlotTable.first_passes found

/-- Taking a slot forgets times, it makes up none. -/
theorem getSlot_remembers {monoUs : Nat}
    (known : (table.getSlot addr).2.Remembers type other monoUs) :
    monoUs = 0 ∨ table.Remembers type other monoUs := by
  rw [getSlot] at known
  cases found : table.find addr with
  | some slot =>
      rw [found] at known
      exact .inr known
  | none =>
      simp only [found] at known
      obtain ⟨slot, held, same⟩ := known
      rw [Function.update_apply] at held same
      split_ifs at held same with taken
      · left
        rw [← same]
        cases type <;> rfl
      · exact .inr ⟨slot, held, same⟩

end DebounceTable

section Record

variable {events : EventState} {type : EventType} {addr : Addr} {monoUs ts : Nat}

/-- An event that is not debounced is appended. -/
theorem eventRecord_passes (passes : events.debounce.debounced type addr monoUs = false) :
    (eventRecord monoUs ts type .srcBleAuto (some addr) events).log =
      events.log ++ [⟨ts, monoUs, type, .srcBleAuto, some addr⟩] := by
  have fresh : ¬ (((events.debounce.getSlot addr).2 (events.debounce.getSlot addr).1).last type ≠ 0 ∧
      monoUs - ((events.debounce.getSlot addr).2 (events.debounce.getSlot addr).1).last type <
        debounceUs) := by
    rw [DebounceTable.getSlot]
    rw [DebounceTable.debounced] at passes
    cases found : events.debounce.find addr with
    | none =>
        rintro ⟨known, _⟩
        refine known ?_
        simp only [Function.update_self]
        cases type <;> rfl
    | some slot =>
        simp only [found, decide_eq_false_iff_not] at passes
        exact passes
  simp only [eventRecord, if_neg fresh]

/-- A record leaves no new time but its own. -/
theorem eventRecord_remembers {other : EventType} {peer : Addr} {last : Nat}
    (known : (eventRecord monoUs ts type .srcBleAuto (some addr) events).debounce.Remembers other
      peer last) :
    last = 0 ∨ events.debounce.Remembers other peer last ∨
      other = type ∧ peer = addr ∧ last = monoUs := by
  have older {last : Nat} (known : (events.debounce.getSlot addr).2.Remembers other peer last) :
      last = 0 ∨ events.debounce.Remembers other peer last ∨
        other = type ∧ peer = addr ∧ last = monoUs := by
    rcases DebounceTable.getSlot_remembers known with zero | past
    · exact .inl zero
    · exact .inr (.inl past)
  simp only [eventRecord] at known
  split_ifs at known with dropped
  · exact older known
  · obtain ⟨slot, held, same⟩ := known
    dsimp only at held same
    rw [Function.update_apply] at held same
    split_ifs at held same with taken
    · rw [DebounceSlot.holds_setLast] at held
      obtain rfl := DebounceSlot.holds_same held (DebounceTable.getSlot_holds _ _)
      by_cases sameType : other = type
      · subst sameType
        rw [DebounceSlot.last_setLast] at same
        exact .inr (.inr ⟨rfl, rfl, same.symm⟩)
      · rw [DebounceSlot.last_setLast_other sameType] at same
        exact older ⟨_, held, same⟩
    · exact older ⟨slot, held, same⟩

end Record

end LeanDingdong
