import Dingdong.BleSlots

/-!
Whether a peer times out unprobed. The notes of a run say which peers were dialled since
they were last seen; an invariant of the clock, the ticks and the slots says when the next
probe of a slot falls due, and that this is before its timeout.
-/

namespace LeanDingdong

open Runs Presence

/-- How a note moves the answer whether the peer was probed since its last sighting. -/
def Note.marks (addr : Addr) (entry : Note) (probed : Bool) : Bool :=
  match entry with
  | .dialled peer => peer = addr || probed
  | .refreshed peer => peer ≠ addr && probed
  | .claimed _ _ | .requested _ _ | .left _ _ | .wiped | .revoked _ => probed

/-- A connect to the peer was accepted since its last sighting. -/
def probedSince (addr : Addr) (history : List Note) : Bool :=
  history.foldr (Note.marks addr) false

/-- Every peer that left was probed since its last sighting. -/
def LeftProbed (history : List Note) : Prop :=
  ∀ newer older addr acked, history = newer ++ .left addr acked :: older →
    probedSince addr older = true

section Notes

variable {addr : Addr} {history : List Note} {entry : Note}

@[simp] theorem probedSince_cons (addr : Addr) (entry : Note) (history : List Note) :
    probedSince addr (entry :: history) = entry.marks addr (probedSince addr history) := rfl

theorem probedSince_iff : probedSince addr history = true ↔
    ∃ since older, history = since ++ .dialled addr :: older ∧ .refreshed addr ∉ since := by
  induction history with
  | nil => simp [probedSince]
  | cons entry history ih =>
      rw [probedSince_cons]
      by_cases dialled : entry = .dialled addr
      · subst dialled
        simp only [Note.marks, decide_true, Bool.true_or, true_iff]
        exact ⟨[], history, rfl, List.not_mem_nil⟩
      by_cases refreshed : entry = .refreshed addr
      · subst refreshed
        simp only [Note.marks, ne_eq, not_true_eq_false, decide_false, Bool.false_and,
          Bool.false_eq_true, false_iff]
        rintro ⟨since, older, split, unseen⟩
        cases since with
        | nil => cases (List.cons.inj split).1
        | cons first since =>
            rw [(List.cons.inj split).1] at unseen
            exact unseen List.mem_cons_self
      have unmoved : entry.marks addr (probedSince addr history) = probedSince addr history := by
        cases entry with
        | dialled peer =>
            have other : peer ≠ addr := fun same => dialled (same ▸ rfl)
            simp [Note.marks, other]
        | refreshed peer =>
            have other : peer ≠ addr := fun same => refreshed (same ▸ rfl)
            simp [Note.marks, other]
        | claimed | requested | left | wiped | revoked => rfl
      rw [unmoved, ih]
      constructor
      · rintro ⟨since, older, rfl, unseen⟩
        refine ⟨entry :: since, older, rfl, ?_⟩
        rw [List.mem_cons, not_or]
        exact ⟨fun same => refreshed same.symm, unseen⟩
      · rintro ⟨since, older, split, unseen⟩
        cases since with
        | nil => exact absurd (List.cons.inj split).1 dialled
        | cons first since =>
            exact ⟨since, older, (List.cons.inj split).2,
              fun member => unseen (List.mem_cons_of_mem _ member)⟩

theorem LeftProbed.nil : LeftProbed [] := fun newer older addr acked split => by simp at split

theorem LeftProbed.cons (probed : LeftProbed history)
    (leaving : ∀ addr acked, entry = .left addr acked → probedSince addr history = true) :
    LeftProbed (entry :: history) := by
  intro newer older addr acked split
  cases newer with
  | nil =>
      obtain ⟨entryIs, rfl⟩ := List.cons.inj split
      exact leaving addr acked entryIs
  | cons first newer => exact probed newer older addr acked (List.cons.inj split).2

end Notes

namespace Ble

/-- Present without a connection, and not probed since the last sighting. -/
def Unprobed (ble : Ble) (index : Fin presenceMax) : Prop :=
  (ble.presence index).used = true ∧ (ble.presence index).present = true ∧
    (ble.presence index).connected = false ∧
    probedSince (ble.presence index).addr ble.history = false

/-- The last probe of the slot ended when the slot was stale. -/
def Refused (ble : Ble) (index : Fin presenceMax) : Prop :=
  presenceProbeAfterMs <
    ((ble.presence index).lastProbeUs - (ble.presence index).lastSeenUs) / 1000

/-- Milliseconds from the last sighting of the slot to the end of its cooldown. -/
def retryMs (ble : Ble) (index : Fin presenceMax) : Nat :=
  ((ble.presence index).lastProbeUs + presenceProbeCooldownMs * 1000 -
    (ble.presence index).lastSeenUs) / 1000

instance (ble : Ble) (index : Fin presenceMax) : Decidable (ble.Unprobed index) :=
  inferInstanceAs (Decidable (_ ∧ _ ∧ _ ∧ _))

instance (ble : Ble) (index : Fin presenceMax) : Decidable (ble.Refused index) :=
  inferInstanceAs (Decidable (_ < _))

/-- The scan cannot be stopped for the probe of the slot, or its connect is refused. -/
def Refuses (radio : Radio) (ble : Ble) (index : Fin presenceMax) : Prop :=
  (radio.probe ble index).cancel = .failed ∨ (radio.probe ble index).accepted = false

instance (radio : Radio) (ble : Ble) (index : Fin presenceMax) :
    Decidable (Refuses radio ble index) :=
  inferInstanceAs (Decidable (_ ∨ _))

/-- A first probe that is refused at the turn of the slot leaves a cooldown's time before
the timeout. -/
def StartsInTime (radio : Radio) (ble : Ble) (index : Fin presenceMax) : Prop :=
  let ready := ble.backfill index
  ready.Unprobed index → ready.probeDue index = true → Refuses radio ready index →
    ready.sinceMs index + presenceProbeCooldownMs ≤ ready.timeout.ms

instance (radio : Radio) (ble : Ble) (index : Fin presenceMax) :
    Decidable (ble.StartsInTime radio index) :=
  inferInstanceAs (Decidable (_ → _ → _ → _))

/-- A peer whose first probes are refused has time for another one before its timeout,
also when the timeout is changed meanwhile. -/
def RefusesInTime (radio : Radio) (ble : Ble) : BleEvent → Prop
  | .tick =>
      Guarded (tickSlot radio) (fun next index => next.StartsInTime radio index) ble
        (List.finRange presenceMax)
  | .setTimeout seconds => ∀ index, ble.Unprobed index → ble.Refused index →
      ble.retryMs index ≤ (PresenceTimeout.clamp seconds).ms
  | _ => True

instance decidableRefusesInTime (radio : Radio) (ble : Ble) :
    ∀ event, Decidable (ble.RefusesInTime radio event)
  | .tick => inferInstanceAs (Decidable (Guarded _ _ _ _))
  | .setTimeout _ => inferInstanceAs (Decidable (∀ _, _))
  | .adv _ | .probeUp _ _ | .probeDown _ | .hidUp _ _ | .linkDown _ | .synced _ | .unsynced
  | .wipe | .pairingStart _ | .pairingCancel | .bondStore _ | .encChange | .hostSync
  | .revoke _ _ | .scanRestart => isTrue trivial

end Ble

/-- The machine and the time of its last tick. -/
structure TickRun where
  ble : Ble
  tickUs : Nat

namespace TickRun

def boot (startUs : Nat) (timeout : PresenceTimeout) (log : List PeerEvent) : TickRun where
  ble := Ble.boot startUs timeout log
  tickUs := startUs

def step (radio : Radio) (ticking : TickRun) (action : BleAction) : TickRun where
  ble := ticking.ble.step radio action
  tickUs := match action.event with
    | .tick => (ticking.ble.wait action.elapsedUs).clockUs
    | _ => ticking.tickUs

/-- Every accepted connect has its result within the time it was given. -/
def InTime (ble : Ble) : Prop :=
  ∀ connect ∈ ble.connects, ble.clockUs ≤ connect.startUs + presenceProbeTimeoutMs * 1000

/-- Ticks one second apart, results of accepted connects only, no pairing window. -/
def Expects (ticking : TickRun) (ble : Ble) : BleEvent → Prop
  | .tick => ble.clockUs = ticking.tickUs + 1000000
  | .probeUp connect _ | .probeDown connect => connect ∈ ble.connects
  | .pairingStart _ => False
  | _ => True

/-- What the step of a run may be. -/
def Allows (ticking : TickRun) (action : BleAction) : Prop :=
  InTime (ticking.ble.wait action.elapsedUs) ∧
    ticking.Expects (ticking.ble.wait action.elapsedUs) action.event

instance (ble : Ble) : Decidable (InTime ble) := inferInstanceAs (Decidable (∀ _ ∈ _, _))

instance decidableExpects (ticking : TickRun) (ble : Ble) :
    ∀ event, Decidable (ticking.Expects ble event)
  | .tick => inferInstanceAs (Decidable (_ = _))
  | .probeUp connect _ | .probeDown connect =>
      inferInstanceAs (Decidable (connect ∈ ble.connects))
  | .pairingStart _ => isFalse id
  | .adv _ | .hidUp _ _ | .linkDown _ | .synced _ | .unsynced | .wipe | .setTimeout _
  | .pairingCancel | .bondStore _ | .encChange | .hostSync | .revoke _ _ | .scanRestart =>
      isTrue trivial

instance (ticking : TickRun) (action : BleAction) : Decidable (ticking.Allows action) :=
  inferInstanceAs (Decidable (_ ∧ _))

end TickRun

namespace Ble

variable {ble next : Ble} {index other : Fin presenceMax} {addr : Addr} {slot : PresenceSlot}
  {entry : Note}

section Alters

/-- What is written belongs to one slot, and the notes say nothing of the peers of the
other slots. -/
structure Alters (ble next : Ble) (index : Fin presenceMax) : Prop where
  clock : next.clockUs = ble.clockUs
  timeout : next.timeout = ble.timeout
  window : next.pairingUntilUs = ble.pairingUntilUs
  others : ∀ other, other ≠ index → next.presence other = ble.presence other
  connects : ∀ connect : Connect, connect.slot ≠ index →
    (connect ∈ next.connects ↔ connect ∈ ble.connects)
  started : ∀ connect ∈ next.connects, connect ∈ ble.connects ∨ connect.startUs = ble.clockUs
  probed : ∀ other, other ≠ index → (ble.presence other).used = true →
    probedSince (ble.presence other).addr next.history =
      probedSince (ble.presence other).addr ble.history

theorem Alters.refl (ble : Ble) (index : Fin presenceMax) : ble.Alters ble index where
  clock := rfl
  timeout := rfl
  window := rfl
  others _ _ := rfl
  connects _ _ := Iff.rfl
  started _ member := .inl member
  probed _ _ _ := rfl

theorem Alters.trans {last : Ble} (first : ble.Alters next index)
    (second : next.Alters last index) : ble.Alters last index where
  clock := second.clock.trans first.clock
  timeout := second.timeout.trans first.timeout
  window := second.window.trans first.window
  others other different := (second.others other different).trans (first.others other different)
  connects connect different :=
    (second.connects connect different).trans (first.connects connect different)
  started connect member := by
    rcases second.started connect member with known | new
    · exact first.started connect known
    · exact .inr (new.trans first.clock)
  probed other different used := by
    have same := first.others other different
    have later := second.probed other different (by rwa [same])
    rw [same] at later
    exact later.trans (first.probed other different used)

theorem alters_setSlot (ble : Ble) (index : Fin presenceMax) (slot : PresenceSlot) :
    ble.Alters (ble.setSlot index slot) index where
  clock := rfl
  timeout := rfl
  window := rfl
  others _ different := Function.update_of_ne different _ _
  connects _ _ := Iff.rfl
  started _ member := .inl member
  probed _ _ _ := rfl

theorem alters_note (quiet : ∀ other, other ≠ index → (ble.presence other).used = true →
      entry.marks (ble.presence other).addr (probedSince (ble.presence other).addr ble.history) =
        probedSince (ble.presence other).addr ble.history) :
    ble.Alters (ble.note entry) index where
  clock := rfl
  timeout := rfl
  window := rfl
  others _ _ := rfl
  connects _ _ := Iff.rfl
  started _ member := .inl member
  probed := quiet

theorem alters_record (ble : Ble) (index : Fin presenceMax) (type : EventType) (addr : Addr) :
    ble.Alters (ble.record type addr) index where
  clock := rfl
  timeout := rfl
  window := rfl
  others _ _ := rfl
  connects _ _ := Iff.rfl
  started _ member := .inl member
  probed _ _ _ := rfl

/-- The result of a connect of the slot. -/
theorem alters_connectEnds (ble : Ble) (connect : Connect) :
    ble.Alters (ble.connectEnds connect) connect.slot where
  clock := rfl
  timeout := rfl
  window := rfl
  others _ _ := rfl
  connects _ different :=
    List.mem_erase_of_ne fun same => different (congrArg Connect.slot same)
  started _ member := .inl (List.mem_of_mem_erase member)
  probed _ _ _ := rfl

theorem alters_dial (ble : Ble) (index : Fin presenceMax) (scanning : Bool) :
    ble.Alters { ble with scanning := scanning, connects := ble.connects ++ [ble.dial index] }
      index where
  clock := rfl
  timeout := rfl
  window := rfl
  others _ _ := rfl
  connects connect different := by
    have notDialled : connect ≠ ble.dial index := fun same => different (congrArg Connect.slot same)
    simp [notDialled]
  started connect member := by
    rcases List.mem_append.mp member with known | new
    · exact .inl known
    · exact .inr (congrArg Connect.startUs (List.mem_singleton.mp new))
  probed _ _ _ := rfl

/-- A sighting or a dialling of the peer of the slot moves no other used slot's answer. -/
theorem marks_other (distinct : ble.presence.Distinct) (holds : ble.presence.Holds index addr)
    (about : entry = .dialled addr ∨ entry = .refreshed addr) (different : other ≠ index)
    (used : (ble.presence other).used = true) (probed : Bool) :
    entry.marks (ble.presence other).addr probed = probed := by
  have apart : addr ≠ (ble.presence other).addr := by
    intro same
    exact different (distinct other index addr ⟨used, same.symm⟩ holds)
  rcases about with rfl | rfl <;> simp [Note.marks, apart]

/-- A slot is written that stays with its peer, and a note of the peer is added. -/
theorem alters_tell (distinct : ble.presence.Distinct) (holds : ble.presence.Holds index addr)
    (about : entry = .dialled addr ∨ entry = .refreshed addr) (slot : PresenceSlot)
    (used : slot.used = (ble.presence index).used)
    (same : slot.addr = (ble.presence index).addr) :
    ble.Alters ((ble.setSlot index slot).note entry) index := by
  refine (ble.alters_setSlot index slot).trans (alters_note fun other different isUsed => ?_)
  exact marks_other (distinct.write used same) ((holds_update_same used same).mpr holds)
    about different isUsed _

theorem alters_acknowledge (ble : Ble) (index : Fin presenceMax) :
    ble.Alters (ble.acknowledge index) index := by
  rcases ble.acknowledge_cases index with same | ⟨_, _, same⟩ <;> rw [same]
  · exact Alters.refl ble index
  · exact (ble.alters_record index _ _).trans (alters_setSlot _ _ _)

theorem alters_leave (ble : Ble) (index : Fin presenceMax) :
    ble.Alters (ble.leave index) index := by
  have noted : ble.Alters (ble.note (.left (ble.presence index).addr
      (ble.presence index).ackEvent)) index := alters_note fun _ _ _ => rfl
  rw [leave]
  split_ifs
  · exact (noted.trans (alters_record _ _ _ _)).trans (alters_setSlot _ _ _)
  · exact noted.trans (alters_setSlot _ _ _)

end Alters

/-- Where the slots, the connects and the past are at every step. -/
structure Steady (ble : Ble) : Prop where
  distinct : ble.presence.Distinct
  closed : ble.pairingUntilUs = 0
  started : ∀ connect ∈ ble.connects, connect.startUs ≤ ble.clockUs
  ended : ∀ index, (ble.presence index).lastProbeUs ≤ ble.clockUs
  inFlight : ∀ index, (ble.presence index).probing = true →
    ∃ connect ∈ ble.connects, connect.slot = index
  left : LeftProbed ble.history

/-- The first probe of a slot falls due at the latest 20 s after its sighting. -/
def Early (ble : Ble) (tickUs : Nat) (index : Fin presenceMax) : Prop :=
  (ble.presence index).lastProbeUs ≤
      (ble.presence index).lastSeenUs + presenceProbeTimeoutMs * 1000 ∧
    tickUs < (ble.presence index).lastSeenUs +
      (presenceProbeTimeoutMs + presenceProbeCooldownMs) * 1000

/-- A refused probe was tried at a tick, and its cooldown ends at a tick before the timeout. -/
def Retries (ble : Ble) (tickUs : Nat) (index : Fin presenceMax) : Prop :=
  ble.Refused index ∧ ble.retryMs index ≤ ble.timeout.ms ∧
    ∃ ticks < 10, tickUs = (ble.presence index).lastProbeUs + ticks * 1000000

/-- A slot that has not been probed gets its probe in time. -/
structure Awaits (ble : Ble) (tickUs : Nat) (index : Fin presenceMax) : Prop where
  seen : (ble.presence index).lastSeenUs ≤ ble.clockUs
  earlier : ∀ connect ∈ ble.connects, connect.slot = index →
    connect.startUs ≤ (ble.presence index).lastSeenUs
  due : ble.Early tickUs index ∨ ble.Retries tickUs index

def Timed (ble : Ble) (tickUs : Nat) (index : Fin presenceMax) : Prop :=
  ble.Unprobed index → ble.Awaits tickUs index

section Steady

theorem Steady.alter (steady : ble.Steady) (alters : ble.Alters next index)
    (distinct : next.presence.Distinct)
    (ended : (next.presence index).lastProbeUs ≤ ble.clockUs)
    (inFlight : (next.presence index).probing = true →
      ∃ connect ∈ next.connects, connect.slot = index)
    (left : LeftProbed next.history) : next.Steady where
  distinct := distinct
  closed := alters.window.trans steady.closed
  started connect member := by
    rw [alters.clock]
    rcases alters.started connect member with known | new
    · exact steady.started connect known
    · exact new.le
  ended other := by
    rw [alters.clock]
    by_cases here : other = index
    · subst here
      exact ended
    · rw [alters.others other here]
      exact steady.ended other
  inFlight other probing := by
    by_cases here : other = index
    · subst here
      exact inFlight probing
    · rw [alters.others other here] at probing
      obtain ⟨connect, member, rfl⟩ := steady.inFlight other probing
      exact ⟨connect, (alters.connects connect here).mpr member, rfl⟩
  left := left

/-- A slot is written that stays with its peer and keeps what is known of its probes. -/
theorem Steady.write (steady : ble.Steady) (used : slot.used = (ble.presence index).used)
    (same : slot.addr = (ble.presence index).addr)
    (ended : slot.lastProbeUs ≤ ble.clockUs)
    (probing : slot.probing = true → (ble.presence index).probing = true) :
    (ble.setSlot index slot).Steady := by
  refine steady.alter (ble.alters_setSlot index slot) (steady.distinct.write used same) ?_ ?_
    steady.left <;> rw [presence_setSlot, Function.update_self]
  · exact ended
  · exact fun isProbing => steady.inFlight index (probing isProbing)

theorem Steady.note (steady : ble.Steady)
    (leaving : ∀ addr acked, entry = .left addr acked → probedSince addr ble.history = true) :
    (ble.note entry).Steady :=
  { steady with left := steady.left.cons leaving }

theorem Steady.record (steady : ble.Steady) (type : EventType) (addr : Addr) :
    (ble.record type addr).Steady :=
  { steady with left := steady.left.cons (by simp) }

theorem Steady.acknowledge (steady : ble.Steady) : (ble.acknowledge index).Steady := by
  rcases ble.acknowledge_cases index with same | ⟨_, _, same⟩ <;> rw [same]
  · exact steady
  · exact (steady.record _ _).write rfl rfl (steady.ended index) id

theorem Steady.backfill (steady : ble.Steady) : (ble.backfill index).Steady := by
  rw [Ble.backfill]
  split_ifs
  · exact steady.acknowledge
  · exact steady

theorem Steady.leave (steady : ble.Steady)
    (probed : probedSince (ble.presence index).addr ble.history = true) :
    (ble.leave index).Steady := by
  have noted : (ble.note (.left (ble.presence index).addr (ble.presence index).ackEvent)).Steady := by
    refine steady.note fun addr acked same => ?_
    rw [← (Note.left.inj same).1]
    exact probed
  rw [Ble.leave]
  split_ifs
  · exact (noted.record _ _).write rfl rfl (steady.ended index) id
  · exact noted.write rfl rfl (steady.ended index) id

theorem pairingActive_closed (steady : ble.Steady) : ble.pairingActive = false := by
  rw [pairingActive, steady.closed]
  exact decide_eq_false (Nat.not_lt_zero _)

end Steady

section Probe

variable {radio : Radio}

theorem alters_presenceProbeStart (radio : Radio) (distinct : ble.presence.Distinct)
    (used : (ble.presence index).used = true) :
    ble.Alters (presenceProbeStart radio ble index) index := by
  rcases presenceProbeStart_cases radio ble index with
    ⟨_, same⟩ | ⟨_, _, ⟨_, same⟩ | ⟨_, scanning, same⟩ | ⟨_, _, same⟩⟩ <;> rw [same]
  · exact Alters.refl ble index
  · exact { ble.alters_setSlot index _ with }
  · have dialled := ble.alters_dial index scanning
    refine dialled.trans (alters_tell ?_ ?_ (.inl rfl) _ ?_ ?_)
    · exact distinct
    · exact holds_self used
    · rfl
    · rfl
  · exact { ble.alters_setSlot index _ with }

theorem Steady.presenceProbeStart (steady : ble.Steady) (radio : Radio)
    (used : (ble.presence index).used = true) :
    (Ble.presenceProbeStart radio ble index).Steady := by
  have alters : ble.Alters (Ble.presenceProbeStart radio ble index) index :=
    alters_presenceProbeStart radio steady.distinct used
  rcases presenceProbeStart_cases radio ble index with
    ⟨_, same⟩ | ⟨_, _, ⟨_, same⟩ | ⟨_, scanning, same⟩ | ⟨_, _, same⟩⟩ <;> rw [same] at alters ⊢
  · exact steady
  · refine steady.alter alters (steady.distinct.write rfl rfl) ?_ ?_ steady.left <;>
      rw [presence_scheduleScanRestart, presence_setSlot, Function.update_self]
    exact steady.inFlight index
  · refine steady.alter alters (steady.distinct.write rfl rfl) ?_ ?_
      (steady.left.cons (by simp))
    · rw [presence_note, presence_setSlot, Function.update_self]
      exact steady.ended index
    · exact fun _ => ⟨ble.dial index, List.mem_append_right _ (List.mem_singleton_self _), rfl⟩
  · refine steady.alter alters (steady.distinct.write rfl rfl) ?_ ?_ steady.left <;>
      rw [presence_scheduleScanRestart, presence_setSlot, Function.update_self]
    simp

end Probe

section Turn

variable {radio : Radio} {tickUs : Nat}

/-- What a slot waits for is not the concern of the others. -/
theorem Timed.elsewhere (timed : ble.Timed tickUs other) (alters : ble.Alters next index)
    (different : other ≠ index) : next.Timed tickUs other := by
  have same := alters.others other different
  rintro ⟨used, present, apart, unprobed⟩
  rw [same] at used present apart unprobed
  rw [alters.probed other different used] at unprobed
  obtain ⟨seen, earlier, due⟩ := timed ⟨used, present, apart, unprobed⟩
  constructor
  · rw [same, alters.clock]
    exact seen
  · intro connect member here
    rw [same]
    exact earlier connect ((alters.connects connect (here ▸ different)).mp member) here
  · rw [Early, Retries, Refused, retryMs, same, alters.timeout]
    exact due

/-- A tick that finds a slot waiting finds it before its timeout, and either its probe is
due now or it goes on waiting. -/
theorem Awaits.atTick (awaits : ble.Awaits tickUs index) (tick : ble.clockUs = tickUs + 1000000)
    (inFlight : (ble.presence index).probing = true →
      ∃ connect ∈ ble.connects, connect.slot = index)
    (inTime : TickRun.InTime ble) :
    ble.sinceMs index ≤ ble.timeout.ms ∧
      (ble.probeDue index = true ∨ ble.Awaits ble.clockUs index) := by
  obtain ⟨seen, earlier, due⟩ := awaits
  have least : 30000 ≤ ble.timeout.ms := by
    have := ble.timeout.lower
    rw [PresenceTimeout.ms]
    omega
  have probing : (ble.presence index).probing = true →
      ble.clockUs ≤ (ble.presence index).lastSeenUs + 10000000 := by
    intro isProbing
    obtain ⟨connect, member, here⟩ := inFlight isProbing
    have ends := inTime connect member
    have starts := earlier connect member here
    rw [presenceProbeTimeoutMs] at ends
    omega
  have waits (later : ble.Early ble.clockUs index ∨ ble.Retries ble.clockUs index) :
      ble.Awaits ble.clockUs index := ⟨seen, earlier, later⟩
  rcases due with ⟨lastProbe, early⟩ | ⟨refused, fits, ticks, few, lastTick⟩
  · simp only [presenceProbeTimeoutMs, presenceProbeCooldownMs] at lastProbe early
    refine ⟨by rw [sinceMs]; omega, ?_⟩
    by_cases soon : ble.clockUs < (ble.presence index).lastSeenUs + 20000000
    · refine .inr (waits (.inl ⟨?_, ?_⟩)) <;>
        simp only [presenceProbeTimeoutMs, presenceProbeCooldownMs]
      · exact lastProbe
      · omega
    · refine .inl ?_
      have ended : (ble.presence index).probing = false := by
        by_contra isProbing
        have := probing (by simpa using isProbing)
        omega
      rw [probeDue, decide_eq_true_iff]
      simp only [sinceMs, sinceProbe, presenceProbeAfterMs, presenceProbeCooldownMs]
      exact ⟨by omega, by omega, ended, .inr (by omega)⟩
  · simp only [Refused, presenceProbeAfterMs] at refused
    simp only [retryMs, presenceProbeCooldownMs] at fits
    have before : ble.clockUs ≤ (ble.presence index).lastProbeUs + 10000000 := by omega
    refine ⟨by rw [sinceMs]; omega, ?_⟩
    by_cases soon : ticks + 1 < 10
    · refine .inr (waits (.inr ⟨refused, fits, ticks + 1, soon, ?_⟩))
      omega
    · refine .inl ?_
      have ended : (ble.presence index).probing = false := by
        by_contra isProbing
        have := probing (by simpa using isProbing)
        omega
      rw [probeDue, decide_eq_true_iff]
      simp only [sinceMs, sinceProbe, presenceProbeAfterMs, presenceProbeCooldownMs]
      exact ⟨by omega, by omega, ended, .inr (by omega)⟩

theorem alters_geofence (distinct : ble.presence.Distinct)
    (used : (ble.presence index).used = true) : ble.Alters (ble.geofence index) index := by
  cases linked : (ble.presence index).connected with
  | false =>
      rw [geofence_idle linked]
      exact Alters.refl ble index
  | true =>
      rw [geofence_connected linked]
      exact alters_tell distinct (holds_self used) (.inr rfl) _ rfl rfl

theorem alters_tickSlot (radio : Radio) (distinct : ble.presence.Distinct) :
    ble.Alters (tickSlot radio ble index) index := by
  refine (tickSlot_kept (P := fun next => next.presence.Distinct ∧ ble.Alters next index)
    ?_ ?_ ?_ ?_ ⟨distinct, Alters.refl ble index⟩).2
  · rintro next used ⟨distinct, alters⟩
    refine ⟨?_, alters.trans (alters_geofence distinct used)⟩
    obtain ⟨_, _, _, same⟩ := next.geofence_presence index
    rw [same]
    exact distinct.write rfl rfl
  · rintro next used present ⟨distinct, alters⟩
    refine ⟨?_, alters.trans (next.alters_acknowledge index)⟩
    obtain ⟨_, same⟩ := next.acknowledge_presence index
    rw [same]
    exact distinct.write rfl rfl
  · rintro next used apart ⟨distinct, alters⟩
    refine ⟨?_, alters.trans (alters_presenceProbeStart radio distinct used)⟩
    obtain ⟨_, _, _, _, same⟩ := presenceProbeStart_presence radio next index
    rw [same]
    exact distinct.write rfl rfl
  · rintro next used apart present out ⟨distinct, alters⟩
    refine ⟨?_, alters.trans (next.alters_leave index)⟩
    rw [leave_presence]
    exact distinct.write rfl rfl

/-- A probe that falls due is accepted, or refused in time for another one. -/
theorem Awaits.presenceProbeStart (awaits : ble.Awaits tickUs index) (steady : ble.Steady)
    (due : ble.probeDue index = true)
    (starts : Refuses radio ble index →
      ble.sinceMs index + presenceProbeCooldownMs ≤ ble.timeout.ms) :
    (Ble.presenceProbeStart radio ble index).Timed ble.clockUs index := by
  obtain ⟨seen, earlier, _⟩ := awaits
  rw [probeDue, decide_eq_true_iff] at due
  obtain ⟨stale, _, ended, _⟩ := due
  have again (refuses : Refuses radio ble index) (slot : PresenceSlot)
      (probed : slot.lastProbeUs = ble.clockUs)
      (same : slot.lastSeenUs = (ble.presence index).lastSeenUs) :
      (ble.setSlot index slot).Awaits ble.clockUs index := by
    have fits := starts refuses
    rw [sinceMs, presenceProbeCooldownMs] at fits
    refine ⟨?_, ?_, .inr ⟨?_, ?_, 0, by omega, ?_⟩⟩ <;>
      simp only [Refused, retryMs, presence_setSlot, Function.update_self, probed, same]
    · exact seen
    · exact earlier
    · exact stale
    · rw [presenceProbeCooldownMs]
      show _ ≤ ble.timeout.ms
      omega
    · rfl
  rcases presenceProbeStart_cases radio ble index with
    ⟨untried, _⟩ | ⟨_, _, ⟨failed, same⟩ | ⟨_, _, same⟩ | ⟨refused, _, same⟩⟩
  · rw [ended, pairingActive_closed steady] at untried
    exact absurd untried (by decide)
  · rw [same]
    obtain ⟨seen, earlier, later⟩ := again (.inl failed) { ble.presence index with
      lastProbeUs := ble.clockUs } rfl rfl
    exact fun _ => ⟨seen, earlier, later⟩
  · rw [same]
    rintro ⟨_, _, _, unprobed⟩
    rw [presence_note, presence_setSlot, Function.update_self] at unprobed
    have dialled : probedSince (ble.presence index).addr
        (.dialled (ble.presence index).addr :: ble.history) = true := by
      simp [Note.marks]
    exact absurd (unprobed.symm.trans dialled) (by decide)
  · rw [same]
    obtain ⟨seen, earlier, later⟩ := again (.inr refused) { ble.presence index with
      probing := false, probeHandle := noHandle, lastProbeUs := ble.clockUs } rfl rfl
    exact fun _ => ⟨seen, earlier, later⟩

theorem probedSince_presenceProbeStart (radio : Radio) (ble : Ble) (index : Fin presenceMax)
    (probed : probedSince addr ble.history = true) :
    probedSince addr (Ble.presenceProbeStart radio ble index).history = true := by
  rcases presenceProbeStart_cases radio ble index with
    ⟨_, same⟩ | ⟨_, _, ⟨_, same⟩ | ⟨_, _, same⟩ | ⟨_, _, same⟩⟩ <;> rw [same]
  · exact probed
  · exact probed
  · show Note.marks addr (.dialled _) (probedSince addr ble.history) = true
    rw [probed, Note.marks, Bool.or_true]
  · exact probed

/-- The slot that is present and apart: it is not left before it was probed. -/
theorem checkStale_timed (steady : ble.Steady) (inTime : TickRun.InTime ble)
    (tick : ble.clockUs = tickUs + 1000000) (timed : ble.Timed tickUs index)
    (used : (ble.presence index).used = true) (present : (ble.presence index).present = true)
    (apart : (ble.presence index).connected = false)
    (starts : ble.Unprobed index → ble.probeDue index = true → Refuses radio ble index →
      ble.sinceMs index + presenceProbeCooldownMs ≤ ble.timeout.ms) :
    (checkStale radio ble index).Steady ∧ (checkStale radio ble index).Timed ble.clockUs index := by
  have tried := steady.presenceProbeStart radio used
  obtain ⟨_, _, _, _, written⟩ := presenceProbeStart_presence radio ble index
  cases probed : probedSince (ble.presence index).addr ble.history with
  | false =>
      have unprobed : ble.Unprobed index := ⟨used, present, apart, probed⟩
      have awaits := timed unprobed
      obtain ⟨early, later⟩ := awaits.atTick tick (steady.inFlight index) inTime
      by_cases due : ble.probeDue index = true
      · have stays : (Ble.presenceProbeStart radio ble index).outDue index = false := by
          have alters : ble.Alters (Ble.presenceProbeStart radio ble index) index :=
            alters_presenceProbeStart radio steady.distinct used
          rw [outDue, sinceMs, written, Function.update_self, alters.clock, alters.timeout]
          exact decide_eq_false fun out => absurd early (Nat.not_le.mpr out.1)
        simp only [checkStale, if_pos due, stays, Bool.false_eq_true, if_false]
        exact ⟨tried, awaits.presenceProbeStart steady due (starts unprobed due)⟩
      · have stays : ble.outDue index = false :=
          decide_eq_false fun out => absurd early (Nat.not_le.mpr out.1)
        simp only [checkStale, if_neg due, stays, Bool.false_eq_true, if_false]
        exact ⟨steady, fun _ => later.resolve_left due⟩
  | true =>
      -- once it was probed the slot may be left, and waits for nothing
      have left {next : Ble} (steady : next.Steady)
          (same : (next.presence index).addr = (ble.presence index).addr)
          (probed : probedSince (ble.presence index).addr next.history = true) :
          (if next.outDue index then next.leave index else next).Steady ∧
            (if next.outDue index then next.leave index else next).Timed ble.clockUs index := by
        split_ifs with out
        · refine ⟨steady.leave (same ▸ probed), fun unprobed => ?_⟩
          have gone := unprobed.2.1
          rw [leave_presence, Function.update_self] at gone
          exact absurd gone Bool.false_ne_true
        · refine ⟨steady, fun unprobed => ?_⟩
          have missing := unprobed.2.2.2
          rw [same, probed] at missing
          cases missing
      rw [checkStale]
      by_cases due : ble.probeDue index = true
      · rw [if_pos due]
        refine left tried ?_ (probedSince_presenceProbeStart radio ble index probed)
        rw [written, Function.update_self]
      · rw [if_neg due]
        exact left steady rfl probed

theorem Timed.backfill (timed : ble.Timed tickUs index) :
    (ble.backfill index).Timed tickUs index := by
  rw [Ble.backfill]
  split_ifs
  · rcases ble.acknowledge_cases index with same | ⟨_, _, same⟩ <;> rw [same]
    · exact timed
    · intro unprobed
      simp only [Unprobed, presence_setSlot, Function.update_self] at unprobed
      obtain ⟨seen, earlier, due⟩ := timed unprobed
      refine ⟨?_, ?_, ?_⟩ <;>
        simp only [Early, Retries, Refused, retryMs, presence_setSlot, Function.update_self]
      · exact seen
      · exact earlier
      · exact due
  · exact timed

theorem Alters.inTime (alters : ble.Alters next index) (inTime : TickRun.InTime ble) :
    TickRun.InTime next := by
  intro connect member
  rw [alters.clock]
  rcases alters.started connect member with known | new
  · exact inTime connect known
  · omega

theorem alters_backfill (ble : Ble) (index : Fin presenceMax) :
    ble.Alters (ble.backfill index) index := by
  rw [backfill]
  split_ifs
  · exact ble.alters_acknowledge index
  · exact Alters.refl ble index

/-- The turn of a slot at a tick. -/
theorem tickSlot_timed (steady : ble.Steady) (inTime : TickRun.InTime ble)
    (tick : ble.clockUs = tickUs + 1000000) (timed : ble.Timed tickUs index)
    (starts : ble.StartsInTime radio index) :
    (tickSlot radio ble index).Steady ∧ (tickSlot radio ble index).Timed ble.clockUs index := by
  by_cases used : (ble.presence index).used = true
  · rw [tickSlot, if_pos used]
    dsimp only
    cases linked : (ble.presence index).connected with
    | true =>
        have fenced : (ble.geofence index).Steady := by
          rw [geofence_connected linked]
          refine Steady.note ?_ (by simp)
          exact steady.write rfl rfl (steady.ended index) id
        have still : (((ble.geofence index).backfill index).presence index).connected = true := by
          obtain ⟨_, filled⟩ := (ble.geofence index).backfill_presence index
          obtain ⟨_, _, _, geofenced⟩ := ble.geofence_presence index
          rw [filled, Function.update_self, geofenced, Function.update_self]
          exact linked
        rw [if_pos still]
        exact ⟨fenced.backfill, fun unprobed => absurd (still.symm.trans unprobed.2.2.1) (by decide)⟩
    | false =>
        have ready : (ble.backfill index).Steady := steady.backfill
        have alters := ble.alters_backfill index
        obtain ⟨_, filled⟩ := ble.backfill_presence index
        have filledUsed : ((ble.backfill index).presence index).used = true := by
          rw [filled, Function.update_self]
          exact used
        have apart : ((ble.backfill index).presence index).connected = false := by
          rw [filled, Function.update_self]
          exact linked
        rw [geofence_idle linked, if_neg (by simp [apart]), ← alters.clock]
        split_ifs with present
        · exact checkStale_timed ready (alters.inTime inTime) (alters.clock.trans tick)
            timed.backfill filledUsed present apart starts
        · have absent {next : Ble} (same : (next.presence index).present =
              ((ble.backfill index).presence index).present) {lastUs : Nat} :
              next.Timed lastUs index :=
            fun unprobed => absurd (same.symm.trans unprobed.2.1) present
          rw [reprobe]
          split_ifs
          · exact ⟨ready, absent rfl⟩
          · exact ⟨ready, absent rfl⟩
          · exact ⟨ready, absent rfl⟩
          · refine ⟨ready.presenceProbeStart radio filledUsed, absent ?_⟩
            obtain ⟨_, _, _, _, probed⟩ := presenceProbeStart_presence radio (ble.backfill index) index
            rw [probed, Function.update_self]
  · rw [tickSlot, if_neg used]
    exact ⟨steady, fun unprobed => absurd unprobed.1 used⟩

end Turn

/-- The slots at a time between two ticks. -/
structure Paced (ble : Ble) (tickUs : Nat) : Prop where
  steady : ble.Steady
  ticked : tickUs ≤ ble.clockUs
  timed : ∀ index, ble.Timed tickUs index

section Callbacks

variable {radio : Radio} {tickUs : Nat}

/-- Every slot has its turn, and each turn settles the slot until the next tick. -/
theorem Paced.presenceTickCb (paced : ble.Paced tickUs) (inTime : TickRun.InTime ble)
    (tick : ble.clockUs = tickUs + 1000000)
    (starts : Guarded (tickSlot radio) (fun next index => next.StartsInTime radio index) ble
      (List.finRange presenceMax)) :
    (Ble.presenceTickCb radio ble).Paced ble.clockUs := by
  have swept := run_sweep
    (fun next : Ble => next.Steady ∧ TickRun.InTime next ∧ next.clockUs = ble.clockUs)
    (fun index next => next.Timed tickUs index) (fun index next => next.Timed ble.clockUs index)
    ?_ ?_ ?_ (List.nodup_finRange presenceMax) ⟨paced.steady, inTime, rfl⟩
    (fun index _ => paced.timed index) starts
  · obtain ⟨⟨steady, _, clock⟩, timed⟩ := swept
    exact ⟨steady, clock.ge, fun index => timed index (List.mem_finRange index)⟩
  · rintro next index ⟨steady, inTime, clock⟩ timed starts
    have alters : next.Alters (tickSlot radio next index) index :=
      alters_tickSlot radio steady.distinct
    have turn := tickSlot_timed steady inTime (clock.trans tick) timed starts
    rw [clock] at turn
    exact ⟨⟨turn.1, alters.inTime inTime, alters.clock.trans clock⟩, turn.2⟩
  · rintro next index other ⟨steady, _⟩ _ different timed
    exact timed.elsewhere (alters_tickSlot radio steady.distinct) different
  · rintro next index other ⟨steady, _⟩ _ different timed
    exact timed.elsewhere (alters_tickSlot radio steady.distinct) different

theorem Paced.alter (paced : ble.Paced tickUs) (alters : ble.Alters next index)
    (steady : next.Steady) (own : next.Timed tickUs index) : next.Paced tickUs where
  steady := steady
  ticked := paced.ticked.trans alters.clock.ge
  timed other := by
    by_cases here : other = index
    · rwa [here]
    · exact (paced.timed other).elsewhere alters here

/-- A slot that is seen now waits for its first probe. -/
theorem Steady.timed_seen (steady : ble.Steady) (ticked : tickUs ≤ ble.clockUs)
    (seen : (ble.presence index).lastSeenUs = ble.clockUs) : ble.Timed tickUs index := by
  refine fun _ => ⟨seen.le, ?_, .inl ⟨?_, ?_⟩⟩ <;> rw [seen]
  · exact fun connect member _ => steady.started connect member
  · exact (steady.ended index).trans (Nat.le_add_right _ _)
  · simp only [presenceProbeTimeoutMs, presenceProbeCooldownMs]
    omega

/-- The fields outside the slots, the connects, the notes and the times do not matter. -/
theorem Paced.congr (paced : ble.Paced tickUs) (presence : next.presence = ble.presence)
    (connects : next.connects = ble.connects) (history : next.history = ble.history)
    (clock : next.clockUs = ble.clockUs) (timeout : next.timeout = ble.timeout)
    (window : next.pairingUntilUs = ble.pairingUntilUs) : next.Paced tickUs := by
  obtain ⟨⟨distinct, closed, started, ended, inFlight, left⟩, ticked, timed⟩ := paced
  cases next
  dsimp only at presence connects history clock timeout window
  subst presence connects history clock timeout window
  refine ⟨⟨distinct, closed, started, ended, inFlight, left⟩, ticked, fun index unprobed => ?_⟩
  obtain ⟨seen, earlier, due⟩ := timed index unprobed
  exact ⟨seen, earlier, due⟩

theorem Paced.refresh (paced : ble.Paced tickUs) (holds : ble.presence.Holds index addr)
    (slot : PresenceSlot) (used : slot.used = (ble.presence index).used)
    (same : slot.addr = (ble.presence index).addr) (seen : slot.lastSeenUs = ble.clockUs)
    (ended : slot.lastProbeUs ≤ ble.clockUs)
    (probing : slot.probing = true → (ble.presence index).probing = true) :
    ((ble.setSlot index slot).note (.refreshed addr)).Paced tickUs := by
  have steady : ((ble.setSlot index slot).note (.refreshed addr)).Steady :=
    (paced.steady.write used same ended probing).note (by simp)
  refine paced.alter (alters_tell paced.steady.distinct holds (.inr rfl) slot used same) steady
    (steady.timed_seen paced.ticked ?_)
  rw [presence_note, presence_setSlot, Function.update_self]
  exact seen

theorem Paced.touch (paced : ble.Paced tickUs) (used : (ble.presence index).used = true) :
    (ble.touch index).Paced tickUs :=
  paced.refresh (holds_self used) _ rfl rfl rfl (paced.steady.ended index) id

theorem Paced.acknowledge (paced : ble.Paced tickUs)
    (present : (ble.presence index).present = true) : (ble.acknowledge index).Paced tickUs := by
  have filled := (paced.timed index).backfill
  rw [Ble.backfill, if_pos present] at filled
  exact paced.alter (ble.alters_acknowledge index) paced.steady.acknowledge filled

theorem Paced.claim (paced : ble.Paced tickUs) (unheld : ble.presence.Unheld slot.addr)
    (ended : slot.lastProbeUs ≤ ble.clockUs) (idle : slot.probing = false) (resumed : Bool)
    (seen : slot.present = true → slot.lastSeenUs = ble.clockUs) :
    ((ble.setSlot index slot).note (.claimed slot.addr resumed)).Paced tickUs := by
  have alters : ble.Alters ((ble.setSlot index slot).note (.claimed slot.addr resumed)) index :=
    (ble.alters_setSlot index slot).trans (alters_note fun _ _ _ => rfl)
  have steady : ((ble.setSlot index slot).note (.claimed slot.addr resumed)).Steady := by
    refine paced.steady.alter alters (paced.steady.distinct.claim unheld) ?_ ?_
      (paced.steady.left.cons (by simp)) <;>
      rw [presence_note, presence_setSlot, Function.update_self]
    · exact ended
    · rw [idle]
      simp
  refine paced.alter alters steady fun unprobed => ?_
  refine steady.timed_seen paced.ticked ?_ unprobed
  have present := unprobed.2.1
  rw [presence_note, presence_setSlot, Function.update_self] at present ⊢
  exact seen present

theorem Paced.presenceSeenAddr (paced : ble.Paced tickUs) (addr : Addr) :
    (ble.presenceSeenAddr addr).Paced tickUs := by
  have seen {ble : Ble} {index : Fin presenceMax} (paced : ble.Paced tickUs)
      (used : (ble.presence index).used = true) :
      ((ble.touch index).acknowledge index).Paced tickUs := by
    refine (paced.touch used).acknowledge ?_
    rw [Ble.touch, presence_note, presence_setSlot, Function.update_self]
  rcases ble.presenceSeenAddr_cases addr with
    same | ⟨index, holds, same⟩ | ⟨index, type, _, unheld, _, same⟩ <;> rw [same]
  · exact paced
  · exact seen paced holds.1
  · have claimed : (ble.claimSeen index addr type).Paced tickUs :=
      paced.claim unheld (Nat.zero_le _) rfl false (by simp)
    refine seen claimed ?_
    rw [claimSeen, presence_note, presence_setSlot, Function.update_self]

theorem Paced.preallocateBond (paced : ble.Paced tickUs) (bond : Bond) :
    (ble.preallocateBond bond).Paced tickUs := by
  rcases ble.preallocateBond_cases bond with same | ⟨index, _, unheld, _, same⟩ <;> rw [same]
  · exact paced
  · have claimed : ((ble.setSlot index (ble.bondSlot bond)).note
        (.claimed bond.addr (ble.wasIn bond.addr))).Paced tickUs := by
      refine paced.claim unheld (Nat.zero_le _) rfl _ fun present => ?_
      exact if_pos present
    rw [claimBonded]
    split_ifs with wasIn
    · have holds : ((ble.setSlot index (ble.bondSlot bond)).note
          (.claimed bond.addr (ble.wasIn bond.addr))).presence.Holds index bond.addr :=
        holds_update_self.mpr ⟨rfl, rfl⟩
      have written := claimed.refresh holds _ rfl rfl ?_ (claimed.steady.ended index) id
      · rwa [setSlot, Function.update_eq_self] at written
      · rw [presence_note, presence_setSlot, Function.update_self]
        exact if_pos wasIn
    · exact claimed

theorem Paced.presencePreallocateBonded (paced : ble.Paced tickUs) :
    ble.presencePreallocateBonded.Paced tickUs :=
  run_kept (fun next : Ble => next.Paced tickUs) (fun _ bond kept => kept.preallocateBond bond) paced

theorem Paced.note (paced : ble.Paced tickUs)
    (quiet : ∀ addr probed, entry.marks addr probed = probed)
    (stays : ∀ addr acked, entry ≠ .left addr acked) : (ble.note entry).Paced tickUs where
  steady := paced.steady.note fun addr acked same => absurd same (stays addr acked)
  ticked := paced.ticked
  timed index := by
    rintro ⟨used, present, apart, unprobed⟩
    have before : probedSince (ble.presence index).addr ble.history = false :=
      (quiet _ _).symm.trans unprobed
    obtain ⟨seen, earlier, due⟩ := paced.timed index ⟨used, present, apart, before⟩
    exact ⟨seen, earlier, due⟩

/-- A write to any slot whose peer waits for nothing afterwards. -/
theorem Paced.idle (paced : ble.Paced tickUs) (slot : PresenceSlot)
    (used : slot.used = (ble.presence index).used) (same : slot.addr = (ble.presence index).addr)
    (ended : slot.lastProbeUs ≤ ble.clockUs)
    (probing : slot.probing = true → (ble.presence index).probing = true)
    (idle : slot.used = false ∨ slot.connected = true) :
    (ble.setSlot index slot).Paced tickUs := by
  refine paced.alter (ble.alters_setSlot index slot)
    (paced.steady.write used same ended probing) fun unprobed => ?_
  obtain ⟨isUsed, _, apart, _⟩ := unprobed
  rw [presence_setSlot, Function.update_self] at isUsed apart
  rcases idle with unused | linked
  · exact absurd (isUsed.symm.trans unused) (by decide)
  · exact absurd (linked.symm.trans apart) (by decide)

/-- The result of a connect comes in, and its slot is written. -/
theorem Paced.connectEnds (paced : ble.Paced tickUs) (connect : Connect) (slot : PresenceSlot)
    (used : slot.used = (ble.presence connect.slot).used)
    (same : slot.addr = (ble.presence connect.slot).addr)
    (ended : slot.lastProbeUs ≤ ble.clockUs) (idle : slot.probing = false)
    (own : ((ble.connectEnds connect).setSlot connect.slot slot).Timed tickUs connect.slot) :
    ((ble.connectEnds connect).setSlot connect.slot slot).Paced tickUs := by
  have alters : ble.Alters ((ble.connectEnds connect).setSlot connect.slot slot) connect.slot :=
    (ble.alters_connectEnds connect).trans (alters_setSlot _ _ _)
  refine paced.alter alters ?_ own
  refine paced.steady.alter alters (paced.steady.distinct.write used same) ?_ ?_ paced.steady.left <;>
    rw [presence_setSlot, Function.update_self]
  · exact ended
  · rw [idle]
    simp

theorem Paced.probeUp (paced : ble.Paced tickUs) (connect : Connect) (handle : Nat) :
    (((ble.connectEnds connect).linkUp ⟨handle, connect.peer, some connect.slot⟩).probeConnected
      connect.slot handle).Paced tickUs := by
  have marked : ((ble.connectEnds connect).setSlot connect.slot { ble.presence connect.slot with
      probeHandle := handle, connected := true, probing := false }).Paced tickUs := by
    refine paced.connectEnds connect _ rfl rfl (paced.steady.ended _) rfl fun unprobed => ?_
    have apart := unprobed.2.2.1
    rw [presence_setSlot, Function.update_self] at apart
    cases apart
  have linked : (((ble.connectEnds connect).linkUp ⟨handle, connect.peer, some connect.slot⟩).setSlot
      connect.slot { ble.presence connect.slot with
        probeHandle := handle, connected := true, probing := false }).Paced tickUs :=
    marked.congr rfl rfl rfl rfl rfl rfl
  exact (linked.presenceSeenAddr _).congr rfl rfl rfl rfl rfl rfl

/-- A connect that a waiting slot still has was dialled before the sighting, so its end is
soon after it. -/
theorem Paced.probeDown (paced : ble.Paced tickUs) (inTime : TickRun.InTime ble) {connect : Connect}
    (member : connect ∈ ble.connects) :
    ((ble.connectEnds connect).probeFailed connect.slot).Paced tickUs := by
  have ended : ((ble.connectEnds connect).setSlot connect.slot { ble.presence connect.slot with
      probing := false, lastProbeUs := ble.clockUs }).Paced tickUs := by
    refine paced.connectEnds connect _ rfl rfl le_rfl rfl fun unprobed => ?_
    simp only [Unprobed, presence_setSlot, Function.update_self] at unprobed
    obtain ⟨seen, earlier, _⟩ := paced.timed connect.slot unprobed
    have starts := earlier connect member rfl
    have ends := inTime connect member
    have ticked := paced.ticked
    refine ⟨?_, ?_, .inl ?_⟩
    · rw [presence_setSlot, Function.update_self]
      exact seen
    · rw [presence_setSlot, Function.update_self]
      exact fun other inside => earlier other (List.mem_of_mem_erase inside)
    · simp only [presenceProbeTimeoutMs] at ends
      simp only [Early, presence_setSlot, Function.update_self, presenceProbeTimeoutMs,
        presenceProbeCooldownMs]
      omega
  exact ended.congr rfl rfl rfl rfl rfl rfl

theorem Paced.probeDisconnected (paced : ble.Paced tickUs) (handle : Nat) :
    (ble.probeDisconnected index handle).Paced tickUs := by
  rw [Ble.probeDisconnected]
  split_ifs with own used
  · exact (paced.refresh (holds_self used) { ble.presence index with
      probeHandle := noHandle, probing := false, connected := false, lastSeenUs := ble.clockUs,
      lastProbeUs := ble.clockUs } rfl rfl rfl le_rfl (by simp)).congr rfl rfl rfl rfl rfl rfl
  · have unused : (ble.presence index).used = false := by simpa using used
    exact (paced.idle { ble.presence index with
      probeHandle := noHandle, probing := false, connected := false, lastSeenUs := ble.clockUs,
      lastProbeUs := ble.clockUs } rfl rfl le_rfl (by simp) (.inl unused)).congr rfl rfl rfl rfl rfl rfl
  · exact paced

theorem Paced.gapConnected (paced : ble.Paced tickUs) (peer : Addr) :
    (ble.gapConnected peer).Paced tickUs := by
  have seen := paced.presenceSeenAddr peer
  rw [Ble.gapConnected]
  dsimp only
  split
  · exact seen.idle _ rfl rfl (seen.steady.ended _) id (.inr rfl)
  · exact seen

theorem Paced.gapDisconnected (paced : ble.Paced tickUs) (peer : Addr) :
    (ble.gapDisconnected peer).Paced tickUs := by
  rw [Ble.gapDisconnected]
  split
  · rename_i index found
    exact paced.refresh (slotOf_holds found) _ rfl rfl rfl (paced.steady.ended index) id
  · exact paced

theorem Paced.bondRevoke (paced : ble.Paced tickUs) (addr : Addr) (deleted : Bool) :
    (ble.bondRevoke addr deleted).Paced tickUs := by
  rcases ble.bondRevoke_cases addr deleted with same | ⟨index, found, same⟩ | ⟨missing, same⟩ <;>
    rw [same]
  · exact paced
  · have alters := ble.alters_setSlot index PresenceSlot.cleared
    have freed : (ble.setSlot index PresenceSlot.cleared).Paced tickUs := by
      refine paced.alter alters (paced.steady.alter alters (paced.steady.distinct.clear rfl) ?_ ?_
        paced.steady.left) fun unprobed => ?_
      · rw [presence_setSlot, Function.update_self]
        exact Nat.zero_le _
      · rw [presence_setSlot, Function.update_self]
        simp [PresenceSlot.cleared]
      · have used := unprobed.1
        rw [presence_setSlot, Function.update_self] at used
        cases used
    have noted : ((ble.setSlot index PresenceSlot.cleared).note (.revoked addr)).Paced tickUs :=
      freed.note (fun _ _ => rfl) (by simp)
    exact noted.congr rfl rfl rfl rfl rfl rfl
  · have noted : (ble.note (.revoked addr)).Paced tickUs :=
      paced.note (fun _ _ => rfl) (by simp)
    exact noted.congr rfl rfl rfl rfl rfl rfl

theorem Paced.wipeEvents (paced : ble.Paced tickUs) : ble.wipeEvents.Paced tickUs := by
  have written (index : Fin presenceMax) : ∃ acked, ble.wipeEvents.presence index =
      { ble.presence index with ackEvent := acked } := by
    rw [wipeEvents_presence]
    split_ifs
    · exact ⟨_, rfl⟩
    · exact ⟨(ble.presence index).ackEvent, rfl⟩
  have steady := paced.steady
  refine ⟨⟨?_, steady.closed, steady.started, ?_, ?_, steady.left.cons (by simp)⟩,
    paced.ticked, ?_⟩
  · intro first second addr
    obtain ⟨_, firstIs⟩ := written first
    obtain ⟨_, secondIs⟩ := written second
    rw [Presence.Holds, Presence.Holds, firstIs, secondIs]
    exact steady.distinct first second addr
  · intro index
    obtain ⟨_, same⟩ := written index
    rw [same]
    exact steady.ended index
  · intro index
    obtain ⟨_, same⟩ := written index
    rw [same]
    exact steady.inFlight index
  · intro index unprobed
    obtain ⟨_, same⟩ := written index
    rw [Unprobed, same] at unprobed
    obtain ⟨seen, earlier, due⟩ := paced.timed index unprobed
    refine ⟨?_, ?_, ?_⟩ <;> simp only [Early, Retries, Refused, retryMs, same]
    · exact seen
    · exact earlier
    · exact due

/-- A new timeout leaves the peers whose probes were refused the time for another one. -/
theorem Paced.setTimeout (paced : ble.Paced tickUs) {seconds : Int}
    (fits : ble.RefusesInTime radio (.setTimeout seconds)) :
    ({ ble with timeout := PresenceTimeout.clamp seconds } : Ble).Paced tickUs := by
  have steady := paced.steady
  refine ⟨⟨steady.distinct, steady.closed, steady.started, steady.ended, steady.inFlight,
    steady.left⟩, paced.ticked, fun index unprobed => ?_⟩
  obtain ⟨seen, earlier, early | ⟨refused, _, tick⟩⟩ := paced.timed index unprobed
  · exact ⟨seen, earlier, .inl early⟩
  · exact ⟨seen, earlier, .inr ⟨refused, fits index unprobed refused, tick⟩⟩

theorem Paced.wait (paced : ble.Paced tickUs) (elapsedUs : Nat) :
    (ble.wait elapsedUs).Paced tickUs := by
  have later : ble.clockUs ≤ (ble.wait elapsedUs).clockUs := Nat.le_add_right _ _
  have steady := paced.steady
  refine ⟨⟨steady.distinct, steady.closed, ?_, ?_, steady.inFlight, steady.left⟩,
    paced.ticked.trans later, fun index unprobed => ?_⟩
  · exact fun connect member => (steady.started connect member).trans later
  · exact fun index => (steady.ended index).trans later
  · obtain ⟨seen, earlier, due⟩ := paced.timed index unprobed
    exact ⟨seen.trans later, earlier, due⟩

end Callbacks

end Ble

section Run

variable {radio : Radio} {ticking : TickRun}

/-- Every event that a run allows keeps the slots paced. -/
theorem TickRun.paced_step (paced : ticking.ble.Paced ticking.tickUs) {action : BleAction}
    (allows : ticking.Allows action)
    (refuses : Ble.Meets (Ble.RefusesInTime radio) ticking.ble action) :
    (ticking.step radio action).ble.Paced (ticking.step radio action).tickUs := by
  obtain ⟨elapsedUs, event⟩ := action
  obtain ⟨inTime, expects⟩ := allows
  have waited := paced.wait elapsedUs
  cases event with
  | adv addr => exact waited.presenceSeenAddr addr
  | tick => exact waited.presenceTickCb inTime expects refuses
  | probeUp connect handle => exact waited.probeUp connect handle
  | probeDown connect => exact waited.probeDown inTime expects
  | hidUp handle peer =>
      have linked : ((ticking.ble.wait elapsedUs).linkUp ⟨handle, peer, none⟩).Paced
          ticking.tickUs := waited.congr rfl rfl rfl rfl rfl rfl
      exact linked.gapConnected peer
  | linkDown link =>
      obtain ⟨handle, peer, owner⟩ := link
      have unlinked : ((ticking.ble.wait elapsedUs).linkDown ⟨handle, peer, owner⟩).Paced
          ticking.tickUs := waited.congr rfl rfl rfl rfl rfl rfl
      cases owner with
      | some index => exact unlinked.probeDisconnected handle
      | none => exact unlinked.gapDisconnected peer
  | synced epoch => exact waited.congr rfl rfl rfl rfl rfl rfl
  | unsynced => exact waited.congr rfl rfl rfl rfl rfl rfl
  | wipe => exact waited.wipeEvents
  | setTimeout seconds => exact waited.setTimeout refuses
  | pairingStart ttlMs => exact expects.elim
  | pairingCancel => exact waited.congr rfl rfl rfl rfl rfl waited.steady.closed.symm
  | bondStore bonds => exact waited.congr rfl rfl rfl rfl rfl rfl
  | encChange =>
      have allocated := waited.presencePreallocateBonded
      exact allocated.congr rfl rfl rfl rfl rfl allocated.steady.closed.symm
  | hostSync => exact waited.presencePreallocateBonded.congr rfl rfl rfl rfl rfl rfl
  | revoke addr deleted => exact waited.bondRevoke addr deleted
  | scanRestart => exact waited.congr rfl rfl rfl rfl rfl rfl

theorem TickRun.paced_boot (startUs : Nat) (timeout : PresenceTimeout) (log : List PeerEvent) :
    (TickRun.boot startUs timeout log).ble.Paced (TickRun.boot startUs timeout log).tickUs where
  steady :=
    { distinct := fun _ _ _ holds => absurd holds.1 Bool.false_ne_true
      closed := rfl
      started := fun _ member => absurd member List.not_mem_nil
      ended := fun _ => Nat.zero_le _
      inFlight := by simp [TickRun.boot, Ble.boot, PresenceSlot.cleared]
      left := LeftProbed.nil }
  ticked := le_rfl
  timed _ unprobed := absurd unprobed.1 Bool.false_ne_true

/-- As long as a peer whose probe is refused has a cooldown's time left before its timeout,
a connect to every peer that leaves was accepted since the last sighting of the peer. -/
theorem left_afterProbe (radio : Radio) (startUs : Nat) (timeout : PresenceTimeout)
    (log : List PeerEvent) (actions : List BleAction)
    (guarded : Guarded (TickRun.step radio)
      (fun ticking action => ticking.Allows action ∧
        Ble.Meets (Ble.RefusesInTime radio) ticking.ble action)
      (TickRun.boot startUs timeout log) actions)
    (reached : Ble) (isReached :
      (run (TickRun.step radio) (TickRun.boot startUs timeout log) actions).ble = reached) :
    ∀ newer older addr acked, reached.history = newer ++ .left addr acked :: older →
      ∃ since rest, older = since ++ .dialled addr :: rest ∧ .refreshed addr ∉ since := by
  have paced := run_invariant (fun ticking : TickRun => ticking.ble.Paced ticking.tickUs)
    (fun _ _ paced met => TickRun.paced_step paced met.1 met.2)
    (TickRun.paced_boot startUs timeout log) guarded
  rw [isReached] at paced
  intro newer older addr acked split
  exact probedSince_iff.mp (paced.steady.left newer older addr acked split)

end Run

section Runs

def thirdPhone : Addr := ⟨3, 4, 5, 6, 7, 8⟩

/-- The phones are bonded and seen. At the sixteenth tick the first one is dialled and the
other probes are refused; at the twenty-sixth the second one is dialled. -/
def competing (peers : List Addr) : List BleAction :=
  [⟨0, .bondStore (peers.map fun peer => ⟨peer, .publicAddr⟩)⟩, ⟨0, .synced firstSync⟩] ++
    peers.map (fun peer => ⟨0, .adv peer⟩) ++ secondTicks 25 ++
    [⟨500000, .probeDown ⟨0, phone, .publicId, 16000000⟩⟩, ⟨500000, .tick⟩] ++ secondTicks 9 ++
    [⟨500000, .probeDown ⟨1, otherPhone, .publicId, 26000000⟩⟩, ⟨500000, .tick⟩]

/-- Two phones leave, and the one that had to wait was dialled before. -/
theorem left_afterProbe_twoPhones :
    let reached :=
      (run (TickRun.step Radio.oneConnect) (TickRun.boot 0 .least [])
        (competing [phone, otherPhone])).ble
    ∃ since rest, reached.history.drop 2 = since ++ .dialled otherPhone :: rest ∧
      .refreshed otherPhone ∉ since :=
  left_afterProbe Radio.oneConnect 0 .least [] (competing [phone, otherPhone]) (by decide +kernel)
    _ rfl [.requested .evOut otherPhone] _ otherPhone true (by decide +kernel)

/-- With a third phone the radio is taken whenever that one's probe is due; it leaves
without a connect to it. -/
theorem left_unprobed :
    let reached :=
      (run (TickRun.step Radio.oneConnect) (TickRun.boot 0 .least [])
        (competing [phone, otherPhone, thirdPhone])).ble
    Guarded (TickRun.step Radio.oneConnect) TickRun.Allows (TickRun.boot 0 .least [])
        (competing [phone, otherPhone, thirdPhone]) ∧
      .requested .evOut thirdPhone ∈ reached.history ∧
      ¬ ∀ newer older addr acked, reached.history = newer ++ .left addr acked :: older →
        ∃ since rest, older = since ++ .dialled addr :: rest ∧ .refreshed addr ∉ since := by
  refine ⟨by decide +kernel, by decide +kernel, fun probed => ?_⟩
  have left : .left thirdPhone true ∈ (run (TickRun.step Radio.oneConnect)
      (TickRun.boot 0 .least []) (competing [phone, otherPhone, thirdPhone])).ble.history := by
    decide +kernel
  have undialled : .dialled thirdPhone ∉ (run (TickRun.step Radio.oneConnect)
      (TickRun.boot 0 .least []) (competing [phone, otherPhone, thirdPhone])).ble.history := by
    decide +kernel
  obtain ⟨newer, older, split⟩ := List.append_of_mem left
  obtain ⟨since, rest, olderIs, _⟩ := probed newer older _ _ split
  rw [split, olderIs] at undialled
  simp at undialled

end Runs

end LeanDingdong
