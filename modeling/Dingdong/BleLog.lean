import Dingdong.BleLedger

/-!
The log the presence machine writes. As long as no IN is debounced, the lines of a peer
are its requests since the last wipe, and these alternate.
-/

namespace LeanDingdong

open Runs Presence

/-- The types of the peer's `ble_auto` lines, in file order. -/
def linesOf (addr : Addr) (log : List PeerEvent) : List EventType :=
  (log.filter fun line => line.src = .srcBleAuto ∧ line.peer = some addr).map PeerEvent.type

/-- The peer's requests since the last wipe, in order. -/
def requestsSince (addr : Addr) : List Note → List EventType
  | [] => []
  | .requested type peer :: older =>
      if peer = addr then requestsSince addr older ++ [type] else requestsSince addr older
  | .wiped :: _ => []
  | .claimed _ _ :: older => requestsSince addr older
  | .refreshed _ :: older => requestsSince addr older
  | .dialled _ :: older => requestsSince addr older
  | .left _ _ :: older => requestsSince addr older
  | .revoked _ :: older => requestsSince addr older

def EventType.other : EventType → EventType
  | .evIn => .evOut
  | .evOut => .evIn

/-- In, out, in, out, from the type given on. -/
def Alternates : EventType → List EventType → Prop
  | _, [] => True
  | expected, type :: types => type = expected ∧ Alternates expected.other types

instance : ∀ expected types, Decidable (Alternates expected types)
  | _, [] => isTrue trivial
  | expected, _ :: types =>
      have := instDecidableAlternates expected.other types
      inferInstanceAs (Decidable (_ ∧ _))

/-- The type that comes next. -/
def expectedAfter (expected : EventType) (types : List EventType) : EventType :=
  if types.length % 2 = 0 then expected else expected.other

/-- Notes of a run without revocations and without a slot resumed from the log. -/
def Note.Plain : Note → Prop
  | .claimed _ resumed => resumed = false
  | .revoked _ => False
  | _ => True

section Requests

variable {addr : Addr} {history : List Note} {expected type : EventType} {types : List EventType}

theorem alternates_snoc (alternates : Alternates expected types)
    (next : type = expectedAfter expected types) : Alternates expected (types ++ [type]) := by
  induction types generalizing expected with
  | nil => exact ⟨next, trivial⟩
  | cons first types ih =>
      refine ⟨alternates.1, ih alternates.2 (next.trans ?_)⟩
      rw [expectedAfter, expectedAfter, List.length_cons]
      by_cases even : types.length % 2 = 0
      · have odd : (types.length + 1) % 2 ≠ 0 := by omega
        rw [if_neg odd, if_pos even]
      · have odd : (types.length + 1) % 2 = 0 := by omega
        rw [if_pos odd, if_neg even]
        cases expected <;> rfl

/-- Where the types alternate from an IN on, an IN stands right before each OUT. -/
theorem alternates_out {older newer : List EventType}
    (alternates : Alternates .evIn (older ++ .evOut :: newer)) :
    ∃ rest, older = rest ++ [.evIn] := by
  have split {expected : EventType} {older : List EventType}
      (alternates : Alternates expected (older ++ .evOut :: newer)) :
      expected = .evOut ∧ older = [] ∨ ∃ rest, older = rest ++ [.evIn] := by
    induction older generalizing expected with
    | nil => exact .inl ⟨alternates.1.symm, rfl⟩
    | cons first older ih =>
        refine .inr ?_
        obtain ⟨same, later⟩ := alternates
        rcases ih later with ⟨next, rfl⟩ | ⟨rest, rfl⟩
        · refine ⟨[], ?_⟩
          cases expected with
          | evIn => rw [same]; rfl
          | evOut => cases next
        · exact ⟨first :: rest, rfl⟩
  rcases split alternates with ⟨isOut, _⟩ | preceded
  · cases isOut
  · exact preceded

theorem expectedAfter_snoc (type : EventType) :
    expectedAfter expected (types ++ [type]) = (expectedAfter expected types).other := by
  rw [expectedAfter, expectedAfter, List.length_append, List.length_singleton]
  by_cases even : types.length % 2 = 0
  · have odd : (types.length + 1) % 2 ≠ 0 := by omega
    rw [if_neg odd, if_pos even]
  · have odd : (types.length + 1) % 2 = 0 := by omega
    rw [if_pos odd, if_neg even]
    cases expected <;> rfl

/-- The requests since the last wipe alternate, and the ledger says which comes next. -/
theorem requestsSince_alternate (lawful : Lawful history) (plain : ∀ entry ∈ history, entry.Plain) :
    Alternates .evIn (requestsSince addr history) ∧
      expectedAfter .evIn (requestsSince addr history) =
        (if ledger addr history = some true then .evOut else .evIn) := by
  induction history with
  | nil => exact ⟨trivial, rfl⟩
  | cons entry older ih =>
      obtain ⟨alternates, next⟩ := ih lawful.2 fun entry member =>
        plain entry (List.mem_cons_of_mem _ member)
      have here := plain entry (by simp)
      cases entry with
      | claimed peer resumed =>
          obtain rfl : resumed = false := here
          refine ⟨alternates, next.trans ?_⟩
          rw [ledger_cons, Note.effect]
          by_cases same : peer = addr
          · subst same
            have free : ledger peer older = none := lawful.1
            simp [free]
          · rw [if_neg same]
      | refreshed peer => exact ⟨alternates, next⟩
      | dialled peer => exact ⟨alternates, next⟩
      | left peer acked => exact ⟨alternates, next⟩
      | wiped =>
          refine ⟨trivial, ?_⟩
          rw [ledger_cons, Note.effect, if_neg]
          · rfl
          · cases ledger addr older <;> simp
      | revoked peer => exact here.elim
      | requested type peer =>
          rw [requestsSince, ledger_cons, Note.effect]
          by_cases same : peer = addr
          · subst same
            have state : ledger peer older = some (decide (type = .evOut)) := by
              cases type with
              | evIn => exact lawful.1
              | evOut => exact lawful.1
            have expectedIs : type = expectedAfter .evIn (requestsSince peer older) := by
              rw [next, state]
              cases type <;> rfl
            rw [if_pos rfl, if_pos rfl]
            refine ⟨alternates_snoc alternates expectedIs, ?_⟩
            rw [expectedAfter_snoc, ← expectedIs]
            cases type <;> rfl
          · rw [if_neg same, if_neg same]
            exact ⟨alternates, next⟩

/-- An address that never had a slot has no requests. -/
theorem requestsSince_unheld (lawful : Lawful history) (plain : ∀ entry ∈ history, entry.Plain)
    (none : ledger addr history = none) : requestsSince addr history = [] := by
  induction history with
  | nil => rfl
  | cons entry older ih =>
      have later := ih lawful.2 fun entry member => plain entry (List.mem_cons_of_mem _ member)
      have here := plain entry (by simp)
      rw [ledger_cons] at none
      cases entry with
      | claimed peer resumed =>
          refine later ?_
          rw [Note.effect] at none
          split_ifs at none
          exact none
      | refreshed peer => exact later none
      | dialled peer => exact later none
      | left peer acked => exact later none
      | wiped => rfl
      | revoked peer => exact here.elim
      | requested type peer =>
          rw [Note.effect] at none
          split_ifs at none with same
          rw [requestsSince, if_neg same]
          exact later none

end Requests

/-- The log holds the requests of each peer since the last wipe; an open IN needs a
clock; and a present slot was seen no earlier than the last OUT that is remembered. -/
structure Logged (presence : Presence) (events : EventState) (history : List Note)
    (clockUs : Nat) (epoch : Option ℕ+) : Prop where
  ledgered : Ledgered presence history
  plain : ∀ entry ∈ history, entry.Plain
  lines : ∀ addr, linesOf addr events.log = requestsSince addr history
  sources : ∀ line ∈ events.log, line.src = .srcBleAuto
  synced : ∀ index, (presence index).used = true → (presence index).ackEvent = true →
    epoch.isSome = true
  recorded : ∀ addr last, events.debounce.Remembers .evOut addr last → last ≤ clockUs
  outs : ∀ index addr, presence.Holds index addr → (presence index).present = true →
    ∀ last, events.debounce.Remembers .evOut addr last → last ≤ (presence index).lastSeenUs

/-- A note that is neither a request nor a wipe. -/
def Note.Quiet (entry : Note) : Prop :=
  entry.Plain ∧ ∀ addr older, requestsSince addr (entry :: older) = requestsSince addr older

namespace Logged

variable {presence : Presence} {events : EventState} {history next : List Note} {clockUs : Nat}
  {epoch : Option ℕ+} {index : Fin presenceMax} {addr : Addr} {slot : PresenceSlot}

theorem boot (startUs : Nat) : Logged (fun _ => PresenceSlot.cleared)
    { debounce := DebounceTable.blank, log := [] } [] startUs none where
  ledgered := Ledgered.cleared
  plain _ member := absurd member List.not_mem_nil
  lines _ := rfl
  sources _ member := absurd member List.not_mem_nil
  synced _ used := absurd used Bool.false_ne_true
  recorded _ _ known := absurd known DebounceTable.remembers_blank
  outs _ _ holds := absurd holds.1 Bool.false_ne_true

theorem wait (logged : Logged presence events history clockUs epoch) (elapsedUs : Nat) :
    Logged presence events history (clockUs + elapsedUs) epoch :=
  { logged with
    recorded := fun addr last known =>
      (logged.recorded addr last known).trans (Nat.le_add_right _ _) }

theorem requestsSince_quiet {noted : List Note} (quietly : ∀ entry ∈ noted, entry.Quiet)
    (peer : Addr) : requestsSince peer (noted ++ history) = requestsSince peer history := by
  induction noted with
  | nil => rfl
  | cons entry noted ih =>
      rw [List.cons_append, (quietly entry (by simp)).2]
      exact ih fun other member => quietly other (List.mem_cons_of_mem _ member)

theorem plain_append (logged : Logged presence events history clockUs epoch) {noted : List Note}
    (quietly : ∀ entry ∈ noted, entry.Quiet) : ∀ entry ∈ noted ++ history, entry.Plain := by
  intro entry member
  rcases List.mem_append.mp member with new | old
  · exact (quietly entry new).1
  · exact logged.plain entry old

/-- A slot is written without a request: it is acknowledged only if it was, and it is
present only if it was or is seen now. -/
theorem write (logged : Logged presence events history clockUs epoch) (noted : List Note)
    (quietly : ∀ entry ∈ noted, entry.Quiet)
    (ledgered : Ledgered (Function.update presence index slot) (noted ++ history))
    (acked : slot.used = true → slot.ackEvent = true → epoch.isSome = true)
    (seen : slot.lastSeenUs = clockUs ∨ (slot.used = true → slot.present = true →
      presence.Holds index slot.addr ∧ (presence index).present = true ∧
        slot.lastSeenUs = (presence index).lastSeenUs)) :
    Logged (Function.update presence index slot) events (noted ++ history) clockUs epoch where
  ledgered := ledgered
  plain := logged.plain_append quietly
  lines addr := (logged.lines addr).trans (requestsSince_quiet quietly addr).symm
  sources := logged.sources
  synced other used ackedOther := by
    by_cases here : other = index
    · subst here
      rw [Function.update_self] at used ackedOther
      exact acked used ackedOther
    · rw [Function.update_of_ne here] at used ackedOther
      exact logged.synced other used ackedOther
  recorded := logged.recorded
  outs other addr holds present last known := by
    by_cases here : other = index
    · subst here
      obtain ⟨used, rfl⟩ := holds_update_self.mp holds
      rw [Function.update_self] at present ⊢
      rcases seen with now | before
      · rw [now]
        exact logged.recorded _ last known
      · obtain ⟨held, wasPresent, same⟩ := before used present
        rw [same]
        exact logged.outs other _ held wasPresent last known
    · rw [Function.update_of_ne here] at present ⊢
      exact logged.outs other addr ((holds_update_of_ne here).mp holds) present last known

theorem refreshed_quiet (addr : Addr) : ∀ entry ∈ [Note.refreshed addr], entry.Quiet := by
  simp [Note.Quiet, Note.Plain, requestsSince]

/-- A write that leaves `used`, `addr`, `ack_event` and `present` alone. -/
theorem rewrite (logged : Logged presence events history clockUs epoch) (noted : List Note)
    (quietly : ∀ entry ∈ noted, entry.Quiet)
    (ledgered : Ledgered (Function.update presence index slot) (noted ++ history))
    (sameUsed : slot.used = (presence index).used) (sameAddr : slot.addr = (presence index).addr)
    (sameAck : slot.ackEvent = (presence index).ackEvent)
    (samePresent : slot.present = (presence index).present)
    (seen : slot.lastSeenUs = (presence index).lastSeenUs ∨ slot.lastSeenUs = clockUs) :
    Logged (Function.update presence index slot) events (noted ++ history) clockUs epoch := by
  refine logged.write noted quietly ledgered ?_ ?_
  · intro used acked
    exact logged.synced index (sameUsed ▸ used) (sameAck ▸ acked)
  · rcases seen with same | now
    · exact .inr fun used present =>
        ⟨⟨sameUsed ▸ used, sameAddr.symm⟩, samePresent ▸ present, same⟩
    · exact .inl now

theorem record (logged : Logged presence events history clockUs epoch) {type : EventType}
    {ts : Nat} (noted : List Note) (quietly : ∀ entry ∈ noted, entry.Quiet)
    (holds : presence.Holds index addr)
    (same : slot.addr = addr)
    (ledgered : Ledgered (Function.update presence index slot)
      (.requested type addr :: (noted ++ history)))
    (passes : events.debounce.debounced type addr clockUs = false)
    (acked : slot.ackEvent = true → epoch.isSome = true)
    (seen : slot.present = true → type = .evIn ∧ (presence index).present = true ∧
      slot.lastSeenUs = (presence index).lastSeenUs) :
    Logged (Function.update presence index slot)
      (eventRecord clockUs ts type .srcBleAuto (some addr) events)
      (.requested type addr :: (noted ++ history)) clockUs epoch := by
  have log : (eventRecord clockUs ts type .srcBleAuto (some addr) events).log =
      events.log ++ [⟨ts, clockUs, type, .srcBleAuto, some addr⟩] := eventRecord_passes passes
  constructor
  · exact ledgered
  · intro entry member
    rcases List.mem_cons.mp member with rfl | older
    · exact trivial
    · exact logged.plain_append quietly entry older
  · intro peer
    rw [log, requestsSince, requestsSince_quiet quietly, ← logged.lines, linesOf, linesOf, List.filter_append,
      List.map_append]
    split_ifs with here
    · simp [here]
    · simp [here]
  · intro line member
    rw [log, List.mem_append, List.mem_singleton] at member
    rcases member with old | rfl
    · exact logged.sources line old
    · rfl
  · intro other usedOther ackedOther
    by_cases here : other = index
    · subst here
      rw [Function.update_self] at ackedOther
      exact acked ackedOther
    · rw [Function.update_of_ne here] at usedOther ackedOther
      exact logged.synced other usedOther ackedOther
  · intro peer last known
    rcases eventRecord_remembers known with rfl | old | ⟨_, _, rfl⟩
    · exact Nat.zero_le _
    · exact logged.recorded peer last old
    · exact le_rfl
  · intro other peer held present last known
    by_cases here : other = index
    · subst here
      obtain ⟨_, rfl⟩ := holds_update_self.mp held
      rw [Function.update_self] at present ⊢
      obtain ⟨rfl, wasPresent, sameSeen⟩ := seen present
      rw [sameSeen]
      rcases eventRecord_remembers known with rfl | old | ⟨isOut, _, _⟩
      · exact Nat.zero_le _
      · exact logged.outs other _ (same ▸ holds) wasPresent last old
      · cases isOut
    · have heldBefore := (holds_update_of_ne here).mp held
      rw [Function.update_of_ne here] at present ⊢
      rcases eventRecord_remembers known with rfl | old | ⟨_, rfl, _⟩
      · exact Nat.zero_le _
      · exact logged.outs other peer heldBefore present last old
      · exact absurd (logged.ledgered.distinct other index _ heldBefore holds) here

theorem claim (logged : Logged presence events history clockUs epoch)
    (ledgered : Ledgered (Function.update presence index slot) (.claimed addr false :: history))
    (unacked : slot.ackEvent = false) (absent : slot.present = false) :
    Logged (Function.update presence index slot) events (.claimed addr false :: history) clockUs
      epoch :=
  logged.write [.claimed addr false] (by simp [Note.Quiet, Note.Plain, requestsSince]) ledgered
    (fun _ acked => absurd (unacked.symm.trans acked) Bool.false_ne_true)
    (.inr fun _ present => absurd (absent.symm.trans present) Bool.false_ne_true)

end Logged

abbrev Ble.Logs (ble : Ble) : Prop :=
  Logged ble.presence ble.events ble.history ble.clockUs ble.epoch

/-- An IN of the address would not be debounced now. -/
def Ble.InPasses (ble : Ble) (addr : Addr) : Prop :=
  ble.events.debounce.debounced .evIn addr ble.clockUs = false

instance (ble : Ble) (addr : Addr) : Decidable (ble.InPasses addr) :=
  inferInstanceAs (Decidable (_ = _))

section Callbacks

variable {ble : Ble} {index : Fin presenceMax}

theorem Logged.touch (logged : ble.Logs) (used : (ble.presence index).used = true) :
    (ble.touch index).Logs :=
  logged.write [.refreshed _] (Logged.refreshed_quiet _) (logged.ledgered.touch used)
    (fun _ acked => logged.synced index used acked) (.inl rfl)

theorem Logged.acknowledge (logged : ble.Logs) (used : (ble.presence index).used = true)
    (present : (ble.presence index).present = true)
    (passes : (ble.presence index).ackEvent = false → ble.epoch.isSome = true →
      ble.InPasses (ble.presence index).addr) : (ble.acknowledge index).Logs := by
  have ledgered := logged.ledgered.acknowledge used present
  rcases ble.acknowledge_cases index with same | ⟨unacked, clock, same⟩
  · rwa [same]
  · have synced := Ble.nowUnix_pos.mp clock
    rw [same] at ledgered ⊢
    exact logged.record [] (fun _ member => absurd member List.not_mem_nil) (holds_self used) rfl ledgered
      (passes unacked synced) (fun _ => synced) fun _ => ⟨rfl, present, rfl⟩

/-- A sighting that requests an IN finds none of the peer remembered. -/
def Ble.SightingPasses (ble : Ble) (addr : Addr) : Prop :=
  ble.epoch.isSome = true →
    (∀ index, ble.slotOf addr = some index → (ble.presence index).ackEvent = false) →
      ble.InPasses addr

instance (ble : Ble) (addr : Addr) : Decidable (ble.SightingPasses addr) :=
  inferInstanceAs (Decidable (_ → _ → _))

theorem Logged.presenceSeenAddr (logged : ble.Logs) {addr : Addr}
    (passes : ble.SightingPasses addr) : (ble.presenceSeenAddr addr).Logs := by
  have seen {ble : Ble} (logged : ble.Logs) {index : Fin presenceMax}
      (used : (ble.presence index).used = true)
      (passes : (ble.presence index).ackEvent = false → ble.epoch.isSome = true →
        ble.InPasses (ble.presence index).addr) : ((ble.touch index).acknowledge index).Logs := by
    refine (logged.touch used).acknowledge ?_ ?_ ?_ <;>
      rw [Ble.touch, Ble.presence_note, Ble.presence_setSlot, Function.update_self]
    · exact used
    · exact passes
  rcases ble.presenceSeenAddr_cases addr with
    same | ⟨index, holds, same⟩ | ⟨index, type, claims, unheld, unused, same⟩
  · rwa [same]
  · rw [same]
    refine seen logged holds.1 fun unacked synced => ?_
    rw [holds.2]
    refine passes synced fun other found => ?_
    have held := Ble.slotOf_holds found
    rw [logged.ledgered.distinct other index addr held holds]
    exact unacked
  · have claimed : (ble.claimSeen index addr type).Logs :=
      logged.claim (logged.ledgered.claim unheld unused rfl (by simp)) rfl rfl
    rw [same]
    refine seen claimed ?_ fun _ synced => ?_
    · rw [Ble.claimSeen, Ble.presence_note, Ble.presence_setSlot, Function.update_self]
    · rw [Ble.claimSeen, Ble.presence_note, Ble.presence_setSlot, Function.update_self]
      exact passes synced fun other found => absurd (Ble.slotOf_holds found) (unheld other)

theorem Logged.geofence (logged : ble.Logs) (used : (ble.presence index).used = true) :
    (ble.geofence index).Logs := by
  have ledgered := logged.ledgered.geofence used
  cases linked : (ble.presence index).connected with
  | false => rwa [Ble.geofence_idle linked]
  | true =>
      rw [Ble.geofence_connected linked] at ledgered ⊢
      refine logged.write [.refreshed _] (Logged.refreshed_quiet _) ledgered ?_ (.inl rfl)
      intro _ acked
      refine logged.synced index used ?_
      dsimp only at acked
      split_ifs at acked
      exact acked

theorem Logged.presenceProbeStart (logged : ble.Logs) (radio : Radio) :
    (Ble.presenceProbeStart radio ble index).Logs := by
  have ledgered : Ledgered (Ble.presenceProbeStart radio ble index).presence
      (Ble.presenceProbeStart radio ble index).history := logged.ledgered.presenceProbeStart radio
  rcases Ble.presenceProbeStart_cases radio ble index with
    ⟨_, same⟩ | ⟨_, _, ⟨_, same⟩ | ⟨_, _, same⟩ | ⟨_, _, same⟩⟩ <;> rw [same] at ledgered ⊢
  · exact logged
  · exact logged.rewrite [] (by simp) ledgered rfl rfl rfl rfl (.inl rfl)
  · exact logged.rewrite [.dialled _] (by simp [Note.Quiet, Note.Plain, requestsSince]) ledgered
      rfl rfl rfl rfl (.inl rfl)
  · exact logged.rewrite [] (by simp) ledgered rfl rfl rfl rfl (.inl rfl)

/-- No OUT is debounced: the last one remembered came before the slot was seen, more
than the timeout ago. -/
theorem Logged.outPasses (logged : ble.Logs) (used : (ble.presence index).used = true)
    (present : (ble.presence index).present = true) (due : ble.outDue index = true) :
    ble.events.debounce.debounced .evOut (ble.presence index).addr ble.clockUs = false := by
  by_contra dropped
  rw [Bool.not_eq_false] at dropped
  obtain ⟨last, known, recent⟩ := DebounceTable.debounced_remembers dropped
  have seen := logged.outs index _ (holds_self used) present last known
  rw [Ble.outDue, decide_eq_true_eq, Ble.sinceMs, PresenceTimeout.ms] at due
  have lower := ble.timeout.lower
  have late := due.1
  rw [debounceUs] at recent
  omega

theorem Logged.leave (logged : ble.Logs) (used : (ble.presence index).used = true)
    (present : (ble.presence index).present = true) (due : ble.outDue index = true) :
    (ble.leave index).Logs := by
  have synced := logged.synced index used
  have ledgered := logged.ledgered.leave used fun acked => Ble.nowUnix_pos.mpr (synced acked)
  have passes := logged.outPasses used present due
  have quietly (acked : Bool) :
      ∀ entry ∈ [Note.left (ble.presence index).addr acked], entry.Quiet := by
    simp [Note.Quiet, Note.Plain, requestsSince]
  rw [Ble.leave] at ledgered ⊢
  split_ifs at ledgered ⊢ with requests
  · exact logged.record [.left _ _] (quietly _) (holds_self used) rfl ledgered passes (by simp)
      (by simp)
  · exact logged.write [.left _ _] (quietly _) ledgered (by simp) (.inr (by simp))

/-- A turn of the tick that requests an IN finds none of the peer remembered. -/
def Ble.TurnPasses (ble : Ble) (index : Fin presenceMax) : Prop :=
  (ble.presence index).used = true →
    (ble.presence index).present = true ∨ (ble.presence index).connected = true →
      (ble.presence index).ackEvent = false → ble.epoch.isSome = true →
        ble.InPasses (ble.presence index).addr

instance (ble : Ble) (index : Fin presenceMax) : Decidable (ble.TurnPasses index) :=
  inferInstanceAs (Decidable (_ → _ → _ → _ → _))

theorem Logged.tickSlot (logged : ble.Logs) (radio : Radio) (passes : ble.TurnPasses index) :
    (Ble.tickSlot radio ble index).Logs := by
  refine (Ble.tickSlot_kept (P := fun next => next.Logs ∧ next.TurnPasses index)
    ?_ ?_ ?_ ?_ ⟨logged, passes⟩).1
  · rintro next used ⟨kept, passes⟩
    refine ⟨kept.geofence used, ?_⟩
    cases linked : (next.presence index).connected with
    | false => rwa [Ble.geofence_idle linked]
    | true =>
        rw [Ble.geofence_connected linked]
        intro _ _ unacked synced
        rw [Ble.presence_note, Ble.presence_setSlot, Function.update_self] at unacked ⊢
        refine passes used (.inr linked) ?_ synced
        by_contra acked
        rw [Bool.not_eq_false] at acked
        have present := kept.ledgered.acked index used acked
        rw [present, if_pos rfl] at unacked
        exact absurd (unacked.symm.trans acked) Bool.false_ne_true
  · rintro next used present ⟨kept, passes⟩
    refine ⟨kept.acknowledge used present (passes used (.inl present)), ?_⟩
    rcases next.acknowledge_cases index with same | ⟨_, _, same⟩ <;> rw [same]
    · exact passes
    · intro _ _ unacked
      rw [Ble.presence_setSlot, Function.update_self] at unacked
      cases unacked
  · rintro next used apart ⟨kept, passes⟩
    refine ⟨kept.presenceProbeStart radio, ?_⟩
    rcases Ble.presenceProbeStart_cases radio next index with
      ⟨_, same⟩ | ⟨_, _, ⟨_, same⟩ | ⟨_, _, same⟩ | ⟨_, _, same⟩⟩ <;> rw [same]
    · exact passes
    all_goals
      intro _ active unacked synced
      simp only [Ble.presence_note, Ble.presence_setSlot, Ble.presence_scheduleScanRestart,
        Function.update_self] at active unacked ⊢
      exact passes used active unacked synced
  · rintro next used apart present due ⟨kept, _⟩
    refine ⟨kept.leave used present due, ?_⟩
    rintro _ (stays | linked) <;> rw [Ble.leave_presence, Function.update_self] at *
    · cases stays
    · exact absurd (apart.symm.trans linked) Bool.false_ne_true

theorem Logged.probeFailed (logged : ble.Logs) : (ble.probeFailed index).Logs :=
  logged.rewrite [] (by simp) logged.ledgered.probeFailed rfl rfl rfl rfl (.inl rfl)

theorem Logged.probeConnected (logged : ble.Logs) {handle : Nat}
    (passes : ble.SightingPasses (ble.presence index).addr) :
    (ble.probeConnected index handle).Logs := by
  set slot := { ble.presence index with
    probeHandle := handle, connected := true, probing := false } with slotIs
  have ledgered : Ledgered (Function.update ble.presence index slot) ble.history :=
    logged.ledgered.rewrite rfl rfl rfl rfl
  have marked : (ble.setSlot index slot).Logs :=
    logged.rewrite [] (by simp) ledgered rfl rfl rfl rfl (.inl rfl)
  refine Logged.presenceSeenAddr marked fun synced unacked => passes synced fun other found => ?_
  have keeps : (ble.setSlot index slot).presence.Holds other (ble.presence index).addr ↔
      ble.presence.Holds other (ble.presence index).addr := holds_update_same rfl rfl
  have held := keeps.mpr (Ble.slotOf_holds found)
  have same := unacked other (Ble.slotOf_eq ledgered.distinct held)
  rw [Ble.presence_setSlot] at same
  by_cases here : other = index
  · rw [here, Function.update_self] at same
    rw [here]
    exact same
  · rwa [Function.update_of_ne here] at same

theorem Logged.probeDisconnected (logged : ble.Logs) (handle : Nat) :
    (ble.probeDisconnected index handle).Logs := by
  have ledgered : Ledgered (ble.probeDisconnected index handle).presence
      (ble.probeDisconnected index handle).history := logged.ledgered.probeDisconnected handle
  rw [Ble.probeDisconnected] at ledgered ⊢
  split_ifs at ledgered ⊢
  · exact logged.rewrite [.refreshed _] (Logged.refreshed_quiet _) ledgered rfl rfl rfl rfl
      (.inr rfl)
  · exact logged.rewrite [] (by simp) ledgered rfl rfl rfl rfl (.inr rfl)
  · exact logged

theorem Logged.gapConnected (logged : ble.Logs) {peer : Addr} (passes : ble.SightingPasses peer) :
    (ble.gapConnected peer).Logs := by
  have seen := logged.presenceSeenAddr passes
  have ledgered := logged.ledgered.gapConnected peer
  rw [Ble.gapConnected] at ledgered ⊢
  dsimp only at ledgered ⊢
  split at ledgered
  · exact seen.rewrite [] (by simp) ledgered rfl rfl rfl rfl (.inl rfl)
  · exact seen

theorem Logged.gapDisconnected (logged : ble.Logs) (peer : Addr) :
    (ble.gapDisconnected peer).Logs := by
  have ledgered := logged.ledgered.gapDisconnected peer
  rw [Ble.gapDisconnected] at ledgered ⊢
  split at ledgered
  · exact logged.rewrite [.refreshed _] (Logged.refreshed_quiet _) ledgered rfl rfl rfl rfl
      (.inr rfl)
  · exact logged

/-- Nothing is resumed: an address without a slot has no line in the log. -/
theorem Logged.preallocateBond (logged : ble.Logs) (bond : Bond) :
    (ble.preallocateBond bond).Logs := by
  rcases ble.preallocateBond_cases bond with same | ⟨index, _, unheld, unused, same⟩
  · rwa [same]
  · have free := logged.ledgered.unheld _ unheld
    have empty : linesOf bond.addr ble.events.log = [] :=
      (logged.lines _).trans (requestsSince_unheld logged.ledgered.lawful logged.plain free)
    have absent : latestForPeer ble.events.log bond.addr = none := by
      refine latestForPeer_absent fun line member peer => ?_
      have listed : line.type ∈ linesOf bond.addr ble.events.log :=
        List.mem_map_of_mem (List.mem_filter.mpr
          ⟨member, decide_eq_true ⟨logged.sources line member, peer⟩⟩)
      rw [empty] at listed
      cases listed
    have wasIn : ble.wasIn bond.addr = false := by
      rw [Ble.wasIn, absent]
      rfl
    have ledgered := logged.ledgered.preallocateBond bond
    rw [same, Ble.claimBonded, wasIn] at ledgered ⊢
    exact logged.claim ledgered wasIn wasIn

theorem Logged.wipeEvents (logged : ble.Logs) : ble.wipeEvents.Logs where
  ledgered := logged.ledgered.wipeEvents
  plain entry member := by
    rcases List.mem_cons.mp member with rfl | older
    · exact trivial
    · exact logged.plain entry older
  lines _ := rfl
  sources _ member := absurd member List.not_mem_nil
  synced index used acked := by
    rw [ble.wipeEvents_presence] at used acked
    split_ifs at used acked
    exact logged.synced index used acked
  recorded := logged.recorded
  outs index addr holds present last known := by
    rw [Presence.Holds, ble.wipeEvents_presence] at holds
    rw [ble.wipeEvents_presence] at present ⊢
    split_ifs at holds present ⊢
    · exact logged.outs index addr holds present last known
    · exact logged.outs index addr holds present last known

end Callbacks

/-- No bond is revoked and the clock keeps its sync. -/
def BleEvent.Steady : BleEvent → Prop
  | .revoke _ _ => False
  | .unsynced => False
  | _ => True

/-- Whenever an IN is requested, the debounce table remembers no IN of that peer from the
last 10 seconds. -/
def Ble.InsPass (radio : Radio) (ble : Ble) : BleEvent → Prop
  | .adv addr => ble.SightingPasses addr
  | .probeUp connect _ => ble.SightingPasses (ble.presence connect.slot).addr
  | .hidUp _ peer => ble.SightingPasses peer
  | .tick =>
      Guarded (Ble.tickSlot radio) (fun next index => next.TurnPasses index) ble
        (List.finRange presenceMax)
  | _ => True

instance BleEvent.decidableSteady : ∀ event : BleEvent, Decidable event.Steady
  | .revoke _ _ | .unsynced => isFalse id
  | .adv _ | .tick | .probeUp _ _ | .probeDown _ | .hidUp _ _ | .linkDown _ | .synced _ | .wipe
  | .setTimeout _ | .pairingStart _ | .pairingCancel | .bondStore _ | .encChange | .hostSync
  | .scanRestart => isTrue trivial

instance Ble.decidableInsPass (radio : Radio) (ble : Ble) :
    ∀ event, Decidable (ble.InsPass radio event)
  | .adv _ | .probeUp _ _ | .hidUp _ _ => inferInstanceAs (Decidable (Ble.SightingPasses _ _))
  | .tick => inferInstanceAs (Decidable (Guarded _ _ _ _))
  | .probeDown _ | .linkDown _ | .synced _ | .unsynced | .wipe | .setTimeout _
  | .pairingStart _ | .pairingCancel | .bondStore _ | .encChange | .hostSync | .revoke _ _
  | .scanRestart => isTrue trivial

section Run

variable {radio : Radio} {ble : Ble}

theorem Logged.perform (logged : ble.Logs) {event : BleEvent} (steady : event.Steady)
    (passes : ble.InsPass radio event) : (ble.perform radio event).Logs := by
  have preallocated : ble.presencePreallocateBonded.Logs :=
    run_kept Ble.Logs (fun _ bond kept => kept.preallocateBond bond) logged
  cases event with
  | adv addr => exact logged.presenceSeenAddr passes
  | tick => exact run_invariant Ble.Logs (fun _ _ kept here => kept.tickSlot radio here) logged passes
  | probeUp connect handle =>
      have moved : ((ble.connectEnds connect).linkUp
          ⟨handle, connect.peer, some connect.slot⟩).Logs := logged
      exact moved.probeConnected passes
  | probeDown connect =>
      have moved : (ble.connectEnds connect).Logs := logged
      exact moved.probeFailed
  | hidUp handle peer =>
      have moved : (ble.linkUp ⟨handle, peer, none⟩).Logs := logged
      exact moved.gapConnected passes
  | linkDown link =>
      obtain ⟨handle, peer, owner⟩ := link
      have moved : (ble.linkDown ⟨handle, peer, owner⟩).Logs := logged
      cases owner with
      | some index => exact moved.probeDisconnected handle
      | none => exact moved.gapDisconnected peer
  | synced epoch => exact { logged with synced := fun _ _ _ => rfl }
  | unsynced => exact steady.elim
  | wipe => exact logged.wipeEvents
  | setTimeout seconds => exact logged
  | pairingStart ttlMs => exact logged
  | pairingCancel => exact logged
  | bondStore bonds => exact logged
  | encChange => exact preallocated
  | hostSync => exact preallocated
  | revoke addr deleted => exact steady.elim
  | scanRestart => exact logged

/-- From an empty log, and as long as no IN is requested while the debounce table
remembers an IN of its peer from the last 10 seconds, the lines of each peer alternate
from an IN on, and an IN stands right before each OUT. -/
theorem presenceLog_alternates (radio : Radio) (startUs : Nat) (timeout : PresenceTimeout)
    (actions : List BleAction)
    (guarded : Guarded (Ble.step radio)
      (Ble.Meets fun ble event => event.Steady ∧ ble.InsPass radio event)
      (Ble.boot startUs timeout []) actions)
    (reached : Ble) (isReached : run (Ble.step radio) (Ble.boot startUs timeout []) actions = reached)
    (addr : Addr) :
    Alternates .evIn (linesOf addr reached.events.log) ∧
      ∀ older newer, linesOf addr reached.events.log = older ++ .evOut :: newer →
        ∃ rest, older = rest ++ [.evIn] := by
  have logged : reached.Logs := by
    rw [← isReached]
    refine run_invariant Ble.Logs ?_ (Logged.boot startUs) guarded
    intro ble action logged met
    have waited : (ble.wait action.elapsedUs).Logs := logged.wait action.elapsedUs
    exact waited.perform met.1 met.2
  have alternates : Alternates .evIn (linesOf addr reached.events.log) := by
    rw [logged.lines]
    exact (requestsSince_alternate logged.ledgered.lawful logged.plain).1
  exact ⟨alternates, fun older newer split => alternates_out (split ▸ alternates)⟩

end Run

section Runs

theorem presenceLog_alternates_absence :
    Alternates .evIn (linesOf phone (run (Ble.step Radio.oneConnect) (Ble.boot 0 .least [])
      (absence (secondTicks 1))).events.log) := by
  have result := presenceLog_alternates Radio.oneConnect 0 .least (absence (secondTicks 1))
    (by decide +kernel) _ rfl phone
  generalize run (Ble.step Radio.oneConnect) _ _ = reached at result ⊢
  exact result.1

/-- The log is wiped three seconds after the phone was seen; then it stays away. -/
def earlyWipe : List BleAction :=
  [⟨0, .bondStore [⟨phone, .publicAddr⟩]⟩, ⟨0, .synced firstSync⟩, ⟨0, .adv phone⟩] ++
    secondTicks 3 ++ [⟨0, .wipe⟩] ++ secondTicks 22 ++
    [⟨500000, .probeDown ⟨0, phone, .publicId, 17000000⟩⟩, ⟨500000, .tick⟩] ++ secondTicks 5

/-- The IN after the wipe is debounced but acknowledged, so the log holds only the OUT. -/
theorem presenceLog_orphan :
    Guarded (Ble.step Radio.oneConnect) (Ble.Meets fun _ event => event.Steady)
        (Ble.boot 1000000 .least []) earlyWipe ∧
      linesOf phone (run (Ble.step Radio.oneConnect) (Ble.boot 1000000 .least [])
        earlyWipe).events.log = [.evOut] ∧
      ¬ Alternates .evIn [.evOut] := by
  decide +kernel

end Runs

end LeanDingdong
