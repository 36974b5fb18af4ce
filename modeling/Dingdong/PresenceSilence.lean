import Dingdong.BleProbes
import Dingdong.PresenceRestarts

/-!
How long a silent phone is shown as in. Where the tick comes on time and the connects of the
probes end on time, the slot of a phone that keeps silent is absent soon after its timeout; and
where the log tells the stays, the phone's stay is closed with it.
-/

namespace LeanDingdong

open Runs Presence

/-- The timeout a step puts in force. -/
def PresenceStep.newTimeout : PresenceStep → Option PresenceTimeout
  | .act ⟨_, .setTimeout seconds⟩ => some (PresenceTimeout.clamp seconds)
  | .restart _ timeout => some timeout
  | _ => none

/-- The machine over a life, with the time of its last tick. -/
structure PresenceLife where
  ble : Ble
  tickUs : Nat

namespace PresenceLife

def boot (startUs : Nat) (timeout : PresenceTimeout) : PresenceLife where
  ble := Ble.boot startUs timeout []
  tickUs := startUs

/-- The machine as the step finds it. -/
def before (life : PresenceLife) : PresenceStep → Ble
  | .act action => life.ble.wait action.elapsedUs
  | .entered elapsedUs _ _ => life.ble.wait elapsedUs
  | .restart _ _ => life.ble

/-- The tick's timer starts again with the device. -/
def step (radio : Radio) (life : PresenceLife) (step : PresenceStep) : PresenceLife where
  ble := life.ble.live radio step
  tickUs := match step with
    | .act ⟨elapsedUs, .tick⟩ => (life.ble.wait elapsedUs).clockUs
    | .restart syncUs _ => syncUs
    | _ => life.tickUs

/-- Ticks are at most the period apart, connects end within the time they were given, and no
timeout is above the limit. -/
def OnTime (limit periodUs : Nat) (life : PresenceLife) (step : PresenceStep) : Prop :=
  (life.before step).clockUs ≤ life.tickUs + periodUs ∧ TickRun.InTime (life.before step) ∧
    ∀ timeout ∈ step.newTimeout, timeout.seconds ≤ limit

instance (limit periodUs : Nat) (life : PresenceLife) (step : PresenceStep) :
    Decidable (life.OnTime limit periodUs step) :=
  inferInstanceAs (Decidable (_ ∧ _ ∧ _))

end PresenceLife

/-- With no timeout above the limit, the slot is not probed later than this as long as its phone
keeps silent. -/
def PresenceSlot.lastCallUs (slot : PresenceSlot) (limit : Nat) : Nat :=
  slot.lastSeenUs + limit * 1000000 + 999

theorem PresenceSlot.seen_le_lastCall (slot : PresenceSlot) (limit : Nat) :
    slot.lastSeenUs ≤ slot.lastCallUs limit := by
  rw [lastCallUs]
  omega

namespace Ble

/-- A probe of the slot is a connect in flight, dialled in time. -/
def Dialling (limit : Nat) (ble : Ble) (index : Fin presenceMax) : Prop :=
  (ble.presence index).probing = true → ∃ connect ∈ ble.connects, connect.slot = index ∧
    ((ble.presence index).present = true →
      connect.startUs ≤ (ble.presence index).lastCallUs limit)

/-- At that time a slot that is present without a link has not been silent for longer than a
probe after its last call. -/
def Fresh (limit atUs : Nat) (ble : Ble) (index : Fin presenceMax) : Prop :=
  (ble.presence index).used = true → (ble.presence index).present = true →
    (ble.presence index).connected = false →
      atUs ≤ (ble.presence index).lastCallUs limit + presenceProbeTimeoutMs * 1000

/-- The slots at a time after the tick at `tickUs`. -/
structure Prompt (limit tickUs : Nat) (ble : Ble) : Prop where
  bounded : ble.timeout.seconds ≤ limit
  ticked : tickUs ≤ ble.clockUs
  started : ∀ connect ∈ ble.connects, connect.startUs ≤ ble.clockUs
  dialling : ∀ index, ble.Dialling limit index
  fresh : ∀ index, ble.Fresh limit tickUs index

end Ble

section Writes

variable {limit tickUs atUs : Nat} {ble next : Ble} {index : Fin presenceMax} {addr : Addr}
  {slot : PresenceSlot}

namespace Ble.Prompt

theorem booted (startUs : Nat) {timeout : PresenceTimeout} (log : List PeerEvent)
    (bounded : timeout.seconds ≤ limit) : (Ble.boot startUs timeout log).Prompt limit startUs where
  bounded := bounded
  ticked := le_rfl
  started _ member := absurd member List.not_mem_nil
  dialling _ probing := absurd probing Bool.false_ne_true
  fresh _ used := absurd used Bool.false_ne_true

/-- A change of one slot and of its connects. -/
theorem alter (prompt : ble.Prompt limit tickUs) (alters : ble.Alters next index)
    (dialling : next.Dialling limit index) (fresh : next.Fresh limit tickUs index) :
    next.Prompt limit tickUs where
  bounded := alters.timeout.symm ▸ prompt.bounded
  ticked := prompt.ticked.trans alters.clock.ge
  started connect member := by
    rw [alters.clock]
    rcases alters.started connect member with known | new
    · exact prompt.started connect known
    · exact new.le
  dialling other := by
    by_cases here : other = index
    · exact here ▸ dialling
    · rw [Ble.Dialling, alters.others other here]
      intro probing
      obtain ⟨connect, member, own, early⟩ := prompt.dialling other probing
      exact ⟨connect, (alters.connects connect (own ▸ here)).mpr member, own, early⟩
  fresh other := by
    by_cases here : other = index
    · exact here ▸ fresh
    · rw [Ble.Fresh, alters.others other here]
      exact prompt.fresh other

/-- What the slots do not show of their times, and the rest. -/
theorem congr (prompt : ble.Prompt limit tickUs) (presence : next.presence = ble.presence)
    (connects : next.connects = ble.connects) (clock : next.clockUs = ble.clockUs)
    (timeout : next.timeout = ble.timeout) : next.Prompt limit tickUs where
  bounded := timeout.symm ▸ prompt.bounded
  ticked := prompt.ticked.trans clock.ge
  started connect member := clock.symm ▸ prompt.started connect (connects ▸ member)
  dialling index := by
    rw [Ble.Dialling, presence, connects]
    exact prompt.dialling index
  fresh index := by
    rw [Ble.Fresh, presence]
    exact prompt.fresh index

/-- The slot is as silent as it was, or more absent. -/
theorem kept (fresh : ble.Fresh limit atUs index)
    (same : (next.presence index).lastSeenUs = (ble.presence index).lastSeenUs)
    (used : (next.presence index).used = (ble.presence index).used)
    (present : (next.presence index).present = true → (ble.presence index).present = true)
    (apart : (next.presence index).connected = false → (ble.presence index).connected = false) :
    next.Fresh limit atUs index := by
  intro isUsed isPresent isApart
  have bound := fresh (used ▸ isUsed) (present isPresent) (apart isApart)
  rwa [PresenceSlot.lastCallUs, same]

/-- A write that starts no probe: a present slot is seen now, or is as silent as it was. -/
theorem write (prompt : ble.Prompt limit tickUs)
    (probing : slot.probing = true → (ble.presence index).probing = true)
    (seen : slot.present = true → slot.lastSeenUs = ble.clockUs ∨
      slot.lastSeenUs = (ble.presence index).lastSeenUs ∧ (ble.presence index).present = true ∧
        slot.used = (ble.presence index).used ∧
          (slot.connected = false → (ble.presence index).connected = false)) :
    (ble.setSlot index slot).Prompt limit tickUs := by
  refine prompt.alter (ble.alters_setSlot index slot) ?_ ?_
  · rw [Ble.Dialling, Ble.presence_setSlot, Function.update_self]
    intro isProbing
    obtain ⟨connect, member, own, early⟩ := prompt.dialling index (probing isProbing)
    refine ⟨connect, member, own, fun present => ?_⟩
    rcases seen present with now | ⟨same, wasPresent, _⟩
    · exact ((prompt.started connect member).trans now.ge).trans (slot.seen_le_lastCall limit)
    · rw [PresenceSlot.lastCallUs, same]
      exact early wasPresent
  · rw [Ble.Fresh, Ble.presence_setSlot, Function.update_self]
    intro used present apart
    rcases seen present with now | ⟨same, wasPresent, wasUsed, wasApart⟩
    · have called := (prompt.ticked.trans now.ge).trans (slot.seen_le_lastCall limit)
      exact called.trans (Nat.le_add_right _ _)
    · have bound := prompt.fresh index (wasUsed ▸ used) wasPresent (wasApart apart)
      rwa [PresenceSlot.lastCallUs, same]

theorem note (prompt : ble.Prompt limit tickUs) (entry : Note) :
    (ble.note entry).Prompt limit tickUs :=
  prompt.congr rfl rfl rfl rfl

theorem touch (prompt : ble.Prompt limit tickUs) : (ble.touch index).Prompt limit tickUs := by
  refine note (prompt.write ?_ ?_) _
  · exact fun probing => probing
  · exact fun _ => .inl rfl

theorem acknowledge (prompt : ble.Prompt limit tickUs) :
    (ble.acknowledge index).Prompt limit tickUs := by
  rcases ble.acknowledge_cases index with same | ⟨_, _, same⟩ <;> rw [same]
  · exact prompt
  · have recorded : (ble.record .evIn (ble.presence index).addr).Prompt limit tickUs :=
      prompt.congr rfl rfl rfl rfl
    exact recorded.write (fun probing => probing) fun present =>
      .inr ⟨rfl, present, rfl, fun apart => apart⟩

theorem presenceSeenAddr (prompt : ble.Prompt limit tickUs) (addr : Addr) :
    (ble.presenceSeenAddr addr).Prompt limit tickUs := by
  rcases ble.presenceSeenAddr_cases addr with
    same | ⟨index, _, same⟩ | ⟨index, type, _, _, _, same⟩ <;> rw [same]
  · exact prompt
  · exact prompt.touch.acknowledge
  · have claimed : (ble.claimSeen index addr type).Prompt limit tickUs := by
      refine note (prompt.write ?_ ?_) _
      · exact fun probing => absurd probing Bool.false_ne_true
      · exact fun present => absurd present Bool.false_ne_true
    exact claimed.touch.acknowledge

theorem geofence (prompt : ble.Prompt limit tickUs) : (ble.geofence index).Prompt limit tickUs := by
  cases linked : (ble.presence index).connected with
  | false => rwa [Ble.geofence_idle linked]
  | true =>
      rw [Ble.geofence_connected linked]
      refine note (prompt.write ?_ ?_) _
      · exact fun probing => probing
      · exact fun _ => .inl rfl

theorem leave (prompt : ble.Prompt limit tickUs) : (ble.leave index).Prompt limit tickUs := by
  rw [Ble.leave]
  split_ifs
  · have recorded : ((ble.note (.left (ble.presence index).addr
        (ble.presence index).ackEvent)).record .evOut (ble.presence index).addr).Prompt
          limit tickUs := prompt.congr rfl rfl rfl rfl
    exact recorded.write (fun probing => probing) fun present => absurd present Bool.false_ne_true
  · have noted : (ble.note (.left (ble.presence index).addr
        (ble.presence index).ackEvent)).Prompt limit tickUs := prompt.congr rfl rfl rfl rfl
    exact noted.write (fun probing => probing) fun present => absurd present Bool.false_ne_true

/-- A probe starts in time for a slot that is present. -/
theorem presenceProbeStart (prompt : ble.Prompt limit tickUs) (radio : Radio)
    (distinct : ble.presence.Distinct) (used : (ble.presence index).used = true)
    (inside : (ble.presence index).present = true →
      ble.clockUs ≤ (ble.presence index).lastCallUs limit) :
    (Ble.presenceProbeStart radio ble index).Prompt limit tickUs := by
  have alters : ble.Alters (Ble.presenceProbeStart radio ble index) index :=
    Ble.alters_presenceProbeStart radio distinct used
  obtain ⟨_, _, _, _, presence⟩ := Ble.presenceProbeStart_presence radio ble index
  have slot := congrFun presence index
  rw [Function.update_self] at slot
  refine prompt.alter alters ?_ ?_
  · rcases Ble.presenceProbeStart_cases radio ble index with
      ⟨_, same⟩ | ⟨idle, _, ⟨_, same⟩ | ⟨_, _, same⟩ | ⟨_, _, same⟩⟩
    · rw [same]
      exact prompt.dialling index
    · intro probing
      rw [same, Ble.presence_scheduleScanRestart, Ble.presence_setSlot, Function.update_self]
        at probing
      exact absurd (idle.symm.trans probing) Bool.false_ne_true
    · rw [Ble.Dialling, same, Ble.presence_note, Ble.presence_setSlot, Function.update_self]
      exact fun _ => ⟨ble.dial index, List.mem_append_right _ (List.mem_singleton.mpr rfl), rfl,
        inside⟩
    · intro probing
      rw [same, Ble.presence_scheduleScanRestart, Ble.presence_setSlot, Function.update_self]
        at probing
      exact absurd probing Bool.false_ne_true
  · refine kept (prompt.fresh index) ?_ ?_ ?_ ?_ <;> rw [slot]
    · exact fun present => present
    · exact fun apart => apart

theorem reprobe (prompt : ble.Prompt limit tickUs) (radio : Radio)
    (distinct : ble.presence.Distinct) (used : (ble.presence index).used = true)
    (absent : (ble.presence index).present = false) :
    (Ble.reprobe radio ble index).Prompt limit tickUs := by
  rw [Ble.reprobe]
  split_ifs
  · exact prompt
  · exact prompt
  · exact prompt
  · exact prompt.presenceProbeStart radio distinct used fun present =>
      absurd (absent.symm.trans present) Bool.false_ne_true

/-- The tick on a slot that is present without a link: it goes absent, or it is not silent for
long, or a probe of it is in flight. -/
theorem checkStale (prompt : ble.Prompt limit tickUs) (radio : Radio)
    (distinct : ble.presence.Distinct) (inTime : TickRun.InTime ble)
    (used : (ble.presence index).used = true) :
    (Ble.checkStale radio ble index).Prompt limit tickUs ∧
      (Ble.checkStale radio ble index).Fresh limit ble.clockUs index := by
  -- a slot within its timeout has not had its last call
  have inside (early : ble.sinceMs index ≤ ble.timeout.ms) :
      ble.clockUs ≤ (ble.presence index).lastCallUs limit := by
    have bounded := prompt.bounded
    rw [Ble.sinceMs, PresenceTimeout.ms] at early
    rw [PresenceSlot.lastCallUs]
    omega
  rw [Ble.checkStale]
  cases due : ble.probeDue index with
  | true =>
      have early : ble.sinceMs index ≤ ble.timeout.ms := by
        rw [Ble.probeDue, decide_eq_true_iff] at due
        exact due.2.1
      rw [if_pos rfl, probeDue_stays radio due, if_neg Bool.false_ne_true]
      obtain ⟨_, _, _, _, presence⟩ := Ble.presenceProbeStart_presence radio ble index
      have slot := congrFun presence index
      rw [Function.update_self] at slot
      refine ⟨prompt.presenceProbeStart radio distinct used fun _ => inside early, ?_⟩
      rw [Ble.Fresh, slot]
      exact fun _ _ _ => (inside early).trans (Nat.le_add_right _ _)
  | false =>
      rw [if_neg Bool.false_ne_true]
      cases expired : ble.outDue index with
      | true =>
          rw [if_pos rfl]
          refine ⟨prompt.leave, fun _ present => ?_⟩
          rw [ble.leave_presence index, Function.update_self] at present
          exact absurd present Bool.false_ne_true
      | false =>
          rw [if_neg Bool.false_ne_true]
          refine ⟨prompt, fun _ present _ => ?_⟩
          rw [Ble.outDue, decide_eq_false_iff_not, not_and, Bool.not_eq_false] at expired
          by_cases early : ble.sinceMs index ≤ ble.timeout.ms
          · exact (inside early).trans (Nat.le_add_right _ _)
          · obtain ⟨connect, member, _, called⟩ :=
              prompt.dialling index (expired (Nat.not_le.mp early))
            have ends := inTime connect member
            have starts := called present
            exact ends.trans (Nat.add_le_add_right starts _)

/-- A turn of the tick keeps all slots, and settles its own for the time until the next tick. -/
theorem tickSlot (prompt : ble.Prompt limit tickUs) (radio : Radio) (grounded : ble.Grounded)
    (inTime : TickRun.InTime ble) (index : Fin presenceMax) :
    (Ble.tickSlot radio ble index).Prompt limit tickUs ∧
      (Ble.tickSlot radio ble index).Fresh limit ble.clockUs index := by
  by_cases used : (ble.presence index).used = true
  swap
  · have still : Ble.tickSlot radio ble index = ble := if_neg used
    rw [still]
    exact ⟨prompt, fun isUsed => absurd isUsed used⟩
  cases linked : (ble.presence index).connected with
  | true =>
      rw [tickSlot_linked radio used linked]
      refine ⟨prompt.geofence.acknowledge, fun _ _ apart => ?_⟩
      obtain ⟨_, acknowledged⟩ := (ble.geofence index).acknowledge_presence index
      obtain ⟨_, _, _, fenced⟩ := ble.geofence_presence index
      rw [acknowledged, Function.update_self, fenced, Function.update_self] at apart
      exact absurd (linked.symm.trans apart) Bool.true_eq_false.mp
  | false =>
      cases present : (ble.presence index).present with
      | false =>
          rw [tickSlot_absent radio used linked present]
          refine ⟨prompt.reprobe radio grounded.owing.distinct used present, fun _ here => ?_⟩
          obtain ⟨_, _, _, _, probed⟩ := Ble.presenceProbeStart_presence radio ble index
          rw [Ble.reprobe] at here
          split_ifs at here
          · exact absurd (present.symm.trans here) Bool.false_ne_true
          · exact absurd (present.symm.trans here) Bool.false_ne_true
          · exact absurd (present.symm.trans here) Bool.false_ne_true
          · rw [probed, Function.update_self] at here
            exact absurd (present.symm.trans here) Bool.false_ne_true
      | true =>
          rw [tickSlot_present radio used linked present]
          have filled := grounded.acknowledge used present
          have alters := ble.alters_acknowledge index
          obtain ⟨_, acknowledged⟩ := ble.acknowledge_presence index
          have usedStill : ((ble.acknowledge index).presence index).used = true := by
            rw [acknowledged, Function.update_self]
            exact used
          rw [← alters.clock]
          exact prompt.acknowledge.checkStale radio filled.owing.distinct (alters.inTime inTime)
            usedStill

/-- Every slot has its turn, and none has been silent for too long afterwards. -/
theorem presenceTickCb (prompt : ble.Prompt limit tickUs) (radio : Radio)
    (grounded : ble.Grounded) (inTime : TickRun.InTime ble) :
    (Ble.presenceTickCb radio ble).Prompt limit ble.clockUs := by
  have always : Guarded (Ble.tickSlot radio) (fun _ _ => True) ble (List.finRange presenceMax) :=
    guarded_of_prefixes fun _ _ _ => trivial
  have swept := run_sweep
    (fun next : Ble => next.Prompt limit tickUs ∧ next.Grounded ∧ TickRun.InTime next ∧
      next.clockUs = ble.clockUs) (fun _ _ => True)
    (fun index next => next.Fresh limit ble.clockUs index)
    ?_ ?_ ?_ (List.nodup_finRange presenceMax) ⟨prompt, grounded, inTime, rfl⟩
    (fun _ _ => trivial) always
  · obtain ⟨⟨kept, _, _, clock⟩, fresh⟩ := swept
    exact ⟨kept.bounded, clock.ge, kept.started, kept.dialling,
      fun index => fresh index (List.mem_finRange index)⟩
  · rintro next index ⟨prompt, grounded, inTime, clock⟩ _ _
    have alters : next.Alters (Ble.tickSlot radio next index) index :=
      Ble.alters_tickSlot radio grounded.owing.distinct
    obtain ⟨kept, fresh⟩ := prompt.tickSlot radio grounded inTime index
    rw [clock] at fresh
    exact ⟨⟨kept, grounded.tickSlot radio index, alters.inTime inTime, alters.clock.trans clock⟩,
      fresh⟩
  · exact fun _ _ _ _ _ _ _ => trivial
  · rintro next index other ⟨_, grounded, _⟩ _ different fresh
    have alters : next.Alters (Ble.tickSlot radio next index) index :=
      Ble.alters_tickSlot radio grounded.owing.distinct
    rwa [Ble.Fresh, alters.others other different]

theorem preallocateBond (prompt : ble.Prompt limit tickUs) (bond : Bond) :
    (ble.preallocateBond bond).Prompt limit tickUs := by
  rcases ble.preallocateBond_cases bond with same | ⟨index, _, _, _, same⟩ <;> rw [same]
  · exact prompt
  · have claimed : ((ble.setSlot index (ble.bondSlot bond)).note
        (.claimed bond.addr (ble.wasIn bond.addr))).Prompt limit tickUs := by
      refine note (prompt.write ?_ ?_) _
      · exact fun probing => absurd probing Bool.false_ne_true
      · exact fun present => .inl (if_pos present)
    rw [Ble.claimBonded]
    split_ifs
    · exact claimed.note _
    · exact claimed

/-- The connect of the probe has ended, and with it the probe. -/
theorem ended (prompt : ble.Prompt limit tickUs) (connect : Connect)
    (idle : slot.probing = false)
    (silent : slot.present = true → slot.connected = false →
      slot.lastSeenUs = (ble.presence connect.slot).lastSeenUs ∧
        (ble.presence connect.slot).present = true ∧
          slot.used = (ble.presence connect.slot).used ∧
            (ble.presence connect.slot).connected = false) :
    ((ble.connectEnds connect).setSlot connect.slot slot).Prompt limit tickUs := by
  refine prompt.alter
    ((ble.alters_connectEnds connect).trans (Ble.alters_setSlot _ connect.slot slot)) ?_ ?_
  · rw [Ble.Dialling, Ble.presence_setSlot, Function.update_self, idle]
    exact fun probing => absurd probing Bool.false_ne_true
  · rw [Ble.Fresh, Ble.presence_setSlot, Function.update_self]
    intro used present apart
    obtain ⟨same, wasPresent, wasUsed, wasApart⟩ := silent present apart
    have bound := prompt.fresh connect.slot (wasUsed ▸ used) wasPresent wasApart
    rwa [PresenceSlot.lastCallUs, same]

theorem probeUp (prompt : ble.Prompt limit tickUs) (radio : Radio) (connect : Connect)
    (handle : Nat) : (ble.perform radio (.probeUp connect handle)).Prompt limit tickUs := by
  have marked : ((ble.connectEnds connect).setSlot connect.slot { ble.presence connect.slot with
      probeHandle := handle, connected := true, probing := false }).Prompt limit tickUs :=
    prompt.ended connect rfl fun _ apart => absurd apart Bool.true_eq_false.mp
  have linked : (((ble.connectEnds connect).linkUp
      ⟨handle, connect.peer, some connect.slot⟩).setSlot connect.slot
        { ble.presence connect.slot with
          probeHandle := handle, connected := true, probing := false }).Prompt limit tickUs :=
    marked.congr rfl rfl rfl rfl
  exact (linked.presenceSeenAddr _).congr rfl rfl rfl rfl

theorem probeDown (prompt : ble.Prompt limit tickUs) (radio : Radio) (connect : Connect) :
    (ble.perform radio (.probeDown connect)).Prompt limit tickUs := by
  have failed : ((ble.connectEnds connect).setSlot connect.slot { ble.presence connect.slot with
      probing := false, lastProbeUs := ble.clockUs }).Prompt limit tickUs :=
    prompt.ended connect rfl fun present apart => ⟨rfl, present, rfl, apart⟩
  exact failed.congr rfl rfl rfl rfl

theorem probeDisconnected (prompt : ble.Prompt limit tickUs) (handle : Nat) :
    (Ble.probeDisconnected ble index handle).Prompt limit tickUs := by
  have seen {next : Ble} (prompt : next.Prompt limit tickUs) :
      (next.setSlot index { ble.presence index with
        probeHandle := noHandle
        probing := false
        connected := false
        lastSeenUs := next.clockUs
        lastProbeUs := next.clockUs }).Prompt limit tickUs :=
    prompt.write (fun probing => absurd probing Bool.false_ne_true) fun _ => .inl rfl
  rw [Ble.probeDisconnected]
  split_ifs
  · exact (seen (prompt.note (.refreshed (ble.presence index).addr))).congr rfl rfl rfl rfl
  · exact (seen prompt).congr rfl rfl rfl rfl
  · exact prompt

theorem gapConnected (prompt : ble.Prompt limit tickUs) (peer : Addr) :
    (ble.gapConnected peer).Prompt limit tickUs := by
  have seen := prompt.presenceSeenAddr peer
  rw [Ble.gapConnected]
  dsimp only
  split
  · refine seen.write ?_ ?_
    · exact fun probing => probing
    · exact fun present => .inr ⟨rfl, present, rfl, fun apart => absurd apart (by simp)⟩
  · exact seen

theorem gapDisconnected (prompt : ble.Prompt limit tickUs) (peer : Addr) :
    (ble.gapDisconnected peer).Prompt limit tickUs := by
  rw [Ble.gapDisconnected]
  split
  · refine note (prompt.write ?_ ?_) _
    · exact fun probing => probing
    · exact fun _ => .inl rfl
  · exact prompt

theorem bondRevoke (prompt : ble.Prompt limit tickUs) (addr : Addr) (deleted : Bool) :
    (ble.bondRevoke addr deleted).Prompt limit tickUs := by
  rcases ble.bondRevoke_cases addr deleted with same | ⟨index, _, same⟩ | ⟨_, same⟩ <;> rw [same]
  · exact prompt
  · have forgotten : Ble.Prompt limit tickUs
        { ble with bonds := ble.bonds.filter fun bond => bond.addr ≠ addr } :=
      prompt.congr rfl rfl rfl rfl
    refine note (forgotten.write ?_ ?_) _
    · exact fun probing => absurd probing Bool.false_ne_true
    · exact fun present => absurd present Bool.false_ne_true
  · exact prompt.congr rfl rfl rfl rfl

/-- The wipe changes `ack_event` only. -/
theorem wipeEvents (prompt : ble.Prompt limit tickUs) : ble.wipeEvents.Prompt limit tickUs where
  bounded := prompt.bounded
  ticked := prompt.ticked
  started := prompt.started
  dialling index := by
    have dialling := prompt.dialling index
    rw [Ble.Dialling, ble.wipeEvents_presence]
    split_ifs <;> exact dialling
  fresh index := by
    have fresh := prompt.fresh index
    rw [Ble.Fresh, ble.wipeEvents_presence]
    split_ifs <;> exact fresh

theorem presencePreallocateBonded (prompt : ble.Prompt limit tickUs) :
    ble.presencePreallocateBonded.Prompt limit tickUs :=
  run_kept (fun next : Ble => next.Prompt limit tickUs) (fun _ bond kept => kept.preallocateBond bond)
    prompt

/-- Every event but the tick keeps the slots as prompt as the last tick left them. -/
theorem perform (prompt : ble.Prompt limit tickUs) (radio : Radio) {event : BleEvent}
    (between : event ≠ .tick)
    (within : ∀ seconds, event = .setTimeout seconds →
      (PresenceTimeout.clamp seconds).seconds ≤ limit) :
    (ble.perform radio event).Prompt limit tickUs := by
  cases event with
  | adv addr => exact prompt.presenceSeenAddr addr
  | tick => exact absurd rfl between
  | probeUp connect handle => exact prompt.probeUp radio connect handle
  | probeDown connect => exact prompt.probeDown radio connect
  | hidUp handle peer =>
      have linked : (ble.linkUp ⟨handle, peer, none⟩).Prompt limit tickUs :=
        prompt.congr rfl rfl rfl rfl
      exact linked.gapConnected peer
  | linkDown link =>
      obtain ⟨handle, peer, owner⟩ := link
      have unlinked : (ble.linkDown ⟨handle, peer, owner⟩).Prompt limit tickUs :=
        prompt.congr rfl rfl rfl rfl
      cases owner with
      | some index => exact unlinked.probeDisconnected handle
      | none => exact unlinked.gapDisconnected peer
  | wipe => exact prompt.wipeEvents
  | setTimeout seconds =>
      exact ⟨within seconds rfl, prompt.ticked, prompt.started, prompt.dialling, prompt.fresh⟩
  | revoke addr deleted => exact prompt.bondRevoke addr deleted
  | encChange => exact prompt.presencePreallocateBonded.congr rfl rfl rfl rfl
  | hostSync => exact prompt.presencePreallocateBonded.congr rfl rfl rfl rfl
  | synced | unsynced | pairingStart | pairingCancel | bondStore | scanRestart =>
      exact prompt.congr rfl rfl rfl rfl

theorem wait (prompt : ble.Prompt limit tickUs) (elapsedUs : Nat) :
    (ble.wait elapsedUs).Prompt limit tickUs where
  bounded := prompt.bounded
  ticked := prompt.ticked.trans (Nat.le_add_right _ _)
  started connect member := (prompt.started connect member).trans (Nat.le_add_right _ _)
  dialling := prompt.dialling
  fresh := prompt.fresh

end Ble.Prompt

end Writes

section Life

variable {radio : Radio} {limit periodUs : Nat}

theorem PresenceLife.ble_run (radio : Radio) (life : PresenceLife) (steps : List PresenceStep) :
    (run (PresenceLife.step radio) life steps).ble = run (Ble.live radio) life.ble steps := by
  induction steps generalizing life with
  | nil => rfl
  | cons step steps ih => exact ih (life.step radio step)

/-- The slots after the last tick, as prompt as the guard makes them. -/
structure PresenceLife.Watched (limit : Nat) (life : PresenceLife) : Prop where
  grounded : life.ble.Grounded
  prompt : life.ble.Prompt limit life.tickUs

theorem PresenceLife.Watched.before {life : PresenceLife} (watched : life.Watched limit)
    (step : PresenceStep) :
    (life.before step).Grounded ∧ (life.before step).Prompt limit life.tickUs := by
  have waited (elapsedUs : Nat) :
      (life.ble.wait elapsedUs).Grounded ∧ (life.ble.wait elapsedUs).Prompt limit life.tickUs :=
    ⟨watched.grounded.congr rfl rfl rfl (Nat.le_add_right _ _), watched.prompt.wait elapsedUs⟩
  cases step with
  | act action => exact waited action.elapsedUs
  | entered elapsedUs type peer => exact waited elapsedUs
  | restart syncUs timeout => exact ⟨watched.grounded, watched.prompt⟩

theorem PresenceLife.Watched.step {life : PresenceLife} (watched : life.Watched limit)
    (radio : Radio) {step : PresenceStep} (onTime : life.OnTime limit periodUs step) :
    (life.step radio step).Watched limit := by
  obtain ⟨grounded, prompt⟩ := watched.before step
  obtain ⟨_, inTime, within⟩ := onTime
  refine ⟨watched.grounded.live radio step, ?_⟩
  cases step with
  | act action =>
      obtain ⟨elapsedUs, event⟩ := action
      by_cases tick : event = .tick
      · subst tick
        exact prompt.presenceTickCb radio grounded inTime
      · have kept := prompt.perform radio tick fun seconds same => by
          subst same
          exact within _ rfl
        cases event with
        | tick => exact absurd rfl tick
        | _ => exact kept
  | entered elapsedUs type peer => exact prompt.congr rfl rfl rfl rfl
  | restart syncUs timeout =>
      have booted : (life.ble.restarted syncUs timeout).Prompt limit syncUs :=
        (Ble.Prompt.booted syncUs life.ble.events.log (within timeout rfl)).congr rfl rfl rfl rfl
      have resumed : ((life.ble.restarted syncUs timeout).perform radio .hostSync).Prompt limit
          syncUs := booted.perform radio (by simp) (by simp)
      exact resumed

/-- A phone shows itself once; its second probe starts with the last call. -/
def lastCall : List PresenceStep :=
  List.map .act ([⟨0, .bondStore [⟨phone, .publicAddr⟩]⟩, ⟨0, .adv phone⟩] ++ secondTicks 20 ++
    [⟨0, .probeDown ⟨0, phone, .publicId, 17000000⟩⟩] ++ secondTicks 20 ++
    [⟨0, .probeDown ⟨0, phone, .publicId, 31000000⟩⟩])

end Life

end LeanDingdong
