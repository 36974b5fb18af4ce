import Dingdong.BleEvidence

/-!
How far apart the probes of a slot are. Beside the machine runs what NimBLE has done with the
last probe of each slot in its present life: refused it, dialled, linked, let go of the link.
The stamp, the flags and the handle in the slot say the same, so the cooldowns are kept.
-/

namespace LeanDingdong

open Runs Presence

/-- The last probe of a slot since the slot was taken. -/
inductive Attempt where
  | none
  /-- `ble_gap_connect` was accepted -/
  | dialling
  /-- the link it made is up -/
  | held (handle : Nat)
  | ended (atUs : Nat)
  deriving DecidableEq

/-- There is no attempt, or the last one is over for that long. -/
def Attempt.Spaced (nowUs spacingUs : Nat) : Attempt → Prop
  | .none => True
  | .dialling => False
  | .held _ => False
  | .ended atUs => atUs + spacingUs ≤ nowUs

/-- Ten seconds for a peer that counts as present, thirty for one that does not. -/
def spacingUs (slot : PresenceSlot) : Nat := if slot.present then 10000000 else 30000000

/-- What a reply makes of the attempt. -/
def ProbeReply.attempt (reply : ProbeReply) (nowUs : Nat) : Attempt :=
  if reply.cancel ≠ .failed ∧ reply.accepted = true then .dialling else .ended nowUs

namespace Ble

/-- What NimBLE replies to a start that is due, if `presence_probe_start` gets to ask it. -/
def startReply (radio : Radio) (ble : Ble) (index : Fin presenceMax) (due : Prop) [Decidable due] :
    Option ProbeReply :=
  if (ble.presence index).probing = true ∨ ble.pairingActive = true then none
  else if due then some (radio.probe ble index)
  else none

/-- What NimBLE replies to the probe in a slot's turn of the tick, when there is one. -/
def turnReply (radio : Radio) (ble : Ble) (index : Fin presenceMax) : Option ProbeReply :=
  let turn := (ble.geofence index).backfill index
  let slot := turn.presence index
  if slot.used = false ∨ slot.connected = true then none
  else if slot.present then turn.startReply radio index (turn.probeDue index = true)
  else
    turn.startReply radio index
      (slot.lastProbeUs = 0 ∨ presenceReprobeOutMs ≤ turn.sinceProbe index)

/-- The peer of a revocation has no connect in flight. -/
def SparesDialled (ble : Ble) : BleEvent → Prop
  | .revoke addr _ => ∀ connect ∈ ble.connects, connect.peer ≠ addr
  | _ => True

instance decidableSparesDialled (ble : Ble) : ∀ event, Decidable (ble.SparesDialled event)
  | .revoke _ _ => inferInstanceAs (Decidable (∀ connect ∈ ble.connects, _))
  | .adv _ | .tick | .probeUp _ _ | .probeDown _ | .hidUp _ _ | .linkDown _ | .synced _
  | .unsynced | .wipe | .setTimeout _ | .pairingStart _ | .pairingCancel | .bondStore _
  | .encChange | .hostSync | .scanRestart => isTrue trivial

end Ble

/-- The machine with the last attempt of each slot. -/
structure Probes where
  ble : Ble
  attempts : Fin presenceMax → Attempt

namespace Probes

def boot (startUs : Nat) (timeout : PresenceTimeout) (log : List PeerEvent) : Probes where
  ble := Ble.boot startUs timeout log
  attempts := fun _ => .none

def wait (probes : Probes) (elapsedUs : Nat) : Probes :=
  { probes with ble := probes.ble.wait elapsedUs }

/-- One round of the loop of `presence_tick_cb`. -/
def turn (radio : Radio) (probes : Probes) (index : Fin presenceMax) : Probes where
  ble := Ble.tickSlot radio probes.ble index
  attempts := match probes.ble.turnReply radio index with
    | none => probes.attempts
    | some reply => Function.update probes.attempts index (reply.attempt probes.ble.clockUs)

/-- The events that NimBLE reports of a probe: its connect fails or makes a link, the link ends. -/
def report (probes : Probes) : BleEvent → Fin presenceMax → Attempt
  | .probeUp connect handle => Function.update probes.attempts connect.slot (.held handle)
  | .probeDown connect =>
      Function.update probes.attempts connect.slot (.ended probes.ble.clockUs)
  | .linkDown ⟨handle, _, some index⟩ =>
      if probes.attempts index = .held handle then
        Function.update probes.attempts index (.ended probes.ble.clockUs)
      else probes.attempts
  | _ => probes.attempts

def perform (radio : Radio) (probes : Probes) : BleEvent → Probes
  | .tick => run (turn radio) probes (List.finRange presenceMax)
  | event => { ble := probes.ble.perform radio event, attempts := probes.report event }

/-- A free slot has no attempt: the next life of the slot begins without one. -/
def settle (probes : Probes) : Probes :=
  { probes with
    attempts := fun index =>
      if (probes.ble.presence index).used then probes.attempts index else .none }

def step (radio : Radio) (probes : Probes) (action : BleAction) : Probes :=
  ((probes.wait action.elapsedUs).perform radio action.event).settle

theorem run_turn (radio : Radio) (probes : Probes) (turns : List (Fin presenceMax)) :
    (run (turn radio) probes turns).ble = run (Ble.tickSlot radio) probes.ble turns := by
  induction turns generalizing probes with
  | nil => rfl
  | cons index turns ih => exact ih _

theorem step_ble (radio : Radio) (probes : Probes) (action : BleAction) :
    (probes.step radio action).ble = probes.ble.step radio action := by
  obtain ⟨elapsedUs, event⟩ := action
  cases event with
  | tick => exact run_turn radio (probes.wait elapsedUs) _
  | adv | probeUp | probeDown | hidUp | linkDown | synced | unsynced | wipe | setTimeout
  | pairingStart | pairingCancel | bondStore | encChange | hostSync | revoke | scanRestart => rfl

/-- The attempts are kept beside the machine, which runs as it does without them. -/
theorem run_ble (radio : Radio) (probes : Probes) (actions : List BleAction) :
    (run (step radio) probes actions).ble = run (Ble.step radio) probes.ble actions := by
  induction actions generalizing probes with
  | nil => rfl
  | cons action actions ih =>
      rw [run_cons, run_cons, ← step_ble]
      exact ih _

end Probes

section Turn

namespace Ble

variable {ble next : Ble} {index : Fin presenceMax} {reply : ProbeReply}

/-- What a turn leaves: without a probe, with one that is accepted or with one that is not.
The time of the last sighting, presence and acknowledgement may change as well. -/
def Turned (ble next : Ble) (index : Fin presenceMax) : Option ProbeReply → Prop
  | .none => next.connects = ble.connects ∧ ∃ seenUs present acked,
      next.presence = Function.update ble.presence index
        { ble.presence index with lastSeenUs := seenUs, present := present, ackEvent := acked }
  | some reply => ∃ seenUs present acked,
      reply.attempt ble.clockUs = .dialling ∧ next.connects = ble.connects ++ [ble.dial index] ∧
          next.presence = Function.update ble.presence index
            { ble.presence index with
              lastSeenUs := seenUs, present := present, ackEvent := acked
              probing := true, probeHandle := noHandle } ∨
        reply.attempt ble.clockUs = .ended ble.clockUs ∧ next.connects = ble.connects ∧
          ∃ handle, (handle = (ble.presence index).probeHandle ∨ handle = noHandle) ∧
            next.presence = Function.update ble.presence index
              { ble.presence index with
                lastSeenUs := seenUs, present := present, ackEvent := acked
                probing := false, probeHandle := handle, lastProbeUs := ble.clockUs }

theorem Turned.leave {reply : Option ProbeReply} (turned : ble.Turned next index reply) :
    ble.Turned (next.leave index) index reply := by
  have connects := (next.leave_others index).2.1
  have presence := next.leave_presence index
  cases reply with
  | none =>
      obtain ⟨same, seenUs, present, acked, written⟩ := turned
      refine ⟨connects.trans same, seenUs, false, false, ?_⟩
      rw [presence, written, Function.update_self, Function.update_idem]
  | some reply =>
      rcases turned with ⟨seenUs, present, acked, ⟨started, dialled, written⟩ |
        ⟨refused, same, handle, handleIs, written⟩⟩
      · refine ⟨seenUs, false, false, .inl ⟨started, connects.trans dialled, ?_⟩⟩
        rw [presence, written, Function.update_self, Function.update_idem]
      · refine ⟨seenUs, false, false, .inr ⟨refused, connects.trans same, handle, handleIs, ?_⟩⟩
        rw [presence, written, Function.update_self, Function.update_idem]

/-- The start of a probe past its two guards. -/
theorem presenceProbeStart_turned (radio : Radio) (idle : (ble.presence index).probing = false)
    (closed : ble.pairingActive = false) :
    ble.Turned (presenceProbeStart radio ble index) index (some (radio.probe ble index)) := by
  refine ⟨(ble.presence index).lastSeenUs, (ble.presence index).present,
    (ble.presence index).ackEvent, ?_⟩
  rw [presenceProbeStart]
  simp only [idle, closed, if_neg Bool.false_ne_true]
  split
  · rename_i failed
    refine .inr ⟨if_neg fun started => started.1 failed, rfl, _, .inl rfl, ?_⟩
    rw [← idle]
    rfl
  · rename_i stopped
    cases accepted : (radio.probe ble index).accepted with
    | true => exact .inl ⟨if_pos ⟨stopped, accepted⟩, rfl, rfl⟩
    | false =>
        refine .inr ⟨if_neg fun started => ?_, rfl, _, .inr rfl, rfl⟩
        rw [accepted] at started
        exact Bool.false_ne_true started.2

theorem connects_backfill (ble : Ble) (index : Fin presenceMax) :
    (ble.backfill index).connects = ble.connects := by
  rw [backfill]
  split_ifs
  · rcases ble.acknowledge_cases index with same | ⟨_, _, same⟩ <;> rw [same]
    rfl
  · rfl

theorem backfill_turned (ble : Ble) (index : Fin presenceMax) :
    ble.Turned (ble.backfill index) index none := by
  obtain ⟨acked, written⟩ := ble.backfill_presence index
  exact ⟨connects_backfill ble index, _, _, acked, written⟩

/-- What comes before a probe in a turn changes nothing that the probe goes by. -/
theorem Turned.before {reply : Option ProbeReply} {ready : Ble}
    (first : ble.Turned ready index none) (clock : ready.clockUs = ble.clockUs)
    (turned : ready.Turned next index reply) : ble.Turned next index reply := by
  obtain ⟨same, seenUs, present, acked, written⟩ := first
  cases reply with
  | none =>
      obtain ⟨connects, later, now, recorded, presence⟩ := turned
      refine ⟨connects.trans same, later, now, recorded, ?_⟩
      rw [presence, written, Function.update_self, Function.update_idem]
  | some reply =>
      obtain ⟨later, now, recorded, outcome⟩ := turned
      refine ⟨later, now, recorded, ?_⟩
      have dialled : ready.dial index = ble.dial index := by
        rw [dial, dial, written, Function.update_self, clock]
      rw [written, Function.update_self, clock, same, dialled] at outcome
      simp only [Function.update_idem] at outcome
      exact outcome

theorem Turned.still (ble : Ble) (index : Fin presenceMax) : ble.Turned ble index none :=
  ⟨rfl, _, _, _, (Function.update_eq_self _ _).symm⟩

theorem presenceProbeStart_busy (radio : Radio)
    (busy : (ble.presence index).probing = true ∨ ble.pairingActive = true) :
    presenceProbeStart radio ble index = ble := by
  rw [presenceProbeStart]
  by_cases probing : (ble.presence index).probing = true
  · exact if_pos probing
  · have pairing := busy.resolve_left probing
    simp only [if_neg probing, if_pos pairing]

theorem startReply_turned (radio : Radio) (ble : Ble) (index : Fin presenceMax) (due : Prop)
    [Decidable due] :
    ble.Turned (if due then presenceProbeStart radio ble index else ble) index
      (startReply radio ble index due) := by
  rw [startReply]
  by_cases busy : (ble.presence index).probing = true ∨ ble.pairingActive = true
  · rw [if_pos busy, presenceProbeStart_busy radio busy, ite_self]
    exact Turned.still ble index
  · rw [if_neg busy]
    rw [not_or, Bool.not_eq_true, Bool.not_eq_true] at busy
    split_ifs
    · exact presenceProbeStart_turned radio busy.1 busy.2
    · exact Turned.still ble index

theorem checkStale_turned (radio : Radio) (ble : Ble) (index : Fin presenceMax) :
    ble.Turned (checkStale radio ble index) index
      (startReply radio ble index (ble.probeDue index = true)) := by
  have probed := startReply_turned radio ble index (ble.probeDue index = true)
  rw [checkStale]
  split_ifs at probed ⊢
  · exact probed.leave
  · exact probed
  · exact probed.leave
  · exact probed

theorem reprobe_turned (radio : Radio) (ble : Ble) (index : Fin presenceMax) :
    ble.Turned (reprobe radio ble index) index
      (startReply radio ble index
        ((ble.presence index).lastProbeUs = 0 ∨
          presenceReprobeOutMs ≤ ble.sinceProbe index)) := by
  have probed := startReply_turned radio ble index
    ((ble.presence index).lastProbeUs = 0 ∨ presenceReprobeOutMs ≤ ble.sinceProbe index)
  rw [reprobe]
  split_ifs with probing pairing cooling
  · rw [presenceProbeStart_busy radio (.inl probing), ite_self] at probed
    exact probed
  · rw [presenceProbeStart_busy radio (.inr pairing), ite_self] at probed
    exact probed
  · rw [if_neg (by omega)] at probed
    exact probed
  · rw [if_pos (by omega)] at probed
    exact probed

theorem geofence_turned (ble : Ble) (index : Fin presenceMax) :
    ble.Turned (ble.geofence index) index none := by
  obtain ⟨seenUs, present, acked, written⟩ := ble.geofence_presence index
  refine ⟨?_, seenUs, present, acked, written⟩
  rw [geofence]
  split_ifs <;> rfl

theorem environment_geofence (ble : Ble) (index : Fin presenceMax) :
    (ble.geofence index).environment = ble.environment := by
  rw [geofence]
  split_ifs <;> rfl

/-- The slot as a probe finds it. -/
theorem ready_turned (ble : Ble) (index : Fin presenceMax) :
    ble.Turned ((ble.geofence index).backfill index) index none ∧
      ((ble.geofence index).backfill index).environment = ble.environment := by
  have fenced := environment_geofence ble index
  refine ⟨Turned.before (geofence_turned ble index) ?_ (backfill_turned _ index),
    (environment_backfill _ index).trans fenced⟩
  exact (environment_eq.mp fenced).2.2.2.2.1

/-- A turn does what its reply says. -/
theorem tickSlot_turned (radio : Radio) (ble : Ble) (index : Fin presenceMax) :
    ble.Turned (tickSlot radio ble index) index (turnReply radio ble index) := by
  obtain ⟨readied, same⟩ := ready_turned ble index
  have clock := (environment_eq.mp same).2.2.2.2.1
  have used : (((ble.geofence index).backfill index).presence index).used =
      (ble.presence index).used := by
    obtain ⟨_, _, _, _, written⟩ := readied
    rw [written, Function.update_self]
  rw [tickSlot, turnReply]
  dsimp only
  by_cases free : (ble.presence index).used = true
  · rw [if_pos free]
    by_cases linked : (((ble.geofence index).backfill index).presence index).connected = true
    · rw [if_pos linked, if_pos (.inr linked)]
      exact readied
    · have apart : ¬ ((((ble.geofence index).backfill index).presence index).used = false ∨
          (((ble.geofence index).backfill index).presence index).connected = true) := by
        rw [used, free]
        simpa using linked
      rw [if_neg linked, if_neg apart]
      split_ifs
      · exact readied.before clock (checkStale_turned radio _ index)
      · exact readied.before clock (reprobe_turned radio _ index)
  · rw [if_neg free, if_pos (.inl (by rw [used]; simpa using free))]
    exact Turned.still ble index

/-- A probe in a turn finds the slot used, unconnected, not probing and past its cooldown, and
no pairing window. -/
theorem turnReply_some {radio : Radio} (replied : turnReply radio ble index = some reply) :
    (ble.presence index).used = true ∧ (ble.presence index).connected = false ∧
      (ble.presence index).probing = false ∧ ble.pairingActive = false ∧
      ((ble.presence index).lastProbeUs = 0 ∨
        (ble.presence index).lastProbeUs + spacingUs (ble.presence index) ≤ ble.clockUs) := by
  have apart : (ble.presence index).connected = false := by
    obtain ⟨⟨_, seenUs, present, acked, written⟩, _⟩ := ready_turned ble index
    by_contra linked
    rw [Bool.not_eq_false] at linked
    rw [turnReply, written, Function.update_self, if_pos (.inr linked)] at replied
    cases replied
  obtain ⟨acked, written⟩ := ble.backfill_presence index
  obtain ⟨timeout, pairing, _, _, clock, _⟩ := environment_eq.mp (environment_backfill ble index)
  rw [turnReply, geofence_idle apart] at replied
  generalize ble.backfill index = turn at replied written timeout pairing clock
  have slot : turn.presence index = { ble.presence index with ackEvent := acked } := by
    rw [written, Function.update_self]
  have window : turn.pairingActive = ble.pairingActive := by
    rw [pairingActive, pairingActive, pairing, clock]
  simp only [startReply, probeDue, sinceProbe, slot, window, clock] at replied
  split_ifs at replied with free present busy due busy due
  all_goals
    rw [not_or, Bool.not_eq_false] at free
    rw [not_or, Bool.not_eq_true, Bool.not_eq_true] at busy
    refine ⟨free.1, apart, busy.1, busy.2, ?_⟩
  · rw [decide_eq_true_iff] at due
    rw [spacingUs, if_pos present]
    refine due.2.2.2.imp_right fun cooled => ?_
    rw [presenceProbeCooldownMs] at cooled
    omega
  · rw [spacingUs, if_neg present]
    refine due.imp_right fun cooled => ?_
    rw [presenceReprobeOutMs] at cooled
    omega

end Ble

end Turn

section Invariant

/-- The fields of a slot that a probe goes by or leaves behind. -/
def PresenceSlot.probeView (slot : PresenceSlot) : Bool × Addr × Bool × Bool × Nat × Nat :=
  (slot.used, slot.addr, slot.connected, slot.probing, slot.probeHandle, slot.lastProbeUs)

/-- The slot knows what has become of its last probe. -/
def Attempt.Fits (links : List Link) (index : Fin presenceMax) (slot : PresenceSlot) :
    Attempt → Prop
  | .none => slot.probing = false ∧ slot.probeHandle = noHandle
  | .dialling => slot.probing = true ∧ slot.probeHandle = noHandle
  | .held handle => slot.probing = false ∧ slot.probeHandle = handle ∧ slot.connected = true ∧
      (⟨handle, slot.addr, some index⟩ : Link) ∈ links
  | .ended atUs => slot.probing = false ∧ slot.probeHandle = noHandle ∧
      slot.lastProbeUs = atUs ∧ 0 < atUs

theorem Attempt.Fits.keep {links later : List Link} {index : Fin presenceMax}
    {slot other : PresenceSlot} {attempt : Attempt} (fits : attempt.Fits links index slot)
    (same : other.probeView = slot.probeView)
    (kept : ∀ handle, attempt = .held handle →
      (⟨handle, slot.addr, some index⟩ : Link) ∈ links → ⟨handle, slot.addr, some index⟩ ∈ later) :
    attempt.Fits later index other := by
  simp only [PresenceSlot.probeView, Prod.mk.injEq] at same
  obtain ⟨_, addr, connected, probing, handle, probeUs⟩ := same
  cases attempt with
  | none => exact ⟨probing.trans fits.1, handle.trans fits.2⟩
  | dialling => exact ⟨probing.trans fits.1, handle.trans fits.2⟩
  | held =>
      refine ⟨probing.trans fits.1, handle.trans fits.2.1, connected.trans fits.2.2.1, ?_⟩
      rw [addr]
      exact kept _ rfl fits.2.2.2
  | ended =>
      exact ⟨probing.trans fits.1, handle.trans fits.2.1, probeUs.trans fits.2.2.1, fits.2.2.2⟩

/-- A slot with the handle of a link holds it. -/
theorem Attempt.Fits.held_iff {links : List Link} {index : Fin presenceMax} {slot : PresenceSlot}
    {attempt : Attempt} (fits : attempt.Fits links index slot) {handle : Nat}
    (fine : handle ≠ noHandle) : attempt = .held handle ↔ slot.probeHandle = handle := by
  cases attempt with
  | none => exact iff_of_false (by simp) fun same => fine (same.symm.trans fits.2)
  | dialling => exact iff_of_false (by simp) fun same => fine (same.symm.trans fits.2)
  | held other => rw [fits.2.1, Attempt.held.injEq]
  | ended => exact iff_of_false (by simp) fun same => fine (same.symm.trans fits.2.1)

/-- The last attempt of a slot that is neither connected nor probing is over. -/
theorem Attempt.Fits.quiet {links : List Link} {index : Fin presenceMax} {slot : PresenceSlot}
    {attempt : Attempt} (fits : attempt.Fits links index slot) (apart : slot.connected = false)
    (calm : slot.probing = false) : slot.probeHandle = noHandle ∧
      (attempt = .none ∨ attempt = .ended slot.lastProbeUs ∧ 0 < slot.lastProbeUs) := by
  cases attempt with
  | none => exact ⟨fits.2, .inl rfl⟩
  | dialling => exact absurd (calm.symm.trans fits.1) Bool.false_ne_true
  | held => exact absurd (apart.symm.trans fits.2.2.1) Bool.false_ne_true
  | ended atUs =>
      obtain ⟨_, noProbe, rfl, started⟩ := fits
      exact ⟨noProbe, .inr ⟨rfl, started⟩⟩

/-- The `connected` flag matters to a slot that holds the link of a probe. -/
theorem Attempt.Fits.setConnected {links : List Link} {index : Fin presenceMax}
    {slot : PresenceSlot} {attempt : Attempt} (fits : attempt.Fits links index slot)
    {linked : Bool} {seenUs : Nat} (kept : linked = true ∨ ∀ handle, attempt ≠ .held handle) :
    attempt.Fits links index { slot with connected := linked, lastSeenUs := seenUs } := by
  cases attempt with
  | none => exact fits
  | dialling => exact fits
  | ended => exact fits
  | held handle =>
      obtain ⟨calm, known, _, member⟩ := fits
      exact ⟨calm, known, kept.resolve_right fun unheld => unheld handle rfl, member⟩

/-- The used slots know of their probes, the free ones have none; a connect in flight is that
of the attempt of its slot. -/
structure Tracked (probes : Probes) : Prop where
  started : 0 < probes.ble.clockUs
  distinct : probes.ble.presence.Distinct
  idle : ∀ index, (probes.ble.presence index).used = false → probes.attempts index = .none
  fits : ∀ index, (probes.ble.presence index).used = true →
    (probes.attempts index).Fits probes.ble.links index (probes.ble.presence index)
  dialled : ∀ connect ∈ probes.ble.connects,
    probes.ble.presence.Holds connect.slot connect.peer ∧
      probes.attempts connect.slot = .dialling
  once : (probes.ble.connects.map Connect.slot).Nodup
  peers : (probes.ble.links.map Link.peer).Nodup
  handled : ∀ link ∈ probes.ble.links, link.handle ≠ noHandle

namespace Tracked

variable {probes next : Probes} {index : Fin presenceMax} {slot : PresenceSlot} {attempt : Attempt}

theorem boot {startUs : Nat} (started : 0 < startUs) (timeout : PresenceTimeout)
    (log : List PeerEvent) : Tracked (Probes.boot startUs timeout log) where
  started := started
  distinct _ _ _ holds := absurd holds.1 Bool.false_ne_true
  idle _ _ := rfl
  fits _ used := absurd used Bool.false_ne_true
  dialled _ member := absurd member List.not_mem_nil
  once := List.nodup_nil
  peers := List.nodup_nil
  handled _ member := absurd member List.not_mem_nil

theorem wait (tracked : Tracked probes) (elapsedUs : Nat) : Tracked (probes.wait elapsedUs) where
  started := tracked.started.trans_le (Nat.le_add_right _ _)
  distinct := tracked.distinct
  idle := tracked.idle
  fits := tracked.fits
  dialled := tracked.dialled
  once := tracked.once
  peers := tracked.peers
  handled := tracked.handled

/-- A write to a slot that keeps its peer, with what becomes of its attempt. -/
theorem update (tracked : Tracked probes)
    (presence : next.ble.presence = Function.update probes.ble.presence index slot)
    (attempts : next.attempts = Function.update probes.attempts index attempt)
    (clock : next.ble.clockUs = probes.ble.clockUs)
    (used : slot.used = (probes.ble.presence index).used)
    (same : slot.addr = (probes.ble.presence index).addr)
    (idle : slot.used = false → attempt = .none)
    (fits : slot.used = true → attempt.Fits next.ble.links index slot)
    (links : ∀ link ∈ probes.ble.links, ∀ owner, link.owner = some owner → owner ≠ index →
      link ∈ next.ble.links)
    (connects : ∀ connect ∈ next.ble.connects,
      connect.slot ≠ index ∧ connect ∈ probes.ble.connects ∨
        connect.slot = index ∧ probes.ble.presence.Holds index connect.peer ∧ attempt = .dialling)
    (once : (next.ble.connects.map Connect.slot).Nodup)
    (peers : (next.ble.links.map Link.peer).Nodup)
    (handled : ∀ link ∈ next.ble.links, link.handle ≠ noHandle) : Tracked next := by
  constructor
  · rw [clock]
    exact tracked.started
  · rw [presence]
    exact tracked.distinct.write used same
  · intro other free
    rw [presence] at free
    rw [attempts]
    by_cases here : other = index
    · subst here
      rw [Function.update_self] at free ⊢
      exact idle free
    · rw [Function.update_of_ne here] at free ⊢
      exact tracked.idle other free
  · intro other busy
    rw [presence] at busy ⊢
    rw [attempts]
    by_cases here : other = index
    · subst here
      rw [Function.update_self] at busy ⊢
      rw [Function.update_self]
      exact fits busy
    · rw [Function.update_of_ne here] at busy ⊢
      rw [Function.update_of_ne here]
      exact (tracked.fits other busy).keep rfl fun _ _ member => links _ member other rfl here
  · intro connect member
    rw [presence, attempts, holds_update_same used same]
    rcases connects connect member with ⟨here, known⟩ | ⟨here, holds, dialling⟩
    · rw [Function.update_of_ne here]
      exact tracked.dialled connect known
    · rw [here, Function.update_self]
      exact ⟨holds, dialling⟩
  · exact once
  · exact peers
  · exact handled

/-- The invariant sees slots only through their views. -/
theorem congr (tracked : Tracked probes) (attempts : next.attempts = probes.attempts)
    (same : ∀ index, (next.ble.presence index).probeView = (probes.ble.presence index).probeView)
    (clock : next.ble.clockUs = probes.ble.clockUs)
    (connects : next.ble.connects = probes.ble.connects)
    (links : next.ble.links = probes.ble.links) : Tracked next := by
  have used (index : Fin presenceMax) :
      (next.ble.presence index).used = (probes.ble.presence index).used :=
    congrArg Prod.fst (same index)
  have addr (index : Fin presenceMax) :
      (next.ble.presence index).addr = (probes.ble.presence index).addr :=
    congrArg (fun view => view.2.1) (same index)
  have holds (index : Fin presenceMax) (peer : Addr) :
      next.ble.presence.Holds index peer ↔ probes.ble.presence.Holds index peer := by
    rw [Presence.Holds, Presence.Holds, used, addr]
  constructor
  · rw [clock]
    exact tracked.started
  · intro first second peer holdsFirst holdsSecond
    exact tracked.distinct first second peer ((holds _ _).mp holdsFirst)
      ((holds _ _).mp holdsSecond)
  · intro index free
    rw [attempts]
    exact tracked.idle index (used index ▸ free)
  · intro index busy
    rw [attempts]
    refine (tracked.fits index (used index ▸ busy)).keep (same index) fun _ _ member => ?_
    rwa [links]
  · intro connect member
    rw [connects] at member
    rw [holds, attempts]
    exact tracked.dialled connect member
  · rw [connects]
    exact tracked.once
  · rw [links]
    exact tracked.peers
  · rw [links]
    exact tracked.handled

/-- A free slot is taken. -/
theorem claim (tracked : Tracked probes)
    (presence : next.ble.presence = Function.update probes.ble.presence index slot)
    (attempts : next.attempts = probes.attempts)
    (clock : next.ble.clockUs = probes.ble.clockUs)
    (connects : next.ble.connects = probes.ble.connects)
    (links : next.ble.links = probes.ble.links)
    (free : (probes.ble.presence index).used = false) (taken : slot.used = true)
    (unheld : probes.ble.presence.Unheld slot.addr) (calm : slot.probing = false)
    (noProbe : slot.probeHandle = noHandle) : Tracked next := by
  have apart {other : Fin presenceMax} {peer : Addr}
      (held : probes.ble.presence.Holds other peer) : other ≠ index := by
    rintro rfl
    exact absurd (free.symm.trans held.1) Bool.false_ne_true
  constructor
  · rw [clock]
    exact tracked.started
  · rw [presence]
    exact tracked.distinct.claim unheld
  · intro other unused
    rw [presence] at unused
    rw [attempts]
    by_cases here : other = index
    · subst here
      rw [Function.update_self, taken] at unused
      exact absurd unused.symm Bool.false_ne_true
    · rw [Function.update_of_ne here] at unused
      exact tracked.idle other unused
  · intro other busy
    rw [presence] at busy ⊢
    rw [attempts, links]
    by_cases here : other = index
    · subst here
      rw [Function.update_self, tracked.idle other free]
      exact ⟨calm, noProbe⟩
    · rw [Function.update_of_ne here] at busy ⊢
      exact tracked.fits other busy
  · intro connect member
    rw [connects] at member
    obtain ⟨held, dialling⟩ := tracked.dialled connect member
    rw [presence, attempts, holds_update_of_ne (apart held)]
    exact ⟨held, dialling⟩
  · rw [connects]
    exact tracked.once
  · rw [links]
    exact tracked.peers
  · rw [links]
    exact tracked.handled

/-- A slot that is not dialling has no connect in flight. -/
theorem noConnect (tracked : Tracked probes) (calm : probes.attempts index ≠ .dialling) :
    ∀ connect ∈ probes.ble.connects, connect.slot ≠ index := by
  rintro connect member rfl
  exact calm (tracked.dialled connect member).2

/-- A slot that is neither probing nor connected. -/
theorem quiet (tracked : Tracked probes) (used : (probes.ble.presence index).used = true)
    (apart : (probes.ble.presence index).connected = false)
    (calm : (probes.ble.presence index).probing = false) :
    probes.attempts index ≠ .dialling ∧ (probes.ble.presence index).probeHandle = noHandle := by
  obtain ⟨noProbe, none | ⟨ended, _⟩⟩ := (tracked.fits index used).quiet apart calm
  · exact ⟨by simp [none], noProbe⟩
  · exact ⟨by simp [ended], noProbe⟩

theorem turn (tracked : Tracked probes) (radio : Radio) (index : Fin presenceMax) :
    Tracked (probes.turn radio index) := by
  have env := Ble.environment_eq.mp (Ble.environment_tickSlot radio probes.ble index)
  obtain ⟨_, _, _, links, clock, _⟩ := env
  have turned := Ble.tickSlot_turned radio probes.ble index
  cases replied : probes.ble.turnReply radio index with
  | none =>
      rw [replied] at turned
      obtain ⟨connects, seenUs, present, acked, presence⟩ := turned
      have attempts : (probes.turn radio index).attempts = probes.attempts := by
        rw [Probes.turn, replied]
      refine tracked.congr attempts (fun other => ?_) clock connects links
      by_cases here : other = index
      · rw [Probes.turn, presence, here, Function.update_self]
        rfl
      · rw [Probes.turn, presence, Function.update_of_ne here]
  | some reply =>
      rw [replied] at turned
      obtain ⟨used, apart, calm, _, _⟩ := Ble.turnReply_some replied
      obtain ⟨idle, noProbe⟩ := tracked.quiet used apart calm
      have free := tracked.noConnect idle
      have attempts : (probes.turn radio index).attempts =
          Function.update probes.attempts index (reply.attempt probes.ble.clockUs) := by
        rw [Probes.turn, replied]
      have busy {P : Prop} (unused : (probes.ble.presence index).used = false) : P :=
        absurd (unused.symm.trans used) Bool.false_ne_true
      have peers : ((probes.turn radio index).ble.links.map Link.peer).Nodup :=
        (congrArg (fun links => (links.map Link.peer).Nodup) links).mpr tracked.peers
      have handled : ∀ link ∈ (probes.turn radio index).ble.links, link.handle ≠ noHandle :=
        fun link member => tracked.handled link (links ▸ member)
      rcases turned with ⟨seenUs, present, acked, ⟨started, connects, presence⟩ |
        ⟨refused, connects, handle, handleIs, presence⟩⟩
      · rw [started] at attempts
        refine tracked.update presence attempts clock rfl rfl (fun unused => busy unused)
          (fun _ => ⟨rfl, rfl⟩) (fun link member _ _ _ => links.symm ▸ member) ?_ ?_ peers handled
        · intro connect member
          rw [Probes.turn, connects] at member
          rcases List.mem_append.mp member with known | new
          · exact .inl ⟨free connect known, known⟩
          · rw [List.mem_singleton.mp new]
            exact .inr ⟨rfl, holds_self used, rfl⟩
        · rw [Probes.turn, connects]
          refine ListTable.nodup_add tracked.once fun known => ?_
          obtain ⟨connect, member, here⟩ := List.mem_map.mp known
          exact free connect member here
      · rw [refused] at attempts
        refine tracked.update presence attempts clock rfl rfl (fun unused => busy unused)
          (fun _ => ⟨rfl, ?_, rfl, tracked.started⟩)
          (fun link member _ _ _ => links.symm ▸ member) ?_ ?_ peers handled
        · exact handleIs.elim (fun same => same.trans noProbe) id
        · intro connect member
          rw [Probes.turn, connects] at member
          exact .inl ⟨free connect member, member⟩
        · rw [Probes.turn, connects]
          exact tracked.once

section Callbacks

variable {ble : Ble} {attempts : Fin presenceMax → Attempt} {link : Link}

theorem presenceSeenAddr (tracked : Tracked ⟨ble, attempts⟩) (addr : Addr) :
    Tracked ⟨ble.presenceSeenAddr addr, attempts⟩ := by
  have clock := ble.clockUs_presenceSeenAddr addr
  have connects := ble.connects_presenceSeenAddr addr
  have links := presenceSeenAddr_links ble addr
  rcases ble.presenceSeenAddr_cases addr with
    same | ⟨index, _, same⟩ | ⟨index, type, _, unheld, free, same⟩
  · rwa [same]
  · obtain ⟨acked, presence⟩ := ble.touched_presence index
    rw [← same] at presence
    refine tracked.congr rfl (fun other => ?_) clock connects links
    rw [presence]
    by_cases here : other = index
    · rw [here, Function.update_self]
      rfl
    · rw [Function.update_of_ne here]
  · obtain ⟨slot, taken, rfl, _, ⟨calm, noProbe⟩, presence⟩ := ble.claimed_presence index addr type
    rw [← same] at presence
    exact tracked.claim presence rfl clock connects links free taken unheld calm noProbe

theorem addLink (tracked : Tracked ⟨ble, attempts⟩) (fresh : FreshLink ble.links link) :
    Tracked ⟨ble.linkUp link, attempts⟩ := by
  refine ⟨tracked.started, tracked.distinct, tracked.idle, fun index used => ?_, tracked.dialled,
    tracked.once, ListTable.nodup_add tracked.peers fresh.2.2, fun other member => ?_⟩
  · exact (tracked.fits index used).keep rfl fun _ _ member => List.mem_append_left _ member
  · rcases List.mem_append.mp member with known | new
    · exact tracked.handled other known
    · rw [List.mem_singleton.mp new]
      exact fresh.1

/-- A link that ends without being the one an attempt holds. -/
theorem dropLink (tracked : Tracked ⟨ble, attempts⟩)
    (unheld : ∀ index, link.owner = some index → attempts index ≠ .held link.handle) :
    Tracked ⟨ble.linkDown link, attempts⟩ := by
  refine ⟨tracked.started, tracked.distinct, tracked.idle, fun index used => ?_, tracked.dialled,
    tracked.once, ?_, fun other member => ?_⟩
  · refine (tracked.fits index used).keep rfl fun handle holding member => ?_
    refine (List.mem_erase_of_ne ?_).mpr member
    rintro rfl
    exact unheld index rfl holding
  · exact tracked.peers.sublist (List.erase_sublist.map _)
  · exact tracked.handled other (List.mem_of_mem_erase member)

/-- The `connected` flag of a slot that holds no link of a probe. -/
theorem setConnected (tracked : Tracked ⟨ble, attempts⟩) {index : Fin presenceMax}
    (used : (ble.presence index).used = true) {linked : Bool} {seenUs : Nat}
    (kept : linked = true ∨ ∀ handle, attempts index ≠ .held handle) :
    Tracked ⟨ble.setSlot index
      { ble.presence index with connected := linked, lastSeenUs := seenUs }, attempts⟩ := by
  refine tracked.update rfl (Function.update_eq_self _ _).symm rfl rfl rfl
    (fun unused => absurd (unused.symm.trans used) Bool.false_ne_true)
    (fun _ => (tracked.fits index used).setConnected kept)
    (fun _ member _ _ _ => member) (fun connect member => ?_) tracked.once tracked.peers
    tracked.handled
  · obtain ⟨holds, dialling⟩ := tracked.dialled connect member
    by_cases here : connect.slot = index
    · exact .inr ⟨here, here ▸ holds, here ▸ dialling⟩
    · exact .inl ⟨here, member⟩

/-- A slot has one connect in flight. -/
theorem erased (tracked : Tracked probes) {connect : Connect}
    (inFlight : connect ∈ probes.ble.connects) :
    ∀ other ∈ probes.ble.connects.erase connect,
      other.slot ≠ connect.slot ∧ other ∈ probes.ble.connects := by
  intro other member
  obtain ⟨different, known⟩ := (List.Nodup.mem_erase_iff (tracked.once.of_map _)).mp member
  refine ⟨fun same => different ?_, known⟩
  exact List.inj_on_of_nodup_map tracked.once known inFlight same

theorem probeUp (tracked : Tracked probes) {connect : Connect} {handle : Nat}
    (inFlight : connect ∈ probes.ble.connects)
    (fresh : FreshLink probes.ble.links ⟨handle, connect.peer, some connect.slot⟩)
    (radio : Radio) : Tracked (probes.perform radio (.probeUp connect handle)) := by
  obtain ⟨holds, _⟩ := tracked.dialled connect inFlight
  have linked : Tracked ⟨probes.ble.linkUp ⟨handle, connect.peer, some connect.slot⟩,
      probes.attempts⟩ := tracked.addLink fresh
  have marked : Tracked ⟨((probes.ble.connectEnds connect).linkUp
      ⟨handle, connect.peer, some connect.slot⟩).setSlot connect.slot
        { probes.ble.presence connect.slot with
          probeHandle := handle, connected := true, probing := false },
      Function.update probes.attempts connect.slot (.held handle)⟩ := by
    refine linked.update rfl rfl rfl rfl rfl
      (fun unused => absurd (unused.symm.trans holds.1) Bool.false_ne_true)
      (fun _ => ⟨rfl, rfl, rfl, ?_⟩) (fun _ member _ _ _ => member)
      (fun other member => .inl (tracked.erased inFlight other member))
      (tracked.once.sublist (List.erase_sublist.map _)) linked.peers linked.handled
    have own : (⟨handle, (probes.ble.presence connect.slot).addr, some connect.slot⟩ : Link) =
        ⟨handle, connect.peer, some connect.slot⟩ := by rw [holds.2]
    exact List.mem_append_right _ (List.mem_singleton.mpr own)
  exact (marked.presenceSeenAddr _).congr rfl (fun _ => rfl) rfl rfl rfl

theorem probeDown (tracked : Tracked probes) {connect : Connect}
    (inFlight : connect ∈ probes.ble.connects) (radio : Radio) :
    Tracked (probes.perform radio (.probeDown connect)) := by
  obtain ⟨holds, dialling⟩ := tracked.dialled connect inFlight
  have fits := tracked.fits connect.slot holds.1
  rw [dialling] at fits
  exact tracked.update rfl rfl rfl rfl rfl
    (fun unused => absurd (unused.symm.trans holds.1) Bool.false_ne_true)
    (fun _ => ⟨rfl, fits.2, rfl, tracked.started⟩) (fun _ member _ _ _ => member)
    (fun other member => .inl (tracked.erased inFlight other member))
    (tracked.once.sublist (List.erase_sublist.map _)) tracked.peers tracked.handled

theorem hidUp (tracked : Tracked probes) {handle : Nat} {peer : Addr}
    (fresh : FreshLink probes.ble.links ⟨handle, peer, none⟩) (radio : Radio) :
    Tracked (probes.perform radio (.hidUp handle peer)) := by
  have linked : Tracked ⟨probes.ble.linkUp ⟨handle, peer, none⟩, probes.attempts⟩ :=
    tracked.addLink fresh
  have seen := linked.presenceSeenAddr peer
  show Tracked ⟨Ble.gapConnected (probes.ble.linkUp ⟨handle, peer, none⟩) peer, probes.attempts⟩
  rw [Ble.gapConnected]
  dsimp only
  split
  · rename_i index found
    exact seen.setConnected (Ble.slotOf_holds found).1 (.inl rfl)
  · exact seen

/-- The link of a probe ends: of the slot's last one, or of one in a former life of the slot. -/
theorem probeLinkDown (tracked : Tracked probes) {handle : Nat} {peer : Addr}
    {index : Fin presenceMax} (member : ⟨handle, peer, some index⟩ ∈ probes.ble.links)
    (radio : Radio) : Tracked (probes.perform radio (.linkDown ⟨handle, peer, some index⟩)) := by
  have fine : handle ≠ noHandle := tracked.handled _ member
  have dropped (unheld : probes.attempts index ≠ .held handle) :
      Tracked ⟨probes.ble.linkDown ⟨handle, peer, some index⟩, probes.attempts⟩ :=
    tracked.dropLink fun owner owned => Option.some.inj owned ▸ unheld
  show Tracked ⟨(probes.ble.linkDown ⟨handle, peer, some index⟩).probeDisconnected index handle,
    if probes.attempts index = .held handle then
      Function.update probes.attempts index (.ended probes.ble.clockUs)
    else probes.attempts⟩
  by_cases own : (probes.ble.presence index).probeHandle = handle
  · have presence := @Ble.probeDisconnected_presence
      (probes.ble.linkDown ⟨handle, peer, some index⟩) _ _ own
    have links := probeDisconnected_links (probes.ble.linkDown ⟨handle, peer, some index⟩) index
      handle
    have clock := Ble.clockUs_perform Radio.oneConnect probes.ble
      (.linkDown ⟨handle, peer, some index⟩)
    have connects :=
      (probes.ble.linkDown ⟨handle, peer, some index⟩).connects_probeDisconnected index handle
    have others : ∀ link ∈ probes.ble.links, ∀ owner, link.owner = some owner → owner ≠ index →
        link ∈ probes.ble.links.erase ⟨handle, peer, some index⟩ := by
      intro link known owner owned different
      refine (List.mem_erase_of_ne ?_).mpr known
      rintro rfl
      exact different (Option.some.inj owned.symm)
    have written {attempts : Fin presenceMax → Attempt} {attempt : Attempt}
        (calm : probes.attempts index ≠ .dialling)
        (later : attempts = Function.update probes.attempts index attempt)
        (idle : (probes.ble.presence index).used = false → attempt = .none)
        (ends : (probes.ble.presence index).used = true → attempt = .ended probes.ble.clockUs) :
        Tracked ⟨(probes.ble.linkDown ⟨handle, peer, some index⟩).probeDisconnected index handle,
          attempts⟩ := by
      refine tracked.update presence later clock rfl rfl idle (fun used => ?_) ?_ ?_ ?_ ?_ ?_
      · rw [ends used]
        exact ⟨rfl, rfl, rfl, tracked.started⟩
      · rw [links]
        exact others
      · rw [connects]
        exact fun connect known => .inl ⟨tracked.noConnect calm connect known, known⟩
      · rw [connects]
        exact tracked.once
      · rw [links]
        exact tracked.peers.sublist (List.erase_sublist.map _)
      · rw [links]
        exact fun link known => tracked.handled link (List.mem_of_mem_erase known)
    cases used : (probes.ble.presence index).used with
    | true =>
        have holding := ((tracked.fits index used).held_iff fine).mpr own
        rw [if_pos holding]
        exact written (by simp [holding]) rfl
          (fun unused => absurd (unused.symm.trans used) Bool.false_ne_true) fun _ => rfl
    | false =>
        have gone := tracked.idle index used
        rw [if_neg (by simp [gone])]
        exact written (by simp [gone]) (Function.update_eq_self _ _).symm (fun _ => gone)
          fun busy => absurd (used.symm.trans busy) Bool.false_ne_true
  · have still : (probes.ble.linkDown ⟨handle, peer, some index⟩).probeDisconnected index handle =
        probes.ble.linkDown ⟨handle, peer, some index⟩ := if_neg own
    have unheld : probes.attempts index ≠ .held handle := by
      intro held
      cases used : (probes.ble.presence index).used with
      | true => exact own (((tracked.fits index used).held_iff fine).mp held)
      | false => exact absurd ((tracked.idle index used).symm.trans held) (by simp)
    rw [still, if_neg unheld]
    exact dropped unheld

theorem hidLinkDown (tracked : Tracked probes) {handle : Nat} {peer : Addr}
    (member : ⟨handle, peer, none⟩ ∈ probes.ble.links) (radio : Radio) :
    Tracked (probes.perform radio (.linkDown ⟨handle, peer, none⟩)) := by
  have dropped : Tracked ⟨probes.ble.linkDown ⟨handle, peer, none⟩, probes.attempts⟩ :=
    tracked.dropLink fun _ owned => absurd owned (by simp)
  show Tracked ⟨(probes.ble.linkDown ⟨handle, peer, none⟩).gapDisconnected peer, probes.attempts⟩
  rw [Ble.gapDisconnected]
  split
  · rename_i index found
    obtain ⟨used, same⟩ := Ble.slotOf_holds found
    have unheld (other : Nat) : probes.attempts index ≠ .held other := by
      intro holding
      have fits := tracked.fits index used
      rw [holding] at fits
      have one := List.inj_on_of_nodup_map tracked.peers fits.2.2.2 member same
      exact absurd (congrArg Link.owner one) (by simp)
    exact (dropped.setConnected used (.inr unheld)).congr rfl (fun _ => rfl) rfl rfl rfl
  · exact dropped

theorem preallocateBond (tracked : Tracked ⟨ble, attempts⟩) (bond : Bond) :
    Tracked ⟨ble.preallocateBond bond, attempts⟩ := by
  rcases ble.preallocateBond_cases bond with same | ⟨index, _, unheld, free, same⟩
  · rwa [same]
  · obtain ⟨clock, connects, links⟩ := ble.claimBonded_others index bond
    rw [same]
    exact tracked.claim (ble.claimBonded_presence index bond) rfl clock connects links free rfl
      unheld rfl rfl

theorem wipeEvents (tracked : Tracked ⟨ble, attempts⟩) : Tracked ⟨ble.wipeEvents, attempts⟩ := by
  refine tracked.congr rfl (fun index => ?_) rfl rfl rfl
  rw [ble.wipeEvents_presence]
  split_ifs <;> rfl

theorem settled (tracked : Tracked probes) : Tracked probes.settle := by
  have same : probes.settle.attempts = probes.attempts := by
    funext index
    cases used : (probes.ble.presence index).used with
    | true => exact if_pos used
    | false => exact (if_neg (by simp [used])).trans (tracked.idle index used).symm
  exact tracked.congr same (fun _ => rfl) rfl rfl rfl

/-- A revocation frees the slot, which ends its life. -/
theorem bondRevoke (tracked : Tracked ⟨ble, attempts⟩) {addr : Addr} {deleted : Bool}
    (spares : ble.SparesDialled (.revoke addr deleted)) :
    Tracked (Probes.settle ⟨ble.bondRevoke addr deleted, attempts⟩) := by
  rcases ble.bondRevoke_cases addr deleted with same | ⟨index, found, same⟩ | ⟨_, same⟩
  · rw [same]
    exact tracked.settled
  · have holds := Ble.slotOf_holds found
    have calm : ∀ connect ∈ ble.connects, connect.slot ≠ index := by
      rintro connect member rfl
      exact spares connect member ((tracked.dialled connect member).1.2.symm.trans holds.2)
    have presence : (ble.bondRevoke addr deleted).presence =
        Function.update ble.presence index PresenceSlot.cleared := by
      rw [same]
      rfl
    have others : (ble.bondRevoke addr deleted).clockUs = ble.clockUs ∧
        (ble.bondRevoke addr deleted).connects = ble.connects ∧
        (ble.bondRevoke addr deleted).links = ble.links := by
      rw [same]
      exact ⟨rfl, rfl, rfl⟩
    generalize ble.bondRevoke addr deleted = freed at presence others ⊢
    obtain ⟨clock, connects, links⟩ := others
    have idle (other : Fin presenceMax) (unused : (freed.presence other).used = false) :
        (Probes.settle ⟨freed, attempts⟩).attempts other = .none :=
      if_neg (by simp [unused])
    have left {other : Fin presenceMax} (used : (freed.presence other).used = true) :
        other ≠ index ∧ freed.presence other = ble.presence other ∧
          (Probes.settle ⟨freed, attempts⟩).attempts other = attempts other := by
      have here : other ≠ index := by
        rintro rfl
        rw [presence, Function.update_self] at used
        exact absurd used Bool.false_ne_true
      exact ⟨here, by rw [presence, Function.update_of_ne here], if_pos used⟩
    constructor
    · exact clock ▸ tracked.started
    · exact presence ▸ tracked.distinct.clear rfl
    · exact idle
    · intro other used
      obtain ⟨_, slot, attempt⟩ := left used
      show Attempt.Fits freed.links other (freed.presence other) _
      rw [attempt, links, slot]
      exact tracked.fits other (slot ▸ used)
    · intro connect member
      obtain ⟨held, dialling⟩ := tracked.dialled connect (connects ▸ member)
      have still : freed.presence.Holds connect.slot connect.peer := by
        rw [presence]
        exact (holds_update_of_ne (calm connect (connects ▸ member))).mpr held
      exact ⟨still, (left still.1).2.2.trans dialling⟩
    · exact (congrArg (fun left => (left.map Connect.slot).Nodup) connects).mpr tracked.once
    · exact (congrArg (fun left => (left.map Link.peer).Nodup) links).mpr tracked.peers
    · exact fun link member => tracked.handled link (links ▸ member)
  · have kept : Tracked ⟨ble.bondRevoke addr deleted, attempts⟩ := by
      rw [same]
      exact tracked.congr rfl (fun _ => rfl) rfl rfl rfl
    exact kept.settled

/-- Every event keeps the attempts tracked. -/
theorem perform (tracked : Tracked probes) (radio : Radio) {event : BleEvent}
    (reports : probes.ble.Reports event) (spares : probes.ble.SparesDialled event) :
    Tracked (probes.perform radio event).settle := by
  have preallocated : Tracked ⟨probes.ble.presencePreallocateBonded, probes.attempts⟩ :=
    run_kept (fun next : Ble => Tracked ⟨next, probes.attempts⟩)
      (fun _ bond kept => kept.preallocateBond bond) tracked
  cases event with
  | revoke addr deleted => exact tracked.bondRevoke spares
  | adv addr => exact (tracked.presenceSeenAddr addr).settled
  | tick =>
      refine Tracked.settled ?_
      exact run_kept Tracked (fun _ index kept => kept.turn radio index) tracked
  | probeUp connect handle => exact (tracked.probeUp reports.1 reports.2 radio).settled
  | probeDown connect => exact (tracked.probeDown reports radio).settled
  | hidUp handle peer => exact (tracked.hidUp reports radio).settled
  | linkDown link =>
      obtain ⟨handle, peer, owner⟩ := link
      cases owner with
      | some index => exact (tracked.probeLinkDown reports radio).settled
      | none => exact (tracked.hidLinkDown reports radio).settled
  | wipe => exact tracked.wipeEvents.settled
  | encChange | hostSync =>
      refine Tracked.settled ?_
      exact preallocated.congr rfl (fun _ => rfl) rfl rfl rfl
  | synced | unsynced | setTimeout | pairingStart | pairingCancel | bondStore | scanRestart =>
      refine Tracked.settled ?_
      exact tracked.congr rfl (fun _ => rfl) rfl rfl rfl

end Callbacks

end Tracked

end Invariant

section Run

variable {probes : Probes} {radio : Radio} {index : Fin presenceMax}

/-- What a probe of a slot waits for. -/
structure Probes.MayDial (probes : Probes) (index : Fin presenceMax) : Prop where
  used : (probes.ble.presence index).used = true
  apart : (probes.ble.presence index).connected = false
  calm : (probes.ble.presence index).probing = false
  noConnect : ∀ connect ∈ probes.ble.connects, connect.slot ≠ index
  closed : probes.ble.pairingActive = false
  spaced : (probes.attempts index).Spaced probes.ble.clockUs (spacingUs (probes.ble.presence index))

theorem Tracked.mayDial (tracked : Tracked probes) {reply : ProbeReply}
    (replied : probes.ble.turnReply radio index = some reply) : probes.MayDial index := by
  obtain ⟨used, apart, calm, closed, cooled⟩ := Ble.turnReply_some replied
  refine ⟨used, apart, calm, tracked.noConnect (tracked.quiet used apart calm).1, closed, ?_⟩
  obtain ⟨_, none | ⟨ended, probed⟩⟩ := (tracked.fits index used).quiet apart calm
  · rw [none]
    trivial
  · rw [ended]
    exact cooled.resolve_left (by omega)

/-- A turn starts a connect only where a probe may start. -/
theorem Tracked.turn_starts (tracked : Tracked probes) (radio : Radio) (index : Fin presenceMax) :
    (Ble.tickSlot radio probes.ble index).connects = probes.ble.connects ∨
      (Ble.tickSlot radio probes.ble index).connects =
          probes.ble.connects ++ [probes.ble.dial index] ∧ probes.MayDial index := by
  have turned := Ble.tickSlot_turned radio probes.ble index
  cases replied : probes.ble.turnReply radio index with
  | none =>
      rw [replied] at turned
      exact .inl turned.1
  | some reply =>
      rw [replied] at turned
      rcases turned with ⟨_, _, _, ⟨_, connects, _⟩ | ⟨_, connects, _⟩⟩
      · exact .inr ⟨connects, tracked.mayDial replied⟩
      · exact .inl connects

/-- Only the tick starts connects. -/
theorem Ble.connects_perform (radio : Radio) (ble : Ble) {event : BleEvent}
    (other : event ≠ .tick) : (ble.perform radio event).connects.Sublist ble.connects := by
  have unchanged {next : Ble} (same : next.connects = ble.connects) :
      next.connects.Sublist ble.connects := by rw [same]
  have preallocated : ble.presencePreallocateBonded.connects = ble.connects := by
    refine run_kept (fun next : Ble => next.connects = ble.connects) ?_ rfl
    intro next bond same
    rcases next.preallocateBond_cases bond with still | ⟨index, _, _, _, claimed⟩
    · rw [still, same]
    · rw [claimed, (next.claimBonded_others index bond).2.1, same]
  cases event with
  | tick => exact absurd rfl other
  | adv addr => exact unchanged (ble.connects_presenceSeenAddr addr)
  | probeUp connect handle =>
      have ended : (ble.perform radio (.probeUp connect handle)).connects =
          ble.connects.erase connect := Ble.connects_presenceSeenAddr _ _
      rw [ended]
      exact List.erase_sublist
  | probeDown connect => exact List.erase_sublist
  | hidUp handle peer =>
      have seen := (ble.linkUp ⟨handle, peer, none⟩).connects_presenceSeenAddr peer
      refine unchanged ?_
      rw [Ble.perform, Ble.gapConnected]
      dsimp only
      split
      · exact seen
      · exact seen
  | linkDown link =>
      refine unchanged ?_
      rw [Ble.perform]
      split
      · exact Ble.connects_probeDisconnected _ _ _
      · rw [Ble.gapDisconnected]
        split <;> rfl
  | encChange | hostSync => exact unchanged preallocated
  | revoke addr deleted =>
      refine unchanged ?_
      rcases ble.bondRevoke_cases addr deleted with same | ⟨_, _, same⟩ | ⟨_, same⟩ <;>
        rw [Ble.perform, same] <;> rfl
  | synced | unsynced | wipe | setTimeout | pairingStart | pairingCancel | bondStore
  | scanRestart => exact unchanged rfl

/-- What ends a connect takes the slot out of probing. -/
theorem Ble.probing_perform (radio : Radio) (ble : Ble) {event : BleEvent} {connect : Connect}
    (ends : event = .probeDown connect ∨ ∃ handle, event = .probeUp connect handle) :
    ((ble.perform radio event).presence connect.slot).probing = false := by
  rcases ends with rfl | ⟨handle, rfl⟩
  · rw [ble.probeDown_presence radio connect, Function.update_self]
  · set linked := ((ble.connectEnds connect).linkUp
      ⟨handle, connect.peer, some connect.slot⟩).setSlot connect.slot
        { ble.presence connect.slot with
          probeHandle := handle, connected := true, probing := false } with linkedIs
    have calm : (linked.presence connect.slot).probing = false := by
      rw [linkedIs, Ble.presence_setSlot, Function.update_self]
    show ((linked.presenceSeenAddr (ble.presence connect.slot).addr).presence
      connect.slot).probing = false
    rcases linked.presenceSeenAddr_cases (ble.presence connect.slot).addr with
      same | ⟨index, _, same⟩ | ⟨index, type, _, _, _, same⟩
    · rw [same]
      exact calm
    · obtain ⟨acked, presence⟩ := linked.touched_presence index
      rw [same, presence]
      by_cases here : connect.slot = index
      · rw [here, Function.update_self]
        exact here ▸ calm
      · rwa [Function.update_of_ne here]
    · obtain ⟨slot, _, _, _, ⟨idle, _⟩, presence⟩ := linked.claimed_presence index
        (ble.presence connect.slot).addr type
      rw [same, presence]
      by_cases here : connect.slot = index
      · rwa [here, Function.update_self]
      · rwa [Function.update_of_ne here]

/-- As long as NimBLE reports one link for each peer and no peer is revoked while it is
dialled, a connect to the peer of a slot is started by a tick alone, and only when the slot has
no probe, no link and no pairing window over it and its last attempt was over ten seconds
before, or thirty for an absent peer. What ends the connect finds the slot of the peer it
dialled and ends the probing. -/
theorem probe_spacing (radio : Radio) {startUs : Nat} (started : 0 < startUs)
    (timeout : PresenceTimeout) (log : List PeerEvent) (actions : List BleAction)
    (guarded : Guarded (Probes.step radio)
      (fun probes =>
        Ble.Meets (fun ble event => ble.Reports event ∧ ble.SparesDialled event) probes.ble)
      (Probes.boot startUs timeout log) actions)
    (past : List BleAction) (elapsedUs : Nat) (event : BleEvent)
    (within : past ++ [⟨elapsedUs, event⟩] <+: actions) :
    let probes := (run (Probes.step radio) (Probes.boot startUs timeout log) past).wait elapsedUs
    probes.ble = (run (Ble.step radio) (Ble.boot startUs timeout log) past).wait elapsedUs ∧
    (event = .tick → ∀ before index,
      let turn := run (Probes.turn radio) probes before
      (Ble.tickSlot radio turn.ble index).connects = turn.ble.connects ∨
        (Ble.tickSlot radio turn.ble index).connects =
            turn.ble.connects ++ [turn.ble.dial index] ∧ turn.MayDial index) ∧
      (event ≠ .tick →
        (probes.ble.perform radio event).connects.Sublist probes.ble.connects) ∧
      ∀ connect, (event = .probeDown connect ∨ ∃ handle, event = .probeUp connect handle) →
        probes.ble.presence.Holds connect.slot connect.peer ∧
          ((probes.ble.perform radio event).presence connect.slot).probing = false := by
  intro probes
  obtain ⟨rest, rfl⟩ := within
  obtain ⟨first, met⟩ := (guarded_snoc _ _).mp ((guarded_append _ _).mp guarded).1
  have reached : Tracked (run (Probes.step radio) (Probes.boot startUs timeout log) past) := by
    refine run_invariant Tracked ?_ (Tracked.boot started timeout log) first
    intro probes action tracked met
    exact (tracked.wait action.elapsedUs).perform radio met.1 met.2
  have tracked : Tracked probes := reached.wait elapsedUs
  refine ⟨?_, fun _ before index => ?_, fun other => Ble.connects_perform radio _ other,
    fun connect ends => ⟨?_, Ble.probing_perform radio _ ends⟩⟩
  · exact congrArg (Ble.wait · elapsedUs) (Probes.run_ble radio _ past)
  · have turned : Tracked (run (Probes.turn radio) probes before) :=
      run_kept Tracked (fun _ index kept => kept.turn radio index) tracked
    exact turned.turn_starts radio index
  · have inFlight : connect ∈ probes.ble.connects := by
      rcases ends with rfl | ⟨handle, rfl⟩
      · exact met.1
      · exact met.1.1
    exact (tracked.dialled connect inFlight).1

/-- A bonded phone that does not answer its first probe. -/
def unanswered : List BleAction :=
  [⟨0, .bondStore [⟨phone, .publicAddr⟩]⟩, ⟨1000000, .hostSync⟩, ⟨1000000, .tick⟩,
    ⟨5000000, .probeDown ⟨0, phone, .publicId, 2000001⟩⟩]

/-- The phone is dialled again thirty seconds after the probe ended. -/
theorem probe_spacing_again :
    let probes :=
      (run (Probes.step Radio.oneConnect) (Probes.boot 1 .initial []) unanswered).wait 30000000
    probes.attempts 0 = .ended 7000001 ∧ probes.ble.clockUs = 37000001 ∧
      (Ble.tickSlot Radio.oneConnect probes.ble 0).connects =
          probes.ble.connects ++ [probes.ble.dial 0] ∧ probes.MayDial 0 := by
  refine ⟨by decide +kernel, by decide +kernel, ?_⟩
  have spaced := probe_spacing Radio.oneConnect Nat.one_pos .initial []
    (unanswered ++ [⟨30000000, .tick⟩]) (by decide +kernel) unanswered 30000000 .tick
    List.prefix_rfl
  exact (spaced.2.1 rfl [] 0).resolve_left (by decide +kernel)

end Run

end LeanDingdong
