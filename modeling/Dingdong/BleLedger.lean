import Dingdong.BleSlots

/-!
The IN and OUT requests of the presence machine. A ledger keeps, for each address, what
its slot owes the log; the notes of a run move it, and the slots agree with it.
-/

namespace LeanDingdong

open Runs Presence

/-- How a note moves the ledger of an address: `none` without a slot, else whether an IN
is open. -/
def Note.effect (addr : Addr) (entry : Note) (state : Option Bool) : Option Bool :=
  match entry with
  | .claimed peer resumed => if peer = addr then some resumed else state
  | .requested type peer => if peer = addr then some (type = .evIn) else state
  | .wiped => state.map fun _ => false
  | .revoked peer => if peer = addr then none else state
  | .refreshed _ | .dialled _ | .left _ _ => state

def ledger (addr : Addr) (history : List Note) : Option Bool :=
  history.foldr (Note.effect addr) none

/-- A request of an IN needs a slot without an open one, a request of an OUT a slot with
one, and only an address without a slot gets one. -/
def Note.Fits (history : List Note) : Note → Prop
  | .requested .evIn peer => ledger peer history = some false
  | .requested .evOut peer => ledger peer history = some true
  | .claimed peer _ => ledger peer history = none
  | _ => True

/-- Every note fits the notes before it. -/
def Lawful : List Note → Prop
  | [] => True
  | entry :: older => entry.Fits older ∧ Lawful older

/-- An OUT is requested right after each time an acknowledged slot leaves. -/
def Answered (history : List Note) : Prop :=
  ∀ newer older peer, history = newer ++ .left peer true :: older →
    ∃ rest, newer = rest ++ [.requested .evOut peer]

section Notes

variable {addr peer : Addr} {history : List Note} {entry : Note}

@[simp] theorem ledger_cons (addr : Addr) (entry : Note) (history : List Note) :
    ledger addr (entry :: history) = entry.effect addr (ledger addr history) := rfl

theorem Lawful.older {newer : List Note} (lawful : Lawful (newer ++ history)) : Lawful history := by
  induction newer with
  | nil => exact lawful
  | cons entry newer ih => exact ih lawful.2

theorem Answered.nil : Answered [] := fun newer older peer split => by simp at split

theorem Answered.cons (answered : Answered history) (other : ∀ peer, entry ≠ .left peer true) :
    Answered (entry :: history) := by
  intro newer older peer split
  cases newer with
  | nil => exact absurd (List.cons.inj split).1 (other peer)
  | cons first newer =>
      obtain ⟨rest, same⟩ := answered newer older peer (List.cons.inj split).2
      exact ⟨first :: rest, by rw [same, List.cons_append]⟩

theorem Answered.leave (answered : Answered history) (peer : Addr) :
    Answered (.requested .evOut peer :: .left peer true :: history) := by
  intro newer older other split
  cases newer with
  | nil => cases (List.cons.inj split).1
  | cons first newer =>
      obtain ⟨firstIs, split⟩ := List.cons.inj split
      cases newer with
      | nil =>
          obtain ⟨rfl, _⟩ := Note.left.inj (List.cons.inj split).1
          exact ⟨[], by rw [← firstIs]; rfl⟩
      | cons second newer =>
          obtain ⟨rest, same⟩ := answered newer older other (List.cons.inj split).2
          exact ⟨first :: second :: rest, by rw [same]; rfl⟩

/-- Between notes that neither wipe nor revoke, an open IN is closed by an OUT before the
next one, and by one only. -/
theorem lawful_between {mid : List Note} (lawful : Lawful (mid ++ history))
    (noIn : .requested .evIn addr ∉ mid) (noWipe : .wiped ∉ mid) (noRevoke : .revoked addr ∉ mid)
    (opened : ledger addr history = some true) :
    ledger addr (mid ++ history) = some (decide (mid.count (.requested .evOut addr) = 0)) ∧
      mid.count (.requested .evOut addr) ≤ 1 := by
  induction mid with
  | nil => exact ⟨opened, Nat.zero_le _⟩
  | cons entry mid ih =>
      rw [List.mem_cons, not_or] at noIn noWipe noRevoke
      obtain ⟨state, bound⟩ := ih lawful.2 noIn.2 noWipe.2 noRevoke.2
      rw [List.cons_append, ledger_cons, state, List.count_cons]
      cases entry with
      | claimed peer resumed =>
          have free : ledger peer (mid ++ history) = none := lawful.1
          have other : peer ≠ addr := by
            rintro rfl
            rw [state] at free
            cases free
          simpa [Note.effect, other] using bound
      | refreshed peer => simpa [Note.effect] using bound
      | dialled peer => simpa [Note.effect] using bound
      | requested type peer =>
          by_cases here : peer = addr
          · subst here
            cases type with
            | evIn => exact absurd rfl noIn.1
            | evOut =>
                have owed : ledger peer (mid ++ history) = some true := lawful.1
                have none : mid.count (.requested .evOut peer) = 0 := by
                  rw [state] at owed
                  simpa using owed
                simp [Note.effect, none]
          · simpa [Note.effect, here] using bound
      | left peer acked => simpa [Note.effect] using bound
      | wiped => exact absurd rfl noWipe.1
      | revoked peer =>
          have other : peer ≠ addr := by
            rintro rfl
            exact noRevoke.1 rfl
          simpa [Note.effect, other] using bound

end Notes

/-- The slots agree with the ledger: a slot's `ack_event` is its open IN. -/
structure Ledgered (presence : Presence) (history : List Note) : Prop where
  distinct : presence.Distinct
  opened : ∀ index addr, presence.Holds index addr →
    ledger addr history = some (presence index).ackEvent
  unheld : ∀ addr, presence.Unheld addr → ledger addr history = none
  acked : ∀ index, (presence index).used = true → (presence index).ackEvent = true →
    (presence index).present = true
  lawful : Lawful history
  answered : Answered history

namespace Ledgered

variable {presence : Presence} {history next : List Note} {index : Fin presenceMax} {addr : Addr}
  {slot : PresenceSlot}

theorem cleared : Ledgered (fun _ => PresenceSlot.cleared) [] where
  distinct _ _ _ holds := absurd holds.1 Bool.false_ne_true
  opened _ _ holds := absurd holds.1 Bool.false_ne_true
  unheld _ _ := rfl
  acked _ used := absurd used Bool.false_ne_true
  lawful := trivial
  answered := Answered.nil

/-- A slot is written and notes are added that say so. -/
theorem settle (ledgered : Ledgered presence history) (holds : presence.Holds index addr)
    (used : slot.used = true) (same : slot.addr = addr)
    (own : ledger addr next = some slot.ackEvent)
    (others : ∀ other, other ≠ addr → ledger other next = ledger other history)
    (acked : slot.ackEvent = true → slot.present = true) (lawful : Lawful next)
    (answered : Answered next) : Ledgered (Function.update presence index slot) next := by
  have keeps (other : Fin presenceMax) (peer : Addr) :
      Presence.Holds (Function.update presence index slot) other peer ↔
        presence.Holds other peer :=
    holds_update_same (used.trans holds.1.symm) (same.trans holds.2.symm)
  constructor
  · exact ledgered.distinct.write (used.trans holds.1.symm) (same.trans holds.2.symm)
  · intro other peer held
    rw [keeps] at held
    by_cases here : other = index
    · subst here
      obtain rfl : addr = peer := holds.2.symm.trans held.2
      rw [Function.update_self, own]
    · have different : peer ≠ addr := by
        rintro rfl
        exact here (ledgered.distinct other index _ held holds)
      rw [Function.update_of_ne here, others peer different, ledgered.opened other peer held]
  · intro peer unheld
    have different : peer ≠ addr := by
      rintro rfl
      exact unheld index ((keeps index peer).mpr holds)
    rw [others peer different]
    exact ledgered.unheld peer fun other held => unheld other ((keeps other peer).mpr held)
  · intro other usedOther ackedOther
    by_cases here : other = index
    · subst here
      rw [Function.update_self] at ackedOther ⊢
      exact acked ackedOther
    · rw [Function.update_of_ne here] at usedOther ackedOther ⊢
      exact ledgered.acked other usedOther ackedOther
  · exact lawful
  · exact answered

theorem write (ledgered : Ledgered presence history) (used : (presence index).used = true)
    (sameUsed : slot.used = (presence index).used) (sameAddr : slot.addr = (presence index).addr)
    (sameAck : slot.ackEvent = (presence index).ackEvent)
    (present : (presence index).present = true → slot.present = true) :
    Ledgered (Function.update presence index slot) history := by
  have holds := holds_self used
  refine ledgered.settle holds (sameUsed.trans used) sameAddr ?_ (fun _ _ => rfl) ?_
    ledgered.lawful ledgered.answered
  · rw [ledgered.opened index _ holds, sameAck]
  · intro acked
    exact present (ledgered.acked index used (sameAck ▸ acked))

theorem writeUnused (ledgered : Ledgered presence history)
    (unused : (presence index).used = false) (free : slot.used = false) :
    Ledgered (Function.update presence index slot) history := by
  have keeps (other : Fin presenceMax) (peer : Addr) :
      Presence.Holds (Function.update presence index slot) other peer ↔
        presence.Holds other peer := by
    by_cases here : other = index
    · subst here
      rw [holds_update_self, Presence.Holds, free, unused]
      simp
    · exact holds_update_of_ne here
  have apart {other : Fin presenceMax} {peer : Addr} (held : presence.Holds other peer) :
      other ≠ index := by
    rintro rfl
    exact absurd held.1 (by simp [unused])
  constructor
  · exact ledgered.distinct.clear free
  · intro other peer held
    rw [keeps] at held
    rw [Function.update_of_ne (apart held)]
    exact ledgered.opened other peer held
  · exact fun peer unheld =>
      ledgered.unheld peer fun other held => unheld other ((keeps other peer).mpr held)
  · intro other usedOther ackedOther
    have here : other ≠ index := by
      rintro rfl
      rw [Function.update_self, free] at usedOther
      exact absurd usedOther Bool.false_ne_true
    rw [Function.update_of_ne here] at usedOther ackedOther ⊢
    exact ledgered.acked other usedOther ackedOther
  · exact ledgered.lawful
  · exact ledgered.answered

/-- A write to any slot that leaves the fields of the ledger alone. -/
theorem rewrite (ledgered : Ledgered presence history)
    (sameUsed : slot.used = (presence index).used) (sameAddr : slot.addr = (presence index).addr)
    (sameAck : slot.ackEvent = (presence index).ackEvent)
    (samePresent : slot.present = (presence index).present) :
    Ledgered (Function.update presence index slot) history := by
  cases used : (presence index).used with
  | true => exact ledgered.write used sameUsed sameAddr sameAck fun present =>
      samePresent.trans present
  | false => exact ledgered.writeUnused used (sameUsed.trans used)

theorem note (ledgered : Ledgered presence history) {entry : Note}
    (quiet : ∀ addr state, entry.effect addr state = state) (fits : entry.Fits history)
    (other : ∀ peer, entry ≠ .left peer true) : Ledgered presence (entry :: history) where
  distinct := ledgered.distinct
  opened index addr holds := by
    rw [ledger_cons, quiet]
    exact ledgered.opened index addr holds
  unheld addr unheld := by
    rw [ledger_cons, quiet]
    exact ledgered.unheld addr unheld
  acked := ledgered.acked
  lawful := ⟨fits, ledgered.lawful⟩
  answered := ledgered.answered.cons other

theorem refreshed (ledgered : Ledgered presence history) (addr : Addr) :
    Ledgered presence (.refreshed addr :: history) :=
  ledgered.note (fun _ _ => rfl) trivial (by simp)

theorem claim (ledgered : Ledgered presence history) (unheld : presence.Unheld slot.addr)
    (unused : (presence index).used = false) (used : slot.used = true)
    (acked : slot.ackEvent = true → slot.present = true) :
    Ledgered (Function.update presence index slot)
      (.claimed slot.addr slot.ackEvent :: history) := by
  constructor
  · exact ledgered.distinct.claim unheld
  · intro other peer held
    by_cases here : other = index
    · subst here
      obtain ⟨_, rfl⟩ := holds_update_self.mp held
      simp [Note.effect]
    · rw [holds_update_of_ne here] at held
      have different : slot.addr ≠ peer := by
        rintro rfl
        exact unheld other held
      rw [Function.update_of_ne here, ledger_cons, Note.effect, if_neg different]
      exact ledgered.opened other peer held
  · intro peer free
    have different : slot.addr ≠ peer := by
      rintro rfl
      exact free index (holds_update_self.mpr ⟨used, rfl⟩)
    rw [ledger_cons, Note.effect, if_neg different]
    refine ledgered.unheld peer fun other held => free other ?_
    have here : other ≠ index := by
      rintro rfl
      exact absurd held.1 (by simp [unused])
    exact (holds_update_of_ne here).mpr held
  · intro other usedOther ackedOther
    by_cases here : other = index
    · subst here
      rw [Function.update_self] at ackedOther ⊢
      exact acked ackedOther
    · rw [Function.update_of_ne here] at usedOther ackedOther ⊢
      exact ledgered.acked other usedOther ackedOther
  · exact ⟨ledgered.unheld _ unheld, ledgered.lawful⟩
  · exact ledgered.answered.cons (by simp)

theorem free (ledgered : Ledgered presence history) (holds : presence.Holds index addr)
    (unused : slot.used = false) :
    Ledgered (Function.update presence index slot) (.revoked addr :: history) := by
  have apart {other : Fin presenceMax} {peer : Addr}
      (held : Presence.Holds (Function.update presence index slot) other peer) :
      other ≠ index ∧ presence.Holds other peer := by
    by_cases here : other = index
    · rw [here, holds_update_self, unused] at held
      exact absurd held.1 Bool.false_ne_true
    · exact ⟨here, (holds_update_of_ne here).mp held⟩
  constructor
  · exact ledgered.distinct.clear unused
  · intro other peer held
    obtain ⟨here, held⟩ := apart held
    have different : addr ≠ peer := by
      rintro rfl
      exact here (ledgered.distinct other index _ held holds)
    rw [Function.update_of_ne here, ledger_cons, Note.effect, if_neg different]
    exact ledgered.opened other peer held
  · intro peer unheld
    rw [ledger_cons, Note.effect]
    split_ifs with different
    · rfl
    · refine ledgered.unheld peer fun other held => unheld other ?_
      have here : other ≠ index := by
        rintro rfl
        exact different (holds.2.symm.trans held.2)
      exact (holds_update_of_ne here).mpr held
  · intro other usedOther ackedOther
    obtain ⟨here, _⟩ := apart (holds_self usedOther)
    rw [Function.update_of_ne here] at usedOther ackedOther ⊢
    exact ledgered.acked other usedOther ackedOther
  · exact ⟨trivial, ledgered.lawful⟩
  · exact ledgered.answered.cons (by simp)

theorem revokeUnheld (ledgered : Ledgered presence history) (unheld : presence.Unheld addr) :
    Ledgered presence (.revoked addr :: history) where
  distinct := ledgered.distinct
  opened index peer holds := by
    have different : addr ≠ peer := by
      rintro rfl
      exact unheld index holds
    rw [ledger_cons, Note.effect, if_neg different]
    exact ledgered.opened index peer holds
  unheld peer free := by
    rw [ledger_cons, Note.effect]
    split_ifs
    · rfl
    · exact ledgered.unheld peer free
  acked := ledgered.acked
  lawful := ⟨trivial, ledgered.lawful⟩
  answered := ledgered.answered.cons (by simp)

end Ledgered

section Callbacks

variable {ble : Ble} {index : Fin presenceMax}

theorem Ledgered.touch (ledgered : Ledgered ble.presence ble.history)
    (used : (ble.presence index).used = true) :
    Ledgered (ble.touch index).presence (ble.touch index).history := by
  have written : Ledgered (Function.update ble.presence index
      { ble.presence index with lastSeenUs := ble.clockUs, present := true }) ble.history :=
    ledgered.write used rfl rfl rfl fun _ => rfl
  exact written.refreshed _

theorem Ledgered.acknowledge (ledgered : Ledgered ble.presence ble.history)
    (used : (ble.presence index).used = true) (present : (ble.presence index).present = true) :
    Ledgered (ble.acknowledge index).presence (ble.acknowledge index).history := by
  rcases ble.acknowledge_cases index with same | ⟨unacked, _, same⟩
  · rwa [same]
  · have holds := holds_self used
    have closed : ledger (ble.presence index).addr ble.history = some false := by
      rw [ledgered.opened index _ holds, unacked]
    rw [same]
    show Ledgered _ (.requested .evIn (ble.presence index).addr :: ble.history)
    refine ledgered.settle holds used rfl ?_ ?_ (fun _ => present) ⟨closed, ledgered.lawful⟩
      (ledgered.answered.cons (by simp))
    · simp [Note.effect]
    · intro other different
      simp [Note.effect, different.symm]

theorem Ledgered.presenceSeenAddr (ledgered : Ledgered ble.presence ble.history) (addr : Addr) :
    Ledgered (ble.presenceSeenAddr addr).presence (ble.presenceSeenAddr addr).history := by
  have seen {ble : Ble} (ledgered : Ledgered ble.presence ble.history) {index : Fin presenceMax}
      (used : (ble.presence index).used = true) :
      Ledgered ((ble.touch index).acknowledge index).presence
        ((ble.touch index).acknowledge index).history := by
    refine (ledgered.touch used).acknowledge ?_ ?_ <;>
      rw [Ble.touch, Ble.presence_note, Ble.presence_setSlot, Function.update_self]
    exact used
  rcases ble.presenceSeenAddr_cases addr with
    same | ⟨index, holds, same⟩ | ⟨index, type, _, unheld, unused, same⟩
  · rwa [same]
  · rw [same]
    exact seen ledgered holds.1
  · rw [same]
    have claimed : Ledgered (ble.claimSeen index addr type).presence
        (ble.claimSeen index addr type).history := ledgered.claim unheld unused rfl (by simp)
    refine seen claimed ?_
    rw [Ble.claimSeen, Ble.presence_note, Ble.presence_setSlot, Function.update_self]

theorem Ledgered.geofence (ledgered : Ledgered ble.presence ble.history)
    (used : (ble.presence index).used = true) :
    Ledgered (ble.geofence index).presence (ble.geofence index).history := by
  cases linked : (ble.presence index).connected with
  | false =>
      rw [Ble.geofence_idle linked]
      exact ledgered
  | true =>
      have sameAck : (if (ble.presence index).present then (ble.presence index).ackEvent
          else false) = (ble.presence index).ackEvent := by
        cases acked : (ble.presence index).ackEvent with
        | false => exact ite_self _
        | true => rw [ledgered.acked index used acked, if_pos rfl]
      rw [Ble.geofence_connected linked]
      refine Ledgered.refreshed ?_ _
      exact ledgered.write used rfl rfl sameAck fun _ => rfl

theorem Ledgered.presenceProbeStart (ledgered : Ledgered ble.presence ble.history) (radio : Radio) :
    Ledgered (Ble.presenceProbeStart radio ble index).presence
      (Ble.presenceProbeStart radio ble index).history := by
  rcases Ble.presenceProbeStart_cases radio ble index with
    ⟨_, same⟩ | ⟨_, _, ⟨_, same⟩ | ⟨_, _, same⟩ | ⟨_, _, same⟩⟩ <;> rw [same]
  · exact ledgered
  · exact ledgered.rewrite rfl rfl rfl rfl
  · have written : Ledgered (Function.update ble.presence index
        { ble.presence index with probing := true, probeHandle := noHandle }) ble.history :=
      ledgered.rewrite rfl rfl rfl rfl
    exact written.note (fun _ _ => rfl) trivial (by simp)
  · exact ledgered.rewrite rfl rfl rfl rfl

/-- The OUT path, with a clock if there is an OUT to request. -/
theorem Ledgered.leave (ledgered : Ledgered ble.presence ble.history)
    (used : (ble.presence index).used = true)
    (clocked : (ble.presence index).ackEvent = true → 0 < ble.nowUnix) :
    Ledgered (ble.leave index).presence (ble.leave index).history := by
  have holds := holds_self used
  have open' := ledgered.opened index _ holds
  rw [Ble.leave_presence]
  cases acked : (ble.presence index).ackEvent with
  | false =>
      have history : (ble.leave index).history =
          .left (ble.presence index).addr false :: ble.history := by
        simp only [Ble.leave, acked, Bool.false_eq_true, false_and, if_false]
        rfl
      rw [history]
      refine ledgered.settle holds used rfl ?_ (fun _ _ => rfl) (by simp) ⟨trivial, ledgered.lawful⟩
        (ledgered.answered.cons (by simp))
      rw [ledger_cons, open', acked]
      rfl
  | true =>
      have history : (ble.leave index).history = .requested .evOut (ble.presence index).addr ::
          .left (ble.presence index).addr true :: ble.history := by
        have clock : 0 < (ble.note (.left (ble.presence index).addr true)).nowUnix := clocked acked
        simp only [Ble.leave, acked, clock, and_self, if_true]
        rfl
      rw [history]
      refine ledgered.settle holds used rfl ?_ ?_ (by simp) ⟨?_, trivial, ledgered.lawful⟩
        (ledgered.answered.leave _)
      · simp [Note.effect]
      · intro other different
        simp [Note.effect, different.symm]
      · exact open'.trans (congrArg some acked)

theorem Ledgered.probeFailed (ledgered : Ledgered ble.presence ble.history) :
    Ledgered (ble.probeFailed index).presence (ble.probeFailed index).history :=
  ledgered.rewrite rfl rfl rfl rfl

theorem Ledgered.probeConnected (ledgered : Ledgered ble.presence ble.history) (handle : Nat) :
    Ledgered (ble.probeConnected index handle).presence
      (ble.probeConnected index handle).history := by
  have marked : Ledgered (ble.setSlot index { ble.presence index with
      probeHandle := handle, connected := true, probing := false }).presence ble.history :=
    ledgered.rewrite rfl rfl rfl rfl
  exact Ledgered.presenceSeenAddr marked (ble.presence index).addr

theorem Ledgered.probeDisconnected (ledgered : Ledgered ble.presence ble.history) (handle : Nat) :
    Ledgered (ble.probeDisconnected index handle).presence
      (ble.probeDisconnected index handle).history := by
  rw [Ble.probeDisconnected]
  split_ifs
  · refine Ledgered.refreshed ?_ _
    exact ledgered.rewrite rfl rfl rfl rfl
  · exact ledgered.rewrite rfl rfl rfl rfl
  · exact ledgered

theorem Ledgered.gapConnected (ledgered : Ledgered ble.presence ble.history) (peer : Addr) :
    Ledgered (ble.gapConnected peer).presence (ble.gapConnected peer).history := by
  have seen := ledgered.presenceSeenAddr peer
  rw [Ble.gapConnected]
  dsimp only
  split
  · exact seen.rewrite rfl rfl rfl rfl
  · exact seen

theorem Ledgered.gapDisconnected (ledgered : Ledgered ble.presence ble.history) (peer : Addr) :
    Ledgered (ble.gapDisconnected peer).presence (ble.gapDisconnected peer).history := by
  rw [Ble.gapDisconnected]
  split
  · refine Ledgered.refreshed ?_ _
    exact ledgered.rewrite rfl rfl rfl rfl
  · exact ledgered

theorem Ledgered.preallocateBond (ledgered : Ledgered ble.presence ble.history) (bond : Bond) :
    Ledgered (ble.preallocateBond bond).presence (ble.preallocateBond bond).history := by
  rcases ble.preallocateBond_cases bond with same | ⟨index, _, unheld, unused, same⟩
  · rwa [same]
  · have claimed : Ledgered (Function.update ble.presence index (ble.bondSlot bond))
        (.claimed bond.addr (ble.wasIn bond.addr) :: ble.history) :=
      ledgered.claim unheld unused rfl fun acked => acked
    rw [same, Ble.claimBonded]
    split_ifs
    · exact claimed.refreshed _
    · exact claimed

theorem Ledgered.bondRevoke (ledgered : Ledgered ble.presence ble.history) (addr : Addr)
    (deleted : Bool) :
    Ledgered (ble.bondRevoke addr deleted).presence (ble.bondRevoke addr deleted).history := by
  rcases ble.bondRevoke_cases addr deleted with same | ⟨index, found, same⟩ | ⟨missing, same⟩ <;>
    rw [same]
  · exact ledgered
  · exact ledgered.free (Ble.slotOf_holds found) rfl
  · exact ledgered.revokeUnheld (Ble.slotOf_none missing)

/-- Presence without an open IN is all that a wipe leaves. -/
theorem Ledgered.wipeEvents (ledgered : Ledgered ble.presence ble.history) :
    Ledgered ble.wipeEvents.presence ble.wipeEvents.history := by
  have keeps (index : Fin presenceMax) (addr : Addr) :
      ble.wipeEvents.presence.Holds index addr ↔ ble.presence.Holds index addr := by
    rw [Presence.Holds, Presence.Holds, ble.wipeEvents_presence]
    split_ifs <;> rfl
  have unacked (index : Fin presenceMax) (used : (ble.presence index).used = true) :
      (ble.wipeEvents.presence index).ackEvent = false := by
    rw [ble.wipeEvents_presence]
    split_ifs with here
    · rfl
    · by_contra acked
      rw [Bool.not_eq_false] at acked
      exact here (by rw [used, ledgered.acked index used acked]; rfl)
  constructor
  · intro first second addr holdsFirst holdsSecond
    rw [keeps] at holdsFirst holdsSecond
    exact ledgered.distinct first second addr holdsFirst holdsSecond
  · intro index addr holds
    rw [keeps] at holds
    rw [unacked index holds.1]
    show (ledger addr ble.history).map _ = _
    rw [ledgered.opened index addr holds]
    rfl
  · intro addr unheld
    show (ledger addr ble.history).map _ = _
    rw [ledgered.unheld addr fun index holds => unheld index ((keeps index addr).mpr holds)]
    rfl
  · intro index used acked
    have usedBefore := ((keeps index _).mp (holds_self used)).1
    rw [unacked index usedBefore] at acked
    exact absurd acked Bool.false_ne_true
  · exact ⟨trivial, ledgered.lawful⟩
  · exact ledgered.answered.cons (by simp)

end Callbacks

/-- The turn of the slot takes the OUT path with an IN open. -/
def Ble.LeavesAcked (ble : Ble) (index : Fin presenceMax) : Prop :=
  (ble.presence index).used = true ∧ (ble.presence index).connected = false ∧
    (ble.presence index).present = true ∧ (ble.presence index).ackEvent = true ∧
    ble.outDue index = true

instance (ble : Ble) (index : Fin presenceMax) : Decidable (ble.LeavesAcked index) :=
  inferInstanceAs (Decidable (_ ∧ _ ∧ _ ∧ _ ∧ _))

/-- The clock is synced at every turn of a tick that takes the OUT path with an IN open. -/
def Ble.ClockedOut (radio : Radio) (ble : Ble) : BleEvent → Prop
  | .tick =>
      Guarded (Ble.tickSlot radio)
        (fun next index => next.LeavesAcked index → next.epoch.isSome = true) ble
        (List.finRange presenceMax)
  | _ => True

instance Ble.decidableClockedOut (radio : Radio) (ble : Ble) :
    ∀ event, Decidable (ble.ClockedOut radio event)
  | .tick => inferInstanceAs (Decidable (Guarded _ _ _ _))
  | .adv _ | .probeUp _ _ | .probeDown _ | .hidUp _ _ | .linkDown _ | .synced _ | .unsynced
  | .wipe | .setTimeout _ | .pairingStart _ | .pairingCancel | .bondStore _ | .encChange
  | .hostSync | .revoke _ _ | .scanRestart => isTrue trivial

section Run

variable {radio : Radio} {ble : Ble} {index : Fin presenceMax}

theorem Ledgered.tickSlot (ledgered : Ledgered ble.presence ble.history)
    (clocked : ble.LeavesAcked index → ble.epoch.isSome = true) :
    Ledgered (Ble.tickSlot radio ble index).presence (Ble.tickSlot radio ble index).history := by
  refine (Ble.tickSlot_kept (P := fun next => Ledgered next.presence next.history ∧
    (next.LeavesAcked index → next.epoch.isSome = true)) ?_ ?_ ?_ ?_ ⟨ledgered, clocked⟩).1
  · rintro next used ⟨kept, clocked⟩
    refine ⟨kept.geofence used, ?_⟩
    cases linked : (next.presence index).connected with
    | false =>
        rw [Ble.geofence_idle linked]
        exact clocked
    | true =>
        rintro ⟨_, apart, _⟩
        rw [Ble.geofence_connected linked, Ble.presence_note, Ble.presence_setSlot,
          Function.update_self] at apart
        exact absurd (linked.symm.trans apart) (by decide)
  · rintro next used present ⟨kept, clocked⟩
    refine ⟨kept.acknowledge used present, ?_⟩
    rcases next.acknowledge_cases index with same | ⟨_, synced, same⟩ <;> rw [same]
    · exact clocked
    · exact fun _ => Ble.nowUnix_pos.mp synced
  · rintro next used apart ⟨kept, clocked⟩
    refine ⟨kept.presenceProbeStart radio, ?_⟩
    have back {after : Ble} {slot : PresenceSlot} (leaves : after.LeavesAcked index)
        (presence : after.presence = Function.update next.presence index slot)
        (seen : slot.lastSeenUs = (next.presence index).lastSeenUs)
        (present : slot.present = (next.presence index).present)
        (acked : slot.ackEvent = (next.presence index).ackEvent)
        (clock : after.clockUs = next.clockUs) (timeout : after.timeout = next.timeout)
        (probing : (next.presence index).probing = false) : next.LeavesAcked index := by
      obtain ⟨_, _, isPresent, isAcked, due⟩ := leaves
      rw [presence, Function.update_self] at isPresent isAcked
      refine ⟨used, apart, present.symm.trans isPresent, acked.symm.trans isAcked, ?_⟩
      rw [Ble.outDue, decide_eq_true_eq, Ble.sinceMs, presence, Function.update_self, clock,
        timeout, seen] at due
      rw [Ble.outDue, decide_eq_true_eq]
      exact ⟨due.1, probing⟩
    rcases Ble.presenceProbeStart_cases radio next index with
      ⟨_, same⟩ | ⟨probing, _, ⟨_, same⟩ | ⟨_, _, same⟩ | ⟨_, _, same⟩⟩ <;> rw [same]
    · exact clocked
    · exact fun leaves => clocked (back leaves rfl rfl rfl rfl rfl rfl probing)
    · exact fun leaves => clocked (back leaves rfl rfl rfl rfl rfl rfl probing)
    · exact fun leaves => clocked (back leaves rfl rfl rfl rfl rfl rfl probing)
  · rintro next used apart present due ⟨kept, clocked⟩
    refine ⟨kept.leave used fun acked =>
      Ble.nowUnix_pos.mpr (clocked ⟨used, apart, present, acked, due⟩), ?_⟩
    rintro ⟨_, _, present, _⟩
    rw [Ble.leave_presence, Function.update_self] at present
    cases present

/-- Every event keeps the slots and the ledger in agreement. -/
theorem Ledgered.perform (ledgered : Ledgered ble.presence ble.history) {event : BleEvent}
    (clocked : ble.ClockedOut radio event) :
    Ledgered (ble.perform radio event).presence (ble.perform radio event).history := by
  have preallocated : Ledgered ble.presencePreallocateBonded.presence
      ble.presencePreallocateBonded.history :=
    run_kept (fun next : Ble => Ledgered next.presence next.history)
      (fun _ bond kept => kept.preallocateBond bond) ledgered
  cases event with
  | adv addr => exact ledgered.presenceSeenAddr addr
  | tick =>
      exact run_invariant (fun next : Ble => Ledgered next.presence next.history)
        (fun _ _ kept clocked => kept.tickSlot clocked) ledgered clocked
  | probeUp connect handle =>
      have moved : Ledgered ((ble.connectEnds connect).linkUp
          ⟨handle, connect.peer, some connect.slot⟩).presence ble.history := ledgered
      exact Ledgered.probeConnected moved handle
  | probeDown connect =>
      have moved : Ledgered (ble.connectEnds connect).presence ble.history := ledgered
      exact Ledgered.probeFailed moved
  | hidUp handle peer =>
      have moved : Ledgered (ble.linkUp ⟨handle, peer, none⟩).presence ble.history := ledgered
      exact Ledgered.gapConnected moved peer
  | linkDown link =>
      obtain ⟨handle, peer, owner⟩ := link
      have moved : Ledgered (ble.linkDown ⟨handle, peer, owner⟩).presence ble.history := ledgered
      cases owner with
      | some index => exact Ledgered.probeDisconnected moved handle
      | none => exact Ledgered.gapDisconnected moved peer
  | synced epoch => exact ledgered
  | unsynced => exact ledgered
  | wipe => exact ledgered.wipeEvents
  | setTimeout seconds => exact ledgered
  | pairingStart ttlMs => exact ledgered
  | pairingCancel => exact ledgered
  | bondStore bonds => exact ledgered
  | encChange => exact preallocated
  | hostSync => exact preallocated
  | revoke addr deleted => exact ledgered.bondRevoke addr deleted
  | scanRestart => exact ledgered

theorem ledgered_reached {startUs : Nat} {timeout : PresenceTimeout} {log : List PeerEvent}
    {actions : List BleAction} (guarded : Guarded (Ble.step radio)
      (Ble.Meets (Ble.ClockedOut radio)) (Ble.boot startUs timeout log) actions) :
    Ledgered (run (Ble.step radio) (Ble.boot startUs timeout log) actions).presence
      (run (Ble.step radio) (Ble.boot startUs timeout log) actions).history := by
  refine run_invariant (fun ble : Ble => Ledgered ble.presence ble.history) ?_
    Ledgered.cleared guarded
  intro ble action ledgered clocked
  have waited : Ledgered (ble.wait action.elapsedUs).presence
      (ble.wait action.elapsedUs).history := ledgered
  exact waited.perform clocked

/-- With a synced clock at every OUT path of an acknowledged slot, each such path hands
over an OUT at once, and two INs of one peer without a wipe or a revocation between them
have exactly one OUT between them. -/
theorem outRequests_between (radio : Radio) (startUs : Nat) (timeout : PresenceTimeout)
    (log : List PeerEvent) (actions : List BleAction)
    (guarded : Guarded (Ble.step radio) (Ble.Meets (Ble.ClockedOut radio))
      (Ble.boot startUs timeout log) actions)
    (reached : Ble) (isReached : run (Ble.step radio) (Ble.boot startUs timeout log) actions =
      reached) :
    (∀ newer older addr, reached.history = newer ++ .left addr true :: older →
      ∃ rest, newer = rest ++ [.requested .evOut addr]) ∧
    ∀ newer mid older addr,
      reached.history = newer ++ .requested .evIn addr :: mid ++ .requested .evIn addr :: older →
      .requested .evIn addr ∉ mid → .wiped ∉ mid → .revoked addr ∉ mid →
      mid.count (.requested .evOut addr) = 1 := by
  have ledgered := ledgered_reached guarded
  rw [isReached] at ledgered
  refine ⟨ledgered.answered, ?_⟩
  intro newer mid older addr split noIn noWipe noRevoke
  have whole : Lawful (newer ++ (.requested .evIn addr :: mid ++ .requested .evIn addr :: older)) := by
    rw [← List.append_assoc, ← split]
    exact ledgered.lawful
  have lawful := whole.older
  have opened : ledger addr (.requested .evIn addr :: older) = some true := by
    simp [Note.effect]
  obtain ⟨state, bound⟩ := lawful_between lawful.2 noIn noWipe noRevoke opened
  have closed : ledger addr (mid ++ .requested .evIn addr :: older) = some false := lawful.1
  rw [state] at closed
  have some : mid.count (.requested .evOut addr) ≠ 0 := by simpa using closed
  omega

end Run

section Runs

/-- The phone is seen, a probe of it fails and it times out; then it is seen again. -/
def absence (atOut : List BleAction) : List BleAction :=
  [⟨0, .bondStore [⟨phone, .publicAddr⟩]⟩, ⟨0, .synced firstSync⟩, ⟨0, .adv phone⟩] ++
    secondTicks 25 ++
    [⟨500000, .probeDown ⟨0, phone, .publicId, 16000000⟩⟩, ⟨500000, .tick⟩] ++
    secondTicks 4 ++ atOut ++ [⟨0, .adv phone⟩]

theorem outRequests_between_synced :
    let reached := run (Ble.step Radio.oneConnect) (Ble.boot 0 .least []) (absence (secondTicks 1))
    let between : List Note :=
      [.refreshed phone, .requested .evOut phone, .left phone true, .dialled phone]
    reached.history = .requested .evIn phone :: between ++
        .requested .evIn phone :: [.refreshed phone, .claimed phone false] ∧
      between.count (.requested .evOut phone) = 1 := by
  have told : (run (Ble.step Radio.oneConnect) (Ble.boot 0 .least [])
      (absence (secondTicks 1))).history =
        .requested .evIn phone ::
          [.refreshed phone, .requested .evOut phone, .left phone true, .dialled phone] ++
            .requested .evIn phone :: [.refreshed phone, .claimed phone false] := by
    decide +kernel
  have law := outRequests_between Radio.oneConnect 0 .least [] (absence (secondTicks 1))
    (by decide +kernel) _ rfl
  exact ⟨told, law.2 [] _ _ phone told (by decide) (by decide) (by decide)⟩

/-- The clock loses its sync before the tick of the OUT and has it back afterwards: the
two INs have no OUT between them. -/
theorem outRequests_missing :
    let reached := run (Ble.step Radio.oneConnect) (Ble.boot 0 .least [])
      (absence [⟨0, .unsynced⟩, ⟨1000000, .tick⟩, ⟨500000, .synced 1700000000⟩])
    let between : List Note := [.refreshed phone, .left phone true, .dialled phone]
    reached.history = .requested .evIn phone :: between ++
        .requested .evIn phone :: [.refreshed phone, .claimed phone false] ∧
      .requested .evIn phone ∉ between ∧ .wiped ∉ between ∧ .revoked phone ∉ between ∧
      between.count (.requested .evOut phone) = 0 := by
  decide +kernel

end Runs

end LeanDingdong
