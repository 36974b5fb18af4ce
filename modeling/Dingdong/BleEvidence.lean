import Dingdong.BleLinks
import Dingdong.BleScanner

/-!
The times a peer showed itself, and the OUT path. While no peer is revoked under its own
probe or link, a slot's `last_seen_us` never falls behind what its peer has shown.
-/

namespace LeanDingdong

open Runs Presence

/-- The peer that shows itself by the event: a sighting, a link up or a link down. -/
def BleEvent.shows : BleEvent → Option Addr
  | .adv addr => some addr
  | .probeUp connect _ => some connect.peer
  | .hidUp _ peer => some peer
  | .linkDown link => some link.peer
  | _ => none

/-- The machine with the peers that showed themselves, and when. -/
structure Shown where
  ble : Ble
  evidence : List (Addr × Nat)

namespace Shown

def boot (startUs : Nat) (timeout : PresenceTimeout) (log : List PeerEvent) : Shown where
  ble := Ble.boot startUs timeout log
  evidence := []

def step (radio : Radio) (shown : Shown) (action : BleAction) : Shown :=
  let ble := shown.ble.step radio action
  { ble := ble
    evidence := (action.event.shows.map fun addr => (addr, ble.clockUs)).toList ++ shown.evidence }

end Shown

/-- The peer of a revocation has no connect in flight and no link. -/
def Ble.SparesBusy (ble : Ble) : BleEvent → Prop
  | .revoke addr deleted =>
      deleted = true → (ble.bondAddrLookup addr).isSome →
        (∀ connect ∈ ble.connects, connect.peer ≠ addr) ∧ ∀ link ∈ ble.links, link.peer ≠ addr
  | _ => True

instance Ble.decidableSparesBusy (ble : Ble) : ∀ event, Decidable (ble.SparesBusy event)
  | .revoke _ _ => inferInstanceAs (Decidable (_ → _ → _ ∧ _))
  | .adv _ | .tick | .probeUp _ _ | .probeDown _ | .hidUp _ _ | .linkDown _ | .synced _
  | .unsynced | .wipe | .setTimeout _ | .pairingStart _ | .pairingCancel | .bondStore _
  | .encChange | .hostSync | .scanRestart => isTrue trivial

/-- A present slot was seen no earlier than its peer showed itself; the slot of a connect
in flight holds the peer it dialled, and so does that of a probe's link, which it knows. -/
structure Attested (ble : Ble) (evidence : List (Addr × Nat)) : Prop where
  distinct : ble.presence.Distinct
  past : ∀ shown ∈ evidence, shown.2 ≤ ble.clockUs
  seen : ∀ index addr, ble.presence.Holds index addr → (ble.presence index).present = true →
    ∀ atUs, (addr, atUs) ∈ evidence → atUs ≤ (ble.presence index).lastSeenUs
  dialled : ∀ connect ∈ ble.connects, ble.presence.Holds connect.slot connect.peer
  owned : ∀ link ∈ ble.links, ∀ owner, link.owner = some owner →
    ble.presence.Holds owner link.peer ∧ (ble.presence owner).connected = true ∧
      (ble.presence owner).probeHandle = link.handle
  peers : (ble.links.map Link.peer).Nodup

namespace Attested

variable {ble next : Ble} {evidence : List (Addr × Nat)} {index : Fin presenceMax}
  {slot : PresenceSlot} {addr : Addr}

theorem boot (startUs : Nat) (timeout : PresenceTimeout) (log : List PeerEvent) :
    Attested (Ble.boot startUs timeout log) [] where
  distinct _ _ _ holds := absurd holds.1 Bool.false_ne_true
  past _ member := absurd member List.not_mem_nil
  seen _ _ holds := absurd holds.1 Bool.false_ne_true
  dialled _ member := absurd member List.not_mem_nil
  owned _ member := absurd member List.not_mem_nil
  peers := List.nodup_nil

theorem wait (attested : Attested ble evidence) (elapsedUs : Nat) :
    Attested (ble.wait elapsedUs) evidence where
  distinct := attested.distinct
  past shown member := (attested.past shown member).trans (Nat.le_add_right _ _)
  seen := attested.seen
  dialled := attested.dialled
  owned := attested.owned
  peers := attested.peers

/-- A slot is written for the peer it holds, with what becomes of connects and links. -/
theorem update (attested : Attested ble evidence)
    (presence : next.presence = Function.update ble.presence index slot)
    (clock : next.clockUs = ble.clockUs) (used : slot.used = (ble.presence index).used)
    (same : slot.addr = (ble.presence index).addr)
    (seen : slot.present = true → slot.lastSeenUs = ble.clockUs ∨
      (ble.presence index).present = true ∧ slot.lastSeenUs = (ble.presence index).lastSeenUs)
    (connects : ∀ connect ∈ next.connects, ble.presence.Holds connect.slot connect.peer)
    (owned : ∀ link ∈ next.links, ∀ owner, link.owner = some owner →
      owner = index ∧ ble.presence.Holds index link.peer ∧ slot.connected = true ∧
          slot.probeHandle = link.handle ∨
        owner ≠ index ∧ link ∈ ble.links)
    (peers : (next.links.map Link.peer).Nodup) : Attested next evidence := by
  have keeps (other : Fin presenceMax) (peer : Addr) :
      next.presence.Holds other peer ↔ ble.presence.Holds other peer := by
    rw [presence]
    exact holds_update_same used same
  constructor
  · rw [presence]
    exact attested.distinct.write used same
  · rw [clock]
    exact attested.past
  · intro other peer held present atUs member
    rw [keeps] at held
    rw [presence] at present ⊢
    by_cases here : other = index
    · subst here
      rw [Function.update_self] at present ⊢
      rcases seen present with now | ⟨before, unchanged⟩
      · rw [now]
        exact attested.past _ member
      · rw [unchanged]
        exact attested.seen other peer held before atUs member
    · rw [Function.update_of_ne here] at present ⊢
      exact attested.seen other peer held present atUs member
  · intro connect member
    rw [keeps]
    exact connects connect member
  · intro link member owner owns
    rw [keeps, presence]
    rcases owned link member owner owns with ⟨rfl, held, linked, handle⟩ | ⟨here, inside⟩
    · rw [Function.update_self]
      exact ⟨held, linked, handle⟩
    · rw [Function.update_of_ne here]
      exact attested.owned link inside owner owns
  · exact peers

theorem write (attested : Attested ble evidence)
    (presence : next.presence = Function.update ble.presence index slot)
    (clock : next.clockUs = ble.clockUs) (connects : next.connects = ble.connects)
    (links : next.links = ble.links) (used : slot.used = (ble.presence index).used)
    (same : slot.addr = (ble.presence index).addr)
    (seen : slot.present = true → slot.lastSeenUs = ble.clockUs ∨
      (ble.presence index).present = true ∧ slot.lastSeenUs = (ble.presence index).lastSeenUs)
    (linked : (ble.presence index).connected = true → slot.connected = true)
    (handle : (ble.presence index).connected = true →
      slot.probeHandle = (ble.presence index).probeHandle) : Attested next evidence := by
  refine attested.update presence clock used same seen ?_ ?_ ?_
  · rw [connects]
    exact attested.dialled
  · rw [links]
    intro link member owner owns
    obtain ⟨held, wasLinked, wasHandle⟩ := attested.owned link member owner owns
    by_cases here : owner = index
    · subst here
      exact .inl ⟨rfl, held, linked wasLinked, (handle wasLinked).trans wasHandle⟩
    · exact .inr ⟨here, member⟩
  · rw [links]
    exact attested.peers

theorem congr (attested : Attested ble evidence) (presence : next.presence = ble.presence)
    (clock : next.clockUs = ble.clockUs) (connects : next.connects = ble.connects)
    (links : next.links = ble.links) : Attested next evidence := by
  constructor
  · rw [presence]
    exact attested.distinct
  · rw [clock]
    exact attested.past
  · rw [presence]
    exact attested.seen
  · rw [presence, connects]
    exact attested.dialled
  · rw [presence, links]
    exact attested.owned
  · rw [links]
    exact attested.peers

theorem claim (attested : Attested ble evidence)
    (presence : next.presence = Function.update ble.presence index slot)
    (clock : next.clockUs = ble.clockUs) (connects : next.connects = ble.connects)
    (links : next.links = ble.links) (unheld : ble.presence.Unheld slot.addr)
    (free : (ble.presence index).used = false)
    (seen : slot.present = true → slot.lastSeenUs = ble.clockUs) : Attested next evidence := by
  have apart {other : Fin presenceMax} {peer : Addr} (held : ble.presence.Holds other peer) :
      other ≠ index := by
    rintro rfl
    exact absurd (free.symm.trans held.1) Bool.false_ne_true
  constructor
  · rw [presence]
    exact attested.distinct.claim unheld
  · rw [clock]
    exact attested.past
  · intro other peer held present atUs member
    rw [presence] at held present ⊢
    by_cases here : other = index
    · subst here
      rw [Function.update_self] at present ⊢
      rw [seen present]
      exact attested.past _ member
    · rw [holds_update_of_ne here] at held
      rw [Function.update_of_ne here] at present ⊢
      exact attested.seen other peer held present atUs member
  · rw [connects, presence]
    intro connect member
    have held := attested.dialled connect member
    exact (holds_update_of_ne (apart held)).mpr held
  · rw [links, presence]
    intro link member owner owns
    obtain ⟨held, rest⟩ := attested.owned link member owner owns
    rw [holds_update_of_ne (apart held), Function.update_of_ne (apart held)]
    exact ⟨held, rest⟩
  · rw [links]
    exact attested.peers

/-- A peer shows itself, and its slot has been seen now. -/
theorem appear (attested : Attested ble evidence)
    (seen : ∀ index, ble.presence.Holds index addr → (ble.presence index).lastSeenUs = ble.clockUs) :
    Attested ble ((addr, ble.clockUs) :: evidence) where
  distinct := attested.distinct
  past shown member := by
    rcases List.mem_cons.mp member with rfl | before
    · exact le_rfl
    · exact attested.past shown before
  seen index peer held present atUs member := by
    rcases List.mem_cons.mp member with new | before
    · obtain ⟨rfl, rfl⟩ := Prod.mk.inj new
      exact (seen index held).ge
    · exact attested.seen index peer held present atUs before
  dialled := attested.dialled
  owned := attested.owned
  peers := attested.peers

theorem appearAt (attested : Attested next evidence) (distinct : ble.presence.Distinct)
    (holds : ble.presence.Holds index addr)
    (presence : next.presence = Function.update ble.presence index slot)
    (used : slot.used = (ble.presence index).used) (same : slot.addr = (ble.presence index).addr)
    (now : slot.lastSeenUs = next.clockUs) : Attested next ((addr, next.clockUs) :: evidence) := by
  refine attested.appear fun other held => ?_
  rw [presence] at held ⊢
  obtain rfl := distinct other index addr ((holds_update_same used same).mp held) holds
  rw [Function.update_self, now]

end Attested

section Callbacks

variable {ble : Ble} {evidence : List (Addr × Nat)} {index : Fin presenceMax} {addr : Addr}

theorem Ble.connects_presenceSeenAddr (ble : Ble) (addr : Addr) :
    (ble.presenceSeenAddr addr).connects = ble.connects :=
  congrArg (fun view => view.2.1) (ble.scanView_presenceSeenAddr addr)

theorem Ble.clockUs_presenceSeenAddr (ble : Ble) (addr : Addr) :
    (ble.presenceSeenAddr addr).clockUs = ble.clockUs :=
  (Ble.environment_eq.mp (ble.environment_presenceSeenAddr addr)).2.2.2.2.1

/-- A slot taken for a bond is all that changes, for connects and links. -/
theorem Ble.claimBonded_others (ble : Ble) (index : Fin presenceMax) (bond : Bond) :
    (ble.claimBonded index bond).clockUs = ble.clockUs ∧
      (ble.claimBonded index bond).connects = ble.connects ∧
      (ble.claimBonded index bond).links = ble.links := by
  rw [Ble.claimBonded]
  split_ifs
  · exact ⟨rfl, rfl, rfl⟩
  · exact ⟨rfl, rfl, rfl⟩

theorem Ble.leave_others (ble : Ble) (index : Fin presenceMax) :
    (ble.leave index).clockUs = ble.clockUs ∧ (ble.leave index).connects = ble.connects ∧
      (ble.leave index).links = ble.links := by
  simp only [Ble.leave]
  split_ifs
  · exact ⟨rfl, rfl, rfl⟩
  · exact ⟨rfl, rfl, rfl⟩

theorem Ble.connects_probeDisconnected (ble : Ble) (index : Fin presenceMax) (handle : Nat) :
    (ble.probeDisconnected index handle).connects = ble.connects := by
  rw [Ble.probeDisconnected]
  split_ifs <;> rfl

theorem Ble.probeDown_presence (radio : Radio) (ble : Ble) (connect : Connect) :
    (ble.perform radio (.probeDown connect)).presence = Function.update ble.presence connect.slot
      { ble.presence connect.slot with probing := false, lastProbeUs := ble.clockUs } := rfl

/-- What a sighting writes into the slot it touches. -/
theorem Ble.touched_presence (ble : Ble) (index : Fin presenceMax) :
    ∃ acked, ((ble.touch index).acknowledge index).presence =
      Function.update ble.presence index
        { ble.presence index with
          lastSeenUs := ble.clockUs, present := true, ackEvent := acked } := by
  obtain ⟨acked, same⟩ := (ble.touch index).acknowledge_presence index
  refine ⟨acked, ?_⟩
  rw [same, Ble.touch, Ble.presence_note, Ble.presence_setSlot, Function.update_self,
    Function.update_idem]

/-- The slot a sighting takes, as it leaves it. -/
theorem Ble.claimed_presence (ble : Ble) (index : Fin presenceMax) (addr : Addr) (type : AddrType) :
    ∃ slot : PresenceSlot, slot.used = true ∧ slot.addr = addr ∧ slot.lastSeenUs = ble.clockUs ∧
      (slot.probing = false ∧ slot.probeHandle = noHandle) ∧
      (((ble.claimSeen index addr type).touch index).acknowledge index).presence =
        Function.update ble.presence index slot := by
  obtain ⟨acked, same⟩ := (ble.claimSeen index addr type).touched_presence index
  rw [Ble.claimSeen, Ble.presence_note, Ble.presence_setSlot, Function.update_self,
    Function.update_idem] at same
  exact ⟨_, rfl, rfl, rfl, ⟨rfl, rfl⟩, same⟩

/-- After a sighting the slot of the address, if there is one, has been seen now. -/
theorem Ble.presenceSeenAddr_now (distinct : ble.presence.Distinct)
    (holds : (ble.presenceSeenAddr addr).presence.Holds index addr) :
    ((ble.presenceSeenAddr addr).presence index).lastSeenUs = ble.clockUs := by
  have unheld (missing : ble.slotOf addr = none) (same : ble.presenceSeenAddr addr = ble) :
      ((ble.presenceSeenAddr addr).presence index).lastSeenUs = ble.clockUs := by
    rw [same] at holds
    exact absurd holds (Ble.slotOf_none missing index)
  cases found : ble.slotOf addr with
  | some place =>
      have seen : ble.presenceSeenAddr addr = (ble.touch place).acknowledge place := by
        rw [Ble.presenceSeenAddr, found]
      obtain ⟨acked, same⟩ := ble.touched_presence place
      have keeps : (ble.presenceSeenAddr addr).presence.Holds index addr ↔
          ble.presence.Holds index addr := by
        rw [seen, same]
        exact holds_update_same rfl rfl
      obtain rfl := distinct index place addr (keeps.mp holds) (Ble.slotOf_holds found)
      rw [seen, same, Function.update_self]
  | none =>
      cases free : ble.freeSlot with
      | none => exact unheld found (by rw [Ble.presenceSeenAddr, found, free])
      | some place =>
          cases bonded : ble.bondAddrLookup addr with
          | none => exact unheld found (by rw [Ble.presenceSeenAddr, found, free, bonded])
          | some bond =>
              have seen : ble.presenceSeenAddr addr =
                  ((ble.claimSeen place addr bond.type).touch place).acknowledge place := by
                rw [Ble.presenceSeenAddr, found, free, bonded]
              obtain ⟨slot, _, _, now, _, same⟩ := ble.claimed_presence place addr bond.type
              rw [seen, same] at holds ⊢
              by_cases here : index = place
              · rw [here, Function.update_self, now]
              · rw [holds_update_of_ne here] at holds
                exact absurd holds (Ble.slotOf_none found index)

theorem Attested.presenceSeenAddr (attested : Attested ble evidence) (addr : Addr) :
    Attested (ble.presenceSeenAddr addr) evidence := by
  have clock := ble.clockUs_presenceSeenAddr addr
  have connects := ble.connects_presenceSeenAddr addr
  have links := presenceSeenAddr_links ble addr
  rcases ble.presenceSeenAddr_cases addr with
    same | ⟨index, _, same⟩ | ⟨index, type, _, unheld, free, same⟩
  · rwa [same]
  · obtain ⟨acked, presence⟩ := ble.touched_presence index
    rw [← same] at presence
    exact attested.write presence clock connects links rfl rfl (fun _ => .inl rfl)
      (fun linked => linked) fun _ => rfl
  · obtain ⟨slot, _, rfl, now, _, presence⟩ := ble.claimed_presence index addr type
    rw [← same] at presence
    exact attested.claim presence clock connects links unheld free fun _ => now

theorem Attested.adv (attested : Attested ble evidence) (addr : Addr) :
    Attested (ble.presenceSeenAddr addr) ((addr, ble.clockUs) :: evidence) := by
  have clock := ble.clockUs_presenceSeenAddr addr
  rw [← clock]
  refine (attested.presenceSeenAddr addr).appear fun index holds => ?_
  rw [clock]
  exact Ble.presenceSeenAddr_now attested.distinct holds

theorem Attested.tickSlot (attested : Attested ble evidence) (radio : Radio) :
    Attested (Ble.tickSlot radio ble index) evidence := by
  refine Ble.tickSlot_kept (P := fun next => Attested next evidence) ?_ ?_ ?_ ?_ attested
  · intro next _ kept
    cases linked : (next.presence index).connected with
    | false => rwa [Ble.geofence_idle linked]
    | true =>
        rw [Ble.geofence_connected linked]
        exact kept.write rfl rfl rfl rfl rfl rfl (fun _ => .inl rfl) (fun linked => linked)
          fun _ => rfl
  · intro next _ present kept
    rcases next.acknowledge_cases index with same | ⟨_, _, same⟩
    · rwa [same]
    · rw [same]
      exact kept.write rfl rfl rfl rfl rfl rfl (fun _ => .inr ⟨present, rfl⟩) (fun linked => linked)
        fun _ => rfl
  · intro next used apart kept
    have free (linked : (next.presence index).connected = true) : False := by
      rw [apart] at linked
      exact Bool.false_ne_true linked
    rcases Ble.presenceProbeStart_cases radio next index with
      ⟨_, same⟩ | ⟨_, _, ⟨_, same⟩ | ⟨_, _, same⟩ | ⟨_, _, same⟩⟩
    · rwa [same]
    · rw [same]
      exact kept.write rfl rfl rfl rfl rfl rfl (fun present => .inr ⟨present, rfl⟩)
        (fun linked => linked) fun _ => rfl
    · rw [same]
      refine kept.update rfl rfl rfl rfl (fun present => .inr ⟨present, rfl⟩) ?_ ?_ kept.peers
      · intro connect member
        rcases List.mem_append.mp member with known | new
        · exact kept.dialled connect known
        · rw [List.mem_singleton.mp new]
          exact ⟨used, rfl⟩
      · intro link member owner owns
        refine .inr ⟨?_, member⟩
        rintro rfl
        exact free (kept.owned link member owner owns).2.1
    · rw [same]
      exact kept.write rfl rfl rfl rfl rfl rfl (fun present => .inr ⟨present, rfl⟩)
        (fun linked => linked) fun linked => (free linked).elim
  · intro next _ _ _ _ kept
    obtain ⟨clock, connects, links⟩ := next.leave_others index
    exact kept.write (next.leave_presence index) clock connects links rfl rfl
      (fun present => absurd present Bool.false_ne_true) (fun linked => linked) fun _ => rfl

theorem Attested.samePeer (attested : Attested ble evidence) {first second : Link}
    (here : first ∈ ble.links) (there : second ∈ ble.links) (same : first.peer = second.peer) :
    first = second :=
  List.inj_on_of_nodup_map attested.peers here there same

theorem Attested.mem_erase (attested : Attested ble evidence) {link other : Link} :
    other ∈ ble.links.erase link ↔ other ≠ link ∧ other ∈ ble.links :=
  (attested.peers.of_map _).mem_erase_iff

/-- A probe connects: its slot still holds the peer, which is thereby seen. -/
theorem Attested.probeUp (attested : Attested ble evidence) {connect : Connect} {handle : Nat}
    (inFlight : connect ∈ ble.connects)
    (fresh : FreshLink ble.links ⟨handle, connect.peer, some connect.slot⟩) (radio : Radio) :
    Attested (ble.perform radio (.probeUp connect handle))
      ((connect.peer, ble.clockUs) :: evidence) := by
  have holds := attested.dialled connect inFlight
  have marked : Attested (((ble.connectEnds connect).linkUp
      ⟨handle, connect.peer, some connect.slot⟩).setSlot connect.slot
        { ble.presence connect.slot with
          probeHandle := handle, connected := true, probing := false }) evidence := by
    refine attested.update rfl rfl rfl rfl (fun present => .inr ⟨present, rfl⟩) ?_ ?_
      (ListTable.nodup_add attested.peers fresh.2.2)
    · exact fun other member => attested.dialled other (List.mem_of_mem_erase member)
    · intro link member owner owns
      rcases List.mem_append.mp member with known | new
      · refine .inr ⟨?_, known⟩
        rintro rfl
        have held := (attested.owned link known _ owns).1
        exact fresh.2.2 (List.mem_map.mpr ⟨link, known, held.2.symm.trans holds.2⟩)
      · obtain rfl := List.mem_singleton.mp new
        exact .inl ⟨(Option.some.inj owns).symm, holds, rfl, rfl⟩
  have seen := marked.adv connect.peer
  show Attested (Ble.scheduleScanRestart (Ble.presenceSeenAddr _ (ble.presence connect.slot).addr)) _
  rw [holds.2]
  exact seen.congr rfl rfl rfl rfl

theorem Attested.probeDown (attested : Attested ble evidence) (connect : Connect) (radio : Radio) :
    Attested (ble.perform radio (.probeDown connect)) evidence := by
  have written := ble.probeDown_presence radio connect
  refine attested.update written rfl rfl rfl (fun present => .inr ⟨present, rfl⟩) ?_ ?_ attested.peers
  · exact fun other member => attested.dialled other (List.mem_of_mem_erase member)
  · intro link member owner owns
    obtain ⟨held, linked, known⟩ := attested.owned link member owner owns
    by_cases here : owner = connect.slot
    · subst here
      exact .inl ⟨rfl, held, linked, known⟩
    · exact .inr ⟨here, member⟩

theorem Attested.hidUp (attested : Attested ble evidence) {handle : Nat} {peer : Addr}
    (fresh : FreshLink ble.links ⟨handle, peer, none⟩) (radio : Radio) :
    Attested (ble.perform radio (.hidUp handle peer)) ((peer, ble.clockUs) :: evidence) := by
  have joined : Attested (ble.linkUp ⟨handle, peer, none⟩) evidence := by
    refine ⟨attested.distinct, attested.past, attested.seen, attested.dialled, ?_,
      ListTable.nodup_add attested.peers fresh.2.2⟩
    intro link member owner owns
    rcases List.mem_append.mp member with known | new
    · exact attested.owned link known owner owns
    · rw [List.mem_singleton.mp new] at owns
      cases owns
  have seen := joined.adv peer
  show Attested (Ble.gapConnected (ble.linkUp ⟨handle, peer, none⟩) peer) _
  rw [Ble.gapConnected]
  dsimp only
  split
  · exact seen.write rfl rfl rfl rfl rfl rfl (fun present => .inr ⟨present, rfl⟩) (fun _ => rfl)
      fun _ => rfl
  · exact seen

theorem Attested.probeLinkDown (attested : Attested ble evidence) {handle : Nat} {peer : Addr}
    (member : ⟨handle, peer, some index⟩ ∈ ble.links) (radio : Radio) :
    Attested (ble.perform radio (.linkDown ⟨handle, peer, some index⟩))
      ((peer, ble.clockUs) :: evidence) := by
  obtain ⟨holds, _, own⟩ := attested.owned _ member index rfl
  have presence := @Ble.probeDisconnected_presence (ble.linkDown ⟨handle, peer, some index⟩) _ _ own
  have clock : (ble.perform radio (.linkDown ⟨handle, peer, some index⟩)).clockUs = ble.clockUs :=
    ble.clockUs_perform radio _
  have links := probeDisconnected_links (ble.linkDown ⟨handle, peer, some index⟩) index handle
  have connects :=
    (ble.linkDown ⟨handle, peer, some index⟩).connects_probeDisconnected index handle
  have detached : Attested (ble.perform radio (.linkDown ⟨handle, peer, some index⟩)) evidence := by
    refine attested.update presence clock rfl rfl (fun _ => .inl rfl) ?_ ?_ ?_
    · intro connect inFlight
      exact attested.dialled connect (connects ▸ inFlight)
    · intro link inside owner owns
      obtain ⟨different, known⟩ := attested.mem_erase.mp (links ▸ inside)
      refine .inr ⟨?_, known⟩
      rintro rfl
      have held := (attested.owned link known _ owns).1
      exact different (attested.samePeer known member (held.2.symm.trans holds.2))
    · exact (congrArg (fun left => (left.map Link.peer).Nodup) links).mpr
        (attested.peers.sublist (List.erase_sublist.map _))
  rw [← clock]
  exact detached.appearAt attested.distinct holds presence rfl rfl clock.symm

theorem Attested.hidLinkDown (attested : Attested ble evidence) {handle : Nat} {peer : Addr}
    (member : ⟨handle, peer, none⟩ ∈ ble.links) (radio : Radio) :
    Attested (ble.perform radio (.linkDown ⟨handle, peer, none⟩))
      ((peer, ble.clockUs) :: evidence) := by
  have erased : Attested (ble.linkDown ⟨handle, peer, none⟩) evidence := by
    refine ⟨attested.distinct, attested.past, attested.seen, attested.dialled, ?_,
      attested.peers.sublist (List.erase_sublist.map _)⟩
    exact fun link inside => attested.owned link (List.mem_of_mem_erase inside)
  show Attested ((ble.linkDown ⟨handle, peer, none⟩).gapDisconnected peer) _
  rw [Ble.gapDisconnected]
  split
  · rename_i index found
    have holds := Ble.slotOf_holds found
    set left := ((ble.linkDown ⟨handle, peer, none⟩).setSlot index
      { (ble.linkDown ⟨handle, peer, none⟩).presence index with
        connected := false, lastSeenUs := ble.clockUs }).note (.refreshed peer)
    have presence : left.presence = Function.update ble.presence index
        { ble.presence index with connected := false, lastSeenUs := ble.clockUs } := rfl
    have written : Attested left evidence := by
      refine erased.update presence rfl rfl rfl (fun _ => .inl rfl) erased.dialled ?_ erased.peers
      intro link inside owner owns
      refine .inr ⟨?_, inside⟩
      rintro rfl
      have held := (erased.owned link inside _ owns).1
      obtain ⟨different, known⟩ := attested.mem_erase.mp inside
      exact different (attested.samePeer known member (held.2.symm.trans holds.2))
    exact written.appearAt attested.distinct holds presence rfl rfl rfl
  · rename_i missing
    exact erased.appear fun index holds => absurd holds (Ble.slotOf_none missing index)

theorem Attested.preallocateBond (attested : Attested ble evidence) (bond : Bond) :
    Attested (ble.preallocateBond bond) evidence := by
  rcases ble.preallocateBond_cases bond with same | ⟨index, _, unheld, free, same⟩
  · rwa [same]
  · obtain ⟨clock, connects, links⟩ := ble.claimBonded_others index bond
    rw [same]
    refine attested.claim (ble.claimBonded_presence index bond) clock connects links unheld free
      fun present => ?_
    exact if_pos present

theorem Attested.bondRevoke (attested : Attested ble evidence) {addr : Addr} {deleted : Bool}
    (spares : ble.SparesBusy (.revoke addr deleted)) :
    Attested (ble.bondRevoke addr deleted) evidence := by
  rcases ble.bondRevoke_cases addr deleted with same | ⟨index, found, same⟩ | ⟨_, same⟩
  · rwa [same]
  · cases bonded : ble.bondAddrLookup addr with
    | none =>
        have still : ble.bondRevoke addr deleted = ble := by rw [Ble.bondRevoke, bonded]
        rwa [still]
    | some bond =>
        cases deleted with
        | false =>
            have still : ble.bondRevoke addr false = ble := by
              rw [Ble.bondRevoke, bonded]
              rfl
            rwa [still]
        | true =>
            obtain ⟨dialsOther, linksOther⟩ := spares rfl (by rw [bonded]; rfl)
            have holds := Ble.slotOf_holds found
            have apart {other : Fin presenceMax} {peer : Addr} (held : ble.presence.Holds other peer)
                (different : peer ≠ addr) : other ≠ index := by
              rintro rfl
              exact different (held.2.symm.trans holds.2)
            have left {other : Fin presenceMax} {peer : Addr}
                (held : (Ble.setSlot ble index PresenceSlot.cleared).presence.Holds other peer) :
                other ≠ index ∧ ble.presence.Holds other peer := by
              rw [Ble.presence_setSlot] at held
              by_cases here : other = index
              · subst here
                exact absurd (holds_update_self.mp held).1 Bool.false_ne_true
              · exact ⟨here, (holds_update_of_ne here).mp held⟩
            rw [same]
            constructor
            · exact attested.distinct.clear rfl
            · exact attested.past
            · intro other peer held present atUs member
              obtain ⟨here, before⟩ := left held
              rw [Ble.presence_note, Ble.presence_setSlot, Function.update_of_ne here] at present ⊢
              exact attested.seen other peer before present atUs member
            · intro connect member
              have held := attested.dialled connect member
              exact (holds_update_of_ne (apart held (dialsOther connect member))).mpr held
            · intro link member owner owns
              obtain ⟨held, rest⟩ := attested.owned link member owner owns
              have here := apart held (linksOther link member)
              rw [Ble.presence_note, Ble.presence_setSlot, Function.update_of_ne here,
                holds_update_of_ne here]
              exact ⟨held, rest⟩
            · exact attested.peers
  · rw [same]
    exact attested.congr rfl rfl rfl rfl

theorem Attested.wipeEvents (attested : Attested ble evidence) : Attested ble.wipeEvents evidence := by
  have same (index : Fin presenceMax) :
      (ble.wipeEvents.presence index).present = (ble.presence index).present ∧
        (ble.wipeEvents.presence index).lastSeenUs = (ble.presence index).lastSeenUs ∧
        (ble.wipeEvents.presence index).linkView = (ble.presence index).linkView := by
    rw [ble.wipeEvents_presence]
    split_ifs
    · exact ⟨rfl, rfl, rfl⟩
    · exact ⟨rfl, rfl, rfl⟩
  have keeps (index : Fin presenceMax) (addr : Addr) :
      ble.wipeEvents.presence.Holds index addr ↔ ble.presence.Holds index addr := by
    have view := (same index).2.2
    rw [Presence.Holds, Presence.Holds, show (ble.wipeEvents.presence index).used = _ from
      congrArg Prod.fst view, show (ble.wipeEvents.presence index).addr = _ from
      congrArg (fun view => view.2.1) view]
    rfl
  constructor
  · intro first second addr holdsFirst holdsSecond
    rw [keeps] at holdsFirst holdsSecond
    exact attested.distinct first second addr holdsFirst holdsSecond
  · exact attested.past
  · intro index addr held present atUs member
    rw [keeps] at held
    rw [(same index).1] at present
    rw [(same index).2.1]
    exact attested.seen index addr held present atUs member
  · intro connect member
    rw [keeps]
    exact attested.dialled connect member
  · intro link member owner owns
    obtain ⟨held, linked, handle⟩ := attested.owned link member owner owns
    have view := (same owner).2.2
    refine ⟨(keeps _ _).mpr held, ?_, ?_⟩
    · exact (congrArg (fun view => view.2.2.1) view).trans linked
    · exact (congrArg (fun view => view.2.2.2) view).trans handle
  · exact attested.peers

/-- Every event keeps the slots attested, the peer it shows among them. -/
theorem Attested.perform (attested : Attested ble evidence) (radio : Radio) {event : BleEvent}
    (reports : ble.Reports event) (spares : ble.SparesBusy event) :
    Attested (ble.perform radio event)
      ((event.shows.map fun addr => (addr, ble.clockUs)).toList ++ evidence) := by
  have preallocated : Attested ble.presencePreallocateBonded evidence :=
    run_kept (fun next : Ble => Attested next evidence)
      (fun _ bond kept => kept.preallocateBond bond) attested
  cases event with
  | adv addr => exact attested.adv addr
  | tick =>
      exact run_kept (fun next : Ble => Attested next evidence)
        (fun _ _ kept => kept.tickSlot radio) attested
  | probeUp connect handle => exact attested.probeUp reports.1 reports.2 radio
  | probeDown connect => exact attested.probeDown connect radio
  | hidUp handle peer => exact attested.hidUp reports radio
  | linkDown link =>
      obtain ⟨handle, peer, owner⟩ := link
      cases owner with
      | some index => exact attested.probeLinkDown reports radio
      | none => exact attested.hidLinkDown reports radio
  | wipe => exact attested.wipeEvents
  | encChange => exact preallocated.congr rfl rfl rfl rfl
  | hostSync => exact preallocated.congr rfl rfl rfl rfl
  | revoke addr deleted => exact attested.bondRevoke spares
  | synced | unsynced | setTimeout | pairingStart | pairingCancel | bondStore | scanRestart =>
      exact attested.congr rfl rfl rfl rfl

end Callbacks

section Turn

variable {ble : Ble} {index : Fin presenceMax}

/-- The times the OUT path was taken, the newest first. -/
def leftOf (history : List Note) : List (Addr × Bool) :=
  history.filterMap fun
    | .left addr acked => some (addr, acked)
    | _ => none

theorem leftOf_acknowledge (ble : Ble) (index : Fin presenceMax) :
    leftOf (ble.acknowledge index).history = leftOf ble.history := by
  rcases ble.acknowledge_cases index with same | ⟨_, _, same⟩ <;> rw [same]
  rfl

theorem leftOf_presenceProbeStart (radio : Radio) (ble : Ble) (index : Fin presenceMax) :
    leftOf (Ble.presenceProbeStart radio ble index).history = leftOf ble.history := by
  rcases Ble.presenceProbeStart_cases radio ble index with
    ⟨_, same⟩ | ⟨_, _, ⟨_, same⟩ | ⟨_, _, same⟩ | ⟨_, _, same⟩⟩ <;> rw [same] <;> rfl

theorem leftOf_leave (ble : Ble) (index : Fin presenceMax) :
    leftOf (ble.leave index).history =
      ((ble.presence index).addr, (ble.presence index).ackEvent) :: leftOf ble.history := by
  simp only [Ble.leave]
  split_ifs <;> rfl

theorem leftOf_backfill (ble : Ble) (index : Fin presenceMax) :
    leftOf (ble.backfill index).history = leftOf ble.history := by
  rw [Ble.backfill]
  split_ifs
  · exact leftOf_acknowledge ble index
  · rfl

theorem leftOf_reprobe (radio : Radio) (ble : Ble) (index : Fin presenceMax) :
    leftOf (Ble.reprobe radio ble index).history = leftOf ble.history := by
  rw [Ble.reprobe]
  split_ifs
  · rfl
  · rfl
  · rfl
  · exact leftOf_presenceProbeStart radio ble index

theorem environment_backfill (ble : Ble) (index : Fin presenceMax) :
    (ble.backfill index).environment = ble.environment := by
  rw [Ble.backfill]
  split_ifs
  · exact Ble.environment_acknowledge ble index
  · rfl

/-- A slot that is to be probed is not past its timeout, before the probe and after it. -/
theorem probeDue_stays (radio : Radio) (due : ble.probeDue index = true) :
    (Ble.presenceProbeStart radio ble index).outDue index = false := by
  obtain ⟨_, _, _, _, probed⟩ := Ble.presenceProbeStart_presence radio ble index
  have clocks : (Ble.presenceProbeStart radio ble index).timeout = ble.timeout ∧
      (Ble.presenceProbeStart radio ble index).clockUs = ble.clockUs := by
    rcases Ble.presenceProbeStart_cases radio ble index with
      ⟨_, here⟩ | ⟨_, _, ⟨_, here⟩ | ⟨_, _, here⟩ | ⟨_, _, here⟩⟩ <;> rw [here] <;>
      exact ⟨rfl, rfl⟩
  rw [Ble.probeDue, decide_eq_true_iff, Ble.sinceMs] at due
  rw [Ble.outDue, decide_eq_false_iff_not, Ble.sinceMs, probed, Function.update_self, clocks.1,
    clocks.2]
  dsimp only
  omega

/-- Only a slot past its timeout takes the OUT path. -/
theorem checkStale_leaves (radio : Radio) (ble : Ble) (index : Fin presenceMax) :
    leftOf (Ble.checkStale radio ble index).history = leftOf ble.history ∨
      ble.outDue index = true ∧ leftOf (Ble.checkStale radio ble index).history =
        ((ble.presence index).addr, (ble.presence index).ackEvent) :: leftOf ble.history := by
  rw [Ble.checkStale]
  cases due : ble.probeDue index with
  | true =>
      rw [if_pos rfl, probeDue_stays radio due, if_neg Bool.false_ne_true]
      exact .inl (leftOf_presenceProbeStart radio ble index)
  | false =>
      rw [if_neg Bool.false_ne_true]
      cases expired : ble.outDue index with
      | false =>
          rw [if_neg Bool.false_ne_true]
          exact .inl rfl
      | true =>
          rw [if_pos rfl]
          exact .inr ⟨rfl, leftOf_leave ble index⟩

/-- A turn that takes the OUT path finds its slot used, present, unconnected, not probing
and past the timeout. -/
theorem tickSlot_leaves (radio : Radio) (ble : Ble) (index : Fin presenceMax) :
    leftOf (Ble.tickSlot radio ble index).history = leftOf ble.history ∨
      (ble.presence index).used = true ∧ (ble.presence index).connected = false ∧
        (ble.presence index).present = true ∧ ble.outDue index = true ∧
        ∃ acked, leftOf (Ble.tickSlot radio ble index).history =
          ((ble.presence index).addr, acked) :: leftOf ble.history := by
  by_cases used : (ble.presence index).used = true
  swap
  · rw [Ble.tickSlot, if_neg used]
    exact .inl rfl
  rw [Ble.tickSlot, if_pos used]
  cases linked : (ble.presence index).connected with
  | true =>
      have fenced : leftOf (ble.geofence index).history = leftOf ble.history := by
        rw [Ble.geofence_connected linked]
        rfl
      have still : ((ble.geofence index).backfill index).presence index =
          { (ble.geofence index).presence index with
            ackEvent := (((ble.geofence index).backfill index).presence index).ackEvent } := by
        obtain ⟨acked, same⟩ := (ble.geofence index).backfill_presence index
        rw [same, Function.update_self]
      have linkedStill : (((ble.geofence index).backfill index).presence index).connected = true := by
        rw [still, Ble.geofence_connected linked, Ble.presence_note, Ble.presence_setSlot,
          Function.update_self]
        exact linked
      dsimp only
      rw [if_pos linkedStill, ← fenced]
      exact .inl (leftOf_backfill (ble.geofence index) index)
  | false =>
      rw [Ble.geofence_idle linked]
      obtain ⟨acked, same⟩ := ble.backfill_presence index
      obtain ⟨timeout, _, _, _, clock, _⟩ := Ble.environment_eq.mp (environment_backfill ble index)
      have slot : (ble.backfill index).presence index =
          { ble.presence index with ackEvent := acked } := by
        rw [same, Function.update_self]
      have apart : ((ble.backfill index).presence index).connected = false := by
        rw [slot]
        exact linked
      have sameDue : (ble.backfill index).outDue index = ble.outDue index := by
        rw [Ble.outDue, Ble.outDue, Ble.sinceMs, Ble.sinceMs, slot, timeout, clock]
      have samePresent : ((ble.backfill index).presence index).present =
          (ble.presence index).present := by
        rw [slot]
      dsimp only
      rw [apart, if_neg Bool.false_ne_true, samePresent, ← leftOf_backfill ble index]
      cases present : (ble.presence index).present with
      | false =>
          rw [if_neg Bool.false_ne_true]
          exact .inl (leftOf_reprobe radio (ble.backfill index) index)
      | true =>
          rw [if_pos rfl, ← sameDue]
          rcases checkStale_leaves radio (ble.backfill index) index with still | ⟨due, left⟩
          · exact .inl still
          · refine .inr ⟨used, rfl, rfl, due, acked, ?_⟩
            rw [left, slot]

end Turn

section Run

variable {radio : Radio}

/-- As long as NimBLE reports one link for each peer and no busy peer is revoked, the OUT
path is taken only for a slot that is neither connected nor probing, and whose peer has
not shown itself for longer than the timeout in force. -/
theorem out_afterTimeout (radio : Radio) (startUs : Nat) (timeout : PresenceTimeout)
    (log : List PeerEvent) (actions : List BleAction)
    (guarded : Guarded (Shown.step radio)
      (fun shown => Ble.Meets (fun ble event => ble.Reports event ∧ ble.SparesBusy event) shown.ble)
      (Shown.boot startUs timeout log) actions)
    (past : List BleAction) (elapsedUs : Nat) (within : past ++ [⟨elapsedUs, .tick⟩] <+: actions)
    (before : List (Fin presenceMax)) (index : Fin presenceMax) :
    let shown := run (Shown.step radio) (Shown.boot startUs timeout log) past
    let turn := run (Ble.tickSlot radio) (shown.ble.wait elapsedUs) before
    ∀ newer addr acked, (Ble.tickSlot radio turn index).history = newer ++ turn.history →
      .left addr acked ∈ newer →
      (turn.presence index).addr = addr ∧ (turn.presence index).connected = false ∧
        (turn.presence index).probing = false ∧
        ∀ atUs, (addr, atUs) ∈ shown.evidence → atUs + turn.timeout.ms * 1000 < turn.clockUs := by
  intro shown turn newer addr acked split member
  obtain ⟨rest, rfl⟩ := within
  have first := ((guarded_append _ _).mp ((guarded_append _ _).mp guarded).1).1
  have attested : Attested shown.ble shown.evidence := by
    refine run_invariant (fun shown : Shown => Attested shown.ble shown.evidence) ?_
      (Attested.boot startUs timeout log) first
    intro shown action attested met
    have performed := (attested.wait action.elapsedUs).perform radio met.1 met.2
    have clock : (shown.ble.step radio action).clockUs =
        (shown.ble.wait action.elapsedUs).clockUs := Ble.clockUs_perform radio _ _
    rw [Shown.step]
    dsimp only
    rw [clock]
    exact performed
  have reached : Attested turn shown.evidence :=
    run_kept (fun next : Ble => Attested next shown.evidence) (fun _ _ kept => kept.tickSlot radio)
      (attested.wait elapsedUs)
  have added : leftOf (Ble.tickSlot radio turn index).history =
      leftOf newer ++ leftOf turn.history := by
    rw [split]
    exact List.filterMap_append
  have inside : (addr, acked) ∈ leftOf newer := List.mem_filterMap.mpr ⟨_, member, rfl⟩
  rcases tickSlot_leaves radio turn index with still | ⟨used, apart, present, due, asked, left⟩
  · have empty : leftOf newer = [] := List.append_left_eq_self.mp (added.symm.trans still)
    rw [empty] at inside
    exact absurd inside List.not_mem_nil
  · have only : leftOf newer = [((turn.presence index).addr, asked)] :=
      List.append_cancel_right (added.symm.trans left)
    rw [only, List.mem_singleton] at inside
    obtain ⟨rfl, _⟩ := Prod.mk.inj inside
    rw [Ble.outDue, decide_eq_true_iff, Ble.sinceMs] at due
    refine ⟨rfl, apart, due.2, fun atUs shownAt => ?_⟩
    have bound := reached.seen index _ (holds_self used) present atUs shownAt
    omega

/-- A sighting under the shortest timeout. -/
def lastSighting : List BleAction :=
  [⟨0, .bondStore [⟨phone, .publicAddr⟩]⟩, ⟨1000000, .setTimeout 30⟩, ⟨1000000, .adv phone⟩]

/-- Half a minute and a second of silence later the phone is OUT. -/
theorem out_afterTimeout_silence :
    let shown := run (Shown.step Radio.oneConnect) (Shown.boot 0 .initial []) lastSighting
    let turn := run (Ble.tickSlot Radio.oneConnect) (shown.ble.wait 31000000) []
    (Ble.tickSlot Radio.oneConnect turn 0).history = [.left phone false] ++ turn.history ∧
      (turn.presence 0).addr = phone ∧ (turn.presence 0).connected = false ∧
        (turn.presence 0).probing = false ∧
        ∀ atUs, (phone, atUs) ∈ shown.evidence →
          atUs + turn.timeout.ms * 1000 < turn.clockUs :=
  ⟨by decide +kernel,
    out_afterTimeout Radio.oneConnect 0 .initial [] (lastSighting ++ [⟨31000000, .tick⟩])
      (by decide +kernel) lastSighting 31000000 List.prefix_rfl [] 0 [.left phone false] phone false
      (by decide +kernel) (List.mem_singleton.mpr rfl)⟩

end Run

end LeanDingdong
