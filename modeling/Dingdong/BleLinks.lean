import Dingdong.BleSlots
import Dingdong.ListTable

/-!
The `connected` flags against the live links. Links come and go under two callbacks,
one keyed by slot number and one by address; an invariant of the slots and the links
says when the two keep the flags right.
-/

namespace LeanDingdong

open Runs Presence

/-- The fields of a slot the two callbacks go by. -/
def PresenceSlot.linkView (slot : PresenceSlot) : Bool × Addr × Bool × Nat :=
  (slot.used, slot.addr, slot.connected, slot.probeHandle)

/-- The peers of the links, each connected once, are the connected slots; a slot with
a probe handle holds the peer of that link. -/
structure Linked (presence : Presence) (links : List Link) : Prop where
  distinct : presence.Distinct
  idle : ∀ index, (presence index).used = false → (presence index).connected = false
  connected : ∀ index addr, presence.Holds index addr →
    ((presence index).connected = true ↔ addr ∈ links.map Link.peer)
  peers : (links.map Link.peer).Nodup
  handles : (links.map Link.handle).Nodup
  handled : ∀ link ∈ links, link.handle ≠ noHandle
  owned : ∀ link ∈ links, ∀ index owner, presence.Holds index link.peer →
    link.owner = some owner → owner = index ∧ (presence index).probeHandle = link.handle
  probed : ∀ index addr, presence.Holds index addr → (presence index).probeHandle ≠ noHandle →
    (⟨(presence index).probeHandle, addr, some index⟩ : Link) ∈ links

namespace Linked

variable {presence : Presence} {links : List Link} {index : Fin presenceMax} {addr : Addr}
  {slot : PresenceSlot} {link : Link}

theorem cleared : Linked (fun _ => PresenceSlot.cleared) [] := by
  have unheld (index : Fin presenceMax) (addr : Addr) :
      ¬ Presence.Holds (fun _ => PresenceSlot.cleared) index addr :=
    fun holds => absurd holds.1 Bool.false_ne_true
  exact
    { distinct := fun first _ addr holds => absurd holds (unheld first addr)
      idle := fun _ _ => rfl
      connected := fun index addr holds => absurd holds (unheld index addr)
      peers := List.nodup_nil
      handles := List.nodup_nil
      handled := fun _ member => absurd member List.not_mem_nil
      owned := fun _ member => absurd member List.not_mem_nil
      probed := fun index addr holds => absurd holds (unheld index addr) }

/-- The invariant sees slots only through their views. -/
theorem congr (linked : Linked presence links) {next : Presence}
    (same : ∀ index, (next index).linkView = (presence index).linkView) : Linked next links := by
  have used (index : Fin presenceMax) : (next index).used = (presence index).used :=
    congrArg Prod.fst (same index)
  have addr (index : Fin presenceMax) : (next index).addr = (presence index).addr :=
    congrArg (fun view => view.2.1) (same index)
  have connected (index : Fin presenceMax) : (next index).connected = (presence index).connected :=
    congrArg (fun view => view.2.2.1) (same index)
  have handle (index : Fin presenceMax) :
      (next index).probeHandle = (presence index).probeHandle :=
    congrArg (fun view => view.2.2.2) (same index)
  have holds (index : Fin presenceMax) (peer : Addr) :
      next.Holds index peer ↔ presence.Holds index peer := by
    rw [Presence.Holds, Presence.Holds, used, addr]
  constructor
  · intro first second peer holdsFirst holdsSecond
    exact linked.distinct first second peer ((holds _ _).mp holdsFirst) ((holds _ _).mp holdsSecond)
  · intro index free
    rw [connected]
    exact linked.idle index (used index ▸ free)
  · intro index peer held
    rw [connected]
    exact linked.connected index peer ((holds _ _).mp held)
  · exact linked.peers
  · exact linked.handles
  · exact linked.handled
  · intro link member index owner held
    rw [handle]
    exact linked.owned link member index owner ((holds _ _).mp held)
  · intro index peer held
    rw [handle]
    exact linked.probed index peer ((holds _ _).mp held)

theorem write (linked : Linked presence links)
    (same : slot.linkView = (presence index).linkView) :
    Linked (Function.update presence index slot) links := by
  refine linked.congr fun other => ?_
  by_cases here : other = index
  · subst here
    rw [Function.update_self, same]
  · rw [Function.update_of_ne here]

theorem claim (linked : Linked presence links) (unheld : presence.Unheld slot.addr)
    (unlinked : slot.addr ∉ links.map Link.peer) (apart : slot.connected = false)
    (noProbe : slot.probeHandle = noHandle) :
    Linked (Function.update presence index slot) links := by
  constructor
  · exact linked.distinct.claim unheld
  · intro other free
    by_cases here : other = index
    · subst here
      rw [Function.update_self]
      exact apart
    · rw [Function.update_of_ne here] at free ⊢
      exact linked.idle other free
  · intro other peer holds
    by_cases here : other = index
    · subst here
      obtain ⟨_, rfl⟩ := holds_update_self.mp holds
      rw [Function.update_self, apart]
      simpa using unlinked
    · rw [Function.update_of_ne here]
      exact linked.connected other peer ((holds_update_of_ne here).mp holds)
  · exact linked.peers
  · exact linked.handles
  · exact linked.handled
  · intro link member other owner holds owns
    by_cases here : other = index
    · subst here
      obtain ⟨_, same⟩ := holds_update_self.mp holds
      exact absurd (same ▸ List.mem_map_of_mem member) unlinked
    · rw [Function.update_of_ne here]
      exact linked.owned link member other owner ((holds_update_of_ne here).mp holds) owns
  · intro other peer holds probed
    by_cases here : other = index
    · subst here
      rw [Function.update_self] at probed
      exact absurd noProbe probed
    · rw [Function.update_of_ne here] at probed ⊢
      exact linked.probed other peer ((holds_update_of_ne here).mp holds) probed

theorem writeUnused (linked : Linked presence links) (free : slot.used = false)
    (apart : slot.connected = false) : Linked (Function.update presence index slot) links := by
  have other {index' : Fin presenceMax} {addr : Addr}
      (holds : Presence.Holds (Function.update presence index slot) index' addr) :
      index' ≠ index ∧ presence.Holds index' addr := by
    by_cases here : index' = index
    · rw [here, holds_update_self, free] at holds
      exact absurd holds.1 (by decide)
    · exact ⟨here, (holds_update_of_ne here).mp holds⟩
  constructor
  · exact linked.distinct.clear free
  · intro index' unused
    by_cases here : index' = index
    · subst here
      rw [Function.update_self]
      exact apart
    · rw [Function.update_of_ne here] at unused ⊢
      exact linked.idle index' unused
  · intro index' peer holds
    obtain ⟨here, held⟩ := other holds
    rw [Function.update_of_ne here]
    exact linked.connected index' peer held
  · exact linked.peers
  · exact linked.handles
  · exact linked.handled
  · intro link member index' owner holds owns
    obtain ⟨here, held⟩ := other holds
    rw [Function.update_of_ne here]
    exact linked.owned link member index' owner held owns
  · intro index' peer holds probed
    obtain ⟨here, held⟩ := other holds
    rw [Function.update_of_ne here] at probed ⊢
    exact linked.probed index' peer held probed

/-- A peer that has no link yet has no probe handle either. -/
theorem noProbe (linked : Linked presence links) (holds : presence.Holds index addr)
    (unlinked : addr ∉ links.map Link.peer) : (presence index).probeHandle = noHandle := by
  by_contra probed
  exact unlinked (List.mem_map_of_mem (linked.probed index addr holds probed))

end Linked

/-- The handle and the peer of a link that comes up are not those of a live one. -/
def FreshLink (links : List Link) (link : Link) : Prop :=
  link.handle ≠ noHandle ∧ link.handle ∉ links.map Link.handle ∧ link.peer ∉ links.map Link.peer

instance (links : List Link) (link : Link) : Decidable (FreshLink links link) :=
  inferInstanceAs (Decidable (_ ∧ _ ∧ _))

namespace Linked

variable {presence : Presence} {links : List Link} {index : Fin presenceMax}
  {slot : PresenceSlot} {link : Link}

/-- A link of a peer without a slot comes up. -/
theorem attachUnheld (linked : Linked presence links) (fresh : FreshLink links link)
    (unheld : presence.Unheld link.peer) : Linked presence (links ++ [link]) := by
  constructor
  · exact linked.distinct
  · exact linked.idle
  · intro index addr holds
    have other : addr ≠ link.peer := fun same => unheld index (same ▸ holds)
    simpa [other] using linked.connected index addr holds
  · exact ListTable.nodup_add linked.peers fresh.2.2
  · exact ListTable.nodup_add linked.handles fresh.2.1
  · intro other member
    rcases List.mem_append.mp member with known | new
    · exact linked.handled other known
    · obtain rfl : other = link := by simpa using new
      exact fresh.1
  · intro other member index owner holds owns
    rcases List.mem_append.mp member with known | new
    · exact linked.owned other known index owner holds owns
    · obtain rfl : other = link := by simpa using new
      exact absurd holds (unheld index)
  · intro index addr holds probed
    exact List.mem_append_left _ (linked.probed index addr holds probed)

/-- A link of a peer with a slot comes up and its slot is marked; the handle is noted
when the slot is the owner. -/
theorem attachHeld (linked : Linked presence links) (fresh : FreshLink links link)
    (holds : presence.Holds index link.peer) (used : slot.used = true)
    (same : slot.addr = link.peer) (marked : slot.connected = true)
    (handle : link.owner = none ∧ slot.probeHandle = (presence index).probeHandle ∨
      link.owner = some index ∧ slot.probeHandle = link.handle) :
    Linked (Function.update presence index slot) (links ++ [link]) := by
  obtain ⟨fine, freshHandle, freshPeer⟩ := fresh
  have noProbe := linked.noProbe holds freshPeer
  have keeps (other : Fin presenceMax) (addr : Addr) :
      Presence.Holds (Function.update presence index slot) other addr ↔
        presence.Holds other addr :=
    holds_update_same (used.trans holds.1.symm) (same.trans holds.2.symm)
  constructor
  · exact linked.distinct.write (used.trans holds.1.symm) (same.trans holds.2.symm)
  · intro other free
    by_cases here : other = index
    · subst here
      rw [Function.update_self, used] at free
      exact absurd free (by decide)
    · rw [Function.update_of_ne here] at free ⊢
      exact linked.idle other free
  · intro other addr held
    rw [keeps] at held
    by_cases here : other = index
    · subst here
      obtain rfl : link.peer = addr := holds.2.symm.trans held.2
      rw [Function.update_self, marked]
      simp
    · rw [Function.update_of_ne here, linked.connected other addr held]
      have different : addr ≠ link.peer := by
        rintro rfl
        exact here (linked.distinct other index _ held holds)
      simp [different]
  · exact ListTable.nodup_add linked.peers freshPeer
  · exact ListTable.nodup_add linked.handles freshHandle
  · intro other member
    rcases List.mem_append.mp member with known | new
    · exact linked.handled other known
    · obtain rfl : other = link := by simpa using new
      exact fine
  · intro other member slotNumber owner held owns
    rw [keeps] at held
    rcases List.mem_append.mp member with known | new
    · have here : slotNumber ≠ index := by
        rintro rfl
        exact freshPeer (holds.2.symm.trans held.2 ▸ List.mem_map_of_mem known)
      rw [Function.update_of_ne here]
      exact linked.owned other known slotNumber owner held owns
    · obtain rfl : other = link := by simpa using new
      obtain rfl := linked.distinct slotNumber index _ held holds
      rcases handle with ⟨unowned, _⟩ | ⟨owned, handle⟩
      · rw [unowned] at owns
        cases owns
      · rw [Function.update_self]
        exact ⟨Option.some.inj (owns.symm.trans owned), handle⟩
  · intro other addr held probed
    rw [keeps] at held
    by_cases here : other = index
    · subst here
      rw [Function.update_self] at probed ⊢
      rcases handle with ⟨_, unchanged⟩ | ⟨owned, handle⟩
      · exact absurd (unchanged.trans noProbe) probed
      · obtain rfl : link.peer = addr := holds.2.symm.trans held.2
        refine List.mem_append_right _ (List.mem_singleton.mpr ?_)
        rw [handle, ← owned]
    · rw [Function.update_of_ne here] at probed ⊢
      exact List.mem_append_left _ (linked.probed other addr held probed)

theorem mem_erase (linked : Linked presence links) {other : Link} :
    other ∈ links.erase link ↔ other ≠ link ∧ other ∈ links :=
  (linked.handles.of_map _).mem_erase_iff

theorem samePeer (linked : Linked presence links) {first second : Link} (here : first ∈ links)
    (there : second ∈ links) (same : first.peer = second.peer) : first = second :=
  List.inj_on_of_nodup_map linked.peers here there same

theorem sameHandle (linked : Linked presence links) {first second : Link} (here : first ∈ links)
    (there : second ∈ links) (same : first.handle = second.handle) : first = second :=
  List.inj_on_of_nodup_map linked.handles here there same

/-- A link goes down and the slot of its peer, if there is one, is unmarked and forgets
the handle. -/
theorem detach (linked : Linked presence links) (member : link ∈ links) {next : Presence}
    (distinct : next.Distinct)
    (idle : ∀ index, (next index).used = false → (next index).connected = false)
    (holds : ∀ index addr, next.Holds index addr → presence.Holds index addr)
    (other : ∀ index addr, next.Holds index addr → addr ≠ link.peer →
      (next index).linkView = (presence index).linkView)
    (unmarked : ∀ index, next.Holds index link.peer →
      (next index).connected = false ∧ (next index).probeHandle = noHandle) :
    Linked next (links.erase link) := by
  have connectedSame (index : Fin presenceMax) (addr : Addr) (held : next.Holds index addr)
      (different : addr ≠ link.peer) : (next index).connected = (presence index).connected :=
    congrArg (fun view => view.2.2.1) (other index addr held different)
  have handleSame (index : Fin presenceMax) (addr : Addr) (held : next.Holds index addr)
      (different : addr ≠ link.peer) : (next index).probeHandle = (presence index).probeHandle :=
    congrArg (fun view => view.2.2.2) (other index addr held different)
  have gone : link.peer ∉ (links.erase link).map Link.peer := by
    intro present
    obtain ⟨left, inside, same⟩ := List.mem_map.mp present
    obtain ⟨different, known⟩ := linked.mem_erase.mp inside
    exact different (linked.samePeer known member same)
  constructor
  · exact distinct
  · exact idle
  · intro index addr held
    by_cases different : addr = link.peer
    · subst different
      rw [(unmarked index held).1]
      simpa using gone
    · rw [connectedSame index addr held different, linked.connected index addr (holds _ _ held)]
      simp only [List.mem_map, linked.mem_erase]
      constructor
      · rintro ⟨known, inside, rfl⟩
        exact ⟨known, ⟨fun same => different (same ▸ rfl), inside⟩, rfl⟩
      · rintro ⟨known, ⟨_, inside⟩, rfl⟩
        exact ⟨known, inside, rfl⟩
  · exact linked.peers.sublist (List.erase_sublist.map _)
  · exact linked.handles.sublist (List.erase_sublist.map _)
  · exact fun known inside => linked.handled known (List.mem_of_mem_erase inside)
  · intro known inside index owner held owns
    obtain ⟨different, present⟩ := linked.mem_erase.mp inside
    have apart : known.peer ≠ link.peer :=
      fun same => different (linked.samePeer present member same)
    rw [handleSame index _ held apart]
    exact linked.owned known present index owner (holds _ _ held) owns
  · intro index addr held probed
    by_cases different : addr = link.peer
    · subst different
      exact absurd (unmarked index held).2 probed
    · rw [handleSame index addr held different] at probed ⊢
      refine linked.mem_erase.mpr ⟨?_, linked.probed index addr (holds _ _ held) probed⟩
      rintro rfl
      exact different rfl

end Linked

section Callbacks

variable {ble : Ble} {links : List Link} {index : Fin presenceMax}

theorem Linked.touch (linked : Linked ble.presence links) :
    Linked (ble.touch index).presence links :=
  linked.write rfl

theorem Linked.acknowledge (linked : Linked ble.presence links) :
    Linked (ble.acknowledge index).presence links := by
  obtain ⟨_, same⟩ := ble.acknowledge_presence index
  rw [same]
  exact linked.write rfl

/-- A sighting keeps the flags right when it takes no slot for a peer with a link. -/
theorem Linked.presenceSeenAddr (linked : Linked ble.presence links) {addr : Addr}
    (unlinked : ble.Claims addr → addr ∉ links.map Link.peer) :
    Linked (ble.presenceSeenAddr addr).presence links := by
  rcases ble.presenceSeenAddr_cases addr with
    same | ⟨index, _, same⟩ | ⟨index, type, claims, unheld, free, same⟩
  · rwa [same]
  · rw [same]
    exact linked.touch.acknowledge
  · have claimed : Linked (ble.claimSeen index addr type).presence links :=
      linked.claim unheld (unlinked claims) (linked.idle index free) rfl
    rw [same]
    exact claimed.touch.acknowledge

theorem Linked.tickSlot (linked : Linked ble.presence links) (radio : Radio) :
    Linked (Ble.tickSlot radio ble index).presence links := by
  refine Ble.tickSlot_kept (P := fun ble => Linked ble.presence links) ?_
    (fun _ _ _ kept => kept.acknowledge) ?_ ?_ linked
  · intro ble _ kept
    obtain ⟨_, _, _, same⟩ := ble.geofence_presence index
    rw [same]
    exact kept.write rfl
  · intro ble used apart kept
    have noProbe : (ble.presence index).probeHandle = noHandle := by
      refine kept.noProbe (holds_self used) ?_
      rw [← kept.connected index _ (holds_self used), apart]
      exact Bool.false_ne_true
    obtain ⟨_, _, handle, unset, same⟩ := Ble.presenceProbeStart_presence radio ble index
    have handleIs : handle = (ble.presence index).probeHandle := by
      rcases unset with unset | unset
      · exact unset
      · exact unset.trans noProbe.symm
    subst handleIs
    rw [same]
    exact kept.write rfl
  · intro ble _ _ _ _ kept
    rw [ble.leave_presence index]
    exact kept.write rfl

theorem Linked.presenceTickCb (linked : Linked ble.presence links) (radio : Radio) :
    Linked (Ble.presenceTickCb radio ble).presence links :=
  run_kept (fun ble : Ble => Linked ble.presence links) (fun _ _ kept => kept.tickSlot radio) linked

/-- The slot's own probe makes the link. -/
theorem Linked.probeConnected (linked : Linked ble.presence links) {handle : Nat} {peer : Addr}
    (fresh : FreshLink links ⟨handle, peer, some index⟩) (holds : ble.presence.Holds index peer) :
    Linked (ble.probeConnected index handle).presence
      (links ++ [⟨handle, peer, some index⟩]) := by
  have marked : Linked (ble.setSlot index { ble.presence index with
      probeHandle := handle, connected := true, probing := false }).presence
        (links ++ [⟨handle, peer, some index⟩]) :=
    linked.attachHeld fresh holds holds.1 holds.2 rfl (.inr ⟨rfl, rfl⟩)
  refine marked.presenceSeenAddr fun claims => ?_
  have held : (ble.setSlot index { ble.presence index with
      probeHandle := handle, connected := true, probing := false }).presence.Holds index
        (ble.presence index).addr := holds_update_self.mpr ⟨holds.1, rfl⟩
  exact absurd held (Ble.slotOf_none claims.1 index)

theorem Linked.gapConnected (linked : Linked ble.presence links) {handle : Nat} {peer : Addr}
    (fresh : FreshLink links ⟨handle, peer, none⟩) :
    Linked (ble.gapConnected peer).presence (links ++ [⟨handle, peer, none⟩]) := by
  have seen : Linked (ble.presenceSeenAddr peer).presence links :=
    linked.presenceSeenAddr fun _ => fresh.2.2
  rw [Ble.gapConnected]
  dsimp only
  split
  · rename_i index found
    have holds := Ble.slotOf_holds found
    exact seen.attachHeld fresh holds holds.1 holds.2 rfl (.inl ⟨rfl, rfl⟩)
  · rename_i missing
    exact seen.attachUnheld fresh (Ble.slotOf_none missing)

theorem Linked.probeFailed (linked : Linked ble.presence links) :
    Linked (ble.probeFailed index).presence links :=
  linked.write rfl

/-- A link of a probe goes down: its slot forgets it, or the slot was freed meanwhile. -/
theorem Linked.probeDisconnected (linked : Linked ble.presence links) {handle : Nat} {peer : Addr}
    (member : ⟨handle, peer, some index⟩ ∈ links) :
    Linked (ble.probeDisconnected index handle).presence
      (links.erase ⟨handle, peer, some index⟩) := by
  by_cases own : (ble.presence index).probeHandle = handle
  · have presence := ble.probeDisconnected_presence own
    have keeps (other : Fin presenceMax) (addr : Addr) :
        (ble.probeDisconnected index handle).presence.Holds other addr ↔
          ble.presence.Holds other addr := by
      rw [presence]
      exact holds_update_same rfl rfl
    refine linked.detach member ?_ ?_ (fun other addr => (keeps other addr).mp) ?_ ?_
    · rw [presence]
      exact linked.distinct.write rfl rfl
    · intro other free
      rw [presence] at free ⊢
      by_cases here : other = index
      · subst here
        rw [Function.update_self]
      · rw [Function.update_of_ne here] at free ⊢
        exact linked.idle other free
    · intro other addr holds different
      rw [keeps] at holds
      by_cases here : other = index
      · subst here
        have probed := linked.probed other addr holds (own ▸ linked.handled _ member)
        exact absurd (congrArg Link.peer (linked.sameHandle probed member own)) different
      · rw [presence, Function.update_of_ne here]
    · intro other holds
      rw [keeps] at holds
      obtain ⟨rfl, _⟩ := linked.owned _ member other index holds rfl
      rw [presence, Function.update_self]
      exact ⟨rfl, rfl⟩
  · have same : ble.probeDisconnected index handle = ble := if_neg own
    rw [same]
    refine linked.detach member linked.distinct linked.idle (fun _ _ holds => holds)
      (fun _ _ _ _ => rfl) fun other holds => ?_
    obtain ⟨rfl, handleIs⟩ := linked.owned _ member other index holds rfl
    exact absurd handleIs own

theorem Linked.gapDisconnected (linked : Linked ble.presence links) {handle : Nat} {peer : Addr}
    (member : ⟨handle, peer, none⟩ ∈ links) :
    Linked (ble.gapDisconnected peer).presence (links.erase ⟨handle, peer, none⟩) := by
  rw [Ble.gapDisconnected]
  split
  · rename_i index found
    have holds := Ble.slotOf_holds found
    rw [Ble.presence_note, Ble.presence_setSlot]
    have keeps (other : Fin presenceMax) (addr : Addr) :
        Presence.Holds (Function.update ble.presence index
          { ble.presence index with connected := false, lastSeenUs := ble.clockUs }) other addr ↔
            ble.presence.Holds other addr :=
      holds_update_same rfl rfl
    refine linked.detach member (linked.distinct.write rfl rfl) ?_
      (fun other addr => (keeps other addr).mp) ?_ ?_
    · intro other free
      by_cases here : other = index
      · subst here
        rw [Function.update_self]
      · rw [Function.update_of_ne here] at free ⊢
        exact linked.idle other free
    · intro other addr held different
      have here : other ≠ index := by
        rintro rfl
        exact different (((keeps _ addr).mp held).2.symm.trans holds.2)
      rw [Function.update_of_ne here]
    · intro other held
      obtain rfl := linked.distinct other index _ ((keeps other peer).mp held) holds
      rw [Function.update_self]
      refine ⟨rfl, ?_⟩
      by_contra probed
      have owned := linked.samePeer (linked.probed other peer holds probed) member rfl
      cases congrArg Link.owner owned
  · rename_i missing
    exact linked.detach member linked.distinct linked.idle (fun _ _ holds => holds)
      (fun _ _ _ _ => rfl) fun other holds => absurd holds (Ble.slotOf_none missing other)

theorem Linked.preallocateBond (linked : Linked ble.presence links) {bond : Bond}
    (unlinked : ble.Allocates bond → bond.addr ∉ links.map Link.peer) :
    Linked (ble.preallocateBond bond).presence links := by
  rcases ble.preallocateBond_cases bond with same | ⟨index, allocates, unheld, _, same⟩
  · rwa [same]
  · have presence : (ble.claimBonded index bond).presence = _ := ble.claimBonded_presence index bond
    rw [same, presence]
    exact linked.claim unheld (unlinked allocates) rfl rfl

theorem Linked.bondRevoke (linked : Linked ble.presence links) (addr : Addr) (deleted : Bool) :
    Linked (ble.bondRevoke addr deleted).presence links := by
  rcases ble.bondRevoke_cases addr deleted with same | ⟨index, _, same⟩ | ⟨_, same⟩
  · rwa [same]
  · rw [same]
    exact linked.writeUnused rfl rfl
  · rwa [same]

theorem Linked.wipeEvents (linked : Linked ble.presence links) :
    Linked ble.wipeEvents.presence links := by
  refine linked.congr fun index => ?_
  rw [ble.wipeEvents_presence]
  split_ifs <;> rfl

theorem presenceSeenAddr_links (ble : Ble) (addr : Addr) :
    (ble.presenceSeenAddr addr).links = ble.links :=
  Ble.links_eq (ble.environment_presenceSeenAddr addr)

theorem probeConnected_links (ble : Ble) (index : Fin presenceMax) (handle : Nat) :
    (ble.probeConnected index handle).links = ble.links :=
  Ble.links_eq (ble.environment_probeConnected index handle)

theorem gapConnected_links (ble : Ble) (peer : Addr) :
    (ble.gapConnected peer).links = ble.links :=
  Ble.links_eq (ble.environment_gapConnected peer)

theorem probeDisconnected_links (ble : Ble) (index : Fin presenceMax) (handle : Nat) :
    (ble.probeDisconnected index handle).links = ble.links :=
  Ble.links_eq (ble.environment_probeDisconnected index handle)

theorem gapDisconnected_links (ble : Ble) (peer : Addr) :
    (ble.gapDisconnected peer).links = ble.links :=
  Ble.links_eq (ble.environment_gapDisconnected peer)

theorem presenceTickCb_links (radio : Radio) (ble : Ble) :
    (Ble.presenceTickCb radio ble).links = ble.links :=
  Ble.links_eq (ble.environment_presenceTickCb radio)

theorem presencePreallocateBonded_links (ble : Ble) :
    ble.presencePreallocateBonded.links = ble.links :=
  Ble.links_eq ble.environment_presencePreallocateBonded

theorem bondRevoke_links (ble : Ble) (addr : Addr) (deleted : Bool) :
    (ble.bondRevoke addr deleted).links = ble.links := by
  rcases ble.bondRevoke_cases addr deleted with same | ⟨_, _, same⟩ | ⟨_, same⟩ <;> rw [same] <;> rfl

end Callbacks

/-- What NimBLE reports: one result for each accepted connect, one live link for each
peer, handles that tell the live links apart, one end for each link. -/
def Ble.Reports (ble : Ble) : BleEvent → Prop
  | .probeUp connect handle =>
      connect ∈ ble.connects ∧ FreshLink ble.links ⟨handle, connect.peer, some connect.slot⟩
  | .probeDown connect => connect ∈ ble.connects
  | .hidUp handle peer => FreshLink ble.links ⟨handle, peer, none⟩
  | .linkDown link => link ∈ ble.links
  | _ => True

/-- No slot is taken for a peer whose link is up, and a probe that connects finds its
slot still holding the peer it dialled. -/
def Ble.KeepsTrack (ble : Ble) : BleEvent → Prop
  | .adv addr => ble.Claims addr → addr ∉ ble.links.map Link.peer
  | .probeUp connect _ => ble.presence.Holds connect.slot connect.peer
  | .encChange | .hostSync =>
      Guarded Ble.preallocateBond
        (fun next bond => next.Allocates bond → bond.addr ∉ ble.links.map Link.peer) ble ble.bonds
  | _ => True

instance Ble.decidableReports (ble : Ble) : ∀ event, Decidable (ble.Reports event)
  | .probeUp _ _ => inferInstanceAs (Decidable (_ ∧ _))
  | .probeDown connect => inferInstanceAs (Decidable (connect ∈ ble.connects))
  | .hidUp _ _ => inferInstanceAs (Decidable (FreshLink _ _))
  | .linkDown link => inferInstanceAs (Decidable (link ∈ ble.links))
  | .adv _ | .tick | .synced _ | .unsynced | .wipe | .setTimeout _ | .pairingStart _
  | .pairingCancel | .bondStore _ | .encChange | .hostSync | .revoke _ _ | .scanRestart =>
      isTrue trivial

instance Ble.decidableKeepsTrack (ble : Ble) : ∀ event, Decidable (ble.KeepsTrack event)
  | .adv _ => inferInstanceAs (Decidable (_ → _))
  | .probeUp _ _ => inferInstanceAs (Decidable (_ ∧ _))
  | .encChange | .hostSync => inferInstanceAs (Decidable (Guarded _ _ _ _))
  | .tick | .probeDown _ | .hidUp _ _ | .linkDown _ | .synced _ | .unsynced | .wipe
  | .setTimeout _ | .pairingStart _ | .pairingCancel | .bondStore _ | .revoke _ _
  | .scanRestart => isTrue trivial

section Run

variable {ble : Ble} {radio : Radio}

theorem Linked.presencePreallocateBonded {links : List Link} (linked : Linked ble.presence links)
    (tracked : Guarded Ble.preallocateBond
      (fun next bond => next.Allocates bond → bond.addr ∉ links.map Link.peer) ble ble.bonds) :
    Linked ble.presencePreallocateBonded.presence links :=
  run_invariant (fun next : Ble => Linked next.presence links)
    (fun _ _ kept unlinked => kept.preallocateBond unlinked) linked tracked

theorem Linked.perform (linked : Linked ble.presence ble.links) {event : BleEvent}
    (reports : ble.Reports event) (tracks : ble.KeepsTrack event) :
    Linked (ble.perform radio event).presence (ble.perform radio event).links := by
  cases event with
  | adv addr =>
      have kept := linked.presenceSeenAddr tracks
      rwa [← presenceSeenAddr_links ble addr] at kept
  | tick =>
      have kept := linked.presenceTickCb radio
      rwa [← presenceTickCb_links radio ble] at kept
  | probeUp connect handle =>
      have moved : Linked ((ble.connectEnds connect).linkUp
          ⟨handle, connect.peer, some connect.slot⟩).presence ble.links := linked
      rw [Ble.perform, probeConnected_links]
      exact moved.probeConnected reports.2 tracks
  | probeDown connect =>
      have moved : Linked (ble.connectEnds connect).presence ble.links := linked
      exact moved.probeFailed
  | hidUp handle peer =>
      have moved : Linked (ble.linkUp ⟨handle, peer, none⟩).presence ble.links := linked
      rw [Ble.perform, gapConnected_links]
      exact moved.gapConnected reports
  | linkDown link =>
      obtain ⟨handle, peer, owner⟩ := link
      have moved : Linked (ble.linkDown ⟨handle, peer, owner⟩).presence ble.links := linked
      cases owner with
      | some index =>
          have left : (ble.perform radio (.linkDown ⟨handle, peer, some index⟩)).links =
              ble.links.erase ⟨handle, peer, some index⟩ := probeDisconnected_links _ _ _
          rw [left]
          exact moved.probeDisconnected reports
      | none =>
          have left : (ble.perform radio (.linkDown ⟨handle, peer, none⟩)).links =
              ble.links.erase ⟨handle, peer, none⟩ := gapDisconnected_links _ _
          rw [left]
          exact moved.gapDisconnected reports
  | synced epoch => exact linked
  | unsynced => exact linked
  | wipe => exact linked.wipeEvents
  | setTimeout seconds => exact linked
  | pairingStart ttlMs => exact linked
  | pairingCancel => exact linked
  | bondStore bonds => exact linked
  | encChange =>
      have kept := linked.presencePreallocateBonded tracks
      rwa [← presencePreallocateBonded_links ble] at kept
  | hostSync =>
      have kept := linked.presencePreallocateBonded tracks
      rwa [← presencePreallocateBonded_links ble] at kept
  | revoke addr deleted =>
      have kept := linked.bondRevoke addr deleted
      rwa [← bondRevoke_links ble addr deleted] at kept
  | scanRestart => exact linked

/-- A probe that finds its slot unchanged touches no slot of another peer. -/
theorem probeUp_others (distinct : ble.presence.Distinct) {connect : Connect}
    (holds : ble.presence.Holds connect.slot connect.peer) (handle : Nat)
    {index : Fin presenceMax} (other : (ble.presence index).addr ≠ connect.peer) :
    (ble.perform radio (.probeUp connect handle)).presence index = ble.presence index := by
  have apart : index ≠ connect.slot := by
    rintro rfl
    exact other holds.2
  set marked := ((ble.connectEnds connect).linkUp
    ⟨handle, connect.peer, some connect.slot⟩).setSlot connect.slot
      { ble.presence connect.slot with
        probeHandle := handle, connected := true, probing := false }
  have keeps (number : Fin presenceMax) (addr : Addr) :
      marked.presence.Holds number addr ↔ ble.presence.Holds number addr :=
    holds_update_same rfl rfl
  have unwritten : marked.presence index = ble.presence index := Function.update_of_ne apart _ _
  show (marked.presenceSeenAddr (ble.presence connect.slot).addr).presence index = _
  rcases marked.presenceSeenAddr_cases (ble.presence connect.slot).addr with
    same | ⟨seen, held, same⟩ | ⟨_, _, _, unheld, _⟩
  · rw [same, unwritten]
  · rw [holds.2] at held
    obtain rfl := distinct seen connect.slot _ ((keeps _ _).mp held) holds
    rw [same, Ble.presence_acknowledge_of_ne apart]
    exact (Function.update_of_ne apart _ _).trans unwritten
  · exact absurd ((keeps _ _).mpr ⟨holds.1, rfl⟩) (unheld connect.slot)

/-- As long as no slot is taken for a peer whose link is up and every probe that connects
finds its slot still holding its peer, a used slot is marked connected exactly when its
peer has a live link, and a probe of one peer marks no slot of another. -/
theorem connected_tracksLinks (radio : Radio) (startUs : Nat) (timeout : PresenceTimeout)
    (log : List PeerEvent) (actions : List BleAction)
    (guarded : Guarded (Ble.step radio)
      (Ble.Meets fun ble event => ble.Reports event ∧ ble.KeepsTrack event)
      (Ble.boot startUs timeout log) actions)
    (reached : Ble) (isReached : run (Ble.step radio) (Ble.boot startUs timeout log) actions =
      reached) :
    (∀ index, (reached.presence index).used = true →
      ((reached.presence index).connected = true ↔
        ∃ link ∈ reached.links, link.peer = (reached.presence index).addr)) ∧
    ∀ connect handle, reached.Reports (.probeUp connect handle) →
      reached.KeepsTrack (.probeUp connect handle) →
      ∀ index, (reached.presence index).addr ≠ connect.peer →
        (reached.perform radio (.probeUp connect handle)).presence index =
          reached.presence index := by
  have linked : Linked reached.presence reached.links := by
    rw [← isReached]
    refine run_invariant (fun ble : Ble => Linked ble.presence ble.links) ?_
      Linked.cleared guarded
    intro ble action linked met
    have waited : Linked (ble.wait action.elapsedUs).presence
        (ble.wait action.elapsedUs).links := linked
    exact waited.perform met.1 met.2
  refine ⟨fun index used => ?_, fun connect handle _ holds index other =>
    probeUp_others linked.distinct holds handle other⟩
  rw [linked.connected index _ (holds_self used), List.mem_map]

end Run

section Runs

/-- A bonded phone is probed and connects, its link goes down, and it connects by itself. -/
def bondedVisit : List BleAction :=
  [⟨0, .bondStore [⟨phone, .publicAddr⟩]⟩, ⟨0, .hostSync⟩, ⟨1000000, .tick⟩,
    ⟨500000, .probeUp ⟨0, phone, .publicId, 1000000⟩ 1⟩, ⟨500000, .tick⟩,
    ⟨0, .linkDown ⟨1, phone, some 0⟩⟩, ⟨1000000, .hidUp 2 phone⟩]

theorem connected_tracksLinks_visit :
    ((run (Ble.step Radio.oneConnect) (Ble.boot 0 .initial []) bondedVisit).presence 0).connected =
      true ↔
    ∃ link ∈ (run (Ble.step Radio.oneConnect) (Ble.boot 0 .initial []) bondedVisit).links,
      link.peer =
        ((run (Ble.step Radio.oneConnect) (Ble.boot 0 .initial []) bondedVisit).presence 0).addr :=
  (connected_tracksLinks Radio.oneConnect 0 .initial [] bondedVisit (by decide +kernel) _ rfl).1 0
    (by decide +kernel)

/-- The phone connects, pairs and is given its slot by the encryption change. -/
def freshPairing : List BleAction :=
  [⟨0, .pairingStart 60000⟩, ⟨1000000, .hidUp 1 phone⟩,
    ⟨1000000, .bondStore [⟨phone, .publicAddr⟩]⟩, ⟨0, .encChange⟩]

/-- A probe is under way when its peer is revoked; the next peer takes the slot. -/
def lateProbe : List BleAction :=
  [⟨0, .bondStore [⟨phone, .publicAddr⟩]⟩, ⟨0, .hostSync⟩, ⟨1000000, .tick⟩,
    ⟨1000000, .revoke phone true⟩, ⟨0, .bondStore [⟨otherPhone, .publicAddr⟩]⟩,
    ⟨1000000, .adv otherPhone⟩, ⟨1000000, .probeUp ⟨0, phone, .publicId, 1000000⟩ 1⟩]

/-- After the pairing the slot of the phone is not marked although its link is up; after
the late result the slot of the other phone is marked without a link. -/
theorem connected_losesTrack :
    (Guarded (Ble.step Radio.oneConnect) (Ble.Meets Ble.Reports) (Ble.boot 0 .initial [])
        freshPairing ∧
      let reached := run (Ble.step Radio.oneConnect) (Ble.boot 0 .initial []) freshPairing
      reached.presence.Holds 0 phone ∧ (reached.presence 0).connected = false ∧
        ∃ link ∈ reached.links, link.peer = phone) ∧
    Guarded (Ble.step Radio.oneConnect) (Ble.Meets Ble.Reports) (Ble.boot 0 .initial [])
        lateProbe ∧
      let reached := run (Ble.step Radio.oneConnect) (Ble.boot 0 .initial []) lateProbe
      reached.presence.Holds 0 otherPhone ∧ (reached.presence 0).connected = true ∧
        ¬ ∃ link ∈ reached.links, link.peer = otherPhone := by
  decide +kernel

end Runs

end LeanDingdong
