import Dingdong.EventDebounce
import Dingdong.JsonTree
import Dingdong.WorkerRegistry

/-!
`dd_event_latest_for_peers`: one pass over the event log with a tracker for each peer.
Each tracker ends with the latest of its own peer's lines, whatever lies between them.
-/

namespace LeanDingdong

/-- What a line says of its peer. -/
structure PeerReading where
  ts : Int
  monoUs : Int
  type : EventType

namespace PeerReading

/-- `(ts, mono_us)` in lexicographic order. -/
def Before (first second : PeerReading) : Prop :=
  first.ts < second.ts ∨ first.ts = second.ts ∧ first.monoUs < second.monoUs

instance (first second : PeerReading) : Decidable (first.Before second) :=
  inferInstanceAs (Decidable (_ ∨ _ ∧ _))

/-- By the times where both readings have one, else by file order. -/
def later (best : Option PeerReading) (reading : PeerReading) : Option PeerReading :=
  match best with
  | none => some reading
  | some best =>
      if 0 < reading.ts ∧ 0 < best.ts ∧ ¬ best.Before reading then some best else some reading

/-- The latest of a peer's readings. -/
def latest (readings : List PeerReading) : Option PeerReading := readings.foldl later none

end PeerReading

/-- `peer_track_t` -/
structure BulkTrack where
  bestTs : Int
  bestMono : Int
  bestIdx : Nat
  found : Bool
  type : EventType
  addrStr : Bytes

/-- `bulk_ctx_t` -/
structure BulkCtx where
  track : List BulkTrack
  curIdx : Nat

/-- `dd_event_peer_latest_t` -/
structure PeerLatest where
  addr : Addr
  hasEvent : Bool
  type : EventType

namespace BulkTrack

def start (addr : Addr) : BulkTrack where
  bestTs := 0
  bestMono := 0
  bestIdx := 0
  found := false
  type := .evIn
  addrStr := formatMac addr

def newer (track : BulkTrack) (ts monoUs : Int) (curIdx : Nat) : Bool :=
  if !track.found then true
  else if 0 < ts ∧ 0 < track.bestTs then
    track.bestTs < ts ∨ ts = track.bestTs ∧ track.bestMono < monoUs
  else track.bestIdx < curIdx

/-- The reading the tracker holds. -/
def best (track : BulkTrack) : Option PeerReading :=
  if track.found then some ⟨track.bestTs, track.bestMono, track.type⟩ else none

def observe (track : BulkTrack) (ts monoUs : Int) (curIdx : Nat) (type : EventType) : BulkTrack :=
  if track.newer ts monoUs curIdx then
    { track with found := true, bestTs := ts, bestMono := monoUs, bestIdx := curIdx, type := type }
  else track

end BulkTrack

/-- `strcmp(..., "in") == 0 ? DD_EV_IN : DD_EV_OUT` -/
def readType (type : Bytes) : EventType := if cstr type = ascii "in" then .evIn else .evOut

section Pass

variable (parse : Bytes → Option JsonTree)

/-- `bulk_iter_cb`; `parse` is `cJSON_Parse`. -/
def bulkIterCb (line : Bytes) (ctx : BulkCtx) : EspErr × BulkCtx :=
  let ctx := { ctx with curIdx := ctx.curIdx + 1 }
  match parse line with
  | none => (.ok, ctx)
  | some json =>
      match json.getText (ascii "peer"), json.getText (ascii "type") with
      | some peer, some type =>
          match ctx.track.findIdx? fun track => track.addrStr = cstr peer with
          | none => (.ok, ctx)
          | some hit =>
              let ts := (json.getInt (ascii "ts")).getD 0
              let mono := (json.getInt (ascii "mono_us")).getD 0
              (.ok, { ctx with
                track := ctx.track.modify hit fun track =>
                  track.observe ts mono ctx.curIdx (readType type) })
      | _, _ => (.ok, ctx)

def PeerLatest.answer (peer : PeerLatest) (track : BulkTrack) : PeerLatest :=
  { peer with hasEvent := track.found, type := track.type }

def BulkCtx.start (peers : List PeerLatest) : BulkCtx where
  track := peers.map fun peer => BulkTrack.start peer.addr
  curIdx := 0

/-- `dd_event_latest_for_peers`; the list is the caller's array, filled in. -/
def eventLatestForPeers (peers : List PeerLatest) (store : Store) : EspErr × List PeerLatest :=
  if peers = [] then (.invalidArg, peers)
  else
    let asked := peers.take 8
    let ctx := (eventIter (bulkIterCb parse) (BulkCtx.start asked) store).2
    (.ok, List.zipWith PeerLatest.answer asked ctx.track ++ peers.drop 8)

/-- What a pass over some lines answers for some peers. -/
def passOver (peers : List PeerLatest) (lines : List Bytes) : List PeerLatest :=
  List.zipWith PeerLatest.answer peers
    (callEach (bulkIterCb parse) lines (BulkCtx.start peers)).2.track

/-- The reading of a line for a peer: the line is parsed, names the peer and has a type. -/
def readingOf (addr : Addr) (line : Bytes) : Option PeerReading :=
  match parse line with
  | none => none
  | some json =>
      match json.getText (ascii "peer"), json.getText (ascii "type") with
      | some peer, some type =>
          if cstr peer = formatMac addr then
            some
              { ts := (json.getInt (ascii "ts")).getD 0
                monoUs := (json.getInt (ascii "mono_us")).getD 0
                type := readType type }
          else none
      | _, _ => none

/-- A peer's own lines. -/
def ownLines (addr : Addr) (lines : List Bytes) : List Bytes :=
  lines.filter fun line => (readingOf parse addr line).isSome

/-- What a peer's lines say, in file order. -/
def readingsOf (addr : Addr) (lines : List Bytes) : List PeerReading :=
  lines.filterMap (readingOf parse addr)

end Pass

/-- The tracker of a peer after some of its readings, at a line of the log. -/
structure BulkTrack.Follows (track : BulkTrack) (addr : Addr) (readings : List PeerReading)
    (curIdx : Nat) : Prop where
  addrStr : track.addrStr = formatMac addr
  within : track.bestIdx ≤ curIdx
  blank : track.found = false → track.type = .evIn
  best : track.best = PeerReading.latest readings

namespace BulkTrack.Follows

variable {track : BulkTrack} {addr : Addr} {readings : List PeerReading} {curIdx : Nat}

theorem start (addr : Addr) : (BulkTrack.start addr).Follows addr [] 0 :=
  ⟨rfl, le_rfl, fun _ => rfl, rfl⟩

theorem skip (follows : track.Follows addr readings curIdx) :
    track.Follows addr readings (curIdx + 1) :=
  ⟨follows.addrStr, follows.within.trans (Nat.le_succ _), follows.blank, follows.best⟩

theorem observe (follows : track.Follows addr readings curIdx) (reading : PeerReading) :
    (track.observe reading.ts reading.monoUs (curIdx + 1) reading.type).Follows addr
      (readings ++ [reading]) (curIdx + 1) := by
  have next : PeerReading.latest (readings ++ [reading]) = PeerReading.later track.best reading := by
    rw [PeerReading.latest, List.foldl_append, follows.best]
    rfl
  have behind : track.bestIdx < curIdx + 1 := Nat.lt_succ_of_le follows.within
  cases found : track.found with
  | false =>
      have taken : track.newer reading.ts reading.monoUs (curIdx + 1) = true := by
        simp [BulkTrack.newer, found]
      rw [BulkTrack.observe, if_pos taken]
      refine ⟨follows.addrStr, le_rfl, fun unfound => (Bool.false_ne_true unfound.symm).elim, ?_⟩
      rw [next, BulkTrack.best, BulkTrack.best, found]
      rfl
  | true =>
      have held : track.best = some ⟨track.bestTs, track.bestMono, track.type⟩ := by
        rw [BulkTrack.best, found]
        rfl
      rw [held, PeerReading.later] at next
      by_cases stays : 0 < reading.ts ∧ 0 < track.bestTs ∧
          ¬ PeerReading.Before ⟨track.bestTs, track.bestMono, track.type⟩ reading
      · have kept : track.newer reading.ts reading.monoUs (curIdx + 1) = false := by
          obtain ⟨timed, bestTimed, early⟩ := stays
          rw [BulkTrack.newer, found, if_neg (by decide), if_pos ⟨timed, bestTimed⟩,
            decide_eq_false_iff_not]
          rintro (greater | ⟨same, greater⟩)
          · exact early (.inl greater)
          · exact early (.inr ⟨same.symm, greater⟩)
        rw [if_pos stays] at next
        rw [BulkTrack.observe, kept, if_neg Bool.false_ne_true]
        exact ⟨follows.addrStr, behind.le, follows.blank, held.trans next.symm⟩
      · have taken : track.newer reading.ts reading.monoUs (curIdx + 1) = true := by
          rw [BulkTrack.newer, found, if_neg (by decide)]
          split_ifs with timed
          · rw [decide_eq_true_iff]
            have before := not_not.mp fun early => stays ⟨timed.1, timed.2, early⟩
            rcases before with greater | ⟨same, greater⟩
            · exact .inl greater
            · exact .inr ⟨same.symm, greater⟩
          · exact decide_eq_true behind
        rw [if_neg stays] at next
        rw [BulkTrack.observe, if_pos taken]
        exact ⟨follows.addrStr, le_rfl, fun unfound => (Bool.false_ne_true unfound.symm).elim,
          next.symm⟩

end BulkTrack.Follows

section Independence

variable {parse : Bytes → Option JsonTree} {ctx : BulkCtx} {addrs : List Addr} {past : List Bytes}

theorem formatMac_injective : Function.Injective formatMac := by
  intro first second same
  have back := scanMac_formatMac first
  rw [same, scanMac_formatMac] at back
  exact (Option.some.inj back).symm

theorem readingsOf_snoc (addr : Addr) (line : Bytes) :
    readingsOf parse addr (past ++ [line]) =
      readingsOf parse addr past ++ (readingOf parse addr line).toList := by
  rw [readingsOf, List.filterMap_append]
  cases here : readingOf parse addr line <;> simp [readingsOf, here]

/-- Every peer's tracker follows that peer's readings. -/
def BulkCtx.Follows (ctx : BulkCtx) (parse : Bytes → Option JsonTree) (addrs : List Addr)
    (past : List Bytes) : Prop :=
  List.Forall₂ (fun addr track => track.Follows addr (readingsOf parse addr past) ctx.curIdx)
    addrs ctx.track

theorem BulkCtx.Follows.addrStrs (follows : ctx.Follows parse addrs past) :
    ctx.track.map BulkTrack.addrStr = addrs.map formatMac := by
  have pairs : List.Forall₂ (· = ·) (ctx.track.map BulkTrack.addrStr) (addrs.map formatMac) := by
    rw [List.forall₂_map_left_iff, List.forall₂_map_right_iff]
    exact List.Forall₂.imp (fun _ _ here => here.addrStr) (List.Forall₂.flip follows)
  rwa [List.forall₂_eq_eq_eq] at pairs

/-- A line of no peer of the list changes no tracker. -/
theorem BulkCtx.Follows.skip (follows : ctx.Follows parse addrs past) {line : Bytes}
    (silent : ∀ addr ∈ addrs, readingOf parse addr line = none) :
    BulkCtx.Follows { ctx with curIdx := ctx.curIdx + 1 } parse addrs (past ++ [line]) := by
  refine List.Forall₂.imp ?_ ((List.forall₂_and_left addrs ctx.track).mpr ⟨silent, follows⟩)
  rintro addr track ⟨quiet, here⟩
  rw [readingsOf_snoc, quiet, Option.toList_none, List.append_nil]
  exact here.skip

/-- A line with the text of a peer and a reading moves the tracker of that text. -/
theorem BulkCtx.Follows.hit (follows : ctx.Follows parse addrs past) {line peer : Bytes}
    {reading : PeerReading}
    (names : ∀ addr, readingOf parse addr line = if peer = formatMac addr then some reading else none) :
    BulkCtx.Follows
      { track := ctx.track.map fun track =>
          if track.addrStr = peer then
            track.observe reading.ts reading.monoUs (ctx.curIdx + 1) reading.type
          else track
        curIdx := ctx.curIdx + 1 } parse addrs (past ++ [line]) := by
  refine List.forall₂_map_right_iff.mpr (List.Forall₂.imp ?_ follows)
  intro addr track here
  rw [readingsOf_snoc, names, here.addrStr]
  by_cases same : peer = formatMac addr
  · rw [if_pos same, if_pos same.symm]
    exact here.observe reading
  · rw [if_neg same, if_neg fun own => same own.symm, Option.toList_none, List.append_nil]
    exact here.skip

theorem BulkCtx.Follows.step (follows : ctx.Follows parse addrs past) (distinct : addrs.Nodup)
    (line : Bytes) : (bulkIterCb parse line ctx).2.Follows parse addrs (past ++ [line]) := by
  rw [bulkIterCb]
  cases parsed : parse line with
  | none => exact follows.skip fun _ _ => by rw [readingOf, parsed]
  | some json =>
      dsimp only
      cases peerText : json.getText (ascii "peer") with
      | none => exact follows.skip fun _ _ => by simp only [readingOf, parsed, peerText]
      | some peer =>
          cases typeText : json.getText (ascii "type") with
          | none => exact follows.skip fun _ _ => by simp only [readingOf, parsed, peerText, typeText]
          | some type =>
              have names (addr : Addr) : readingOf parse addr line =
                  if cstr peer = formatMac addr then
                    some ⟨(json.getInt (ascii "ts")).getD 0, (json.getInt (ascii "mono_us")).getD 0,
                      readType type⟩
                  else none := by
                simp only [readingOf, parsed, peerText, typeText]
              have moved := follows.hit names
              have nodup : (ctx.track.map BulkTrack.addrStr).Nodup := by
                rw [follows.addrStrs]
                exact distinct.map formatMac_injective
              dsimp only
              split
              · rename_i absent
                rwa [ListTable.map_absent absent] at moved
              · rename_i index found
                rwa [ListTable.map_found nodup found] at moved

theorem bulkIterCb_ok (parse : Bytes → Option JsonTree) (line : Bytes) (ctx : BulkCtx) :
    (bulkIterCb parse line ctx).1 = .ok := by
  rw [bulkIterCb]
  split
  · rfl
  · split
    · split <;> rfl
    · rfl

/-- After a pass every tracker has followed its peer's readings. -/
theorem bulkPass_follows (parse : Bytes → Option JsonTree) {peers : List PeerLatest}
    (distinct : (peers.map PeerLatest.addr).Nodup) (lines : List Bytes) :
    BulkCtx.Follows (callEach (bulkIterCb parse) lines (BulkCtx.start peers)).2 parse
      (peers.map PeerLatest.addr) lines := by
  have pass (past rest : List Bytes) (ctx : BulkCtx)
      (follows : ctx.Follows parse (peers.map PeerLatest.addr) past) :
      (callEach (bulkIterCb parse) rest ctx).2.Follows parse (peers.map PeerLatest.addr)
        (past ++ rest) := by
    induction rest generalizing past ctx with
    | nil =>
        rw [List.append_nil]
        exact follows
    | cons line rest ih =>
        have next := ih (past ++ [line]) (bulkIterCb parse line ctx).2 (follows.step distinct line)
        have ok := bulkIterCb_ok parse line ctx
        rw [List.append_assoc] at next
        rw [callEach]
        rcases called : bulkIterCb parse line ctx with ⟨err, ctx'⟩
        rw [called] at ok next
        obtain rfl : err = .ok := ok
        exact next
  refine pass [] lines (BulkCtx.start peers) ?_
  refine List.forall₂_map_right_iff.mpr (List.forall₂_map_left_iff.mpr ?_)
  exact List.forall₂_same.mpr fun peer _ => BulkTrack.Follows.start peer.addr

end Independence

namespace PeerReading

variable {readings : List PeerReading}

theorem latest_snoc (readings : List PeerReading) (reading : PeerReading) :
    latest (readings ++ [reading]) = later (latest readings) reading :=
  List.foldl_append

theorem latest_isSome : (latest readings).isSome = true ↔ readings ≠ [] := by
  induction readings using List.reverseRecOn with
  | nil => exact ⟨fun some => absurd some Bool.false_ne_true, fun nonempty => absurd rfl nonempty⟩
  | append_singleton past reading _ =>
      refine ⟨fun _ => List.append_ne_nil_of_right_ne_nil _ (List.cons_ne_nil _ _), fun _ => ?_⟩
      rw [latest_snoc]
      cases latest past with
      | none => rfl
      | some best =>
          rw [later]
          split_ifs <;> rfl

theorem not_before_trans {first second third : PeerReading} (not : ¬ first.Before second)
    (before : first.Before third) : second.Before third := by
  simp only [Before] at before not ⊢
  omega

theorem latest_greatest (nonempty : readings ≠ []) (timed : ∀ reading ∈ readings, 0 < reading.ts) :
    ∃ before best after, readings = before ++ best :: after ∧ latest readings = some best ∧
      (∀ reading ∈ before, reading.Before best) ∧ ∀ reading ∈ after, ¬ best.Before reading := by
  induction readings using List.reverseRecOn with
  | nil => exact absurd rfl nonempty
  | append_singleton past reading ih =>
      rcases eq_or_ne past [] with rfl | some
      · exact ⟨[], reading, [], rfl, rfl, fun _ member => absurd member List.not_mem_nil,
          fun _ member => absurd member List.not_mem_nil⟩
      obtain ⟨before, best, after, rfl, found, less, most⟩ := ih some fun other member =>
        timed other (List.mem_append_left _ member)
      have bestTimed : 0 < best.ts := timed best (by simp)
      have readingTimed : 0 < reading.ts := timed reading (by simp)
      rw [latest_snoc, found, later]
      by_cases newer : best.Before reading
      · rw [if_neg fun stays => stays.2.2 newer]
        refine ⟨before ++ best :: after, reading, [], rfl, rfl, fun other member => ?_,
          fun _ member => absurd member List.not_mem_nil⟩
        rcases List.mem_append.mp member with early | late
        · have step := less other early
          simp only [Before] at step newer ⊢
          omega
        · rcases List.mem_cons.mp late with rfl | after
          · exact newer
          · exact not_before_trans (most other after) newer
      · rw [if_pos ⟨readingTimed, bestTimed, newer⟩]
        refine ⟨before, best, after ++ [reading], by simp, rfl, less, fun other member => ?_⟩
        rcases List.mem_append.mp member with old | new
        · exact most other old
        · rwa [List.mem_singleton.mp new]

theorem latest_last (ordered : (readings.filter fun reading => 0 < reading.ts).Pairwise Before) :
    latest readings = readings.getLast? := by
  induction readings using List.reverseRecOn with
  | nil => rfl
  | append_singleton past reading ih =>
      rw [List.filter_append, List.pairwise_append] at ordered
      rw [latest_snoc, ih ordered.1, List.getLast?_concat]
      cases last : past.getLast? with
      | none => rfl
      | some best =>
          rw [later]
          refine if_neg fun stays => stays.2.2 ?_
          have bestListed : best ∈ past.filter fun reading => 0 < reading.ts :=
            List.mem_filter.mpr ⟨List.mem_of_getLast? last, decide_eq_true stays.2.1⟩
          have readingListed : reading ∈ [reading].filter fun reading => 0 < reading.ts :=
            List.mem_filter.mpr ⟨List.mem_singleton.mpr rfl, decide_eq_true stays.1⟩
          exact ordered.2.2 best bestListed reading readingListed

end PeerReading

section Answers

variable {parse : Bytes → Option JsonTree} {peers : List PeerLatest}

/-- The answer of the latest reading; `type` is 0 without one. -/
def PeerLatest.fill (peer : PeerLatest) (latest : Option PeerReading) : PeerLatest :=
  { peer with
    hasEvent := latest.isSome
    type := (latest.map PeerReading.type).getD .evIn }

theorem BulkTrack.Follows.answer {track : BulkTrack} {readings : List PeerReading} {curIdx : Nat}
    {peer : PeerLatest} (follows : track.Follows peer.addr readings curIdx) :
    peer.answer track = peer.fill (PeerReading.latest readings) := by
  rw [← follows.best, PeerLatest.answer, PeerLatest.fill, BulkTrack.best]
  cases found : track.found with
  | false =>
      rw [follows.blank found]
      rfl
  | true => rfl

theorem passOver_eq (distinct : (peers.map PeerLatest.addr).Nodup) (lines : List Bytes) :
    passOver parse peers lines = peers.map fun peer =>
      peer.fill (PeerReading.latest (readingsOf parse peer.addr lines)) := by
  have follows := bulkPass_follows parse distinct lines
  rw [BulkCtx.Follows, List.forall₂_map_left_iff] at follows
  rw [passOver]
  clear distinct
  generalize (callEach (bulkIterCb parse) lines (BulkCtx.start peers)).2 = ctx at follows ⊢
  obtain ⟨tracks, curIdx⟩ := ctx
  dsimp only at follows ⊢
  induction follows with
  | nil => rfl
  | cons here _ ih => rw [List.zipWith_cons_cons, List.map_cons, here.answer, ih]

theorem readingsOf_own (addr : Addr) (lines : List Bytes) :
    readingsOf parse addr (ownLines parse addr lines) = readingsOf parse addr lines := by
  rw [readingsOf, ownLines, List.filterMap_filter]
  refine List.filterMap_congr fun line _ => ?_
  cases here : readingOf parse addr line <;> rfl

theorem fill_hasEvent (peer : PeerLatest) (lines : List Bytes) :
    (peer.fill (PeerReading.latest (readingsOf parse peer.addr lines))).hasEvent = true ↔
      ∃ line ∈ lines, (readingOf parse peer.addr line).isSome = true := by
  have found : (peer.fill (PeerReading.latest (readingsOf parse peer.addr lines))).hasEvent = true ↔
      readingsOf parse peer.addr lines ≠ [] := PeerReading.latest_isSome
  rw [found, ne_eq, readingsOf, List.filterMap_eq_nil_iff]
  simp only [Option.isSome_iff_ne_none, not_forall]
  constructor
  · rintro ⟨line, inside, some⟩
    exact ⟨line, inside, some⟩
  · rintro ⟨line, inside, some⟩
    exact ⟨line, inside, some⟩

theorem fill_greatest (peer : PeerLatest) {readings : List PeerReading} (nonempty : readings ≠ [])
    (timed : ∀ reading ∈ readings, 0 < reading.ts) :
    ∃ before best after, readings = before ++ best :: after ∧
      (peer.fill (PeerReading.latest readings)).type = best.type ∧
        (∀ reading ∈ before, reading.Before best) ∧ ∀ reading ∈ after, ¬ best.Before reading := by
  obtain ⟨before, best, after, split, found, rest⟩ := PeerReading.latest_greatest nonempty timed
  refine ⟨before, best, after, split, ?_, rest⟩
  rw [PeerLatest.fill, found]
  rfl

theorem fill_last (peer : PeerLatest) {readings : List PeerReading}
    (ordered : (readings.filter fun reading => 0 < reading.ts).Pairwise PeerReading.Before)
    (last : PeerReading) (ends : readings.getLast? = some last) :
    (peer.fill (PeerReading.latest readings)).type = last.type := by
  rw [PeerLatest.fill, PeerReading.latest_last ordered, ends]
  rfl

/-- With eight peers at most the lookup is one pass over the lines of the file. -/
theorem eventLatestForPeers_pass (few : peers.length ≤ 8) (store : Store) :
    (eventLatestForPeers parse peers store).2 = passOver parse peers (iterLines store.file) := by
  rw [eventLatestForPeers]
  split_ifs with empty
  · rw [empty]
    rfl
  · dsimp only
    rw [List.take_of_length_le few, List.drop_of_length_le few, List.append_nil, eventIter_lines]
    rfl

/-- Each of up to eight peers is answered as by a pass over its own lines alone: it has an
event when it has a line, the type is that of the first of the greatest `(ts, mono_us)` when
all its lines have a time, and of the last when those with a time come in order. -/
theorem latestForPeers_own (parse : Bytes → Option JsonTree) (peers : List PeerLatest)
    (few : peers.length ≤ 8) (distinct : (peers.map PeerLatest.addr).Nodup) (store : Store) :
    let lines := iterLines store.file
    let answers := (eventLatestForPeers parse peers store).2
    (answers = peers.flatMap fun peer => passOver parse [peer] (ownLines parse peer.addr lines)) ∧
    answers.map PeerLatest.addr = peers.map PeerLatest.addr ∧
    ∀ answer ∈ answers,
      let readings := readingsOf parse answer.addr lines
      (answer.hasEvent = true ↔ ∃ line ∈ lines, (readingOf parse answer.addr line).isSome = true) ∧
      (readings ≠ [] → (∀ reading ∈ readings, 0 < reading.ts) →
        ∃ before best after, readings = before ++ best :: after ∧ answer.type = best.type ∧
          (∀ reading ∈ before, reading.Before best) ∧ ∀ reading ∈ after, ¬ best.Before reading) ∧
      ((readings.filter fun reading => 0 < reading.ts).Pairwise PeerReading.Before →
        ∀ last, readings.getLast? = some last → answer.type = last.type) := by
  intro lines answers
  have filled : answers = peers.map fun peer =>
      peer.fill (PeerReading.latest (readingsOf parse peer.addr lines)) :=
    (eventLatestForPeers_pass few store).trans (passOver_eq distinct lines)
  refine ⟨?_, ?_, ?_⟩
  · have alone (peer : PeerLatest) : passOver parse [peer] (ownLines parse peer.addr lines) =
        [peer.fill (PeerReading.latest (readingsOf parse peer.addr lines))] := by
      have single : ([peer].map PeerLatest.addr).Nodup := List.nodup_singleton peer.addr
      rw [passOver_eq single, List.map_singleton, readingsOf_own]
    rw [filled]
    simp only [alone]
    exact List.map_eq_flatMap
  · rw [filled, List.map_map]
    rfl
  · rw [filled]
    intro answer member
    obtain ⟨peer, _, rfl⟩ := List.mem_map.mp member
    exact ⟨fill_hasEvent peer lines, fill_greatest peer, fill_last peer⟩

/-- Two peers to ask for. -/
def askedPeers : List PeerLatest := [⟨Addr.zero, false, .evIn⟩, ⟨⟨1, 2, 3, 4, 5, 6⟩, false, .evIn⟩]

/-- An IN with a time, and an OUT from before the clock was set. -/
def mixedLog : Store where
  events := some (ascii "\x7b\"ts\":9,\"type\":\"in\",\"peer\":\"00:00:00:00:00:00\"\x7d\n" ++
    ascii "\x7b\"ts\":0,\"type\":\"out\",\"peer\":\"00:00:00:00:00:00\"\x7d\n")
  eventCount := 2

theorem latestForPeers_own_mixed :
    let answers := (eventLatestForPeers plainCodec.parse askedPeers mixedLog).2
    answers.map PeerLatest.hasEvent = [true, false] ∧ answers.map PeerLatest.type = [.evOut, .evIn] ∧
      answers = askedPeers.flatMap fun peer =>
        passOver plainCodec.parse [peer]
          (ownLines plainCodec.parse peer.addr (iterLines mixedLog.file)) :=
  ⟨by decide +kernel, by decide +kernel,
    (latestForPeers_own plainCodec.parse askedPeers (by decide) (by decide) mixedLog).1⟩

/-- What a record of the log says of the peer. -/
def PeerEvent.reading (addr : Addr) (line : PeerEvent) : Option PeerReading :=
  if line.peer = some addr then some ⟨line.ts, line.monoUs, line.type⟩ else none

/-- The lookup on the log of records is the same choice among the peer's readings. -/
theorem latestForPeer_latest (log : List PeerEvent) (addr : Addr) :
    latestForPeer log addr =
      (PeerReading.latest (log.filterMap (PeerEvent.reading addr))).map PeerReading.type := by
  have same : (log.foldl (latestStep addr) none).map (fun track : PeerTrack =>
      (⟨track.bestTs, track.bestMono, track.type⟩ : PeerReading)) =
        PeerReading.latest (log.filterMap (PeerEvent.reading addr)) := by
    induction log using List.reverseRecOn with
    | nil => rfl
    | append_singleton past line ih =>
        rw [List.foldl_append, List.foldl_cons, List.foldl_nil, List.filterMap_append, latestStep]
        by_cases own : line.peer = some addr
        · have reading : [line].filterMap (PeerEvent.reading addr) =
              [⟨line.ts, line.monoUs, line.type⟩] := by
            simp [PeerEvent.reading, own]
          rw [if_neg (not_not.mpr own), reading, PeerReading.latest_snoc, ← ih]
          cases past.foldl (latestStep addr) none with
          | none => rfl
          | some best =>
              have agree : (0 < (line.ts : Int) ∧ 0 < (best.bestTs : Int) ∧
                  ¬ PeerReading.Before ⟨best.bestTs, best.bestMono, best.type⟩
                    ⟨line.ts, line.monoUs, line.type⟩) ↔
                  (0 < line.ts ∧ 0 < best.bestTs) ∧ ¬ (best.bestTs < line.ts ∨
                    line.ts = best.bestTs ∧ best.bestMono < line.monoUs) := by
                simp only [PeerReading.Before]
                omega
              rw [Option.map_some, PeerReading.later, if_congr agree rfl rfl]
              dsimp only
              by_cases timed : 0 < line.ts ∧ 0 < best.bestTs
              · by_cases newer : best.bestTs < line.ts ∨
                    line.ts = best.bestTs ∧ best.bestMono < line.monoUs
                · rw [if_pos timed, if_pos newer, if_neg fun stays => stays.2 newer]
                  rfl
                · rw [if_pos timed, if_neg newer, if_pos ⟨timed, newer⟩]
                  rfl
              · rw [if_neg timed, if_neg fun stays => timed stays.1]
                rfl
        · have reading : [line].filterMap (PeerEvent.reading addr) = [] := by
            simp [PeerEvent.reading, own]
          rw [if_pos own, reading, List.append_nil, ih]
  rw [latestForPeer, ← same, Option.map_map]
  rfl

end Answers

end LeanDingdong
