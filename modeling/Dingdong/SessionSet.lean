import Mathlib.Data.Fintype.Card
import Dingdong.Runs
import Dingdong.SessionCore

/-!
The four slots as a set of sessions. A run keeps notes of what was created, destroyed,
wiped and evicted; a token is valid just as long as its creation stands and is not older
than the TTL.
-/

namespace LeanDingdong

open Runs

inductive SessionNote where
  | created (token : SessionToken) (atUs : Nat)
  | destroyed (token : Bytes)
  | wiped
  /-- a creation took the slot of the token while it was valid -/
  | evicted (token : SessionToken)

/-- The note ends the session of the token. -/
def SessionNote.Ends (token : SessionToken) : SessionNote → Prop
  | .created _ _ => False
  | .destroyed gone => gone = token.bytes
  | .wiped => True
  | .evicted gone => gone = token

/-- The token was created at that time, and nothing noted since ends it. -/
def Standing (history : List SessionNote) (token : SessionToken) (atUs : Nat) : Prop :=
  ∃ newer older, history = newer ++ .created token atUs :: older ∧ ∀ note ∈ newer, ¬ note.Ends token

section Notes

variable {history : List SessionNote} {token : SessionToken} {atUs : Nat} {note : SessionNote}

theorem Standing.created (history : List SessionNote) (token : SessionToken) (atUs : Nat) :
    Standing (.created token atUs :: history) token atUs :=
  ⟨[], history, rfl, by simp⟩

theorem Standing.later (standing : Standing history token atUs) (kept : ¬ note.Ends token) :
    Standing (note :: history) token atUs := by
  obtain ⟨newer, older, rfl, still⟩ := standing
  refine ⟨note :: newer, older, rfl, ?_⟩
  intro other member
  rcases List.mem_cons.mp member with rfl | rest
  · exact kept
  · exact still other rest

theorem Standing.earlier (standing : Standing (note :: history) token atUs) :
    note = .created token atUs ∨ ¬ note.Ends token ∧ Standing history token atUs := by
  obtain ⟨newer, older, split, still⟩ := standing
  cases newer with
  | nil => exact .inl (List.cons.inj split).1
  | cons first newer =>
      obtain ⟨rfl, rest⟩ := List.cons.inj split
      exact .inr ⟨still note (by simp), newer, older, rest,
        fun other member => still other (List.mem_cons_of_mem _ member)⟩

end Notes

namespace Sessions

variable {sessions : Sessions} {nowUs : Nat}

/-- The token a creation would drop while it is valid. -/
def evicted (sessions : Sessions) (nowUs : Nat) : Option SessionToken :=
  match sessions (sessions.findSlot nowUs) with
  | some slot => if nowUs < slot.expiresUs then some slot.token else none
  | none => none

theorem evicted_iff {token : SessionToken} :
    sessions.evicted nowUs = some token ↔
      ∃ slot, sessions (sessions.findSlot nowUs) = some slot ∧ nowUs < slot.expiresUs ∧
        slot.token = token := by
  rw [evicted]
  cases sessions (sessions.findSlot nowUs) with
  | none => simp
  | some slot => simp

theorem destroy_cases (sessions : Sessions) (token : Bytes) :
    (∃ index held, sessions index = some held ∧ held.token.bytes = compared token ∧
      sessions.destroy token = Function.update sessions index none) ∨
    (∀ index held, sessions index = some held → held.token.bytes ≠ compared token) ∧
      sessions.destroy token = sessions := by
  rw [destroy]
  cases found : SlotTable.first fun index =>
      (sessions index).any fun slot => slot.token.bytes = compared token with
  | some index =>
      obtain ⟨held, member, same⟩ := (Option.any_eq_true _ _).mp (SlotTable.first_passes found)
      rw [decide_eq_true_iff] at same
      exact .inl ⟨index, held, member, same, rfl⟩
  | none =>
      refine .inr ⟨fun index held here same => ?_, rfl⟩
      have := SlotTable.first_none.mp found index
      simp [here, same] at this

/-- The search for the least keeps the least of what it has seen. -/
theorem foldl_least (value : Fin maxSessions → Nat) (slots : List (Fin maxSessions))
    (start : Fin maxSessions) :
    let least := slots.foldl (fun oldest index =>
      if value index < value oldest then index else oldest) start
    value least ≤ value start ∧ ∀ index ∈ slots, value least ≤ value index := by
  induction slots generalizing start with
  | nil => simp
  | cons first slots ih =>
      obtain ⟨fromStart, fromRest⟩ := ih (if value first < value start then first else start)
      rw [List.foldl_cons]
      refine ⟨?_, ?_⟩
      · refine fromStart.trans ?_
        split_ifs with less
        · exact less.le
        · exact le_rfl
      · intro index member
        rcases List.mem_cons.mp member with rfl | rest
        · refine fromStart.trans ?_
          split_ifs with less
          · exact le_rfl
          · exact not_lt.mp less
        · exact fromRest index rest

/-- A slot that is taken while it is valid expires first, and every other is valid too. -/
theorem findSlot_least {slot : SessionSlot} (found : sessions (sessions.findSlot nowUs) = some slot)
    (live : nowUs < slot.expiresUs) (index : Fin maxSessions) :
    slot.expiresUs ≤ sessions.expiresUs index := by
  have expires : sessions.expiresUs (sessions.findSlot nowUs) = slot.expiresUs := by
    rw [expiresUs, found]
    rfl
  rw [← expires]
  cases free : SlotTable.first fun index =>
      sessions.expiresUs index = 0 ∨ sessions.expiresUs index < nowUs with
  | some first =>
      have passes := SlotTable.first_passes free
      have chosen : sessions.findSlot nowUs = first := by rw [findSlot, free, Option.getD_some]
      rw [decide_eq_true_eq, ← chosen, expires] at passes
      omega
  | none =>
      rw [findSlot, free, Option.getD_none]
      exact (foldl_least sessions.expiresUs (List.finRange maxSessions) 0).2 index
        (List.mem_finRange index)

theorem valid_length {tokens : List SessionToken} (nodup : tokens.Nodup)
    (valid : ∀ token ∈ tokens, sessions.isValid token.bytes nowUs = true) :
    tokens.length ≤ maxSessions := by
  have placed (token : SessionToken) : ∃ index, token ∈ tokens →
      ∃ slot, sessions index = some slot ∧ slot.token = token := by
    by_cases member : token ∈ tokens
    · obtain ⟨index, slot, found, _, same⟩ := isValid_iff.mp (valid token member)
      exact ⟨index, fun _ => ⟨slot, found, SessionToken.bytes_inj.mp same⟩⟩
    · exact ⟨0, fun inside => absurd inside member⟩
  choose place isPlaced using placed
  have distinct : (tokens.map place).Nodup := by
    refine nodup.map_on fun first firstIn second secondIn same => ?_
    obtain ⟨slot, found, rfl⟩ := isPlaced first firstIn
    obtain ⟨other, foundOther, rfl⟩ := isPlaced second secondIn
    rw [same, foundOther] at found
    rw [Option.some.inj found]
  simpa using distinct.length_le_card

end Sessions

inductive SessionOp where
  | create (random : Blob 32)
  | destroy (token : Bytes)
  | destroyAll
  | isValid (token : Bytes)

/-- A call after some time without one. -/
structure SessionAction where
  elapsedUs : Nat
  op : SessionOp

structure SessionRun where
  sessions : Sessions
  nowUs : Nat
  /-- the newest note first -/
  history : List SessionNote

namespace SessionRun

/-- After `dd_session_init`. -/
def start : SessionRun := { sessions := Sessions.blank, nowUs := 0, history := [] }

def step (current : SessionRun) (action : SessionAction) : SessionRun :=
  let nowUs := current.nowUs + action.elapsedUs
  match action.op with
  | .create random =>
      let created := current.sessions.create random nowUs
      let dropped := (current.sessions.evicted nowUs).toList.map SessionNote.evicted
      { sessions := created.2
        nowUs := nowUs
        history := .created created.1 nowUs :: (dropped ++ current.history) }
  | .destroy token =>
      { sessions := current.sessions.destroy token
        nowUs := nowUs
        history := .destroyed (Sessions.compared token) :: current.history }
  | .destroyAll =>
      { sessions := current.sessions.destroyAll
        nowUs := nowUs
        history := .wiped :: current.history }
  | .isValid _ => { current with nowUs := nowUs }

/-- The tokens created so far. -/
def tokens (current : SessionRun) : List SessionToken :=
  current.history.filterMap fun note =>
    match note with
    | .created token _ => some token
    | _ => none

/-- A creation gets a token none before it got. -/
def Fresh (current : SessionRun) (action : SessionAction) : Prop :=
  match action.op with
  | .create random => SessionToken.ofRandom random ∉ current.tokens
  | _ => True

instance decidableFresh (current : SessionRun) :
    ∀ action : SessionAction, Decidable (current.Fresh action)
  | ⟨_, .create random⟩ =>
      inferInstanceAs (Decidable (SessionToken.ofRandom random ∉ current.tokens))
  | ⟨_, .destroy _⟩ | ⟨_, .destroyAll⟩ | ⟨_, .isValid _⟩ => isTrue trivial

theorem mem_tokens {current : SessionRun} {token : SessionToken} {atUs : Nat}
    (standing : Standing current.history token atUs) : token ∈ current.tokens := by
  obtain ⟨newer, older, split, _⟩ := standing
  refine List.mem_filterMap.mpr ⟨.created token atUs, ?_, rfl⟩
  rw [split]
  simp

/-- The slots hold just the sessions that stand, as long as they are not expired. -/
structure Agrees (current : SessionRun) : Prop where
  held : ∀ index slot, current.sessions index = some slot →
    ∃ atUs, slot.expiresUs = atUs + ttlUsec ∧ Standing current.history slot.token atUs
  listed : ∀ token atUs, Standing current.history token atUs → current.nowUs < atUs + ttlUsec →
    ∃ index, current.sessions index = some { token := token, expiresUs := atUs + ttlUsec }
  apart : ∀ first second slot other, current.sessions first = some slot →
    current.sessions second = some other → slot.token = other.token → first = second

namespace Agrees

variable {current : SessionRun}

theorem start : SessionRun.start.Agrees where
  held _ _ found := by cases found
  listed _ _ standing := by
    obtain ⟨newer, older, split, _⟩ := standing
    cases newer with
    | nil => cases split
    | cons => cases split
  apart _ _ _ _ found := by cases found

theorem create (agrees : current.Agrees) {random : Blob 32} {elapsedUs : Nat}
    (fresh : SessionToken.ofRandom random ∉ current.tokens) :
    (current.step ⟨elapsedUs, .create random⟩).Agrees := by
  set nowUs := current.nowUs + elapsedUs with isNow
  set token := SessionToken.ofRandom random with isToken
  set chosen := current.sessions.findSlot nowUs with isChosen
  set dropped := (current.sessions.evicted nowUs).toList.map SessionNote.evicted with isDropped
  have sessions : (current.step ⟨elapsedUs, .create random⟩).sessions =
      Function.update current.sessions chosen
        (some { token := token, expiresUs := nowUs + ttlUsec }) := rfl
  have history : (current.step ⟨elapsedUs, .create random⟩).history =
      .created token nowUs :: (dropped ++ current.history) := rfl
  -- a creation ends at most the session in the slot it takes
  have kept {other : SessionToken} {atUs : Nat} (standing : Standing current.history other atUs)
      (safe : current.sessions.evicted nowUs ≠ some other) :
      Standing (.created token nowUs :: (dropped ++ current.history)) other atUs := by
    refine Standing.later ?_ fun ends => ends
    cases evicted : current.sessions.evicted nowUs with
    | none =>
        rw [isDropped, evicted]
        exact standing
    | some gone =>
        rw [isDropped, evicted]
        refine standing.later fun ends => safe ?_
        rw [evicted, show gone = other from ends]
  constructor
  · intro index slot found
    rw [sessions] at found
    rw [history]
    by_cases here : index = chosen
    · rw [here, Function.update_self] at found
      rw [← Option.some.inj found]
      exact ⟨nowUs, rfl, Standing.created _ _ _⟩
    · rw [Function.update_of_ne here] at found
      obtain ⟨atUs, expires, standing⟩ := agrees.held index slot found
      refine ⟨atUs, expires, kept standing fun evicted => here ?_⟩
      obtain ⟨old, foundOld, _, same⟩ := Sessions.evicted_iff.mp evicted
      exact agrees.apart index chosen slot old found foundOld same.symm
  · intro other atUs standing soon
    rw [history] at standing
    rw [sessions]
    rcases standing.earlier with new | ⟨_, standing⟩
    · obtain ⟨rfl, rfl⟩ := SessionNote.created.inj new
      exact ⟨chosen, Function.update_self _ _ _⟩
    · have both : Standing current.history other atUs ∧
          current.sessions.evicted nowUs ≠ some other := by
        cases evicted : current.sessions.evicted nowUs with
        | none =>
            rw [isDropped, evicted] at standing
            exact ⟨standing, by simp⟩
        | some gone =>
            rw [isDropped, evicted] at standing
            rcases standing.earlier with new | ⟨still, standing⟩
            · cases new
            · refine ⟨standing, fun same => still ?_⟩
              exact Option.some.inj same
      have before : current.nowUs < atUs + ttlUsec := lt_of_le_of_lt (Nat.le_add_right _ _) soon
      obtain ⟨index, found⟩ := agrees.listed other atUs both.1 before
      have here : index ≠ chosen := by
        intro here
        rw [here] at found
        exact both.2 (Sessions.evicted_iff.mpr ⟨_, found, soon, rfl⟩)
      exact ⟨index, by rw [Function.update_of_ne here, found]⟩
  · have unknown (index : Fin maxSessions) (slot : SessionSlot)
        (found : current.sessions index = some slot) : slot.token ≠ token := by
      obtain ⟨atUs, _, standing⟩ := agrees.held index slot found
      intro same
      exact fresh (same ▸ mem_tokens standing)
    intro first second slot other foundFirst foundSecond same
    rw [sessions] at foundFirst foundSecond
    by_cases isFirst : first = chosen <;> by_cases isSecond : second = chosen
    · rw [isFirst, isSecond]
    · rw [isFirst, Function.update_self] at foundFirst
      rw [Function.update_of_ne isSecond] at foundSecond
      rw [← Option.some.inj foundFirst] at same
      exact absurd same.symm (unknown second other foundSecond)
    · rw [isSecond, Function.update_self] at foundSecond
      rw [Function.update_of_ne isFirst] at foundFirst
      rw [← Option.some.inj foundSecond] at same
      exact absurd same (unknown first slot foundFirst)
    · rw [Function.update_of_ne isFirst] at foundFirst
      rw [Function.update_of_ne isSecond] at foundSecond
      exact agrees.apart first second slot other foundFirst foundSecond same

theorem destroy (agrees : current.Agrees) (token : Bytes) (elapsedUs : Nat) :
    (current.step ⟨elapsedUs, .destroy token⟩).Agrees := by
  have history : (current.step ⟨elapsedUs, .destroy token⟩).history =
      .destroyed (Sessions.compared token) :: current.history := rfl
  -- what is left is what was there under another token
  have left (index : Fin maxSessions) (slot : SessionSlot) :
      (current.step ⟨elapsedUs, .destroy token⟩).sessions index = some slot ↔
        current.sessions index = some slot ∧ slot.token.bytes ≠ Sessions.compared token := by
    show current.sessions.destroy token index = some slot ↔ _
    rcases current.sessions.destroy_cases token with
      ⟨chosen, held, foundHeld, same, written⟩ | ⟨absent, written⟩
    · rw [written]
      by_cases here : index = chosen
      · rw [here, Function.update_self, foundHeld]
        constructor
        · intro none
          cases none
        · rintro ⟨here, different⟩
          rw [← Option.some.inj here] at different
          exact absurd same different
      · rw [Function.update_of_ne here]
        refine ⟨fun found => ⟨found, fun eq => here ?_⟩, fun both => both.1⟩
        refine agrees.apart index chosen slot held found foundHeld ?_
        exact SessionToken.bytes_inj.mp (eq.trans same.symm)
    · rw [written]
      exact ⟨fun found => ⟨found, absent index slot found⟩, fun both => both.1⟩
  constructor
  · intro index slot found
    obtain ⟨before, different⟩ := (left index slot).mp found
    obtain ⟨atUs, expires, standing⟩ := agrees.held index slot before
    rw [history]
    exact ⟨atUs, expires, standing.later fun ends => different ends.symm⟩
  · intro other atUs standing soon
    rw [history] at standing
    rcases standing.earlier with new | ⟨still, standing⟩
    · cases new
    · have before : current.nowUs < atUs + ttlUsec := lt_of_le_of_lt (Nat.le_add_right _ _) soon
      obtain ⟨index, found⟩ := agrees.listed other atUs standing before
      exact ⟨index, (left index _).mpr ⟨found, fun eq => still eq.symm⟩⟩
  · intro first second slot other foundFirst foundSecond
    exact agrees.apart first second slot other ((left _ _).mp foundFirst).1
      ((left _ _).mp foundSecond).1

theorem destroyAll (elapsedUs : Nat) : (current.step ⟨elapsedUs, .destroyAll⟩).Agrees where
  held _ _ found := by cases found
  listed _ _ standing := by
    rcases Standing.earlier standing with new | ⟨still, _⟩
    · cases new
    · exact absurd trivial still
  apart _ _ _ _ found := by cases found

theorem isValid (agrees : current.Agrees) (token : Bytes) (elapsedUs : Nat) :
    (current.step ⟨elapsedUs, .isValid token⟩).Agrees where
  held := agrees.held
  listed other atUs standing soon :=
    agrees.listed other atUs standing (lt_of_le_of_lt (Nat.le_add_right _ _) soon)
  apart := agrees.apart

theorem step (agrees : current.Agrees) {action : SessionAction} (fresh : current.Fresh action) :
    (current.step action).Agrees := by
  obtain ⟨elapsedUs, op⟩ := action
  cases op with
  | create random => exact agrees.create fresh
  | destroy token => exact agrees.destroy token elapsedUs
  | destroyAll => exact destroyAll elapsedUs
  | isValid token => exact agrees.isValid token elapsedUs

/-- A token is valid as long as its creation stands and is not older than the TTL. -/
theorem isValid_iff (agrees : current.Agrees) {token : Bytes} {laterUs : Nat}
    (later : current.nowUs ≤ laterUs) :
    current.sessions.isValid token laterUs = true ↔
      ∃ created atUs, created.bytes = token ∧ Standing current.history created atUs ∧
        laterUs < atUs + ttlUsec := by
  rw [Sessions.isValid_iff]
  constructor
  · rintro ⟨index, slot, member, live, same⟩
    obtain ⟨atUs, expires, standing⟩ := agrees.held index slot member
    exact ⟨slot.token, atUs, same, standing, expires ▸ live⟩
  · rintro ⟨created, atUs, same, standing, live⟩
    obtain ⟨index, found⟩ := agrees.listed created atUs standing (lt_of_le_of_lt later live)
    exact ⟨index, _, found, live, same⟩

/-- A creation drops a valid session only when all four slots hold one, and the one it
drops was created first. -/
theorem evicted_full (agrees : current.Agrees) {elapsedUs : Nat} {token : SessionToken}
    (evicted : current.sessions.evicted (current.nowUs + elapsedUs) = some token) :
    (∃ valid : List SessionToken, valid.Nodup ∧ valid.length = maxSessions ∧
      ∀ other ∈ valid,
        current.sessions.isValid other.bytes (current.nowUs + elapsedUs) = true) ∧
    ∃ atUs, Standing current.history token atUs ∧
      current.nowUs + elapsedUs < atUs + ttlUsec ∧
      ∀ other otherUs, Standing current.history other otherUs →
        current.nowUs + elapsedUs < otherUs + ttlUsec → atUs ≤ otherUs := by
  obtain ⟨slot, found, live, rfl⟩ := Sessions.evicted_iff.mp evicted
  have least := Sessions.findSlot_least found live
  constructor
  · have filled (index : Fin maxSessions) : ∃ held, current.sessions index = some held ∧
        current.nowUs + elapsedUs < held.expiresUs := by
      have bound := least index
      rw [Sessions.expiresUs] at bound
      cases here : current.sessions index with
      | none =>
          rw [here] at bound
          simp only [Option.map_none, Option.getD_none] at bound
          omega
      | some held =>
          rw [here] at bound
          exact ⟨held, rfl, lt_of_lt_of_le live bound⟩
    choose slots isSlot using filled
    refine ⟨(List.finRange maxSessions).map fun index => (slots index).token, ?_, by simp, ?_⟩
    · refine (List.nodup_finRange _).map fun first second same => ?_
      exact agrees.apart first second _ _ (isSlot first).1 (isSlot second).1 same
    · intro other member
      obtain ⟨index, _, rfl⟩ := List.mem_map.mp member
      exact Sessions.isValid_iff.mpr ⟨index, _, (isSlot index).1, (isSlot index).2, rfl⟩
  · obtain ⟨atUs, expires, standing⟩ := agrees.held _ slot found
    refine ⟨atUs, standing, expires ▸ live, ?_⟩
    intro other otherUs standingOther soon
    obtain ⟨index, foundOther⟩ := agrees.listed other otherUs standingOther
      (lt_of_le_of_lt (Nat.le_add_right _ _) soon)
    have bound := least index
    rw [Sessions.expiresUs, foundOther] at bound
    simp only [Option.map_some, Option.getD_some] at bound
    omega

end Agrees

end SessionRun

/-- A creation takes no valid session while a slot is empty or expired, be it just now. -/
theorem Sessions.create_spares {sessions : Sessions} {nowUs laterUs : Nat} {index : Fin maxSessions}
    (spare : ∀ slot ∈ sessions index, slot.expiresUs ≤ nowUs) (random : Blob 32) {token : Bytes}
    (later : nowUs ≤ laterUs) (valid : sessions.isValid token laterUs = true) :
    (sessions.create random nowUs).2.isValid token laterUs = true := by
  obtain ⟨place, held, member, live, same⟩ := Sessions.isValid_iff.mp valid
  have here : place ≠ sessions.findSlot nowUs := by
    rintro rfl
    have liveNow := lt_of_le_of_lt later live
    have bound := Sessions.findSlot_least member liveNow index
    rw [Sessions.expiresUs] at bound
    cases entry : sessions index with
    | none =>
        rw [entry] at bound
        simp only [Option.map_none, Option.getD_none] at bound
        omega
    | some slot =>
        have early := spare slot entry
        rw [entry] at bound
        simp only [Option.map_some, Option.getD_some] at bound
        omega
  refine Sessions.isValid_iff.mpr ⟨place, held, ?_, live, same⟩
  show held ∈ Function.update sessions (sessions.findSlot nowUs) _ place
  rw [Function.update_of_ne here]
  exact member

section Run

/-- In every run that creates distinct tokens the four slots are the set of the sessions
that were created less than the TTL ago and neither destroyed, wiped nor evicted since;
evicted is only the earliest of four valid ones, and only by a creation. -/
theorem sessions_exact (actions : List SessionAction)
    (fresh : Guarded SessionRun.step SessionRun.Fresh SessionRun.start actions) :
    let reached := run SessionRun.step SessionRun.start actions
    (∀ token laterUs, reached.nowUs ≤ laterUs →
      (reached.sessions.isValid token laterUs = true ↔
        ∃ created atUs, created.bytes = token ∧ Standing reached.history created atUs ∧
          laterUs < atUs + ttlUsec)) ∧
    (∀ tokens : List SessionToken, tokens.Nodup →
      (∀ token ∈ tokens, reached.sessions.isValid token.bytes reached.nowUs = true) →
      tokens.length ≤ 4) ∧
    (∀ elapsedUs token,
      reached.sessions.evicted (reached.nowUs + elapsedUs) = some token →
      (∃ valid : List SessionToken, valid.Nodup ∧ valid.length = 4 ∧
        ∀ other ∈ valid,
          reached.sessions.isValid other.bytes (reached.nowUs + elapsedUs) = true) ∧
      ∃ atUs, Standing reached.history token atUs ∧ reached.nowUs + elapsedUs < atUs + ttlUsec ∧
        ∀ other otherUs, Standing reached.history other otherUs →
          reached.nowUs + elapsedUs < otherUs + ttlUsec → atUs ≤ otherUs) ∧
    ∀ elapsedUs random index,
      (∀ slot ∈ reached.sessions index, slot.expiresUs ≤ reached.nowUs + elapsedUs) →
      ∀ token laterUs, reached.nowUs + elapsedUs ≤ laterUs →
        reached.sessions.isValid token laterUs = true →
        (reached.sessions.create random (reached.nowUs + elapsedUs)).2.isValid token laterUs =
          true := by
  have agrees : (run SessionRun.step SessionRun.start actions).Agrees :=
    run_invariant SessionRun.Agrees (fun _ _ agrees fresh => agrees.step fresh)
      SessionRun.Agrees.start fresh
  refine ⟨?_, ?_, ?_, ?_⟩
  · intro token laterUs later
    exact agrees.isValid_iff later
  · intro tokens nodup valid
    exact Sessions.valid_length nodup valid
  · intro elapsedUs token evicted
    exact agrees.evicted_full evicted
  · intro elapsedUs random index spare token laterUs later valid
    exact Sessions.create_spares spare random later valid

/-- Random bytes that are all the same. -/
def uniform (byte : UInt8) : Blob 32 := { bytes := List.replicate 32 byte, length_eq := rfl }

/-- Five logins a second apart: the last one evicts the first. -/
def fiveLogins : List SessionAction :=
  ([1, 2, 3, 4, 5] : List UInt8).map fun byte => ⟨1000000, .create (uniform byte)⟩

theorem sessions_exact_five :
    (run SessionRun.step SessionRun.start fiveLogins).sessions.isValid
      (SessionToken.ofRandom (uniform 2)).bytes 5000000 = true := by
  refine ((sessions_exact fiveLogins (by decide +kernel)).1 _ _ (by decide +kernel)).mpr ?_
  refine ⟨SessionToken.ofRandom (uniform 2), 2000000, rfl, ?_, by decide⟩
  refine Standing.later (Standing.later (Standing.later (Standing.later
    (Standing.created _ _ _) ?_) ?_) ?_) ?_
  · exact fun ends => ends
  · exact fun ends => ends
  · intro ends
    have same : SessionToken.ofRandom (uniform 1) = SessionToken.ofRandom (uniform 2) := ends
    revert same
    decide +kernel
  · exact fun ends => ends

end Run

end LeanDingdong
