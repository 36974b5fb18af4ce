import Dingdong.DeviceCore
import Dingdong.Runs

/-!
`dd_time.c`: the name of the server, the flag that says a server has answered, and the pair of
times taken at the last answer. HTTP calls change the name while the SNTP task takes answers,
and the steps of the two come in any order. One call of the HTTP task runs at a time.
-/

namespace LeanDingdong

open Runs

/-- How far `dd_time_set_ntp_server` or `dd_time_sntp_start` has come. -/
inductive ServerCall where
  | idle
  /-- the name is in `s_ntp_server` -/
  | named (server : Bytes)
  /-- and NVS has been tried -/
  | saved
  /-- `dd_time_sntp_start` begins, after `s_synced` was cleared or without -/
  | starting (cleared : Bool)
  /-- the session before is gone -/
  | stopped
  deriving DecidableEq

/-- What a server has answered. -/
structure SyncAnswer where
  server : Bytes
  wallUs : Nat
  /-- when the SNTP task set the system clock to it -/
  setAtUs : Nat
  deriving DecidableEq

/-- How far `on_sync` has come with an answer. -/
inductive SyncCallback where
  | idle
  /-- the system clock is set -/
  | called (answer : SyncAnswer)
  /-- `esp_timer_get_time` is read -/
  | read (answer : SyncAnswer) (monoUs : Nat)
  | locked (answer : SyncAnswer) (monoUs : Nat)
  /-- `s_synced` is written -/
  | flagged (answer : SyncAnswer) (monoUs : Nat)
  /-- `s_wall_at_sync_us` is written -/
  | walled (answer : SyncAnswer) (monoUs : Nat)
  deriving DecidableEq

/-- The answer on its way. -/
def SyncCallback.answer : SyncCallback → Option SyncAnswer
  | .idle => none
  | .called answer | .read answer _ | .locked answer _ | .flagged answer _ | .walled answer _ =>
      some answer

structure TimeSync where
  ntpServer : Bytes
  /-- the key `ntp_server` -/
  stored : Option Bytes
  synced : Bool
  wallAtSyncUs : Nat
  monoAtSyncUs : Nat
  sntpInited : Bool
  /-- the server of the request that is out -/
  asked : Option Bytes
  callback : SyncCallback
  /-- what the system clock has beyond the time since boot -/
  clockOffsetUs : Int
  call : ServerCall
  nowUs : Nat
  /-- the answer that set the flag last -/
  syncedBy : Option SyncAnswer
  deriving DecidableEq

inductive TimeEvent where
  /-- `dd_time_set_ntp_server` up to the unlock -/
  | setServer (server : Bytes)
  | saveServer (openFails setFails : Bool)
  | clearSynced
  /-- `time_resync_post`, or `app_main` -/
  | resync
  | stopSntp
  | startSntp (fails : Bool)
  /-- the SNTP task sends a request to the name it finds -/
  | ask
  | answer (wallUs : Nat)
  /-- the next step of `on_sync` -/
  | onSync
  deriving DecidableEq

/-- An event after some time without one. -/
structure TimeAction where
  elapsedUs : Nat
  event : TimeEvent

namespace TimeSync

/-- After `dd_time_init`; `stored` is what NVS holds. -/
def init (stored : Option Bytes) (nowUs : Nat) : TimeSync where
  ntpServer := loadText ddNtpServerMax stored ntpServerDefault
  stored := stored
  synced := false
  wallAtSyncUs := 0
  monoAtSyncUs := 0
  sntpInited := false
  asked := none
  callback := .idle
  clockOffsetUs := 0
  call := .idle
  nowUs := nowUs
  syncedBy := none

/-- `on_sync` holds the lock for the flag and the two times. -/
def lockFree (time : TimeSync) : Bool :=
  match time.callback with
  | .idle | .called _ | .read _ _ => true
  | .locked _ _ | .flagged _ _ | .walled _ _ => false

/-- The steps of `on_sync`. -/
def onSync (time : TimeSync) : TimeSync :=
  match time.callback with
  | .idle => time
  | .called answer => { time with callback := .read answer time.nowUs }
  | .read answer monoUs => { time with callback := .locked answer monoUs }
  | .locked answer monoUs =>
      { time with synced := true, syncedBy := some answer, callback := .flagged answer monoUs }
  | .flagged answer monoUs =>
      { time with wallAtSyncUs := answer.wallUs, callback := .walled answer monoUs }
  | .walled _ monoUs => { time with monoAtSyncUs := monoUs, callback := .idle }

/-- A step of a call waits for the one before it. Stopping a session waits for its callback. -/
def perform (time : TimeSync) : TimeEvent → TimeSync
  | .setServer server =>
      if time.call = .idle ∧ time.lockFree ∧ server ≠ [] ∧ server.length < ddNtpServerMax then
        { time with ntpServer := server, call := .named server }
      else time
  | .saveServer openFails setFails =>
      match time.call with
      | .named server =>
          { time with
            stored := if openFails || setFails then time.stored else some server
            call := .saved }
      | _ => time
  | .clearSynced =>
      if time.call = .saved then { time with synced := false, call := .starting true } else time
  | .resync => if time.call = .idle then { time with call := .starting false } else time
  | .stopSntp =>
      match time.call with
      | .starting _ =>
          if !time.sntpInited then { time with call := .stopped }
          else if time.callback = .idle then
            { time with sntpInited := false, asked := none, call := .stopped }
          else time
      | _ => time
  | .startSntp fails =>
      if time.call = .stopped then { time with sntpInited := !fails, call := .idle } else time
  | .ask =>
      if time.sntpInited ∧ time.callback = .idle then { time with asked := some time.ntpServer }
      else time
  | .answer wallUs =>
      match time.asked with
      | some server =>
          if time.sntpInited ∧ time.callback = .idle then
            { time with
              asked := none
              clockOffsetUs := (wallUs : Int) - time.nowUs
              callback := .called { server := server, wallUs := wallUs, setAtUs := time.nowUs } }
          else time
      | none => time
  | .onSync => time.onSync

def wait (time : TimeSync) (elapsedUs : Nat) : TimeSync :=
  { time with nowUs := time.nowUs + elapsedUs }

def step (time : TimeSync) (action : TimeAction) : TimeSync :=
  (time.wait action.elapsedUs).perform action.event

/-- `dd_time_now_unix`, where `seen` is the state at its look at the flag. -/
def nowUnix (seen time : TimeSync) : Int :=
  if seen.synced then ((time.nowUs : Int) + time.clockOffsetUs) / 1000000 else 0

/-- `dd_time_mono_to_unix`, where `seen` is the state at its look at the flag and `time` that
under the lock. -/
def monoToUnix (seen time : TimeSync) (monoUs : Int) : Int :=
  if seen.synced then
    ((time.wallAtSyncUs : Int) + (monoUs - time.monoAtSyncUs)).tdiv 1000000
  else 0

/-- The name has changed and the session before is not stopped yet. -/
def Changing (time : TimeSync) : Prop :=
  (∃ server, time.call = .named server) ∨ time.call = .saved ∨ time.call = .starting true

/-- The flag is about the server shown, or a change is underway that has not cleared it. -/
def Badge (time : TimeSync) : Prop :=
  time.synced = true → (∃ answer ∈ time.syncedBy, answer.server = time.ntpServer) ∨
    (∃ server, time.call = .named server) ∨ time.call = .saved

/-- No answer of a server from before sets the flag after it was cleared. -/
def Timely (time : TimeSync) (action : TimeAction) : Prop :=
  action.event = .onSync → time.call = .starting true →
    ∀ answer monoUs, time.callback = .locked answer monoUs → answer.server = time.ntpServer

/-- Outside a change of the name every request that is out was sent to the server shown. -/
structure Asks (time : TimeSync) : Prop where
  asked : ∀ server ∈ time.asked, server = time.ntpServer ∨ time.Changing
  answered : ∀ answer ∈ time.callback.answer, answer.server = time.ntpServer ∨ time.Changing
  stopped : time.sntpInited = false → time.asked = none ∧ time.callback = .idle
  restarting : time.call = .stopped → time.sntpInited = false

section Badge

variable {time : TimeSync}

theorem Asks.init (stored : Option Bytes) (nowUs : Nat) : (init stored nowUs).Asks where
  asked _ member := by cases member
  answered _ member := by cases member
  stopped _ := ⟨rfl, rfl⟩
  restarting stopped := by cases stopped

/-- The callback moves on with the answer it has. -/
theorem onSync_kept (time : TimeSync) :
    time.onSync.ntpServer = time.ntpServer ∧ time.onSync.call = time.call ∧
      time.onSync.asked = time.asked ∧ time.onSync.sntpInited = time.sntpInited ∧
      (∀ answer ∈ time.onSync.callback.answer, answer ∈ time.callback.answer) ∧
      (time.callback = .idle → time.onSync = time) := by
  rw [onSync]
  cases current : time.callback <;> simp [current, SyncCallback.answer]

/-- A step of a call or of the SNTP task keeps what is asked in line with what is shown. -/
theorem Asks.perform (asks : time.Asks) (event : TimeEvent) : (time.perform event).Asks := by
  cases event with
  | setServer server =>
      rw [TimeSync.perform]
      split_ifs with ready
      · have changing (name : Bytes) : name = server ∨
            Changing { time with ntpServer := server, call := .named server } :=
          .inr (.inl ⟨server, rfl⟩)
        exact ⟨fun name _ => changing name, fun answer _ => changing answer.server, asks.stopped,
          fun stopped => by cases stopped⟩
      · exact asks
  | saveServer openFails setFails =>
      rw [TimeSync.perform]
      cases call : time.call with
      | named server =>
          exact ⟨fun _ _ => .inr (.inr (.inl rfl)), fun _ _ => .inr (.inr (.inl rfl)),
            asks.stopped, fun stopped => by cases stopped⟩
      | idle | saved | starting | stopped => exact asks
  | clearSynced =>
      rw [TimeSync.perform]
      split_ifs
      · exact ⟨fun _ _ => .inr (.inr (.inr rfl)), fun _ _ => .inr (.inr (.inr rfl)),
          asks.stopped, fun stopped => by cases stopped⟩
      · exact asks
  | resync =>
      rw [TimeSync.perform]
      split_ifs with isIdle
      · have settled : ¬ time.Changing := by simp [Changing, isIdle]
        exact ⟨fun server member => .inl ((asks.asked server member).resolve_right settled),
          fun answer member => .inl ((asks.answered answer member).resolve_right settled),
          asks.stopped, fun stopped => by cases stopped⟩
      · exact asks
  | stopSntp =>
      rw [TimeSync.perform]
      cases call : time.call with
      | starting cleared =>
          dsimp only
          split_ifs with running quiet
          · have off : time.sntpInited = false := by simpa using running
            obtain ⟨unasked, still⟩ := asks.stopped off
            exact ⟨fun _ member => (by simp [unasked] at member),
              fun _ member => (by simp [still, SyncCallback.answer] at member), asks.stopped,
              fun _ => off⟩
          · exact ⟨fun _ member => (by cases member),
              fun _ member => (by simp [quiet, SyncCallback.answer] at member),
              fun _ => ⟨rfl, quiet⟩, fun _ => rfl⟩
          · exact asks
      | idle | named | saved | stopped => exact asks
  | startSntp fails =>
      rw [TimeSync.perform]
      split_ifs with isStopped
      · obtain ⟨unasked, still⟩ := asks.stopped (asks.restarting isStopped)
        exact ⟨fun _ member => (by simp [unasked] at member),
          fun _ member => (by simp [still, SyncCallback.answer] at member),
          fun _ => ⟨unasked, still⟩, fun stopped => by cases stopped⟩
      · exact asks
  | ask =>
      rw [TimeSync.perform]
      split_ifs with ready
      · refine ⟨fun server member => .inl (Option.some.inj member).symm, asks.answered,
          fun off => ?_, asks.restarting⟩
        rw [ready.1] at off
        cases off
      · exact asks
  | answer wallUs =>
      rw [TimeSync.perform]
      cases out : time.asked with
      | none => exact asks
      | some server =>
          dsimp only
          split_ifs with ready
          · refine ⟨fun _ member => (by cases member), fun answer member => ?_, fun off => ?_,
              asks.restarting⟩
            · obtain rfl := Option.some.inj member
              exact asks.asked server out
            · rw [ready.1] at off
              cases off
          · exact asks
  | onSync =>
      obtain ⟨server, call, asked, inited, answers, idle⟩ := onSync_kept time
      have same : (time.onSync).Changing ↔ time.Changing := by rw [Changing, Changing, call]
      rw [TimeSync.perform]
      refine ⟨fun name member => ?_, fun answer member => ?_, fun off => ?_, fun stopped => ?_⟩
      · rw [server, same]
        exact asks.asked name (asked ▸ member)
      · rw [server, same]
        exact asks.answered answer (answers answer member)
      · rw [inited] at off
        obtain ⟨unasked, still⟩ := asks.stopped off
        rw [idle still]
        exact ⟨unasked, still⟩
      · rw [call] at stopped
        rw [inited]
        exact asks.restarting stopped

theorem Asks.step (asks : time.Asks) (action : TimeAction) : (time.step action).Asks :=
  @Asks.perform (time.wait action.elapsedUs)
    ⟨asks.asked, asks.answered, asks.stopped, asks.restarting⟩ action.event

/-- Where no change is underway that has left the flag, the flag is about the server shown. -/
theorem Badge.settled (badge : time.Badge) (unnamed : ∀ server, time.call ≠ .named server)
    (unsaved : time.call ≠ .saved) (synced : time.synced = true) :
    ∃ answer ∈ time.syncedBy, answer.server = time.ntpServer := by
  rcases badge synced with shown | ⟨server, named⟩ | saved
  · exact shown
  · exact absurd named (unnamed server)
  · exact absurd saved unsaved

/-- The steps of a call never make the flag wrong. -/
theorem perform_badge (badge : time.Badge) {event : TimeEvent} (other : event ≠ .onSync) :
    (time.perform event).Badge := by
  cases event with
  | onSync => exact absurd rfl other
  | setServer server =>
      rw [perform]
      split_ifs
      · exact fun _ => .inr (.inl ⟨server, rfl⟩)
      · exact badge
  | saveServer openFails setFails =>
      rw [perform]
      cases time.call with
      | named server => exact fun _ => .inr (.inr rfl)
      | idle | saved | starting | stopped => exact badge
  | clearSynced =>
      rw [perform]
      split_ifs
      · exact fun synced => absurd synced Bool.false_ne_true
      · exact badge
  | resync =>
      rw [perform]
      split_ifs with isIdle
      · exact fun synced => .inl (badge.settled (by simp [isIdle]) (by simp [isIdle]) synced)
      · exact badge
  | stopSntp =>
      rw [perform]
      cases call : time.call with
      | starting cleared =>
          have shown := badge.settled (by simp [call]) (by simp [call])
          dsimp only
          split_ifs
          · exact fun synced => .inl (shown synced)
          · exact fun synced => .inl (shown synced)
          · exact badge
      | idle | named | saved | stopped => exact badge
  | startSntp fails =>
      rw [perform]
      split_ifs with isStopped
      · exact fun synced => .inl (badge.settled (by simp [isStopped]) (by simp [isStopped]) synced)
      · exact badge
  | ask =>
      rw [perform]
      split_ifs <;> exact badge
  | answer wallUs =>
      rw [perform]
      cases time.asked with
      | none => exact badge
      | some server =>
          dsimp only
          split_ifs <;> exact badge

/-- A step keeps the flag right exactly when it takes no late answer of another server. -/
theorem badge_step (asks : time.Asks) (badge : time.Badge) (action : TimeAction) :
    (time.step action).Badge ↔ time.Timely action := by
  obtain ⟨elapsedUs, event⟩ := action
  rw [TimeSync.step]
  have waited : (time.wait elapsedUs).Badge := badge
  cases event with
  | onSync =>
      rw [perform, onSync]
      cases callback : (time.wait elapsedUs).callback with
      | idle | called | read | flagged | walled =>
          refine iff_of_true waited fun _ _ answer monoUs locked => ?_
          exact absurd (callback.symm.trans locked) (by simp)
      | locked answer monoUs =>
          have here : time.callback = .locked answer monoUs := callback
          have origin := asks.answered answer (by rw [here]; rfl)
          constructor
          · intro after _ starting other otherUs locked
            obtain ⟨rfl, rfl⟩ : answer = other ∧ monoUs = otherUs := by
              simpa using here.symm.trans locked
            obtain ⟨_, member, shown⟩ := after.settled
              (fun server named => by cases starting.symm.trans named)
              (fun saved => by cases starting.symm.trans saved) rfl
            obtain rfl := Option.some.inj member
            exact shown
          · intro timely _
            rcases origin with shown | named | saved | starting
            · exact .inl ⟨answer, rfl, shown⟩
            · exact .inr (.inl named)
            · exact .inr (.inr saved)
            · exact .inl ⟨answer, rfl, timely rfl starting answer monoUs here⟩
  | setServer | saveServer | clearSynced | resync | stopSntp | startSntp | ask | answer =>
      refine iff_of_true (perform_badge waited ?_) ?_ <;> simp [Timely]

/-- In every order of the steps: the flag, where it is set and no change that has not cleared
it yet is underway, says that the server shown has answered, in all states of a run exactly
when the run takes no answer of a server from before between the clearing of the flag and the
end of the old session. -/
theorem badge_exact (stored : Option Bytes) (nowUs : Nat) (actions : List TimeAction) :
    (∀ past, past <+: actions → (run step (init stored nowUs) past).Badge) ↔
      Guarded step Timely (init stored nowUs) actions := by
  have always (past : List TimeAction) : (run step (init stored nowUs) past).Asks :=
    run_kept Asks (fun _ action asks => asks.step action) (Asks.init stored nowUs)
  have both := @prefixes_iff_guarded _ _ step Timely (fun time => time.Asks ∧ time.Badge)
    (init stored nowUs) actions
    (fun time action _ kept => by
      rw [and_iff_right (kept.1.step action), badge_step kept.1 kept.2 action])
    ⟨Asks.init stored nowUs, fun synced => absurd synced Bool.false_ne_true⟩
  rw [← both]
  exact forall₂_congr fun past _ => (and_iff_right (always past)).symm

end Badge

section Clocks

/-- The pair of times is that of the answer, taken no earlier than the clock was set. -/
structure Holds (time : TimeSync) (answer : SyncAnswer) : Prop where
  syncedBy : time.syncedBy = some answer
  wall : time.wallAtSyncUs = answer.wallUs
  since : answer.setAtUs ≤ time.monoAtSyncUs
  past : time.monoAtSyncUs ≤ time.nowUs

/-- No answer has set the flag, or the pair is that of the last one that did. -/
def Paired (time : TimeSync) : Prop :=
  (time.syncedBy = none ∧ time.synced = false) ∨ ∃ answer, time.Holds answer

/-- The system clock was last set by the answer. -/
def SetTo (time : TimeSync) (answer : SyncAnswer) : Prop :=
  time.clockOffsetUs = (answer.wallUs : Int) - answer.setAtUs ∧ answer.setAtUs ≤ time.nowUs

/-- What `on_sync` has written so far. -/
def Anchored (time : TimeSync) : Prop :=
  match time.callback with
  | .idle => time.Paired ∧ ∀ answer ∈ time.syncedBy, time.SetTo answer
  | .called answer => time.Paired ∧ time.SetTo answer
  | .read answer monoUs | .locked answer monoUs =>
      time.Paired ∧ time.SetTo answer ∧ answer.setAtUs ≤ monoUs ∧ monoUs ≤ time.nowUs
  | .flagged answer monoUs =>
      time.syncedBy = some answer ∧ time.SetTo answer ∧ answer.setAtUs ≤ monoUs ∧
        monoUs ≤ time.nowUs
  | .walled answer monoUs =>
      time.syncedBy = some answer ∧ time.wallAtSyncUs = answer.wallUs ∧ time.SetTo answer ∧
        answer.setAtUs ≤ monoUs ∧ monoUs ≤ time.nowUs

variable {time : TimeSync}

theorem Paired.wait (paired : time.Paired) (elapsedUs : Nat) : (time.wait elapsedUs).Paired := by
  rcases paired with none | ⟨answer, holds⟩
  · exact .inl none
  · exact .inr ⟨answer, holds.syncedBy, holds.wall, holds.since,
      holds.past.trans (Nat.le_add_right _ _)⟩

theorem SetTo.wait {answer : SyncAnswer} (setTo : time.SetTo answer) (elapsedUs : Nat) :
    (time.wait elapsedUs).SetTo answer :=
  ⟨setTo.1, setTo.2.trans (Nat.le_add_right _ _)⟩

theorem Anchored.wait (anchored : time.Anchored) (elapsedUs : Nat) :
    (time.wait elapsedUs).Anchored := by
  have later : time.nowUs ≤ (time.wait elapsedUs).nowUs := Nat.le_add_right _ _
  have same : (time.wait elapsedUs).callback = time.callback := rfl
  rw [Anchored, same]
  cases current : time.callback with
  | idle =>
      simp only [Anchored, current] at anchored ⊢
      exact ⟨anchored.1.wait elapsedUs,
        fun answer member => (anchored.2 answer member).wait elapsedUs⟩
  | called answer =>
      simp only [Anchored, current] at anchored ⊢
      exact ⟨anchored.1.wait elapsedUs, anchored.2.wait elapsedUs⟩
  | read answer monoUs | locked answer monoUs =>
      simp only [Anchored, current] at anchored ⊢
      obtain ⟨paired, setTo, since, past⟩ := anchored
      exact ⟨paired.wait elapsedUs, setTo.wait elapsedUs, since, past.trans later⟩
  | flagged answer monoUs =>
      simp only [Anchored, current] at anchored ⊢
      obtain ⟨syncedBy, setTo, since, past⟩ := anchored
      exact ⟨syncedBy, setTo.wait elapsedUs, since, past.trans later⟩
  | walled answer monoUs =>
      simp only [Anchored, current] at anchored ⊢
      obtain ⟨syncedBy, wall, setTo, since, past⟩ := anchored
      exact ⟨syncedBy, wall, setTo.wait elapsedUs, since, past.trans later⟩

theorem Paired.of_kept (paired : time.Paired) {after : TimeSync}
    (syncedBy : after.syncedBy = time.syncedBy) (wall : after.wallAtSyncUs = time.wallAtSyncUs)
    (mono : after.monoAtSyncUs = time.monoAtSyncUs) (nowUs : after.nowUs = time.nowUs)
    (synced : after.synced = time.synced ∨ after.synced = false) : after.Paired := by
  rcases paired with ⟨none, unset⟩ | ⟨answer, holds⟩
  · refine .inl ⟨syncedBy.trans none, ?_⟩
    rcases synced with same | cleared
    · exact same.trans unset
    · exact cleared
  · exact .inr ⟨answer, syncedBy.trans holds.syncedBy, wall.trans holds.wall,
      mono ▸ holds.since, nowUs ▸ mono ▸ holds.past⟩

/-- What `Anchored` says is kept where the pair, its answer, the clock and the callback are. -/
theorem Anchored.of_kept (anchored : time.Anchored) {after : TimeSync}
    (callback : after.callback = time.callback) (syncedBy : after.syncedBy = time.syncedBy)
    (wall : after.wallAtSyncUs = time.wallAtSyncUs) (mono : after.monoAtSyncUs = time.monoAtSyncUs)
    (offset : after.clockOffsetUs = time.clockOffsetUs) (nowUs : after.nowUs = time.nowUs)
    (synced : after.synced = time.synced ∨ after.synced = false) : after.Anchored := by
  have paired (before : time.Paired) : after.Paired :=
    before.of_kept syncedBy wall mono nowUs synced
  have setTo {answer : SyncAnswer} (before : time.SetTo answer) : after.SetTo answer :=
    ⟨offset.trans before.1, nowUs ▸ before.2⟩
  rw [Anchored, callback]
  cases current : time.callback with
  | idle =>
      simp only [Anchored, current] at anchored ⊢
      exact ⟨paired anchored.1, fun answer member => setTo (anchored.2 answer (syncedBy ▸ member))⟩
  | called answer =>
      simp only [Anchored, current] at anchored ⊢
      exact ⟨paired anchored.1, setTo anchored.2⟩
  | read answer monoUs | locked answer monoUs =>
      simp only [Anchored, current] at anchored ⊢
      exact ⟨paired anchored.1, setTo anchored.2.1, anchored.2.2.1, nowUs ▸ anchored.2.2.2⟩
  | flagged answer monoUs =>
      simp only [Anchored, current] at anchored ⊢
      exact ⟨syncedBy.trans anchored.1, setTo anchored.2.1, anchored.2.2.1,
        nowUs ▸ anchored.2.2.2⟩
  | walled answer monoUs =>
      simp only [Anchored, current] at anchored ⊢
      exact ⟨syncedBy.trans anchored.1, wall.trans anchored.2.1, setTo anchored.2.2.1,
        anchored.2.2.2.1, nowUs ▸ anchored.2.2.2.2⟩

theorem Anchored.onSync (anchored : time.Anchored) : time.onSync.Anchored := by
  rw [TimeSync.onSync]
  cases current : time.callback with
  | idle => exact anchored
  | called answer =>
      simp only [Anchored, current] at anchored ⊢
      exact ⟨anchored.1.of_kept rfl rfl rfl rfl (.inl rfl), anchored.2, anchored.2.2, le_rfl⟩
  | read answer monoUs =>
      simp only [Anchored, current] at anchored ⊢
      exact ⟨anchored.1.of_kept rfl rfl rfl rfl (.inl rfl), anchored.2⟩
  | locked answer monoUs =>
      simp only [Anchored, current] at anchored ⊢
      exact ⟨trivial, anchored.2⟩
  | flagged answer monoUs =>
      simp only [Anchored, current] at anchored ⊢
      exact ⟨anchored.1, trivial, anchored.2⟩
  | walled answer monoUs =>
      simp only [Anchored, current] at anchored ⊢
      obtain ⟨syncedBy, wall, setTo, since, past⟩ := anchored
      refine ⟨.inr ⟨answer, syncedBy, wall, since, past⟩, fun other member => ?_⟩
      obtain rfl := Option.some.inj (syncedBy.symm.trans member)
      exact setTo

theorem Anchored.perform (anchored : time.Anchored) (event : TimeEvent) :
    (time.perform event).Anchored := by
  cases event with
  | setServer server =>
      rw [TimeSync.perform]
      split_ifs
      · exact anchored.of_kept rfl rfl rfl rfl rfl rfl (.inl rfl)
      · exact anchored
  | saveServer openFails setFails =>
      rw [TimeSync.perform]
      cases time.call with
      | named server => exact anchored.of_kept rfl rfl rfl rfl rfl rfl (.inl rfl)
      | idle | saved | starting | stopped => exact anchored
  | clearSynced =>
      rw [TimeSync.perform]
      split_ifs
      · exact anchored.of_kept rfl rfl rfl rfl rfl rfl (.inr rfl)
      · exact anchored
  | resync | startSntp =>
      rw [TimeSync.perform]
      split_ifs
      · exact anchored.of_kept rfl rfl rfl rfl rfl rfl (.inl rfl)
      · exact anchored
  | stopSntp =>
      rw [TimeSync.perform]
      cases time.call with
      | starting cleared =>
          dsimp only
          split_ifs
          · exact anchored.of_kept rfl rfl rfl rfl rfl rfl (.inl rfl)
          · exact anchored.of_kept rfl rfl rfl rfl rfl rfl (.inl rfl)
          · exact anchored
      | idle | named | saved | stopped => exact anchored
  | ask =>
      rw [TimeSync.perform]
      split_ifs
      · exact anchored.of_kept rfl rfl rfl rfl rfl rfl (.inl rfl)
      · exact anchored
  | answer wallUs =>
      rw [TimeSync.perform]
      cases time.asked with
      | none => exact anchored
      | some server =>
          dsimp only
          split_ifs with ready
          · simp only [Anchored, ready.2] at anchored ⊢
            exact ⟨anchored.1.of_kept rfl rfl rfl rfl (.inl rfl), rfl, le_rfl⟩
          · exact anchored
  | onSync => exact anchored.onSync

theorem Anchored.step (anchored : time.Anchored) (action : TimeAction) :
    (time.step action).Anchored :=
  (anchored.wait action.elapsedUs).perform action.event

theorem Anchored.init (stored : Option Bytes) (nowUs : Nat) : (init stored nowUs).Anchored :=
  ⟨.inl ⟨rfl, rfl⟩, fun answer member => by cases member⟩

/-- A lock that is free leaves no half-written pair. -/
theorem Anchored.paired (anchored : time.Anchored) (free : time.lockFree = true) :
    time.Paired := by
  rw [lockFree] at free
  cases current : time.callback with
  | idle | called answer | read answer monoUs =>
      simp only [Anchored, current] at anchored
      exact anchored.1
  | locked answer monoUs | flagged answer monoUs | walled answer monoUs =>
      simp [current] at free

/-- Outside `on_sync` the clock is that of the answer that set the flag. -/
theorem Anchored.setTo (anchored : time.Anchored) (quiet : time.callback = .idle)
    {answer : SyncAnswer} (syncedBy : time.syncedBy = some answer) : time.SetTo answer := by
  simp only [Anchored, quiet] at anchored
  exact anchored.2 answer syncedBy

theorem Anchored.syncedBy (anchored : time.Anchored) (synced : time.synced = true) :
    time.syncedBy ≠ none := by
  have of_paired (paired : time.Paired) : time.syncedBy ≠ none := by
    rcases paired with ⟨_, unset⟩ | ⟨answer, holds⟩
    · rw [unset] at synced
      cases synced
    · simp [holds.syncedBy]
  cases current : time.callback with
  | idle | called answer | read answer monoUs | locked answer monoUs =>
      simp only [Anchored, current] at anchored
      exact of_paired anchored.1
  | flagged answer monoUs | walled answer monoUs =>
      simp only [Anchored, current] at anchored
      simp [anchored.1]

/-- That a server has answered stays known. -/
theorem step_syncedBy (action : TimeAction) (answered : time.syncedBy ≠ none) :
    (time.step action).syncedBy ≠ none := by
  have waited : (time.wait action.elapsedUs).syncedBy ≠ none := answered
  rw [step]
  cases action.event with
  | onSync =>
      rw [perform, onSync]
      cases (time.wait action.elapsedUs).callback with
      | locked answer monoUs => simp
      | idle | called | read | flagged | walled => exact waited
  | setServer | clearSynced | resync | startSntp | ask =>
      rw [perform]
      split_ifs <;> exact waited
  | saveServer | stopSntp =>
      rw [perform]
      cases (time.wait action.elapsedUs).call <;> dsimp only <;> (try split_ifs) <;> exact waited
  | answer =>
      rw [perform]
      cases (time.wait action.elapsedUs).asked <;> dsimp only <;> (try split_ifs) <;> exact waited

theorem run_anchored (stored : Option Bytes) (nowUs : Nat) (actions : List TimeAction) :
    (run step (init stored nowUs) actions).Anchored :=
  run_kept Anchored (fun _ action anchored => anchored.step action) (Anchored.init stored nowUs)

/-- In every order of the steps: a conversion that saw the flag uses the wall clock of one
answer and a reading of the timer taken since it set the clock, never half of a pair and never
the zeros from before; so outside `on_sync` it does not run ahead of the system clock, which
counts on from that answer. -/
theorem clocks_agree (stored : Option Bytes) (nowUs : Nat) (before after : List TimeAction)
    {seen time : TimeSync} (seenRun : seen = run step (init stored nowUs) before)
    (timeRun : time = run step seen after) (synced : seen.synced = true)
    (free : time.lockFree = true) :
    ∃ answer atUs, time.syncedBy = some answer ∧ answer.setAtUs ≤ atUs ∧ atUs ≤ time.nowUs ∧
      (∀ monoUs, monoToUnix seen time monoUs =
        ((answer.wallUs : Int) + (monoUs - atUs)).tdiv 1000000) ∧
      (time.callback = .idle →
        nowUnix seen time =
          ((answer.wallUs + (time.nowUs - answer.setAtUs)) / 1000000 : Nat) ∧
        monoToUnix seen time time.nowUs ≤ nowUnix seen time) := by
  have seenAnchored : seen.Anchored := seenRun ▸ run_anchored stored nowUs before
  have anchored : time.Anchored :=
    timeRun ▸ run_kept Anchored (fun _ action kept => kept.step action) seenAnchored
  have answered : time.syncedBy ≠ none :=
    timeRun ▸ run_kept (fun state : TimeSync => state.syncedBy ≠ none)
      (fun _ action kept => step_syncedBy action kept) (seenAnchored.syncedBy synced)
  rcases anchored.paired free with ⟨none, _⟩ | ⟨answer, holds⟩
  · exact absurd none answered
  have mono (monoUs : Int) : monoToUnix seen time monoUs =
      ((answer.wallUs : Int) + (monoUs - time.monoAtSyncUs)).tdiv 1000000 := by
    rw [monoToUnix, if_pos synced, holds.wall]
  refine ⟨answer, time.monoAtSyncUs, holds.syncedBy, holds.since, holds.past, mono, ?_⟩
  intro quiet
  obtain ⟨offset, since⟩ := anchored.setTo quiet holds.syncedBy
  have now : nowUnix seen time =
      ((answer.wallUs + (time.nowUs - answer.setAtUs)) / 1000000 : Nat) := by
    rw [nowUnix, if_pos synced, offset]
    push_cast [since]
    congr 1
    ring
  refine ⟨now, ?_⟩
  have later : answer.wallUs + (time.nowUs - time.monoAtSyncUs) ≤
      answer.wallUs + (time.nowUs - answer.setAtUs) := by
    have := holds.since
    omega
  rw [mono, now, ← Nat.cast_sub holds.past, ← Nat.cast_add]
  exact Int.ofNat_le.mpr (Nat.div_le_div_right later)

/-- A server answers two seconds after the start; then the name changes, and the flag with it. -/
theorem clocks_agree_changed :
    let seen := run step (init none 0) ([⟨0, .resync⟩, ⟨0, .stopSntp⟩, ⟨0, .startSntp false⟩,
      ⟨0, .ask⟩, ⟨2000000, .answer 1700000000000000⟩, ⟨0, .onSync⟩, ⟨300, .onSync⟩, ⟨0, .onSync⟩])
    let time := run step seen ([⟨0, .onSync⟩, ⟨0, .onSync⟩, ⟨500000, .setServer "b".toUTF8.toList⟩,
      ⟨500000, .saveServer false false⟩, ⟨0, .clearSynced⟩])
    monoToUnix seen time 1500000 = 1699999999 ∧
      monoToUnix seen time time.nowUs ≤ nowUnix seen time := by
  intro seen time
  have synced : seen.synced = true := by decide +kernel
  have quiet : time.callback = .idle := by decide +kernel
  have free : time.lockFree = true := by decide +kernel
  obtain ⟨_, _, _, _, _, _, clocks⟩ := clocks_agree none 0
    ([⟨0, .resync⟩, ⟨0, .stopSntp⟩, ⟨0, .startSntp false⟩, ⟨0, .ask⟩,
      ⟨2000000, .answer 1700000000000000⟩, ⟨0, .onSync⟩, ⟨300, .onSync⟩, ⟨0, .onSync⟩])
    ([⟨0, .onSync⟩, ⟨0, .onSync⟩, ⟨500000, .setServer "b".toUTF8.toList⟩,
      ⟨500000, .saveServer false false⟩, ⟨0, .clearSynced⟩]) rfl rfl synced free
  exact ⟨by decide +kernel, (clocks quiet).2⟩

end Clocks

end TimeSync

end LeanDingdong
