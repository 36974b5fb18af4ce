import Dingdong.HttpFootprint
import Dingdong.HttpGuards
import Dingdong.HttpWrites
import Dingdong.SessionSet

/-!
Logins over the whole life of a device. Requests, timers and restarts come in any order; what
they do to the sessions is noted, and a cookie lets a request in just as long as the note of
its login stands. Whoever is let in has shown a password that is still the admin's.
-/

namespace LeanDingdong

open Runs

/-- The token a note creates. -/
def SessionNote.handedOut : SessionNote → Option SessionToken
  | .created token _ => some token
  | _ => none

theorem Standing.of_append {notes history : List SessionNote} {token : SessionToken} {atUs : Nat}
    (standing : Standing (notes ++ history) token atUs) :
    .created token atUs ∈ notes ∨
      (∀ note ∈ notes, ¬ note.Ends token) ∧ Standing history token atUs := by
  induction notes with
  | nil => exact .inr ⟨by simp, standing⟩
  | cons note notes ih =>
      rcases Standing.earlier standing with here | ⟨kept, still⟩
      · exact .inl (by simp [here])
      · rcases ih still with created | ⟨rest, older⟩
        · exact .inl (List.mem_cons_of_mem _ created)
        · exact .inr ⟨by simpa [kept] using rest, older⟩

theorem SessionRun.tokens_eq (current : SessionRun) :
    current.tokens = current.history.filterMap SessionNote.handedOut := by
  rw [SessionRun.tokens]
  congr 1

namespace Device

variable (platform : Platform)

/-- What a request does to the sessions, the newest note first. -/
def routeNotes (world : World) (request : Request) (device : Device) : Route → List SessionNote
  | .authLoginPost =>
      if (authLoginPost platform world request device).1.status = "200 OK" then
        .created (.ofRandom world.random) device.clockUs ::
          (device.sessions.evicted device.clockUs).toList.map .evicted
      else []
  | .authLogoutPost =>
      (extractCookieValue request.cookie cookieName ddSessionTokenLen).toList.map .destroyed
  | .authChangePasswordPost =>
      if (authChangePasswordPost platform world request device).1.status = "200 OK" then [.wiped]
      else []
  | _ => []

/-- What an event does to them. A restart forgets them all. -/
def loginNotes (device : Device) : DeviceEvent → List SessionNote
  | .request uri method request world =>
      (findRoute uri method).elim [] (routeNotes platform world request device)
  | .restart => [.wiped]
  | .healthyBoot | .saveUptime _ _ | .background _ _ _ | .bootButton _ => []

/-- The notes of a run. -/
def loginHistory : Device → List DeviceAction → List SessionNote
  | _, [] => []
  | device, action :: rest =>
      loginHistory (device.step platform action) rest ++
        loginNotes platform (device.wait action.elapsedUs) action.event

/-- The run of sessions with these notes. -/
def sessionRun (device : Device) (history : List SessionNote) : SessionRun where
  sessions := device.sessions
  nowUs := device.clockUs
  history := history

variable {platform : Platform} {world : World} {request : Request} {device : Device}

theorem loginHistory_snoc (start : Device) (past : List DeviceAction) (action : DeviceAction) :
    loginHistory platform start (past ++ [action]) =
      loginNotes platform ((run (step platform) start past).wait action.elapsedUs) action.event ++
        loginHistory platform start past := by
  induction past generalizing start with
  | nil => simp [loginHistory]
  | cons first past ih =>
      rw [List.cons_append, loginHistory, ih, loginHistory, run_cons, List.append_assoc]

theorem loginHistory_append (start : Device) (past rest : List DeviceAction) :
    loginHistory platform start (past ++ rest) =
      loginHistory platform (run (step platform) start past) rest ++
        loginHistory platform start past := by
  induction past generalizing start with
  | nil => simp [loginHistory]
  | cons first past ih =>
      rw [List.cons_append, loginHistory, ih, loginHistory, run_cons, List.append_assoc]

section Handlers

/-- A login gives a token to the admin's password and otherwise leaves the sessions alone. -/
theorem authLoginPost_cases (platform : Platform) (world : World) (request : Request)
    (device : Device) :
    ((authLoginPost platform world request device).1.status = "200 OK" ∧
        (authLoginPost platform world request device).1.setCookie =
          some (SessionToken.ofRandom world.random).bytes ∧
        carriesPassword platform world request device = true ∧
        (authLoginPost platform world request device).2 =
          { device with sessions := (device.sessions.create world.random device.clockUs).2 }) ∨
      (authLoginPost platform world request device).1.status ≠ "200 OK" ∧
        ∃ elapsedUs, (authLoginPost platform world request device).2 = device.wait elapsedUs := by
  rw [authLoginPost, carriesPassword, withBody]
  split_ifs
  · exact .inr ⟨(by decide : "409 Conflict" ≠ "200 OK"), 0, rfl⟩
  cases recvJsonBody platform world request with
  | none => exact .inr ⟨(by decide : "400 Bad Request" ≠ "200 OK"), 0, rfl⟩
  | some body =>
      dsimp only
      cases given : body.getText (ascii "password") with
      | none => exact .inr ⟨(by decide : "400 Bad Request" ≠ "200 OK"), 0, rfl⟩
      | some password =>
          dsimp only
          split
          · rename_i verified
            have admits := Config.verifyAdminPassword_of_read verified
            exact .inl ⟨rfl, rfl, by simp [given, admits], rfl⟩
          · exact .inr ⟨(by decide : "401 Unauthorized" ≠ "200 OK"), 800000, rfl⟩
          · exact .inr ⟨(by decide : "500 Internal Server Error" ≠ "200 OK"), 0, rfl⟩

theorem authLogoutPost_eq (request : Request) (device : Device) :
    (authLogoutPost request device).2 =
      { device with
        sessions := (extractCookieValue request.cookie cookieName ddSessionTokenLen).elim
          device.sessions fun token => device.sessions.destroy token } := by
  rw [authLogoutPost]
  cases extractCookieValue request.cookie cookieName ddSessionTokenLen <;> rfl

/-- A password that is refused before the second write leaves the credential alone. -/
theorem setAdminPassword_refused {pbkdf2 : Bytes → AdminSalt → Option AdminHash}
    {faults : ConfigFaults} {salt : AdminSalt} {plaintext : Bytes} {config : Config}
    (second : faults.secondFails = false) (commit : faults.commitFails = false)
    (failed : (config.setAdminPassword pbkdf2 faults salt plaintext).1 ≠ .ok) :
    (config.setAdminPassword pbkdf2 faults salt plaintext).2 = config := by
  rw [Config.setAdminPassword] at failed ⊢
  by_cases empty : cstr plaintext = []
  · rw [if_pos empty]
  rw [if_neg empty] at failed ⊢
  cases derived : pbkdf2 (cstr plaintext) salt with
  | none => rfl
  | some hash =>
      rw [derived] at failed
      dsimp only at failed ⊢
      rw [Config.setAdminBlob] at failed ⊢
      by_cases opens : faults.openFails = true
      · rw [if_pos opens]
      rw [if_neg opens] at failed ⊢
      by_cases first : faults.firstFails = true
      · rw [if_pos first]
      rw [if_neg first, second, commit] at failed
      exact absurd rfl failed

/-- A changed password ends all sessions. Otherwise they stay, and so does the credential
unless its second write or the commit failed. -/
theorem authChangePasswordPost_cases (platform : Platform) (world : World) (request : Request)
    (device : Device) :
    ((authChangePasswordPost platform world request device).1.status = "200 OK" ∧
        (authChangePasswordPost platform world request device).2.sessions = Sessions.blank ∧
        (authChangePasswordPost platform world request device).2.clockUs = device.clockUs) ∨
      (authChangePasswordPost platform world request device).1.status ≠ "200 OK" ∧
        (authChangePasswordPost platform world request device).2.sessions = device.sessions ∧
        device.clockUs ≤ (authChangePasswordPost platform world request device).2.clockUs ∧
        (world.config.secondFails = false → world.config.commitFails = false →
          (authChangePasswordPost platform world request device).2.chassis = device.chassis) := by
  have refused {status : String} (elapsedUs : Nat) (other : status ≠ "200 OK") :
      status ≠ "200 OK" ∧ (device.wait elapsedUs).sessions = device.sessions ∧
        device.clockUs ≤ (device.wait elapsedUs).clockUs ∧
        (world.config.secondFails = false → world.config.commitFails = false →
          (device.wait elapsedUs).chassis = device.chassis) :=
    ⟨other, rfl, Nat.le_add_right _ _, fun _ _ => rfl⟩
  rw [authChangePasswordPost, requireAuth]
  split_ifs
  swap
  · exact .inr (refused 0 (by decide : "401 Unauthorized" ≠ "200 OK"))
  rw [withBody]
  cases recvJsonBody platform world request with
  | none => exact .inr (refused 0 (by decide : "400 Bad Request" ≠ "200 OK"))
  | some body =>
      dsimp only
      split
      swap
      · exact .inr (refused 0 (by decide : "400 Bad Request" ≠ "200 OK"))
      rename_i old new _ _
      by_cases short : textLength new < 8
      · rw [if_pos short]
        exact .inr (refused 0 (by decide : "400 Bad Request" ≠ "200 OK"))
      rw [if_neg short]
      split
      swap
      · exact .inr (refused 800000 (by decide : "401 Unauthorized" ≠ "200 OK"))
      split_ifs with failed
      · refine .inr ⟨(by decide : "500 Internal Server Error" ≠ "200 OK"), rfl, le_rfl, ?_⟩
        intro second commit
        rw [setAdminPassword_refused second commit failed]
        rfl
      · exact .inl ⟨rfl, rfl, rfl⟩

end Handlers

section Standing

variable {after : Device} {history : List SessionNote}

theorem agrees_waits (agrees : (sessionRun device history).Agrees)
    (sessions : after.sessions = device.sessions) (clock : device.clockUs ≤ after.clockUs) :
    (sessionRun after history).Agrees := by
  have waited := agrees.isValid [] (after.clockUs - device.clockUs)
  have same : (sessionRun device history).step ⟨after.clockUs - device.clockUs, .isValid []⟩ =
      sessionRun after history := by
    simp only [SessionRun.step, sessionRun, sessions, Nat.add_sub_cancel' clock]
  rwa [same] at waited

theorem agrees_wiped (sessions : after.sessions = Sessions.blank) :
    (sessionRun after (.wiped :: history)).Agrees := by
  have wiped := @SessionRun.Agrees.destroyAll (sessionRun after history) 0
  have same : (sessionRun after history).step ⟨0, .destroyAll⟩ =
      sessionRun after (.wiped :: history) := by
    simp only [SessionRun.step, sessionRun, sessions]
    rfl
  rwa [same] at wiped

/-- The notes of a request tell what it does to the sessions. -/
theorem handle_agrees (agrees : (sessionRun device history).Agrees) (route : Route)
    (fresh : ∀ token ∈
      (routeNotes platform world request device route).filterMap SessionNote.handedOut,
      token ∉ history.filterMap SessionNote.handedOut) :
    (sessionRun (handle platform world request device route).2
      (routeNotes platform world request device route ++ history)).Agrees := by
  by_cases other : route ∉ [Route.authLoginPost, .authLogoutPost, .authChangePasswordPost]
  · have seated := handle_seated platform world request device other
    have silent : routeNotes platform world request device route = [] := by
      cases route <;> first | rfl | exact absurd other (by decide)
    rw [silent]
    exact agrees_waits agrees (congrArg Prod.fst seated) (congrArg Prod.snd seated).ge
  cases route with
  | authLoginPost =>
      rw [handle, routeNotes] at *
      rcases authLoginPost_cases platform world request device with
        ⟨done, _, _, same⟩ | ⟨refused, elapsedUs, same⟩
      · rw [if_pos done] at fresh ⊢
        have unused : SessionToken.ofRandom world.random ∉ (sessionRun device history).tokens := by
          rw [SessionRun.tokens_eq]
          exact fresh _ (by simp [SessionNote.handedOut])
        rw [same]
        exact @SessionRun.Agrees.create _ agrees world.random 0 unused
      · rw [if_neg refused, same]
        exact agrees_waits agrees rfl (Nat.le_add_right _ _)
  | authLogoutPost =>
      rw [handle, routeNotes, authLogoutPost_eq]
      cases carried : extractCookieValue request.cookie cookieName ddSessionTokenLen with
      | none => exact agrees
      | some token =>
          have short := extractCookieValue_length carried
          have whole : Sessions.compared token = token :=
            List.take_of_length_le (Nat.le_sub_one_of_lt short)
          have destroyed := agrees.destroy token 0
          rw [SessionRun.step] at destroyed
          dsimp only at destroyed
          rw [whole] at destroyed
          exact destroyed
  | authChangePasswordPost =>
      rw [handle, routeNotes]
      rcases authChangePasswordPost_cases platform world request device with
        ⟨done, sessions, _⟩ | ⟨refused, sessions, clock, _⟩
      · rw [if_pos done]
        exact agrees_wiped sessions
      · rw [if_neg refused]
        exact agrees_waits agrees sessions clock
  | _ => exact absurd (by decide) other

/-- The notes of an event tell what it does to the sessions. -/
theorem perform_agrees (agrees : (sessionRun device history).Agrees) (event : DeviceEvent)
    (fresh : ∀ token ∈ (loginNotes platform device event).filterMap SessionNote.handedOut,
      token ∉ history.filterMap SessionNote.handedOut) :
    (sessionRun (device.perform platform event)
      (loginNotes platform device event ++ history)).Agrees := by
  cases event with
  | healthyBoot | saveUptime | background | bootButton => exact agrees_waits agrees rfl le_rfl
  | restart => exact agrees_wiped rfl
  | request uri method request world =>
      rw [perform, serve, loginNotes] at *
      cases found : findRoute uri method with
      | none => exact agrees
      | some route =>
          rw [found] at fresh
          exact handle_agrees agrees route fresh

/-- Over a run that hands out distinct tokens the notes tell all. -/
theorem run_agrees (platform : Platform) (flash : Flash) (actions : List DeviceAction)
    (distinct : ((loginHistory platform (boot platform flash) actions).filterMap
      SessionNote.handedOut).Nodup) :
    (sessionRun (run (step platform) (boot platform flash) actions)
      (loginHistory platform (boot platform flash) actions)).Agrees := by
  induction actions using List.reverseRecOn with
  | nil => exact SessionRun.Agrees.start
  | append_singleton past action ih =>
      rw [loginHistory_snoc, List.filterMap_append, List.nodup_append] at distinct
      obtain ⟨_, earlier, apart⟩ := distinct
      have waited : (sessionRun ((run (step platform) (boot platform flash) past).wait
          action.elapsedUs) (loginHistory platform (boot platform flash) past)).Agrees :=
        agrees_waits (ih earlier) rfl (Nat.le_add_right _ _)
      rw [loginHistory_snoc, run_append]
      refine perform_agrees waited action.event fun token new old => ?_
      exact apart token new token old rfl

/-- The cookies that get past `require_auth` are those of the sessions that stand. -/
theorem isAuthed_iff (agrees : (sessionRun device history).Agrees) :
    isAuthed request device = true ↔
      ∃ token atUs, extractCookieValue request.cookie cookieName ddSessionTokenLen =
          some token.bytes ∧
        Standing history token atUs ∧ device.clockUs < atUs + ttlUsec := by
  rw [isAuthed]
  cases carried : extractCookieValue request.cookie cookieName ddSessionTokenLen with
  | none => simp
  | some text =>
      refine (@SessionRun.Agrees.isValid_iff _ agrees text device.clockUs le_rfl).trans ?_
      constructor
      · rintro ⟨token, atUs, same, standing, live⟩
        exact ⟨token, atUs, by rw [same], standing, live⟩
      · rintro ⟨token, atUs, same, standing, live⟩
        exact ⟨token, atUs, (Option.some.inj same).symm, standing, live⟩

end Standing

/-- The event is a login with the admin's password, and its reply sets the token as the
cookie. -/
def LogsIn (platform : Platform) (device : Device) (token : SessionToken) : DeviceEvent → Prop
  | .request uri method request world =>
      findRoute uri method = some .authLoginPost ∧
        carriesPassword platform world request device = true ∧
        (serve platform world request device uri method).1.setCookie = some token.bytes
  | _ => False

/-- Only a login creates, and only a login evicts. -/
theorem loginNotes_login {event : DeviceEvent} {token : SessionToken} {atUs : Nat} :
    (.created token atUs ∈ loginNotes platform device event →
      atUs = device.clockUs ∧ LogsIn platform device token event) ∧
    (.evicted token ∈ loginNotes platform device event →
      device.sessions.evicted device.clockUs = some token) := by
  cases event with
  | healthyBoot | saveUptime | background | bootButton | restart => simp [loginNotes]
  | request uri method request world =>
      rw [loginNotes, LogsIn, serve]
      cases findRoute uri method with
      | none => simp
      | some route =>
          rw [Option.elim_some]
          cases route with
          | authLoginPost =>
              dsimp only [handle]
              rw [routeNotes]
              rcases authLoginPost_cases platform world request device with
                ⟨done, cookie, password, _⟩ | ⟨refused, _⟩
              · rw [cookie, if_pos done]
                refine ⟨fun member => ?_, fun member => by simpa using member⟩
                have created : token = .ofRandom world.random ∧ atUs = device.clockUs := by
                  simpa using member
                exact ⟨created.2, rfl, password, by rw [created.1]⟩
              · rw [if_neg refused]
                simp
          | authLogoutPost => simp [routeNotes]
          | authChangePasswordPost =>
              rw [routeNotes]
              split_ifs <;> simp
          | _ => simp [routeNotes]

/-- In every run of a device, restarts and all, that hands out distinct tokens: a request gets
past `require_auth` exactly when its cookie holds a token that a login with the admin's
password set as the cookie less than the TTL ago, and no logout with it, change of the
password, restart or later login has ended that session since. A later login ends one only when
it finds four valid sessions, and then one that was created first. -/
theorem authed_iff_loggedIn (platform : Platform) (flash : Flash) (actions : List DeviceAction)
    (distinct : ((loginHistory platform (boot platform flash) actions).filterMap
      SessionNote.handedOut).Nodup) :
    let device := run (step platform) (boot platform flash) actions
    let history := loginHistory platform (boot platform flash) actions
    (∀ request, isAuthed request device = true ↔
      ∃ token atUs, extractCookieValue request.cookie cookieName ddSessionTokenLen =
          some token.bytes ∧
        Standing history token atUs ∧ device.clockUs < atUs + ttlUsec) ∧
    ∀ past action rest, actions = past ++ action :: rest →
      let before := (run (step platform) (boot platform flash) past).wait action.elapsedUs
      (∀ token atUs, .created token atUs ∈ loginNotes platform before action.event →
        atUs = before.clockUs ∧ LogsIn platform before token action.event) ∧
      ∀ token, .evicted token ∈ loginNotes platform before action.event →
        (∃ valid : List SessionToken, valid.Nodup ∧ valid.length = 4 ∧
          ∀ other ∈ valid, before.sessions.isValid other.bytes before.clockUs = true) ∧
        ∃ atUs, Standing (loginHistory platform (boot platform flash) past) token atUs ∧
          ∀ other otherUs, Standing (loginHistory platform (boot platform flash) past) other
            otherUs → before.clockUs < otherUs + ttlUsec → atUs ≤ otherUs := by
  intro device history
  constructor
  · exact fun request => isAuthed_iff (run_agrees platform flash actions distinct)
  · rintro past action rest rfl before
    refine ⟨fun token atUs created => loginNotes_login.1 created, fun token evicted => ?_⟩
    rw [loginHistory_append, List.filterMap_append, List.nodup_append] at distinct
    have agrees := run_agrees platform flash past distinct.2.1
    obtain ⟨full, atUs, standing, _, least⟩ :=
      @SessionRun.Agrees.evicted_full _ agrees action.elapsedUs token
        (@loginNotes_login platform before action.event token 0 |>.2 evicted)
    exact ⟨full, atUs, standing, least⟩

section Credential

/-- The event does not tear the credential apart: a change of the password fails before its
second write or not at all, a setup or a restore can read whether there is an admin, and
nothing is reset to the factory. -/
def KeepsCredential (platform : Platform) (device : Device) : DeviceEvent → Prop
  | .request uri method request world =>
      (findRoute uri method = some .authChangePasswordPost →
        world.config.secondFails = false ∧ world.config.commitFails = false) ∧
      (findRoute uri method ∈ [some .setupPost, some .restorePost] →
        world.reads.hasAdminFails = false) ∧
      (findRoute uri method = some .factoryResetPost →
        resetConfirmed platform world request device = false)
  | .bootButton _ => False
  | _ => True

instance (device : Device) : ∀ event, Decidable (KeepsCredential platform device event)
  | .request _ _ _ _ => inferInstanceAs (Decidable ((_ → _) ∧ (_ → _) ∧ (_ → _)))
  | .healthyBoot | .saveUptime _ _ | .background _ _ _ | .restart => isTrue trivial
  | .bootButton _ => isFalse id

/-- The admin's salt and hash. -/
def credential (device : Device) : Option Bytes × Option Bytes :=
  (device.chassis.config.adminSalt, device.chassis.config.adminHash)

theorem Keeps.credential_of_account {result : Reply × Device} (kept : Keeps account device result) :
    Keeps credential device result := by
  have same : result.2.account = device.account := kept
  exact congrArg (fun view => view.2.2) same

theorem Keeps.credential_of_chassis {result : Reply × Device}
    (kept : result.2.chassis = device.chassis) : Keeps credential device result := by
  rw [Keeps, credential, kept]
  rfl

/-- A request to a configured device keeps its credential, unless it wipes the sessions. -/
theorem handle_credential {route : Route} (hasAdmin : device.chassis.config.hasAdmin = true)
    (torn : route = .authChangePasswordPost →
      world.config.secondFails = false ∧ world.config.commitFails = false)
    (seen : route ∈ [Route.setupPost, .restorePost] → world.reads.hasAdminFails = false)
    (unreset : route = .factoryResetPost → resetConfirmed platform world request device = false)
    (unwiped : .wiped ∉ routeNotes platform world request device route) :
    Keeps credential device (handle platform world request device route) := by
  by_cases moving : route ∈ movingRoutes
  swap
  · have kept := handle_unmoved platform world request device moving
    simp only [Keeps, credential, kept.adminSalt, kept.adminHash]
  cases route with
  | deviceNamePost => exact .credential_of_account deviceNamePost_account
  | ledPost => exact .credential_of_account ledPost_account
  | presenceTimeoutPost => exact .credential_of_account presenceTimeoutPost_account
  | ntpServerPost => exact .credential_of_account ntpServerPost_account
  | authLoginPost =>
      rcases authLoginPost_cases platform world request device with
        ⟨_, _, _, same⟩ | ⟨_, elapsedUs, same⟩ <;>
        exact .credential_of_chassis ((congrArg Device.chassis same).trans rfl)
  | authLogoutPost =>
      exact .credential_of_chassis
        ((congrArg Device.chassis (authLogoutPost_eq request device)).trans rfl)
  | authChangePasswordPost =>
      rcases authChangePasswordPost_cases platform world request device with
        ⟨done, _⟩ | ⟨_, _, _, same⟩
      · rw [routeNotes, if_pos done] at unwiped
        exact absurd (by simp) unwiped
      · exact .credential_of_chassis (same (torn rfl).1 (torn rfl).2)
  | setupPost =>
      rw [← Config.hasAdmin_reads (seen (by simp))] at hasAdmin
      rw [handle, Keeps, credential]
      rcases setupPost_cases platform world request hasAdmin with
        same | ⟨_, _, _, _, _, same⟩ <;> rw [same] <;> rfl
  | restorePost =>
      rw [← Config.hasAdmin_reads (seen (by simp))] at hasAdmin
      rw [handle, Keeps, restorePost_refuses hasAdmin]
  | factoryResetPost =>
      rw [handle, Keeps, factoryResetPost_eq, unreset rfl]
      rfl
  | _ => exact absurd moving (by decide)

theorem perform_credential {event : DeviceEvent} (hasAdmin : device.chassis.config.hasAdmin = true)
    (keeps : KeepsCredential platform device event)
    (unwiped : .wiped ∉ loginNotes platform device event) :
    (device.perform platform event).credential = device.credential := by
  cases event with
  | restart => exact absurd (by simp [loginNotes]) unwiped
  | bootButton => exact keeps.elim
  | saveUptime | background => rfl
  | healthyBoot =>
      rw [perform, otaMarkValidCb, Config.bootLoopClear]
      split_ifs <;> rfl
  | request uri method request world =>
      rw [perform, serve]
      rw [KeepsCredential] at keeps
      rw [loginNotes] at unwiped
      cases found : findRoute uri method with
      | none => rfl
      | some route =>
          rw [found] at keeps unwiped
          exact handle_credential hasAdmin (fun same => keeps.1 (congrArg some same))
            (fun member => keeps.2.1 (by simpa using member))
            (fun same => keeps.2.2 (congrArg some same)) unwiped

theorem hasAdmin_of_credential {first second : Device} (same : first.credential = second.credential) :
    first.chassis.config.hasAdmin = second.chassis.config.hasAdmin := by
  have hash : first.chassis.config.adminHash = second.chassis.config.adminHash :=
    congrArg Prod.snd same
  rw [Config.hasAdmin, Config.hasAdmin, hash]

/-- As long as no note wipes the sessions, the credential stays. -/
theorem run_credential {rest : List DeviceAction} (hasAdmin : device.chassis.config.hasAdmin = true)
    (keeps : Guarded (step platform) (Meets (KeepsCredential platform)) device rest)
    (unwiped : .wiped ∉ loginHistory platform device rest) :
    (run (step platform) device rest).credential = device.credential := by
  induction rest generalizing device with
  | nil => rfl
  | cons action rest ih =>
      rw [loginHistory, List.mem_append, not_or] at unwiped
      have first : (step platform device action).credential = device.credential :=
        @perform_credential platform (device.wait action.elapsedUs) action.event hasAdmin keeps.1
          unwiped.2
      rw [run_cons, ih ((hasAdmin_of_credential first).trans hasAdmin) keeps.2 unwiped.1, first]

/-- Two devices with one credential accept the same passwords. -/
theorem carriesPassword_congr {first second : Device} (same : first.credential = second.credential) :
    carriesPassword platform world request first =
      carriesPassword platform world request second := by
  have salt : first.chassis.config.adminSalt = second.chassis.config.adminSalt :=
    congrArg Prod.fst same
  have hash : first.chassis.config.adminHash = second.chassis.config.adminHash :=
    congrArg Prod.snd same
  have verifies (password : Bytes) :
      first.chassis.config.verifyAdminPassword platform.pbkdf2 password =
        second.chassis.config.verifyAdminPassword platform.pbkdf2 password := by
    rw [Config.verifyAdminPassword, Config.verifyAdminPassword, Config.getAdminBlob,
      Config.getAdminBlob, salt, hash]
  simp only [carriesPassword, verifies]

/-- A password is accepted only where there is an admin. -/
theorem hasAdmin_of_carriesPassword
    (carries : carriesPassword platform world request device = true) :
    device.chassis.config.hasAdmin = true := by
  obtain ⟨password, _, verified⟩ := (Option.any_eq_true _ _).mp carries
  rw [decide_eq_true_eq, Config.verifyAdminPassword_stored, Config.getAdminBlob] at verified
  rw [Config.hasAdmin_stored]
  cases stored : device.chassis.config.adminHash with
  | none =>
      rw [stored, show Blob.ofStored ddAdminHashLen none = none from rfl] at verified
      cases salted : Blob.ofStored ddAdminSaltLen device.chassis.config.adminSalt <;>
        simp [salted] at verified
  | some hash =>
      by_contra other
      have short : ¬ hash.length = ddAdminHashLen := by simpa using other
      have refused : Blob.ofStored ddAdminHashLen (some hash) = none := dif_neg short
      rw [stored, refused] at verified
      cases salted : Blob.ofStored ddAdminSaltLen device.chassis.config.adminSalt <;>
        simp [salted] at verified

/-- What stands was created at some point of the run, and no later note ends it. -/
theorem standing_login {start : Device} {actions : List DeviceAction} {token : SessionToken}
    {atUs : Nat} (standing : Standing (loginHistory platform start actions) token atUs) :
    ∃ past action rest, actions = past ++ action :: rest ∧
      .created token atUs ∈ loginNotes platform
        ((run (step platform) start past).wait action.elapsedUs) action.event ∧
      ∀ note ∈ loginHistory platform (run (step platform) start (past ++ [action])) rest,
        ¬ note.Ends token := by
  induction actions using List.reverseRecOn with
  | nil =>
      obtain ⟨newer, older, split, _⟩ := standing
      cases newer <;> cases split
  | append_singleton past action ih =>
      rw [loginHistory_snoc] at standing
      rcases standing.of_append with created | ⟨kept, still⟩
      · exact ⟨past, action, [], rfl, created, by simp [loginHistory]⟩
      · obtain ⟨early, login, rest, rfl, created, later⟩ := ih still
        refine ⟨early, login, rest ++ [action], by simp, created, fun note member => ?_⟩
        rw [loginHistory_snoc, List.mem_append, ← run_append] at member
        rcases member with last | before
        · exact kept note (by simpa using last)
        · exact later note before

/-- In every run of a device in which no change of the password breaks off between its writes,
setup and restore can read whether there is an admin, and nothing is reset to the factory:
whoever is let in has logged in since with a password that is still the admin's. -/
theorem authed_currentPassword (platform : Platform) (flash : Flash) (actions : List DeviceAction)
    (distinct : ((loginHistory platform (boot platform flash) actions).filterMap
      SessionNote.handedOut).Nodup)
    (whole : Guarded (step platform) (Meets (KeepsCredential platform)) (boot platform flash)
      actions) (request : Request)
    (authed : isAuthed request (run (step platform) (boot platform flash) actions) = true) :
    ∃ past elapsedUs uri method login world rest,
      actions = past ++ ⟨elapsedUs, .request uri method login world⟩ :: rest ∧
      findRoute uri method = some .authLoginPost ∧
      (serve platform world login ((run (step platform) (boot platform flash) past).wait elapsedUs)
        uri method).1.setCookie =
          extractCookieValue request.cookie cookieName ddSessionTokenLen ∧
      carriesPassword platform world login
        (run (step platform) (boot platform flash) actions) = true := by
  have agrees := run_agrees platform flash actions distinct
  rw [isAuthed] at authed
  cases carried : extractCookieValue request.cookie cookieName ddSessionTokenLen with
  | none => simp [carried] at authed
  | some text =>
      rw [carried] at authed
      obtain ⟨token, atUs, rfl, standing, _⟩ :=
        (@SessionRun.Agrees.isValid_iff _ agrees text _ le_rfl).mp authed
      obtain ⟨past, ⟨elapsedUs, event⟩, rest, rfl, created, later⟩ := standing_login standing
      have login := (loginNotes_login.1 created).2
      cases event with
      | request uri method loginRequest world =>
          obtain ⟨route, password, cookie⟩ := login
          refine ⟨past, elapsedUs, uri, method, loginRequest, world, rest, rfl, route, cookie, ?_⟩
          set before := (run (step platform) (boot platform flash) past).wait elapsedUs with isBefore
          set action : DeviceAction := ⟨elapsedUs, .request uri method loginRequest world⟩
          have admin := hasAdmin_of_carriesPassword password
          rw [guarded_append] at whole
          have first : (step platform (run (step platform) (boot platform flash) past)
              action).credential = before.credential := by
            refine perform_credential admin whole.2.1 fun wiped => ?_
            rw [loginNotes, route, Option.elim_some, routeNotes] at wiped
            split_ifs at wiped <;> simp at wiped
          have kept := run_credential ((hasAdmin_of_credential first).trans admin) whole.2.2
            fun wiped => later .wiped (by rw [run_append]; exact wiped) trivial
          rw [run_append, run_cons, carriesPassword_congr (kept.trans first)]
          exact password
      | healthyBoot | saveUptime | background | bootButton | restart => exact login.elim

/-- A login and a visit of a page with the cookie it set. -/
def loginActions : List DeviceAction :=
  [postTexts "/api/setup" [] [("admin_password", "correct horse")],
    postTexts "/api/auth/login" [] [("password", "correct horse")]]

/-- The cookie of that login. -/
def loggedInRequest : Request where
  cookie := cookieName ++ ascii "=" ++ sampleToken
  body := []

theorem authed_iff_loggedIn_sample :
    ∃ token atUs, extractCookieValue loggedInRequest.cookie cookieName ddSessionTokenLen =
        some token.bytes ∧
      Standing (loginHistory samplePlatform (boot samplePlatform Flash.blank) loginActions) token
        atUs ∧
      (run (step samplePlatform) (boot samplePlatform Flash.blank) loginActions).clockUs <
        atUs + ttlUsec :=
  ((authed_iff_loggedIn samplePlatform Flash.blank loginActions (by decide +kernel)).1
    loggedInRequest).mp (by decide +kernel)

theorem authed_currentPassword_sample :
    ∃ past elapsedUs uri method login world rest,
      loginActions = past ++ ⟨elapsedUs, .request uri method login world⟩ :: rest ∧
      carriesPassword samplePlatform world login
        (run (step samplePlatform) (boot samplePlatform Flash.blank) loginActions) = true := by
  obtain ⟨past, elapsedUs, uri, method, login, world, rest, split, _, _, carries⟩ :=
    authed_currentPassword samplePlatform Flash.blank loginActions (by decide +kernel)
      (by decide +kernel) loggedInRequest (by decide +kernel)
  exact ⟨past, elapsedUs, uri, method, login, world, rest, split, carries⟩

end Credential

end Device

end LeanDingdong
