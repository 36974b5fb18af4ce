import Dingdong.BlePairingNumcmp
import Dingdong.BlePairingWindow
import Dingdong.HttpLogins

/-!
The pairing handlers of `dd_http_devices.c`: the device and its Bluetooth host in one run.
Requests, GAP events, timers and restarts come in any order; what the other handlers ask of
`dd_ble` comes as events of the host.
-/

namespace LeanDingdong

open Runs

/-- Nothing but the handlers below calls these. -/
def HostEvent.called : HostEvent → Bool
  | .pairingStart _ | .pairingCancel | .pairingConfirm _ => true
  | _ => false

structure PairingDevice where
  device : Device
  host : BleHost

inductive PairingEvent where
  /-- with the answer of `ble_sm_inject_io` to a confirmation -/
  | device (event : DeviceEvent) (injectFails : Bool)
  | host (event : HostEvent) (uncalled : event.called = false)

/-- An event after some time without one. -/
structure PairingAction where
  elapsedUs : Nat
  event : PairingEvent

/-- `dd_ble_pairing_remaining_ms` -/
def Ble.remainingMs (ble : Ble) : Nat := (ble.pairingUntilUs - ble.clockUs) / 1000

namespace PairingDevice

section Handlers

variable (platform : Platform) (world : World) (request : Request) (paired : PairingDevice)

/-- `require_auth` and the handler after it. -/
def requireAuth (handler : Reply × PairingDevice) : Reply × PairingDevice :=
  if isAuthed request paired.device then handler
  else (.text "401 Unauthorized" "auth required", paired)

/-- `ttl_ms` of the body, of which there may be none. -/
def startTtlMs : Int :=
  ((recvJsonBody platform world request).bind fun body => body.getInt (ascii "ttl_ms")).getD 30000

def pairingStartPost : Reply × PairingDevice :=
  let ttlMs := startTtlMs platform world request
  let host := paired.host.pairingStart ttlMs
  requireAuth request paired
    ({ status := "200 OK"
       content := .json (.object [(ascii "ttl_ms", .number ttlMs),
        (ascii "remaining_ms", .number host.ble.remainingMs)]) },
      { paired with host := host })

def pairingCancelPost : Reply × PairingDevice :=
  requireAuth request paired
    (.text "200 OK" "ok", { paired with host := paired.host.pairingCancel })

def pairingStatusGet : Reply × PairingDevice :=
  let active := paired.host.ble.pairingActive
  ({ status := "200 OK"
     content := .json (.object
      ([(ascii "active", .bool active), (ascii "remaining_ms", .number paired.host.ble.remainingMs)]
        ++ if active && isAuthed request paired.device then
          [(ascii "numcmp", .number paired.host.numcmp)] else [])) },
    paired)

/-- `accept` of the body. -/
def confirmAccepts : Bool :=
  ((recvJsonBody platform world request).bind fun body => body.getBool (ascii "accept")).getD true

def pairingConfirmPost (injectFails : Bool) : Reply × PairingDevice :=
  let accept := confirmAccepts platform world request
  requireAuth request paired <|
    if paired.host.numcmpHandle = noHandle then
      (.text "404 Not Found" "no pairing awaiting confirm", paired)
    else
      (if injectFails then .text "500 Internal Server Error" "inject failed"
        else .text "200 OK" (if accept then "accepted" else "rejected"),
        { paired with host := paired.host.pairingConfirm accept })

/-- The other handlers leave the host alone; one of them may take a while. -/
def serve (injectFails : Bool) (uri : String) (method : Method) : Reply × PairingDevice :=
  match findRoute uri method with
  | some .pairingStartPost => pairingStartPost platform world request paired
  | some .pairingCancelPost => pairingCancelPost request paired
  | some .pairingStatusGet => pairingStatusGet request paired
  | some .pairingConfirmPost => pairingConfirmPost platform world request paired injectFails
  | _ =>
      let served := LeanDingdong.serve platform world request paired.device uri method
      (served.1,
        { device := served.2
          host := paired.host.wait (served.2.clockUs - paired.device.clockUs) })

end Handlers

/-- A host after a start of the device, with the bonds and the log of the flash. -/
def bootHost (device : Device) (bonds : List Bond) (log : List PeerEvent) : BleHost :=
  let host := BleHost.boot device.clockUs device.settings.presenceTimeout log
  { host with ble := { host.ble with bonds := bonds } }

def boot (platform : Platform) (flash : Flash) (log : List PeerEvent) : PairingDevice :=
  let device := Device.boot platform flash
  { device := device, host := bootHost device flash.bonds log }

def reboot (paired : PairingDevice) (device : Device) : PairingDevice where
  device := device
  host := bootHost device paired.host.ble.bonds paired.host.ble.events.log

def perform (radio : Radio) (platform : Platform) (paired : PairingDevice) :
    PairingEvent → PairingDevice
  | .device (.request uri method request world) injectFails =>
      (serve platform world request paired injectFails uri method).2
  | .device .restart _ => paired.reboot (paired.device.restart platform)
  | .device event _ => { paired with device := paired.device.perform platform event }
  | .host event _ => { paired with host := paired.host.perform radio event }

def wait (paired : PairingDevice) (elapsedUs : Nat) : PairingDevice where
  device := paired.device.wait elapsedUs
  host := paired.host.wait elapsedUs

def step (radio : Radio) (platform : Platform) (paired : PairingDevice) (action : PairingAction) :
    PairingDevice :=
  (paired.wait action.elapsedUs).perform radio platform action.event

section Device

/-- What the device sees of an event. -/
def deviceEvent (paired : PairingDevice) : PairingEvent → DeviceEvent
  | .device event _ => event
  | .host _ _ => .background paired.device.registry paired.device.store paired.device.bonds

def deviceActions (radio : Radio) (platform : Platform) :
    PairingDevice → List PairingAction → List DeviceAction
  | _, [] => []
  | paired, action :: rest =>
      ⟨action.elapsedUs, deviceEvent paired action.event⟩ ::
        deviceActions radio platform (paired.step radio platform action) rest

variable {platform : Platform} {world : World} {request : Request} {paired : PairingDevice}

theorem device_requireAuth {handler : Reply × PairingDevice}
    (kept : handler.2.device = paired.device) :
    (requireAuth request paired handler).2.device = paired.device := by
  rw [requireAuth]
  split_ifs
  · exact kept
  · rfl

/-- Behind `require_auth` a handler that keeps nothing leaves the device alone. -/
theorem shownWithAuth_device (request : Request) (device : Device) :
    (shownWithAuth request device).2 = device := by
  rw [shownWithAuth, LeanDingdong.requireAuth]
  split_ifs <;> rfl

theorem device_pairingStartPost :
    (pairingStartPost platform world request paired).2.device = paired.device :=
  device_requireAuth rfl

theorem device_pairingCancelPost : (pairingCancelPost request paired).2.device = paired.device :=
  device_requireAuth rfl

theorem device_pairingConfirmPost (injectFails : Bool) :
    (pairingConfirmPost platform world request paired injectFails).2.device = paired.device := by
  refine device_requireAuth ?_
  split_ifs <;> rfl

theorem device_serve (injectFails : Bool) (uri : String) (method : Method) :
    (serve platform world request paired injectFails uri method).2.device =
      (LeanDingdong.serve platform world request paired.device uri method).2 := by
  rw [serve]
  split
  · rename_i found
    rw [LeanDingdong.serve, found]
    exact device_pairingStartPost.trans (shownWithAuth_device request paired.device).symm
  · rename_i found
    rw [LeanDingdong.serve, found]
    exact device_pairingCancelPost.trans (shownWithAuth_device request paired.device).symm
  · rename_i found
    rw [LeanDingdong.serve, found]
    rfl
  · rename_i found
    rw [LeanDingdong.serve, found]
    exact (device_pairingConfirmPost injectFails).trans (shownWithAuth_device _ _).symm
  · rfl

theorem device_perform (radio : Radio) (event : PairingEvent) :
    (paired.perform radio platform event).device =
      paired.device.perform platform (paired.deviceEvent event) := by
  cases event with
  | host event uncalled => rfl
  | device event injectFails =>
      cases event with
      | request uri method request world => exact device_serve injectFails uri method
      | bootButton | restart | healthyBoot | saveUptime | background => rfl

/-- The device takes the steps of the device alone. -/
theorem device_run (radio : Radio) (start : PairingDevice) (actions : List PairingAction) :
    (run (step radio platform) start actions).device =
      run (Device.step platform) start.device (deviceActions radio platform start actions) := by
  induction actions generalizing start with
  | nil => rfl
  | cons action rest ih =>
      rw [run_cons, ih, deviceActions, run_cons]
      exact congrArg (fun device => run (Device.step platform) device _)
        (device_perform radio action.event)

end Device

section Window

/-- A request with a login opens the window. -/
def Opens (platform : Platform) (paired : PairingDevice) (request : Request) (ttlMs : Int)
    (event : PairingEvent) : Prop :=
  ∃ uri method world injectFails,
    event = .device (.request uri method request world) injectFails ∧
      findRoute uri method = some .pairingStartPost ∧ isAuthed request paired.device = true ∧
      startTtlMs platform world request = ttlMs

/-- A request with a login accepts the comparison. -/
def Confirms (platform : Platform) (paired : PairingDevice) (request : Request)
    (event : PairingEvent) : Prop :=
  ∃ uri method world injectFails,
    event = .device (.request uri method request world) injectFails ∧
      findRoute uri method = some .pairingConfirmPost ∧ isAuthed request paired.device = true ∧
      confirmAccepts platform world request = true

/-- The event neither opens a window nor closes one, and the device stays up. -/
def Leaves (paired : PairingDevice) : PairingEvent → Prop
  | .device (.request uri method request _) _ => isAuthed request paired.device = true →
      findRoute uri method ≠ some .pairingStartPost ∧
        findRoute uri method ≠ some .pairingCancelPost
  | .device .restart _ => False
  | .host (.gap (.encChange _ status)) _ => status ≠ 0
  | _ => True

/-- The event brings the number that is pending after it. -/
def Compares (host : BleHost) (event : PairingEvent) : Prop :=
  ∃ uncalled, event = .host (.gap (.passkeyAction host.numcmpHandle (some host.numcmp))) uncalled

variable {platform : Platform} {world : World} {request : Request} {paired : PairingDevice}

/-- An event of the host leaves the pending number, clears it or brings it into an open window. -/
theorem host_number (radio : Radio) (host : BleHost) {event : HostEvent}
    (uncalled : event.called = false) :
    ((host.perform radio event).numcmp = host.numcmp ∧
        (host.perform radio event).numcmpHandle = host.numcmpHandle) ∨
      (host.perform radio event).Unpending ∨
      (host.ble.pairingActive = true ∧
        Compares (host.perform radio event) (.host event uncalled)) := by
  cases event with
  | pairingStart | pairingCancel | pairingConfirm => cases uncalled
  | bonded | outside => exact .inl ⟨rfl, rfl⟩
  | pairingExpire =>
      rw [BleHost.perform, BleHost.pairingExpire]
      split_ifs
      · exact .inr (.inl (BleHost.unpending_clear _ _))
      · exact .inl ⟨rfl, rfl⟩
  | gap gap =>
      cases gap with
      | connect handle peer =>
          refine .inl ?_
          simp only [BleHost.perform, BleHost.gapEventCb]
          split_ifs <;> exact ⟨rfl, rfl⟩
      | encChange handle status =>
          cases status with
          | zero => exact .inr (.inl (BleHost.unpending_encChange handle))
          | succ status => exact .inl ⟨rfl, rfl⟩
      | passkeyAction handle numcmp =>
          cases numcmp with
          | none => exact .inl ⟨rfl, rfl⟩
          | some numcmp =>
              by_cases active : host.ble.pairingActive = true
              · refine .inr (.inr ⟨active, uncalled, ?_⟩)
                rw [BleHost.perform, BleHost.gapEventCb, if_pos active]
                rfl
              · refine .inl ?_
                rw [BleHost.perform, BleHost.gapEventCb, if_neg active]
                exact ⟨rfl, rfl⟩
      | repeatPairing handle =>
          refine .inl ?_
          simp only [BleHost.perform, BleHost.gapEventCb]
          cases host.connFind handle <;> exact ⟨rfl, rfl⟩
      | disconnect | connectFailed | advComplete | connUpdate | subscribe | other =>
          exact .inl ⟨rfl, rfl⟩

/-- What an event does to the window: a request with a login opens it, it is closed with
nothing pending, or it stays. -/
theorem perform_cases (radio : Radio) (event : PairingEvent) :
    (∃ request ttlMs, Opens platform paired request ttlMs event ∧
      (paired.perform radio platform event).host = paired.host.pairingStart ttlMs) ∨
    ((paired.perform radio platform event).host.ble.pairingUntilUs = 0 ∧
      (paired.perform radio platform event).host.Unpending) ∨
    ((paired.perform radio platform event).host.ble.pairingUntilUs =
        paired.host.ble.pairingUntilUs ∧
      paired.Leaves event ∧
      (((paired.perform radio platform event).host.numcmp = paired.host.numcmp ∧
          (paired.perform radio platform event).host.numcmpHandle = paired.host.numcmpHandle) ∨
        (paired.perform radio platform event).host.Unpending ∨
        (paired.host.ble.pairingActive = true ∧
          Compares (paired.perform radio platform event).host event))) := by
  cases event with
  | host event uncalled =>
      rcases BleHost.perform_window radio paired.host event with
        ⟨ttlMs, started, _⟩ | ⟨closed, unpending, _⟩ | ⟨same, quiet, _⟩
      · rw [started] at uncalled
        cases uncalled
      · exact .inr (.inl ⟨closed, unpending⟩)
      · refine .inr (.inr ⟨same, ?_, host_number radio paired.host uncalled⟩)
        cases event with
        | gap gap =>
            cases gap with
            | encChange handle status =>
                rintro rfl
                cases quiet 0 (some (.opened 0 0))
            | _ => trivial
        | _ => trivial
  | device event injectFails =>
      cases event with
      | restart => exact .inr (.inl ⟨rfl, rfl, rfl⟩)
      | healthyBoot | saveUptime | background | bootButton =>
          exact .inr (.inr ⟨rfl, trivial, .inl ⟨rfl, rfl⟩⟩)
      | request uri method request world =>
          have refused (handler : Reply × PairingDevice)
              (unauthed : isAuthed request paired.device ≠ true) :
              (requireAuth request paired handler).2 = paired := by
            rw [requireAuth, if_neg unauthed]
          by_cases authed : isAuthed request paired.device = true
          · rw [perform, serve]
            split
            · rename_i found
              refine .inl ⟨request, startTtlMs platform world request,
                ⟨uri, method, world, injectFails, rfl, found, authed, rfl⟩, ?_⟩
              rw [pairingStartPost, requireAuth, if_pos authed]
            · rw [pairingCancelPost, requireAuth, if_pos authed]
              refine .inr (.inl ⟨?_, BleHost.unpending_cancel paired.host⟩)
              rw [ble_pairingCancel]
              rfl
            · rename_i found
              exact .inr (.inr ⟨rfl, fun _ => by simp [found], .inl ⟨rfl, rfl⟩⟩)
            · rename_i found
              refine .inr (.inr ?_)
              rw [pairingConfirmPost, requireAuth, if_pos authed]
              by_cases none : paired.host.numcmpHandle = noHandle
              · rw [if_pos none]
                exact ⟨rfl, fun _ => by simp [found], .inl ⟨rfl, rfl⟩⟩
              · rw [if_neg none, BleHost.pairingConfirm, if_neg none]
                exact ⟨rfl, fun _ => by simp [found], .inr (.inl ⟨rfl, rfl⟩)⟩
            · rename_i notStart notCancel _ _
              exact .inr (.inr ⟨rfl, fun _ => ⟨notStart, notCancel⟩, .inl ⟨rfl, rfl⟩⟩)
          · refine .inr (.inr ?_)
            have leaves : paired.Leaves (.device (.request uri method request world) injectFails) :=
              fun granted => absurd granted authed
            rw [perform, serve]
            split
            · rw [pairingStartPost, refused _ authed]
              exact ⟨rfl, leaves, .inl ⟨rfl, rfl⟩⟩
            · rw [pairingCancelPost, refused _ authed]
              exact ⟨rfl, leaves, .inl ⟨rfl, rfl⟩⟩
            · exact ⟨rfl, leaves, .inl ⟨rfl, rfl⟩⟩
            · rw [pairingConfirmPost, refused _ authed]
              exact ⟨rfl, leaves, .inl ⟨rfl, rfl⟩⟩
            · exact ⟨rfl, leaves, .inl ⟨rfl, rfl⟩⟩

/-- A comparison is accepted while the window is open, or by a request with a login. -/
theorem accepts_cases (radio : Radio) {event : PairingEvent} {handle : Nat}
    (accepted : paired.host.acceptances handle <
      (paired.perform radio platform event).host.acceptances handle) :
    paired.host.ble.pairingActive = true ∨ ∃ request, Confirms platform paired request event := by
  have unchanged {after : BleHost} (same : after.acceptances handle = paired.host.acceptances handle)
      (grew : paired.host.acceptances handle < after.acceptances handle) : False :=
    absurd same (Nat.ne_of_gt grew)
  cases event with
  | host event uncalled =>
      cases event with
      | pairingStart | pairingCancel | pairingConfirm => cases uncalled
      | bonded | outside => exact (unchanged rfl accepted).elim
      | gap gap => exact .inl (BleHost.acceptances_active accepted)
      | pairingExpire =>
          refine (unchanged ?_ accepted).elim
          rw [perform, BleHost.perform, BleHost.pairingExpire]
          split_ifs
          · exact BleHost.acceptances_cancel paired.host handle
          · rfl
  | device event injectFails =>
      cases event with
      | restart => exact absurd accepted (Nat.not_lt_zero _)
      | healthyBoot | saveUptime | background | bootButton => exact (unchanged rfl accepted).elim
      | request uri method request world =>
          by_cases authed : isAuthed request paired.device = true
          · rw [perform, serve] at accepted
            split at accepted
            · rw [pairingStartPost, requireAuth, if_pos authed] at accepted
              refine (unchanged ?_ accepted).elim
              simp [BleHost.pairingStart, BleHost.clearNumcmpPending, BleHost.acceptances]
            · rw [pairingCancelPost, requireAuth, if_pos authed] at accepted
              exact (unchanged (BleHost.acceptances_cancel paired.host handle) accepted).elim
            · exact (unchanged rfl accepted).elim
            · rename_i found
              refine .inr ⟨request, uri, method, world, injectFails, rfl, found, authed, ?_⟩
              rw [pairingConfirmPost, requireAuth, if_pos authed] at accepted
              by_contra rejects
              by_cases none : paired.host.numcmpHandle = noHandle
              · rw [if_pos none] at accepted
                exact unchanged rfl accepted
              · rw [if_neg none, BleHost.pairingConfirm, if_neg none] at accepted
                refine unchanged ((BleHost.acceptances_call _ _).trans ?_) accepted
                simp [rejects]
            · exact (unchanged rfl accepted).elim
          · refine (unchanged ?_ accepted).elim
            rw [perform, serve]
            split
            · rw [pairingStartPost, requireAuth, if_neg authed]
            · rw [pairingCancelPost, requireAuth, if_neg authed]
            · rfl
            · rw [pairingConfirmPost, requireAuth, if_neg authed]
            · rfl

end Window

section Openings

/-- A window by the request that opened it, with the steps before it and since. -/
structure Opening where
  earlier : List PairingAction
  action : PairingAction
  since : List PairingAction
  request : Request
  ttlMs : Int

namespace Opening

def past (opening : Opening) : List PairingAction :=
  opening.earlier ++ opening.action :: opening.since

variable (radio : Radio) (platform : Platform) (start : PairingDevice) (opening : Opening)

/-- What the request finds. -/
def before : PairingDevice :=
  (run (step radio platform) start opening.earlier).wait opening.action.elapsedUs

def window : PairingWindow :=
  .opened (opening.before radio platform start).host.ble.clockUs opening.ttlMs

/-- The window is the one at the end of the steps since. -/
structure Explains : Prop where
  opens : Opens platform (opening.before radio platform start) opening.request opening.ttlMs
    opening.action.event
  undisturbed : Guarded (step radio platform)
    (fun paired action => (paired.wait action.elapsedUs).Leaves action.event)
    ((opening.before radio platform start).perform radio platform opening.action.event)
    opening.since
  deadline : (run (step radio platform) start opening.past).host.ble.pairingUntilUs =
    (opening.window radio platform start).endUs
  number : (run (step radio platform) start opening.past).host.Unpending ∨
    ∃ action ∈ opening.since,
      Compares (run (step radio platform) start opening.past).host action.event

end Opening

variable {radio : Radio} {platform : Platform} {start : PairingDevice}

theorem run_past (opening : Opening) :
    run (step radio platform) start opening.past =
      run (step radio platform)
        ((opening.before radio platform start).perform radio platform opening.action.event)
        opening.since := by
  rw [Opening.past, run_append, run_cons]
  rfl

/-- A step that leaves the window leaves what explains it. -/
theorem Opening.Explains.extend {opening : Opening}
    (explains : opening.Explains radio platform start) (action : PairingAction)
    (deadline : (run (step radio platform) start (opening.past ++ [action])).host.ble.pairingUntilUs =
      (run (step radio platform) start opening.past).host.ble.pairingUntilUs)
    (leaves : ((run (step radio platform) start opening.past).wait action.elapsedUs).Leaves
      action.event)
    (number : ((run (step radio platform) start (opening.past ++ [action])).host.numcmp =
          (run (step radio platform) start opening.past).host.numcmp ∧
        (run (step radio platform) start (opening.past ++ [action])).host.numcmpHandle =
          (run (step radio platform) start opening.past).host.numcmpHandle) ∨
      (run (step radio platform) start (opening.past ++ [action])).host.Unpending ∨
      Compares (run (step radio platform) start (opening.past ++ [action])).host action.event) :
    Opening.Explains radio platform start { opening with since := opening.since ++ [action] } := by
  have past : Opening.past { opening with since := opening.since ++ [action] } =
      opening.past ++ [action] := by simp [Opening.past]
  refine ⟨explains.opens, ?_, ?_, ?_⟩
  · refine (guarded_snoc _ _).mpr ⟨explains.undisturbed, ?_⟩
    rw [run_past] at leaves
    exact leaves
  · rw [past, deadline]
    exact explains.deadline
  · rw [past]
    rcases number with ⟨numcmp, handle⟩ | unpending | compares
    · rcases explains.number with unpending | ⟨other, member, compares⟩
      · exact .inl ⟨numcmp.trans unpending.1, handle.trans unpending.2⟩
      · refine .inr ⟨other, List.mem_append_left _ member, ?_⟩
        rw [Compares, numcmp, handle]
        exact compares
    · exact .inl unpending
    · exact .inr ⟨action, by simp, compares⟩

/-- In every state the window is closed with nothing pending, or a request with a login opened
it. -/
theorem window_explained (closed : start.host.ble.pairingUntilUs = 0)
    (unpending : start.host.Unpending) (past : List PairingAction) :
    ((run (step radio platform) start past).host.ble.pairingUntilUs = 0 ∧
        (run (step radio platform) start past).host.Unpending) ∨
      ∃ opening : Opening, opening.past = past ∧ opening.Explains radio platform start := by
  induction past using List.reverseRecOn with
  | nil => exact .inl ⟨closed, unpending⟩
  | append_singleton past action ih =>
      have last : run (step radio platform) start (past ++ [action]) =
          ((run (step radio platform) start past).wait action.elapsedUs).perform radio platform
            action.event := by
        rw [run_append]
        rfl
      rcases @perform_cases platform ((run (step radio platform) start past).wait action.elapsedUs)
          radio action.event with
        ⟨request, ttlMs, opens, host⟩ | ⟨shut, clear⟩ | ⟨same, leaves, number⟩
      · refine .inr ⟨⟨past, action, [], request, ttlMs⟩, rfl, opens, trivial, ?_, .inl ?_⟩
        · rw [Opening.past, last, host]
          exact congrArg Ble.pairingUntilUs (ble_clearNumcmpPending _ _)
        · rw [Opening.past, last, host]
          exact BleHost.unpending_clear _ _
      · rw [last]
        exact .inl ⟨shut, clear⟩
      · rcases ih with ⟨shut, clear⟩ | ⟨opening, rfl, explains⟩
        · refine .inl ⟨?_, ?_⟩
          · rw [last, same]
            exact shut
          · rw [last]
            rcases number with ⟨numcmp, handle⟩ | unpending | ⟨active, _⟩
            · exact ⟨numcmp.trans clear.1, handle.trans clear.2⟩
            · exact unpending
            · have inactive : ((run (step radio platform) start past).wait
                  action.elapsedUs).host.ble.pairingActive = false := by
                rw [Ble.pairingActive]
                exact decide_eq_false (by simp [wait, BleHost.wait, Ble.wait, shut])
              rw [inactive] at active
              cases active
        · refine .inr ⟨{ opening with since := opening.since ++ [action] }, by simp [Opening.past], ?_⟩
          refine explains.extend action ?_ leaves ?_
          · rw [last, same]
            rfl
          · rw [last]
            exact number.imp id fun other => other.imp id And.right

theorem clock_serve {world : World} {request : Request} {paired : PairingDevice}
    (injectFails : Bool) (uri : String) (method : Method) :
    paired.host.ble.clockUs ≤
      (serve platform world request paired injectFails uri method).2.host.ble.clockUs := by
  have guarded {handler : Reply × PairingDevice}
      (kept : handler.2.host.ble.clockUs = paired.host.ble.clockUs) :
      paired.host.ble.clockUs ≤ (requireAuth request paired handler).2.host.ble.clockUs := by
    rw [requireAuth]
    split_ifs
    · exact kept.ge
    · exact le_rfl
  rw [serve]
  split
  · exact guarded ((congrArg Ble.clockUs (ble_clearNumcmpPending _ _)).trans rfl)
  · exact guarded ((congrArg Ble.clockUs (ble_pairingCancel paired.host)).trans rfl)
  · exact le_rfl
  · refine guarded ?_
    rw [BleHost.pairingConfirm]
    split_ifs <;> rfl
  · exact Nat.le_add_right _ _

/-- The clock of a host that stays up does not go back. -/
theorem clock_perform {paired : PairingDevice} {event : PairingEvent}
    (leaves : paired.Leaves event) :
    paired.host.ble.clockUs ≤ (paired.perform radio platform event).host.ble.clockUs := by
  cases event with
  | host event uncalled =>
      refine Nat.le_of_eq (Eq.symm ?_)
      rw [perform, BleHost.perform_seen, Ble.clockUs_perform]
  | device event injectFails =>
      cases event with
      | restart => exact leaves.elim
      | healthyBoot | saveUptime | background | bootButton => exact le_rfl
      | request uri method request world => exact clock_serve injectFails uri method

theorem clock_run {paired : PairingDevice} {actions : List PairingAction}
    (undisturbed : Guarded (step radio platform)
      (fun paired action => (paired.wait action.elapsedUs).Leaves action.event) paired actions) :
    paired.host.ble.clockUs ≤ (run (step radio platform) paired actions).host.ble.clockUs :=
  run_invariant (fun later => paired.host.ble.clockUs ≤ later.host.ble.clockUs)
    (fun _ _ so leaves => so.trans ((Nat.le_add_right _ _).trans (clock_perform leaves))) le_rfl
    undisturbed

end Openings

section Logins

variable {radio : Radio} {platform : Platform}

theorem deviceActions_append (start : PairingDevice) (past rest : List PairingAction) :
    deviceActions radio platform start (past ++ rest) =
      deviceActions radio platform start past ++
        deviceActions radio platform (run (step radio platform) start past) rest := by
  induction past generalizing start with
  | nil => rfl
  | cons action past ih =>
      rw [List.cons_append, deviceActions, ih, deviceActions, run_cons, List.cons_append]

/-- What the requests of a run did to the sessions. -/
def logins (radio : Radio) (platform : Platform) (flash : Flash) (log : List PeerEvent)
    (actions : List PairingAction) : List SessionNote :=
  Device.loginHistory platform (Device.boot platform flash)
    (deviceActions radio platform (boot platform flash log) actions)

/-- A login with the admin's password set the cookie less than the TTL ago, and nothing has
ended that session since. -/
def LoggedIn (history : List SessionNote) (device : Device) (request : Request) : Prop :=
  ∃ token atUs, extractCookieValue request.cookie cookieName ddSessionTokenLen =
      some token.bytes ∧
    Standing history token atUs ∧ device.clockUs < atUs + ttlUsec

/-- Who gets past `require_auth` in the middle of a run has logged in. -/
theorem loggedIn_of_authed {flash : Flash} {log : List PeerEvent} {past rest : List PairingAction}
    (distinct : ((logins radio platform flash log (past ++ rest)).filterMap
      SessionNote.handedOut).Nodup) {request : Request} {elapsedUs : Nat}
    (authed : isAuthed request ((run (step radio platform) (boot platform flash log) past).wait
      elapsedUs).device = true) :
    LoggedIn (logins radio platform flash log past)
      ((run (step radio platform) (boot platform flash log) past).wait elapsedUs).device
      request := by
  rw [logins, deviceActions_append, Device.loginHistory_append, List.filterMap_append,
    List.nodup_append] at distinct
  have agrees := Device.run_agrees platform flash _ distinct.2.1
  rw [show Device.boot platform flash = (boot platform flash log).device from rfl,
    ← device_run] at agrees
  have waited : (Device.sessionRun ((run (step radio platform) (boot platform flash log) past).wait
      elapsedUs).device (logins radio platform flash log past)).Agrees :=
    Device.agrees_waits agrees rfl (Nat.le_add_right _ _)
  exact (Device.isAuthed_iff waited).mp authed

/-- In every run, restarts and all, that hands out distinct tokens: a numeric comparison is
accepted only by a confirmation with a login, or inside a window that a request with a login
opened at most two minutes before, and that no such request has cancelled or opened again since,
no pairing has used up and no restart has forgotten. -/
theorem accepted_byLogin (radio : Radio) (platform : Platform) (flash : Flash)
    (log : List PeerEvent) (past rest : List PairingAction) (action : PairingAction)
    (distinct : ((logins radio platform flash log (past ++ action :: rest)).filterMap
      SessionNote.handedOut).Nodup) (handle : Nat)
    (accepted : ((run (step radio platform) (boot platform flash log) past).wait
        action.elapsedUs).host.acceptances handle <
      ((run (step radio platform) (boot platform flash log) past).step radio platform
        action).host.acceptances handle) :
    let start := boot platform flash log
    let before := (run (step radio platform) start past).wait action.elapsedUs
    (∃ request, Confirms platform before request action.event ∧
      LoggedIn (logins radio platform flash log past) before.device request) ∨
    ∃ opening : Opening, opening.past = past ∧ opening.Explains radio platform start ∧
      (opening.window radio platform start).openedUs ≤ before.host.ble.clockUs ∧
      before.host.ble.clockUs < (opening.window radio platform start).endUs ∧
      LoggedIn (logins radio platform flash log opening.earlier)
        (opening.before radio platform start).device opening.request := by
  intro start before
  rcases accepts_cases radio accepted with active | ⟨request, confirms⟩
  · have running := BleHost.pairingActive_iff.mp active
    rcases @window_explained radio platform start rfl ⟨rfl, rfl⟩ past with
      ⟨shut, _⟩ | ⟨opening, rfl, explains⟩
    · exact absurd running (by simp [wait, BleHost.wait, Ble.wait, start, shut])
    refine .inr ⟨opening, rfl, explains, ?_, running.trans_eq explains.deadline, ?_⟩
    · obtain ⟨uri, method, world, injectFails, event, _⟩ := explains.opens
      have since := clock_run explains.undisturbed
      rw [← run_past, event] at since
      exact (clock_serve injectFails uri method).trans (since.trans (Nat.le_add_right _ _))
    · obtain ⟨_, _, _, _, _, _, authed, _⟩ := explains.opens
      rw [Opening.past, List.append_assoc] at distinct
      exact loggedIn_of_authed distinct authed
  · refine .inl ⟨request, confirms, loggedIn_of_authed distinct ?_⟩
    obtain ⟨_, _, _, _, _, _, authed, _⟩ := confirms
    exact authed

end Logins

section Number

variable {radio : Radio} {platform : Platform} {paired : PairingDevice} {request : Request}

/-- The number a reply shows. -/
def shownNumcmp (reply : Reply) : Option Int :=
  match reply.content with
  | .json tree => tree.getInt (ascii "numcmp")
  | _ => none

/-- Only a login is shown a number, and only inside a window. -/
theorem shownNumcmp_status :
    shownNumcmp (pairingStatusGet request paired).1 =
      if paired.host.ble.pairingActive ∧ isAuthed request paired.device then
        some (paired.host.numcmp : Int)
      else none := by
  have keys : (ascii "active").map JsonTree.lower ≠ (ascii "numcmp").map JsonTree.lower ∧
      (ascii "remaining_ms").map JsonTree.lower ≠ (ascii "numcmp").map JsonTree.lower := by
    decide
  rw [shownNumcmp, pairingStatusGet]
  cases paired.host.ble.pairingActive <;> cases isAuthed request paired.device <;>
    simp [JsonTree.getInt, JsonTree.getObjectItem, keys.1, keys.2]

/-- A confirmation with a login answers the connection of the pending number. -/
theorem stackCalls_confirm {world : World} {injectFails : Bool}
    (authed : isAuthed request paired.device = true) (pending : paired.host.numcmpHandle ≠ noHandle) :
    (pairingConfirmPost platform world request paired injectFails).2.host.stackCalls =
      .injectIo paired.host.numcmpHandle (confirmAccepts platform world request) ::
        paired.host.stackCalls := by
  rw [pairingConfirmPost, requireAuth, if_pos authed, if_neg pending, BleHost.pairingConfirm,
    if_neg pending]
  rfl

/-- In every run: the status shows a request without a login nothing of the comparison, and a
request with one the number of a comparison that came inside the present window, on the
connection that a confirmation then answers. -/
theorem numcmp_ofWindow (radio : Radio) (platform : Platform) (flash : Flash)
    (log : List PeerEvent) (past : List PairingAction) (elapsedUs : Nat) :
    let start := boot platform flash log
    let paired := (run (step radio platform) start past).wait elapsedUs
    (∀ request (other : PairingDevice), isAuthed request paired.device = false →
      isAuthed request other.device = false → other.host.ble = paired.host.ble →
        (pairingStatusGet request other).1 = (pairingStatusGet request paired).1) ∧
    ∀ request number, shownNumcmp (pairingStatusGet request paired).1 = some number →
      isAuthed request paired.device = true ∧
      ∃ opening : Opening, opening.past = past ∧ opening.Explains radio platform start ∧
        paired.host.ble.clockUs < (opening.window radio platform start).endUs ∧
        (number ≠ 0 → ∃ action ∈ opening.since, ∃ handle numcmp uncalled,
          action.event = .host (.gap (.passkeyAction handle (some numcmp))) uncalled ∧
            number = numcmp ∧
            (handle ≠ noHandle → ∀ world confirmation injectFails,
              isAuthed confirmation paired.device = true →
                (pairingConfirmPost platform world confirmation paired
                    injectFails).2.host.stackCalls =
                  .injectIo handle (confirmAccepts platform world confirmation) ::
                    paired.host.stackCalls)) := by
  intro start paired
  constructor
  · intro request other unauthed otherUnauthed same
    simp only [pairingStatusGet, unauthed, otherUnauthed, same, Bool.and_false,
      Bool.false_eq_true, if_false]
  intro request number shown
  rw [shownNumcmp_status] at shown
  split_ifs at shown with allowed
  obtain rfl : (paired.host.numcmp : Int) = number := Option.some.inj shown
  have running := BleHost.pairingActive_iff.mp allowed.1
  rcases @window_explained radio platform start rfl ⟨rfl, rfl⟩ past with
    ⟨shut, _⟩ | ⟨opening, rfl, explains⟩
  · exact absurd running (by simp [paired, wait, BleHost.wait, Ble.wait, shut])
  refine ⟨allowed.2, opening, rfl, explains, running.trans_eq explains.deadline, fun nonzero => ?_⟩
  rcases explains.number with unpending | ⟨action, member, uncalled, compares⟩
  · exact absurd (congrArg Nat.cast unpending.1) nonzero
  · refine ⟨action, member, paired.host.numcmpHandle, paired.host.numcmp, uncalled, compares, rfl, ?_⟩
    intro pending world confirmation injectFails authed
    exact stackCalls_confirm authed pending

end Number

section Sample

/-- An admin sets the device up, logs in and opens the window; a phone connects. -/
def phoneComes : List PairingAction :=
  (Device.loginActions.map fun action => ⟨action.elapsedUs, .device action.event false⟩) ++
    [⟨1000000, .device (.request "/api/pairing/start" .post Device.loggedInRequest sampleWorld)
        false⟩,
      ⟨3000000, .host (.gap (.connect 1 phone)) rfl⟩]

/-- The phone asks to compare a number. -/
def phoneCompares : PairingAction := ⟨2000000, .host (.gap (.passkeyAction 1 (some 482913))) rfl⟩

theorem accepted_byLogin_phone :
    ∃ opening : Opening, opening.past = phoneComes ∧
      opening.Explains Radio.oneConnect samplePlatform (boot samplePlatform Flash.blank []) ∧
      LoggedIn (logins Radio.oneConnect samplePlatform Flash.blank [] opening.earlier)
        (opening.before Radio.oneConnect samplePlatform
          (boot samplePlatform Flash.blank [])).device opening.request := by
  rcases accepted_byLogin Radio.oneConnect samplePlatform Flash.blank [] phoneComes [] phoneCompares
      (by decide +kernel) 1 (by decide +kernel) with
    ⟨_, ⟨_, _, _, _, event, _⟩, _⟩ | ⟨opening, split, explains, _, _, loggedIn⟩
  · cases event
  · exact ⟨opening, split, explains, loggedIn⟩

end Sample

end PairingDevice

end LeanDingdong
