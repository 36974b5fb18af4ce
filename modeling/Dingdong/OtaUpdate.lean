import Dingdong.HttpCore

/-!
The upload of a firmware image. `ota_post` passes the body on to `esp_ota_write` in whatever
pieces the network delivers it, and any step of it may fail.
-/

namespace LeanDingdong

/-- An app partition; no flash chip has one of 2 GiB. -/
structure OtaSlot where
  label : String
  size : Nat
  sized : size < 2 ^ 31
  deriving DecidableEq

namespace Ota

/-- The slots of `partitions.csv`. -/
def slots : List OtaSlot :=
  [{ label := "ota_0", size := 0x180000, sized := by decide },
    { label := "ota_1", size := 0x180000, sized := by decide }]

/-- A request with an image; `content_len` is a `size_t`. -/
structure Upload where
  cookie : Bytes
  body : Bytes
  sized : body.length < 2 ^ 32

namespace Upload

def request (upload : Upload) : Request := { cookie := upload.cookie, body := upload.body }

/-- `int total = req->content_len` -/
def total (upload : Upload) : Int := castInt upload.body.length

theorem total_small {upload : Upload} (small : upload.body.length < 2 ^ 31) :
    upload.total = upload.body.length :=
  castInt_exact (by omega) (by omega)

theorem total_large {upload : Upload} (large : 2 ^ 31 ≤ upload.body.length) : upload.total < 0 := by
  have size := upload.sized
  have wrapped : upload.total = upload.body.length - 2 ^ 32 := by
    rw [total, castInt, ← Int.sub_bmod_right]
    exact Int.bmod_eq_of_le (by omega) (by omega)
  omega

end Upload

/-- A round of the receiving loop: what has arrived for `httpd_req_recv`, and whether
`esp_ota_write` takes it. -/
inductive Round where
  | written (arrived : ℕ+)
  | writeFails (arrived : ℕ+)
  | recvFails

/-- What `esp_ota_end` returns. -/
inductive Ending where
  | ok
  | validateFailed
  | failed
  deriving DecidableEq

/-- How the calls of `ota_post` go. -/
structure Steps where
  /-- `esp_ota_get_next_update_partition` -/
  next : Option OtaSlot
  beginFails : Bool := false
  /-- the connection is closed when they run out -/
  rounds : List Round
  ending : Ending := .ok
  setBootFails : Bool := false
  /-- `xTaskCreate` in `schedule_restart` -/
  taskFails : Bool := false

/-- What `ota_post` has done. -/
inductive Effect where
  /-- `esp_ota_begin` gave a handle -/
  | begun (slot : OtaSlot)
  /-- the bytes were passed to `esp_ota_write` -/
  | wrote (chunk : Bytes)
  | aborted
  /-- `esp_ota_end`, which frees the handle whatever it returns -/
  | ended
  /-- `esp_ota_set_boot_partition` went through -/
  | selected (slot : OtaSlot)
  | restarting (delayMs : Nat)
  deriving DecidableEq

/-- The effects that bring another image to life. -/
def Effect.Commits : Effect → Prop
  | .selected _ => True
  | .restarting _ => True
  | _ => False

/-- The bytes passed to `esp_ota_write`. -/
def passed (effects : List Effect) : Bytes :=
  effects.flatMap fun
    | .wrote chunk => chunk
    | _ => []

/-- The numbers of a progress line. -/
structure Progress where
  received : Nat
  total : Nat
  percent : Int

def Progress.line (received total : Nat) : Progress where
  received := received
  total := total
  percent := (castInt (received * 100)).tdiv total

structure Receipt where
  effects : List Effect
  progress : List Progress
  /-- the text of the reply when the loop is left early -/
  failure : Option String

/-- The loop of `ota_post`. -/
def otaReceive (body : Bytes) (total : Nat) : List Round → Nat → Nat → Receipt
  | [], received, _ =>
      if total ≤ received then { effects := [], progress := [], failure := none }
      else { effects := [.aborted], progress := [], failure := some "recv aborted" }
  | round :: rounds, received, lastLog =>
      if total ≤ received then { effects := [], progress := [], failure := none }
      else
        let want := min (total - received) 1024
        match round with
        | .recvFails =>
            { effects := [.aborted], progress := [], failure := some "recv aborted" }
        | .writeFails arrived =>
            let chunk := (body.drop received).take (min (arrived : Nat) want)
            { effects := [.wrote chunk, .aborted], progress := [], failure := some "write failed" }
        | .written arrived =>
            let chunk := (body.drop received).take (min (arrived : Nat) want)
            let now := received + min (arrived : Nat) want
            let logs := 65536 < now - lastLog
            let later := otaReceive body total rounds now (if logs then now else lastLog)
            { effects := .wrote chunk :: later.effects
              progress := if logs then .line now total :: later.progress else later.progress
              failure := later.failure }

structure Outcome where
  effects : List Effect
  progress : List Progress
  reply : Reply
  /-- the partition of the next boot -/
  boot : OtaSlot
  device : Device

section Handler

variable (steps : Steps) (upload : Upload) (boot : OtaSlot) (device : Device)

/-- What `schedule_restart` waits for; without its task the caller restarts at once. -/
def restartDelay (delayMs : Nat) : Nat := if steps.taskFails then 200 else delayMs

/-- `ota_post` from `esp_ota_end` on. -/
def otaFinish (slot : OtaSlot) : List Effect × Reply × OtaSlot × Device :=
  match steps.ending with
  | .validateFailed => ([.ended], .text "400 Bad Request" "image validation failed", boot, device)
  | .failed => ([.ended], .text "400 Bad Request" "ota_end failed", boot, device)
  | .ok =>
      if steps.setBootFails then
        ([.ended], .text "500 Internal Server Error" "set_boot failed", boot, device)
      else
        ([.ended, .selected slot, .restarting (restartDelay steps 2000)],
          .text "200 OK" "ok, rebooting into new image", slot,
          (device.setRestartCause .ota).scheduleRestart (restartDelay steps 2000))

/-- `ota_post` from `esp_ota_begin` on. -/
def otaBegun (slot : OtaSlot) : Outcome :=
  let receipt := otaReceive upload.body upload.total.toNat steps.rounds 0 0
  match receipt.failure with
  | some message =>
      { effects := .begun slot :: receipt.effects
        progress := receipt.progress
        reply := .text "500 Internal Server Error" message
        boot := boot
        device := device }
  | none =>
      let finished := otaFinish steps boot device slot
      { effects := .begun slot :: (receipt.effects ++ finished.1)
        progress := receipt.progress
        reply := finished.2.1
        boot := finished.2.2.1
        device := finished.2.2.2 }

/-- An answer before anything is written. -/
def refuse (status message : String) : Outcome where
  effects := []
  progress := []
  reply := .text status message
  boot := boot
  device := device

/-- `ota_post` -/
def otaPost : Outcome :=
  if isAuthed upload.request device = false then
    refuse boot device "401 Unauthorized" "auth required"
  else if upload.total ≤ 0 then refuse boot device "400 Bad Request" "no content"
  else
    match steps.next with
    | none => refuse boot device "500 Internal Server Error" "no ota slot"
    | some slot =>
        if slot.size < upload.total.toNat then
          refuse boot device "413 Payload Too Large"
            ("image " ++ toString upload.total ++ " > slot " ++ toString slot.size)
        else if steps.beginFails then
          refuse boot device "500 Internal Server Error" "ota_begin failed"
        else otaBegun steps upload boot device slot

end Handler

section Loop

variable {body : Bytes} {total : Nat}

def Round.Succeeds : Round → Prop
  | .written _ => True
  | .writeFails _ => False
  | .recvFails => False

instance : DecidablePred Round.Succeeds
  | .written _ => isTrue trivial
  | .writeFails _ => isFalse id
  | .recvFails => isFalse id

/-- What a round takes at most: no more than has arrived, and than the buffer holds. -/
def Round.capacity : Round → Nat
  | .written arrived => min arrived 1024
  | .writeFails arrived => min arrived 1024
  | .recvFails => 0

/-- What the rounds take before the first one that fails. -/
def delivered (rounds : List Round) : Nat :=
  ((rounds.takeWhile fun round => round.Succeeds).map Round.capacity).sum

@[simp] theorem delivered_nil : delivered [] = 0 := rfl

@[simp] theorem delivered_written (arrived : ℕ+) (rounds : List Round) :
    delivered (.written arrived :: rounds) = min (arrived : Nat) 1024 + delivered rounds := rfl

@[simp] theorem delivered_writeFails (arrived : ℕ+) (rounds : List Round) :
    delivered (.writeFails arrived :: rounds) = 0 := rfl

@[simp] theorem delivered_recvFails (rounds : List Round) :
    delivered (.recvFails :: rounds) = 0 := rfl

/-- The effects of the loop: what is written, and an abort where it is left early. -/
def Receipt.Wrote (receipt : Receipt) (chunks : List Bytes) : Prop :=
  receipt.effects = chunks.map .wrote ++ if receipt.failure.isSome then [.aborted] else []

/-- The loop writes all that is left when it is delivered, and aborts once when it is not. -/
theorem otaReceive_cases (body : Bytes) (total : Nat) (rounds : List Round) (received lastLog : Nat) :
    let receipt := otaReceive body total rounds received lastLog
    (receipt.failure = none ↔ total - received ≤ delivered rounds) ∧
      ∃ chunks, receipt.Wrote chunks ∧ (receipt.failure = none →
        chunks.flatten = (body.drop received).take (total - received)) := by
  induction rounds generalizing received lastLog with
  | nil =>
      rw [otaReceive]
      split_ifs with complete
      · exact ⟨by simp [complete], [], rfl, by simp [complete]⟩
      · exact ⟨by simpa [Nat.sub_eq_zero_iff_le] using complete, [], rfl, by simp⟩
  | cons round rounds ih =>
      rw [otaReceive]
      split_ifs with complete
      · exact ⟨by simp [complete], [], rfl, by simp [complete]⟩
      cases round with
      | recvFails => exact ⟨by simpa [Nat.sub_eq_zero_iff_le] using complete, [], rfl, by simp⟩
      | writeFails arrived =>
          exact ⟨by simpa [Nat.sub_eq_zero_iff_le] using complete, [_], rfl, by simp⟩
      | written arrived =>
          dsimp only
          set count := min (arrived : Nat) (min (total - received) 1024)
          obtain ⟨ends, chunks, wrote, whole⟩ := ih (received + count)
            (if 65536 < received + count - lastLog then received + count else lastLog)
          refine ⟨ends.trans ?_, (body.drop received).take count :: chunks, ?_, fun done => ?_⟩
          · rw [delivered_written]
            omega
          · rw [Receipt.Wrote] at wrote ⊢
            simp only [wrote, List.map_cons, List.cons_append]
          · have split : total - received = count + (total - (received + count)) := by omega
            rw [List.flatten_cons, whole done, split, List.take_add, List.drop_drop]

example : (otaReceive (ascii "image") 5 [.written 3, .written 7] 0 0).effects =
    [.wrote (ascii "ima"), .wrote (ascii "ge")] := by decide

/-- Every line of progress is about a received part of the image. -/
theorem otaReceive_progress (rounds : List Round) {received : Nat} (within : received ≤ total)
    (lastLog : Nat) :
    ∀ line ∈ (otaReceive body total rounds received lastLog).progress,
      ∃ count, count ≤ total ∧ line = .line count total := by
  induction rounds generalizing received lastLog with
  | nil =>
      rw [otaReceive]
      split_ifs <;> simp
  | cons round rounds ih =>
      rw [otaReceive]
      split_ifs with complete
      · simp
      cases round with
      | recvFails => simp
      | writeFails arrived => simp
      | written arrived =>
          dsimp only
          set count := min (arrived : Nat) (min (total - received) 1024)
          have next : received + count ≤ total := by omega
          intro line member
          split_ifs at member with logs
          · rcases List.mem_cons.mp member with rfl | later
            · exact ⟨received + count, next, rfl⟩
            · exact ih next _ line later
          · exact ih next _ line member

end Loop

section Upload

variable {steps : Steps} {upload : Upload} {boot : OtaSlot} {device : Device}

/-- The request is let in with an image, the image fits the slot, and the update begins. -/
structure Steps.Begin (steps : Steps) (upload : Upload) (device : Device) (slot : OtaSlot) :
    Prop where
  authed : isAuthed upload.request device = true
  positive : 0 < upload.body.length
  next : steps.next = some slot
  fits : upload.body.length ≤ slot.size
  begins : steps.beginFails = false

/-- No step fails. -/
structure Steps.Succeed (steps : Steps) (upload : Upload) (device : Device) (slot : OtaSlot) : Prop
    extends Steps.Begin steps upload device slot where
  arrives : upload.body.length ≤ delivered steps.rounds
  ends : steps.ending = .ok
  selects : steps.setBootFails = false

theorem Steps.Begin.total {slot : OtaSlot} (begun : steps.Begin upload device slot) :
    upload.total = upload.body.length :=
  Upload.total_small (begun.fits.trans_lt slot.sized)

theorem otaPost_begun {slot : OtaSlot} (begun : steps.Begin upload device slot) :
    otaPost steps upload boot device = otaBegun steps upload boot device slot := by
  have positive := begun.positive
  have fits := begun.fits
  rw [otaPost, begun.total, if_neg (by simp [begun.authed]), if_neg (by omega), begun.next]
  dsimp only
  rw [if_neg (by omega), if_neg (by simp [begun.begins])]

theorem otaPost_refused (boot : OtaSlot) (refused : ∀ slot, ¬ steps.Begin upload device slot) :
    ∃ status message, otaPost steps upload boot device = refuse boot device status message := by
  by_cases authed : isAuthed upload.request device = false
  · exact ⟨_, _, by rw [otaPost, if_pos authed]⟩
  by_cases empty : upload.total ≤ 0
  · exact ⟨_, _, by rw [otaPost, if_neg authed, if_pos empty]⟩
  rw [otaPost, if_neg authed, if_neg empty]
  cases next : steps.next with
  | none => exact ⟨_, _, rfl⟩
  | some slot =>
      dsimp only
      by_cases large : slot.size < upload.total.toNat
      · exact ⟨_, _, by rw [if_pos large]⟩
      rw [if_neg large]
      have small : upload.body.length < 2 ^ 31 := by
        by_contra long
        exact empty (Upload.total_large (not_lt.mp long)).le
      rw [Upload.total_small small] at empty large
      have begins : steps.beginFails = true := by
        by_contra begins
        exact refused slot
          ⟨by simpa using authed, by omega, next, by omega, by simpa using begins⟩
      exact ⟨_, _, by rw [if_pos begins]⟩

theorem otaFinish_ok {slot : OtaSlot} (ends : steps.ending = .ok)
    (selects : steps.setBootFails = false) :
    otaFinish steps boot device slot =
      ([.ended, .selected slot, .restarting (restartDelay steps 2000)],
        .text "200 OK" "ok, rebooting into new image", slot,
        (device.setRestartCause .ota).scheduleRestart (restartDelay steps 2000)) := by
  rw [otaFinish, ends, selects]
  rfl

theorem otaFinish_failed (boot : OtaSlot) (device : Device) (slot : OtaSlot)
    (failed : ¬ (steps.ending = .ok ∧ steps.setBootFails = false)) :
    ∃ reply, otaFinish steps boot device slot = ([.ended], reply, boot, device) := by
  cases ending : steps.ending with
  | validateFailed => exact ⟨_, by rw [otaFinish, ending]⟩
  | failed => exact ⟨_, by rw [otaFinish, ending]⟩
  | ok =>
      have setBootFails : steps.setBootFails = true := by simpa [ending] using failed
      exact ⟨_, by rw [otaFinish, ending, setBootFails, if_pos rfl]⟩

/-- What a failed upload has done. -/
def Stopped (effects : List Effect) : Prop :=
  effects = [] ∨ ∃ (slot : OtaSlot) (chunks : List Bytes), ∃ last ∈ [Effect.aborted, .ended],
    effects = .begun slot :: (chunks.map .wrote ++ [last])

/-- What a complete upload has done. -/
def Completed (effects : List Effect) (body : Bytes) (slot : OtaSlot) (delayMs : Nat) : Prop :=
  ∃ chunks : List Bytes, chunks.flatten = body ∧ effects =
    .begun slot :: (chunks.map .wrote ++ [.ended, .selected slot, .restarting delayMs])

/-- An upload is complete or stopped before the other slot is selected. -/
theorem otaPost_cases (steps : Steps) (upload : Upload) (boot : OtaSlot) (device : Device) :
    let outcome := otaPost steps upload boot device
    let delayMs := restartDelay steps 2000
    (∃ slot, steps.Succeed upload device slot ∧ outcome.boot = slot ∧
      outcome.device = (device.setRestartCause .ota).scheduleRestart delayMs ∧
      Completed outcome.effects upload.body slot delayMs) ∨
    (∀ slot, ¬ steps.Succeed upload device slot) ∧ outcome.boot = boot ∧
      outcome.device = device ∧ Stopped outcome.effects := by
  by_cases refused : ∀ slot, ¬ steps.Begin upload device slot
  · obtain ⟨status, message, answer⟩ := otaPost_refused boot refused
    rw [answer]
    exact .inr ⟨fun slot succeed => refused slot succeed.toBegin, rfl, rfl, .inl rfl⟩
  obtain ⟨slot, begun⟩ := not_forall_not.mp refused
  have loop := otaReceive_cases upload.body upload.body.length steps.rounds 0 0
  rw [otaPost_begun begun, otaBegun, begun.total, Int.toNat_natCast]
  obtain ⟨ends, chunks, wrote, whole⟩ := loop
  rw [Nat.sub_zero] at ends whole
  cases failure : (otaReceive upload.body upload.body.length steps.rounds 0 0).failure with
  | some message =>
      rw [Receipt.Wrote, failure] at wrote
      refine .inr ⟨fun other succeed => ?_, rfl, rfl, .inr ⟨slot, chunks, .aborted, by simp, ?_⟩⟩
      · rw [ends.mpr succeed.arrives] at failure
        cases failure
      · exact congrArg _ wrote
  | none =>
      rw [Receipt.Wrote, failure, Option.isSome_none, if_neg Bool.false_ne_true,
        List.append_nil] at wrote
      rw [wrote]
      by_cases last : steps.ending = .ok ∧ steps.setBootFails = false
      · have succeed : steps.Succeed upload device slot :=
          { begun with arrives := ends.mp failure, ends := last.1, selects := last.2 }
        have body : chunks.flatten = upload.body := by
          rw [whole failure, List.drop_zero, List.take_length]
        rw [otaFinish_ok last.1 last.2]
        exact .inl ⟨slot, succeed, rfl, rfl, chunks, body, rfl⟩
      · obtain ⟨reply, answer⟩ := otaFinish_failed boot device slot last
        rw [answer]
        exact .inr ⟨fun other succeed => last ⟨succeed.ends, succeed.selects⟩, rfl, rfl,
          .inr ⟨slot, chunks, .ended, by simp, rfl⟩⟩

/-- Every line of progress is about a part of an image that fits the slot. -/
theorem otaPost_progress {slot : OtaSlot} (next : steps.next = some slot) :
    ∀ line ∈ (otaPost steps upload boot device).progress,
      ∃ count, count ≤ upload.body.length ∧ upload.body.length ≤ slot.size ∧
        line = .line count upload.body.length := by
  intro line member
  by_cases refused : ∀ slot, ¬ steps.Begin upload device slot
  · obtain ⟨status, message, answer⟩ := otaPost_refused boot refused
    rw [answer] at member
    cases member
  obtain ⟨own, begun⟩ := not_forall_not.mp refused
  obtain rfl : own = slot := Option.some.inj (begun.next.symm.trans next)
  rw [otaPost_begun begun, otaBegun, begun.total, Int.toNat_natCast] at member
  have received : line ∈
      (otaReceive upload.body upload.body.length steps.rounds 0 0).progress := by
    split at member <;> exact member
  obtain ⟨count, within, same⟩ := otaReceive_progress steps.rounds (Nat.zero_le _) 0 line received
  exact ⟨count, within, begun.fits, same⟩

section Effects

variable {effects : List Effect} {slot : OtaSlot} {delayMs : Nat}

theorem Completed.passed_eq {body : Bytes} (completed : Completed effects body slot delayMs) :
    passed effects = body := by
  obtain ⟨chunks, rfl, rfl⟩ := completed
  have wrote : passed (chunks.map .wrote) = chunks.flatten := by
    rw [passed, List.flatMap_map, List.flatten_eq_flatMap]
    rfl
  rw [passed, List.flatMap_cons, List.flatMap_append]
  exact (List.append_nil _).trans wrote

theorem Completed.selected_iff {body : Bytes} (completed : Completed effects body slot delayMs)
    (other : OtaSlot) : .selected other ∈ effects ↔ other = slot := by
  obtain ⟨chunks, _, rfl⟩ := completed
  simp

theorem Completed.restarting {body : Bytes} (completed : Completed effects body slot delayMs) :
    .restarting delayMs ∈ effects := by
  obtain ⟨chunks, _, rfl⟩ := completed
  simp

theorem Completed.ended {body : Bytes} (completed : Completed effects body slot delayMs) :
    .ended ∈ effects ∧ .aborted ∉ effects := by
  obtain ⟨chunks, _, rfl⟩ := completed
  simp

theorem Stopped.not_commits (stopped : Stopped effects) : ∀ effect ∈ effects, ¬ effect.Commits := by
  intro effect inside
  obtain rfl | ⟨slot, chunks, last, member, rfl⟩ := stopped
  · cases inside
  rcases List.mem_cons.mp inside with rfl | later
  · exact id
  rcases List.mem_append.mp later with wrote | closing
  · obtain ⟨chunk, _, rfl⟩ := List.mem_map.mp wrote
    exact id
  · rw [List.mem_singleton.mp closing]
    rcases List.mem_pair.mp member with rfl | rfl <;> exact id

theorem Stopped.aborted (stopped : Stopped effects) (begun : .begun slot ∈ effects)
    (unfinished : .ended ∉ effects) : effects.count .aborted = 1 := by
  obtain rfl | ⟨slot, chunks, last, member, rfl⟩ := stopped
  · cases begun
  · rcases List.mem_pair.mp member with rfl | rfl
    · have wrote : (chunks.map Effect.wrote).count .aborted = 0 :=
        List.count_eq_zero_of_not_mem (by simp)
      rw [List.count_cons_of_ne (by simp), List.count_append, wrote]
      rfl
    · simp at unfinished

theorem Stopped.ended (stopped : Stopped effects) (ended : .ended ∈ effects) :
    .aborted ∉ effects := by
  obtain rfl | ⟨slot, chunks, last, member, rfl⟩ := stopped
  · cases ended
  · rcases List.mem_pair.mp member with rfl | rfl
    · simp at ended
    · simp

end Effects

theorem Progress.line_percent {count total : Nat} (small : total ≤ 0x180000)
    (within : count ≤ total) :
    count * 100 < 2 ^ 31 ∧ (Progress.line count total).percent = count * 100 / total := by
  have bound : count * 100 < 2 ^ 31 := by omega
  have positive : (0 : Int) ≤ count * 100 := by omega
  refine ⟨bound, ?_⟩
  rw [Progress.line, castInt_exact (by omega) (by omega)]
  dsimp only
  exact Int.tdiv_eq_ediv_of_nonneg positive

/-- A new slot is selected, and a restart scheduled, exactly when the image fits and no step
fails, and then the slot holds the image; on every other path nothing is selected and an update
that has begun is aborted once unless it was ended. -/
theorem otaPost_exact (steps : Steps) (upload : Upload) (boot : OtaSlot) (device : Device) :
    let outcome := otaPost steps upload boot device
    let delayMs := restartDelay steps 2000
    (∀ slot, .selected slot ∈ outcome.effects ∧ .restarting delayMs ∈ outcome.effects ↔
      steps.Succeed upload device slot) ∧
    (∀ slot, steps.Succeed upload device slot → passed outcome.effects = upload.body ∧
      outcome.boot = slot ∧
        outcome.device = (device.setRestartCause .ota).scheduleRestart delayMs) ∧
    ((∀ slot, ¬ steps.Succeed upload device slot) → outcome.boot = boot ∧
      outcome.device = device ∧ ∀ effect ∈ outcome.effects, ¬ effect.Commits) ∧
    ((∃ slot, .begun slot ∈ outcome.effects) → .ended ∉ outcome.effects →
      outcome.effects.count .aborted = 1) ∧
    (.ended ∈ outcome.effects → .aborted ∉ outcome.effects) ∧
    ∀ slot, steps.next = some slot → slot.size ≤ 0x180000 →
      ∀ line ∈ outcome.progress, line.received * 100 < 2 ^ 31 ∧
        line.percent = line.received * 100 / line.total := by
  intro outcome delayMs
  have progress (slot : OtaSlot) (next : steps.next = some slot) (small : slot.size ≤ 0x180000) :
      ∀ line ∈ outcome.progress, line.received * 100 < 2 ^ 31 ∧
        line.percent = line.received * 100 / line.total := by
    intro line member
    obtain ⟨count, within, fits, rfl⟩ := otaPost_progress next line member
    exact Progress.line_percent (fits.trans small) within
  rcases otaPost_cases steps upload boot device with
    ⟨slot, succeed, selected, restarts, completed⟩ | ⟨fails, kept, same, stopped⟩
  · have only {other : OtaSlot} (succeeds : steps.Succeed upload device other) : other = slot :=
      Option.some.inj (succeeds.next.symm.trans succeed.next)
    refine ⟨fun other => ⟨fun commits => ?_, fun succeeds => ?_⟩, fun other succeeds => ?_,
      fun fails => absurd succeed (fails slot),
      fun _ unfinished => absurd completed.ended.1 unfinished, fun _ => completed.ended.2,
      progress⟩
    · rwa [(completed.selected_iff other).mp commits.1]
    · exact ⟨(completed.selected_iff other).mpr (only succeeds), completed.restarting⟩
    · rw [only succeeds]
      exact ⟨completed.passed_eq, selected, restarts⟩
  · refine ⟨fun slot => iff_of_false (fun commits => ?_) (fails slot),
      fun slot succeeds => absurd succeeds (fails slot),
      fun _ => ⟨kept, same, stopped.not_commits⟩, fun begun => ?_, stopped.ended, progress⟩
    · exact stopped.not_commits _ commits.1 trivial
    · obtain ⟨slot, begun⟩ := begun
      exact stopped.aborted begun

/-- The handler of the device's routes is this one with its steps left out. -/
theorem otaPost_device {world : World} (task : steps.taskFails = false)
    (agrees : world.otaFails = false ↔ ∃ slot, steps.Succeed upload device slot) :
    (otaPost steps upload boot device).device =
      (LeanDingdong.otaPost world upload.request device).2 := by
  rcases otaPost_cases steps upload boot device with
    ⟨slot, succeed, _, restarts, _⟩ | ⟨fails, _, same, _⟩
  · have positive : upload.request.body.length ≠ 0 := succeed.positive.ne'
    have works : world.otaFails = false := agrees.mpr ⟨slot, succeed⟩
    rw [restarts, LeanDingdong.otaPost, requireAuth, if_pos succeed.authed, if_neg positive, works,
      restartDelay, task]
    rfl
  · have stops : world.otaFails = true := by
      by_contra works
      obtain ⟨slot, succeed⟩ := agrees.mp (by simpa using works)
      exact fails slot succeed
    simp only [same, LeanDingdong.otaPost, requireAuth, stops, if_true]
    split_ifs <;> rfl

end Upload

end Ota

end LeanDingdong
