import Dingdong.AttendanceCalendar
import Mathlib.Data.Nat.Bitwise
import Mathlib.Data.Finset.Card

/-!
The workers of a calendar day. A day's mask has a bit for each id below 32, so what the
reply counts are the ids of the day that are below 32.
-/

namespace LeanDingdong

open CivilCalendar ListTable

section Masks

theorem testBit_mark (mask : Nat) {bit : Nat} (other : Nat) :
    (mask ||| 1 <<< bit).testBit other = (mask.testBit other || decide (bit = other)) := by
  rw [Nat.testBit_or, Nat.shiftLeft_eq, Nat.one_mul, Nat.testBit_two_pow]

/-- The loop of `calendar_get` counts the set bits. -/
theorem countBits_card (mask : Nat) :
    countBits mask = ((Finset.range 32).filter fun bit => mask.testBit bit = true).card := by
  have bits : (fun bit => mask >>> bit % 2) =
      fun bit => if mask.testBit bit = true then 1 else 0 := by
    funext bit
    rw [Nat.shiftRight_eq_div_pow, ← Nat.toNat_testBit]
    cases mask.testBit bit <;> rfl
  rw [countBits, bits, Finset.card_filter]
  rfl

end Masks

/-- The workers with an event on the date, among days and ids of events. -/
def workersOn (date : Int) (past : List (Int × Int)) : Finset Int :=
  ((past.filter fun punch => punch.1 = date ∧ 0 < punch.2).map Prod.snd).toFinset

theorem mem_workersOn {date workerId : Int} {past : List (Int × Int)} :
    workerId ∈ workersOn date past ↔ 0 < workerId ∧ (date, workerId) ∈ past := by
  simp [workersOn, and_comm]

/-- Each bucket's mask holds the ids below 32 of its day, and a day is left out only while
the table is full. -/
structure Masked (past : List (Int × Int)) (days : List CalDay) : Prop where
  nodup : (days.map CalDay.dateUnix).Nodup
  masks : ∀ day ∈ days, ∀ bit : Nat, day.workerMask.testBit bit = true ↔
    bit < 32 ∧ (bit : Int) ∈ workersOn day.dateUnix past
  known : days.length < calMaxDays → ∀ punch ∈ past, punch.1 ∈ days.map CalDay.dateUnix

section Steps

variable {past : List (Int × Int)} {days : List CalDay}

theorem workersOn_other {date : Int} {punch : Int × Int} (other : punch.1 ≠ date) :
    workersOn date (past ++ [punch]) = workersOn date past := by
  ext workerId
  rw [mem_workersOn, mem_workersOn, List.mem_append, List.mem_singleton]
  refine and_congr_right fun _ => or_iff_left ?_
  rintro rfl
  exact other rfl

/-- The bucket of an event takes its id into the mask. -/
theorem CalDay.event_masks {day : CalDay}
    (masks : ∀ bit : Nat, day.workerMask.testBit bit = true ↔
      bit < 32 ∧ (bit : Int) ∈ workersOn day.dateUnix past) (workerId : Int) (bit : Nat) :
    (day.event workerId).workerMask.testBit bit = true ↔
      bit < 32 ∧ (bit : Int) ∈ workersOn day.dateUnix (past ++ [(day.dateUnix, workerId)]) := by
  have seen : (bit : Int) ∈ workersOn day.dateUnix (past ++ [(day.dateUnix, workerId)]) ↔
      (bit : Int) ∈ workersOn day.dateUnix past ∨ (0 < workerId ∧ bit = workerId) := by
    rw [mem_workersOn, mem_workersOn, List.mem_append, List.mem_singleton, Prod.mk.injEq]
    constructor
    · rintro ⟨positive, before | ⟨_, rfl⟩⟩
      · exact .inl ⟨positive, before⟩
      · exact .inr ⟨positive, rfl⟩
    · rintro (⟨positive, before⟩ | ⟨positive, rfl⟩)
      · exact ⟨positive, .inl before⟩
      · exact ⟨positive, .inr ⟨rfl, rfl⟩⟩
  rw [seen, CalDay.event]
  split_ifs with held
  · have own : workerId.toNat = bit ↔ bit < 32 ∧ 0 < workerId ∧ bit = workerId := by omega
    rw [testBit_mark, Bool.or_eq_true, decide_eq_true_iff, masks, own, ← and_or_left]
  · have passed : ¬ (bit < 32 ∧ 0 < workerId ∧ bit = workerId) := by omega
    rw [masks, and_or_left, or_iff_left passed]

namespace Masked

theorem start : Masked [] [] :=
  ⟨List.nodup_nil, fun _ member => absurd member List.not_mem_nil,
    fun _ _ member => absurd member List.not_mem_nil⟩

theorem event (masked : Masked past days) (date workerId : Int) :
    Masked (past ++ [(date, workerId)]) (calCount workerId date days) := by
  have others {day : CalDay} (member : day ∈ days) (apart : day.dateUnix ≠ date) (bit : Nat) :
      day.workerMask.testBit bit = true ↔
        bit < 32 ∧ (bit : Int) ∈ workersOn day.dateUnix (past ++ [(date, workerId)]) := by
    rw [workersOn_other (Ne.symm apart)]
    exact masked.masks day member bit
  rw [calCount, calGetDay]
  cases search : days.findIdx? fun day => day.dateUnix = date with
  | some index =>
      obtain ⟨front, day, back, split, rfl, here⟩ := findIdx?_split search
      obtain rfl : day.dateUnix = date := of_decide_eq_true here
      have listed : day ∈ days := split ▸ List.mem_append_right _ List.mem_cons_self
      have same : (day.event workerId).dateUnix = day.dateUnix := rfl
      have dates := map_overwrite split same
      dsimp only [Option.elim_some]
      rw [split, modify_split]
      refine ⟨dates ▸ masked.nodup, fun entry member => ?_, fun room punch member => ?_⟩
      · rcases mem_overwrite masked.nodup split same member with rfl | ⟨known, apart⟩
        · exact day.event_masks (masked.masks day listed) workerId
        · exact others known apart
      · rw [dates]
        rcases List.mem_append.mp member with before | added
        · refine masked.known ?_ punch before
          rw [split]
          simpa using room
        · rw [List.mem_singleton.mp added]
          exact List.mem_map_of_mem listed
  | none =>
      have absent : date ∉ days.map CalDay.dateUnix := keys_absent search
      dsimp only
      split_ifs with full
      · -- the day finds no room, and is no bucket's
        refine ⟨masked.nodup, fun day member => ?_, fun room => absurd room (not_lt.mpr full)⟩
        exact others member fun same => absent (same ▸ List.mem_map_of_mem member)
      · have fresh : ∀ workerId, workerId ∉ workersOn date past := fun other member =>
          absent (masked.known (not_le.mp full) _ (mem_workersOn.mp member).2)
        set new := CalDay.event workerId { dateUnix := date, events := 0, workerMask := 0 }
        have added : ((days ++ [new]).map CalDay.dateUnix).Nodup := nodup_add masked.nodup absent
        rw [Option.elim_some, modify_split]
        refine ⟨added, fun entry member => ?_, fun _ punch member => ?_⟩
        · rcases mem_add absent member with rfl | ⟨known, apart⟩
          · refine CalDay.event_masks (fun bit => ?_) workerId
            simp [fresh]
          · exact others known apart
        · rw [List.map_append, List.mem_append]
          rcases List.mem_append.mp member with before | here
          · exact .inl (masked.known (not_le.mp full) punch before)
          · rw [List.mem_singleton.mp here]
            exact .inr List.mem_cons_self

end Masked

end Steps

section Window

variable (parse : Bytes → Option JsonTree) (offset fromTs toTs : Int)

/-- The midnight before a line's event and the event's worker, for an event of the window. -/
def windowPunch (line : Bytes) : Option (Int × Int) :=
  (windowDay parse offset fromTs toTs line).bind fun day =>
    (parse line).map fun json => (day, json.workerId)

variable {parse offset fromTs toTs}

/-- The walk keeps the masks of its buckets. -/
theorem calIterCb_masks {lines : List Bytes} {past : List (Int × Int)} {days : List CalDay}
    (masked : Masked past days) :
    Masked (past ++ lines.filterMap (windowPunch parse offset fromTs toTs))
      (callEach (calIterCb parse offset) lines
        { days := days, fromTs := fromTs, toTs := toTs }).2.days := by
  induction lines generalizing past days with
  | nil =>
      rw [List.filterMap_nil, List.append_nil]
      exact masked
  | cons line lines ih =>
      cases here : windowDay parse offset fromTs toTs line with
      | none =>
          have none : windowPunch parse offset fromTs toTs line = none := by
            rw [windowPunch, here, Option.bind_none]
          rw [List.filterMap_cons_none none, callEach, calIterCb_outside here]
          exact ih masked
      | some date =>
          obtain ⟨json, parsed, step⟩ := @calIterCb_inside parse offset line
            { days := days, fromTs := fromTs, toTs := toTs } date here
          have punch : windowPunch parse offset fromTs toTs line = some (date, json.workerId) := by
            rw [windowPunch, here, parsed, Option.bind_some, Option.map_some]
          rw [List.filterMap_cons_some punch, callEach, step, ← List.singleton_append,
            ← List.append_assoc]
          exact ih (masked.event date json.workerId)

end Window

/-- The workers of a bucket are those of its day below 32. -/
theorem Masked.countBits {past : List (Int × Int)} {days : List CalDay} (masked : Masked past days)
    {day : CalDay} (member : day ∈ days) :
    countBits day.workerMask =
      ((workersOn day.dateUnix past).filter fun workerId => workerId < 32).card := by
  have low : (workersOn day.dateUnix past).filter (fun workerId => workerId < 32) =
      ((Finset.range 32).filter fun bit => day.workerMask.testBit bit = true).image
        (fun bit : Nat => (bit : Int)) := by
    ext workerId
    simp only [Finset.mem_filter, Finset.mem_image, Finset.mem_range, masked.masks day member]
    constructor
    · rintro ⟨present, small⟩
      have positive := (mem_workersOn.mp present).1
      refine ⟨workerId.toNat, ⟨by omega, by omega, ?_⟩, Int.toNat_of_nonneg positive.le⟩
      rwa [Int.toNat_of_nonneg positive.le]
    · rintro ⟨bit, ⟨small, _, present⟩, rfl⟩
      exact ⟨present, by omega⟩
  rw [countBits_card, low, Finset.card_image_of_injective _ Nat.cast_injective]

/-- Every day with a worker has a bucket, and a bucket has the number of the workers of
its day if and only if each of their ids is below 32. -/
theorem calendarGet_workers (parse : Bytes → Option JsonTree) (offset now : Int)
    (val : Option Bytes) (store : Store) (reply : CalReply) (punches : List (Int × Int))
    (isReply : calendarGet parse offset val now store = reply)
    (isPunches : (iterLines store.file).filterMap
      (windowPunch parse offset reply.fromUnix reply.toUnix) = punches) :
    (∀ date, (workersOn date punches).Nonempty → date ∈ reply.buckets.map CalBucket.dateUnix) ∧
      ∀ bucket ∈ reply.buckets,
        bucket.workers = (workersOn bucket.dateUnix punches).card ↔
          ∀ workerId ∈ workersOn bucket.dateUnix punches, workerId < 32 := by
  obtain ⟨table, walked, buckets, built⟩ := calendarGet_buckets parse offset now val store rfl rfl
  have masked := @calIterCb_masks parse offset (midnight offset now - (calDays val - 1) * 86400)
    (midnight offset now + 86400) (iterLines store.file) [] [] Masked.start
  rw [walked, List.nil_append] at masked
  rw [built] at isReply
  subst isReply
  dsimp only at isPunches ⊢
  rw [isPunches] at masked
  constructor
  · rintro date ⟨workerId, seen⟩
    rw [← isPunches, mem_workersOn] at seen
    obtain ⟨line, logged, punch⟩ := List.mem_filterMap.mp seen.2
    obtain ⟨day, here, known⟩ := Option.bind_eq_some_iff.mp punch
    obtain ⟨json, _, same⟩ := Option.map_eq_some_iff.mp known
    obtain ⟨rfl, rfl⟩ := Prod.mk.inj same
    rw [List.map_map]
    exact buckets.covers day (List.mem_filterMap.mpr ⟨line, logged, here⟩)
  · intro bucket member
    obtain ⟨day, inside, rfl⟩ := List.mem_map.mp member
    rw [masked.countBits inside, Finset.card_filter_eq_iff]

/-- One morning with an event each of worker 7, worker 31 and a third one. -/
def crewEvents (third : Nat) : Store where
  events := some (ascii "\x7b\"ts\":1700000000,\"worker_id\":7\x7d\n" ++
    ascii "\x7b\"ts\":1700000060,\"worker_id\":31\x7d\n" ++
    (ascii "\x7b\"ts\":1700000120,\"worker_id\":" ++ decimal third ++ ascii "\x7d\n"))
  eventCount := 3

/-- The calendar of that log, two hours later. -/
def crewReply (third : Nat) : CalReply :=
  calendarGet plainCodec.parse 28800 none 1700007200 (crewEvents third)

/-- The days and ids of the log's events. -/
def crewPunches (third : Nat) : List (Int × Int) :=
  (iterLines (crewEvents third).file).filterMap
    (windowPunch plainCodec.parse 28800 (crewReply third).fromUnix (crewReply third).toUnix)

/-- Three workers below 32 are counted as three. -/
theorem calendarGet_workers_crew :
    ∃ bucket ∈ (crewReply 8).buckets, bucket.dateUnix = 1699977600 ∧
      bucket.workers = (workersOn bucket.dateUnix (crewPunches 8)).card := by
  have shown : ∃ bucket ∈ (crewReply 8).buckets, bucket.dateUnix = 1699977600 := by decide +kernel
  obtain ⟨bucket, member, date⟩ := shown
  refine ⟨bucket, member, date, ?_⟩
  refine ((calendarGet_workers plainCodec.parse 28800 1700007200 none (crewEvents 8) _ _ rfl rfl).2
    bucket member).mpr fun workerId seen => ?_
  have small : ∀ punch ∈ crewPunches 8, punch.2 < 32 := by decide +kernel
  exact small _ (mem_workersOn.mp seen).2

/-- Worker 32 is not counted. -/
theorem calendarGet_workers_missed :
    (crewReply 32).buckets.map (fun bucket =>
      (bucket.dateUnix, bucket.workers, (workersOn bucket.dateUnix (crewPunches 32)).card)) =
        [(1699977600, 2, 3)] := by
  decide +kernel

end LeanDingdong
