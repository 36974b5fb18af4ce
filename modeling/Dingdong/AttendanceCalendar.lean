import Dingdong.AttendanceEvents
import Dingdong.DateText
import Dingdong.ListTable

/-!
The calendar: event counts by local date. A bucket is found by the midnight before an event,
while `events_get` takes a date from its midnight to 86400 seconds later; in a time zone that
never changes its offset these are the same days.
-/

namespace LeanDingdong

open CivilCalendar ListTable

def calMaxDays : Nat := 62

/-- `cal_day_t` -/
structure CalDay where
  dateUnix : Int
  events : Nat
  workerMask : Nat

/-- `cal_ctx_t`, with the first `count` entries of `days`. -/
structure CalCtx where
  days : List CalDay
  fromTs : Int
  toTs : Int

/-- The place of the day's bucket and the table that holds it; `none` when the table is full. -/
def calGetDay (days : List CalDay) (dayMidnight : Int) : Option (Nat × List CalDay) :=
  match days.findIdx? fun day => day.dateUnix = dayMidnight with
  | some index => some (index, days)
  | none =>
      if calMaxDays ≤ days.length then none
      else some (days.length, days ++ [{ dateUnix := dayMidnight, events := 0, workerMask := 0 }])

/-- One more event of the bucket. -/
def CalDay.event (workerId : Int) (day : CalDay) : CalDay :=
  { day with
    events := day.events + 1
    workerMask :=
      if 0 < workerId ∧ workerId < 32 then day.workerMask ||| 1 <<< workerId.toNat
      else day.workerMask }

/-- The table after an event of the day; a full table passes over a new day. -/
def calCount (workerId dayMidnight : Int) (days : List CalDay) : List CalDay :=
  (calGetDay days dayMidnight).elim days fun entry => entry.2.modify entry.1 (CalDay.event workerId)

section Walk

variable (parse : Bytes → Option JsonTree) (offset : Int)

def calIterCb (line : Bytes) (ctx : CalCtx) : EspErr × CalCtx :=
  match parse line with
  | none => (.ok, ctx)
  | some json =>
      match json.getInt (ascii "ts"), json.workerId with
      | none, _ => (.ok, ctx)
      | some ts, workerId =>
          if ts < ctx.fromTs ∨ ctx.toTs ≤ ts then (.ok, ctx)
          else
            let tm := localtime offset ts
            let day := mktime offset { tm with hour := 0, min := 0, sec := 0 }
            match calGetDay ctx.days day with
            | none => (.ok, ctx)
            | some (index, days) =>
                (.ok, { ctx with days := days.modify index (CalDay.event workerId) })

/-- The bits that are set: `while (m) { n += m & 1; m >>= 1; }` on a `uint32_t`. -/
def countBits (mask : Nat) : Nat := ((List.range 32).map fun bit => mask >>> bit % 2).sum

/-- One element of `buckets`. -/
structure CalBucket where
  dateUnix : Int
  events : Nat
  workers : Nat

/-- The reply of `calendar_get`. -/
structure CalReply where
  fromUnix : Int
  toUnix : Int
  days : Int
  buckets : List CalBucket

/-- The days asked for, by the value of `days` in the query. -/
def calDays (val : Option Bytes) : Int :=
  match val with
  | none => 30
  | some val => if atoi val ≤ 0 ∨ calMaxDays < atoi val then 30 else atoi val

/-- `calendar_get` of an authorised request. -/
def calendarGet (val : Option Bytes) (now : Int) (store : Store) : CalReply :=
  let days := calDays val
  let tm := localtime offset now
  let todayMidnight := mktime offset { tm with hour := 0, min := 0, sec := 0 }
  let toTs := todayMidnight + 86400
  let fromTs := todayMidnight - (days - 1) * 86400
  let ctx := (eventIter (calIterCb parse offset) { days := [], fromTs := fromTs, toTs := toTs }
    store).2
  { fromUnix := fromTs
    toUnix := toTs
    days := days
    buckets := ctx.days.map fun day =>
      { dateUnix := day.dateUnix, events := day.events, workers := countBits day.workerMask } }

/-- The time of a line's event. -/
def eventTs (line : Bytes) : Option Int := (parse line).bind fun json => json.getInt (ascii "ts")

/-- The line has an event of the window. -/
def inWindow (fromTs toTs : Int) (line : Bytes) : Bool :=
  (eventTs parse line).any fun ts => fromTs ≤ ts ∧ ts < toTs

/-- The midnight before a line's event, for an event of the window. -/
def windowDay (fromTs toTs : Int) (line : Bytes) : Option Int :=
  (eventTs parse line).bind fun ts =>
    if fromTs ≤ ts ∧ ts < toTs then some (midnight offset ts) else none

end Walk

section Buckets

variable {past : List Int} {days : List CalDay}

/-- One bucket for each day that occurs, with its number. -/
structure Buckets (past : List Int) (days : List CalDay) : Prop where
  nodup : (days.map CalDay.dateUnix).Nodup
  counts : ∀ day ∈ days, day.events = past.count day.dateUnix ∧ day.dateUnix ∈ past
  covers : ∀ day ∈ past, day ∈ days.map CalDay.dateUnix

namespace Buckets

theorem start : Buckets [] [] :=
  ⟨List.nodup_nil, fun _ member => absurd member List.not_mem_nil,
    fun _ member => absurd member List.not_mem_nil⟩

theorem count_snoc (day other : Int) :
    (past ++ [day]).count other = past.count other + if other = day then 1 else 0 := by
  rw [List.count_append, List.count_singleton]
  by_cases same : other = day
  · rw [if_pos same, same, if_pos (beq_self_eq_true day)]
  · rw [if_neg same, if_neg (by simpa using Ne.symm same)]

/-- An event of a day with a bucket. -/
theorem found (buckets : Buckets past days) {front back : List CalDay} {day : CalDay}
    (split : days = front ++ day :: back) (workerId : Int) :
    Buckets (past ++ [day.dateUnix]) (front ++ day.event workerId :: back) := by
  subst split
  have dates : (front ++ day.event workerId :: back).map CalDay.dateUnix =
      (front ++ day :: back).map CalDay.dateUnix := by
    simp [CalDay.event]
  have nodup := buckets.nodup
  rw [List.map_append, List.map_cons, List.nodup_middle, List.nodup_cons, ← List.map_append] at nodup
  have other {entry : CalDay} (member : entry ∈ front ++ back) :
      entry.events = (past ++ [day.dateUnix]).count entry.dateUnix ∧
        entry.dateUnix ∈ past ++ [day.dateUnix] := by
    have inside : entry ∈ front ++ day :: back :=
      (List.sublist_cons_self day back).append_left front |>.subset member
    have apart : entry.dateUnix ≠ day.dateUnix := by
      intro same
      exact nodup.1 (same ▸ List.mem_map_of_mem member)
    obtain ⟨count, known⟩ := buckets.counts entry inside
    rw [count_snoc, if_neg apart, Nat.add_zero]
    exact ⟨count, List.mem_append_left _ known⟩
  constructor
  · rw [dates]
    exact buckets.nodup
  · intro entry member
    rcases List.mem_append.mp member with before | rest
    · exact other (List.mem_append_left _ before)
    · rcases List.mem_cons.mp rest with rfl | after
      · have count := (buckets.counts day (by simp)).1
        refine ⟨?_, List.mem_append_right _ List.mem_cons_self⟩
        simp only [CalDay.event, count_snoc, if_true, count]
      · exact other (List.mem_append_right _ after)
  · intro date member
    rw [dates]
    rcases List.mem_append.mp member with known | here
    · exact buckets.covers date known
    · rw [List.mem_singleton.mp here]
      exact List.mem_map_of_mem (by simp)

/-- The first event of a day. -/
theorem opened (buckets : Buckets past days) {date : Int}
    (absent : date ∉ days.map CalDay.dateUnix) (workerId : Int) :
    Buckets (past ++ [date])
      (days ++ [({ dateUnix := date, events := 0, workerMask := 0 } : CalDay).event workerId]) := by
  constructor
  · exact nodup_add buckets.nodup absent
  · intro entry member
    rcases List.mem_append.mp member with known | added
    · obtain ⟨count, inside⟩ := buckets.counts entry known
      have apart : entry.dateUnix ≠ date := by
        rintro rfl
        exact absent (List.mem_map_of_mem known)
      rw [count_snoc, if_neg apart, Nat.add_zero]
      exact ⟨count, List.mem_append_left _ inside⟩
    · have unseen : past.count date = 0 :=
        List.count_eq_zero.mpr fun seen => absent (buckets.covers date seen)
      rw [List.mem_singleton.mp added]
      refine ⟨?_, List.mem_append_right _ List.mem_cons_self⟩
      simp only [CalDay.event, count_snoc, if_true, unseen]
  · intro day member
    rw [List.map_append, List.mem_append]
    rcases List.mem_append.mp member with known | here
    · exact .inl (buckets.covers day known)
    · exact .inr (by simpa [CalDay.event] using here)

/-- While a day without a bucket finds room, no event is dropped. -/
theorem event (buckets : Buckets past days) (date workerId : Int)
    (room : date ∉ days.map CalDay.dateUnix → days.length < calMaxDays) :
    Buckets (past ++ [date]) (calCount workerId date days) := by
  rw [calCount, calGetDay]
  cases search : days.findIdx? fun day => day.dateUnix = date with
  | some index =>
      obtain ⟨front, day, back, split, rfl, here⟩ := findIdx?_split search
      have own : day.dateUnix = date := of_decide_eq_true here
      dsimp only [Option.elim_some]
      rw [split, modify_split, ← own]
      exact buckets.found split workerId
  | none =>
      have absent : date ∉ days.map CalDay.dateUnix := keys_absent search
      dsimp only
      rw [if_neg (not_le.mpr (room absent)), Option.elim_some, modify_split]
      exact buckets.opened absent workerId

/-- The counts add up to the number of events. -/
theorem total (buckets : Buckets past days) : (days.map CalDay.events).sum = past.length := by
  have counted : days.map CalDay.events =
      (days.map CalDay.dateUnix).map fun date => past.count date := by
    rw [List.map_map]
    exact List.map_congr_left fun day member => (buckets.counts day member).1
  have same : (days.map CalDay.dateUnix).Perm past.dedup := by
    refine (List.perm_ext_iff_of_nodup buckets.nodup past.nodup_dedup).mpr fun date => ?_
    rw [List.mem_dedup]
    constructor
    · intro member
      obtain ⟨day, inside, rfl⟩ := List.mem_map.mp member
      exact (buckets.counts day inside).2
    · exact buckets.covers date
  rw [counted, (same.map _).sum_eq, List.sum_map_count_dedup_eq_length]

end Buckets

end Buckets

section Window

variable {parse : Bytes → Option JsonTree} {offset : Int}

theorem windowDay_iff {fromTs toTs date : Int} {line : Bytes} :
    windowDay parse offset fromTs toTs line = some date ↔
      ∃ ts, eventTs parse line = some ts ∧ fromTs ≤ ts ∧ ts < toTs ∧ midnight offset ts = date := by
  rw [windowDay, Option.bind_eq_some_iff]
  refine exists_congr fun ts => and_congr_right fun _ => ?_
  split_ifs with inside
  · rw [Option.some.injEq]
    exact ⟨fun day => ⟨inside.1, inside.2, day⟩, fun facts => facts.2.2⟩
  · exact iff_of_false (by simp) fun facts => inside ⟨facts.1, facts.2.1⟩

theorem calIterCb_outside {line : Bytes} {ctx : CalCtx}
    (outside : windowDay parse offset ctx.fromTs ctx.toTs line = none) :
    calIterCb parse offset line ctx = (.ok, ctx) := by
  rw [calIterCb]
  cases parsed : parse line with
  | none => rfl
  | some json =>
      dsimp only
      cases stamped : json.getInt (ascii "ts") with
      | none => rfl
      | some ts =>
          have left : ts < ctx.fromTs ∨ ctx.toTs ≤ ts := by
            by_contra inside
            rw [not_or, not_lt, not_le] at inside
            simp [windowDay, eventTs, parsed, stamped, inside] at outside
          exact if_pos left

theorem calIterCb_inside {line : Bytes} {ctx : CalCtx} {date : Int}
    (inside : windowDay parse offset ctx.fromTs ctx.toTs line = some date) :
    ∃ json, parse line = some json ∧ calIterCb parse offset line ctx =
      (.ok, { ctx with days := calCount json.workerId date ctx.days }) := by
  obtain ⟨ts, event, late, early, rfl⟩ := windowDay_iff.mp inside
  obtain ⟨json, parsed, stamped⟩ := Option.bind_eq_some_iff.mp event
  refine ⟨json, parsed, ?_⟩
  rw [calIterCb, parsed]
  dsimp only
  rw [stamped]
  dsimp only
  rw [if_neg (by omega), mktime_midnight, calCount]
  cases calGetDay ctx.days (midnight offset ts) <;> rfl

/-- The walk makes a bucket of every day, while the days of the window fit in the table. -/
theorem calIterCb_counts {fromTs toTs : Int} {allowed : List Int} (few : allowed.length ≤ calMaxDays)
    {lines : List Bytes} {past : List Int} {days : List CalDay} (buckets : Buckets past days)
    (known : ∀ day ∈ past, day ∈ allowed)
    (window : ∀ line ∈ lines, ∀ day, windowDay parse offset fromTs toTs line = some day →
      day ∈ allowed) :
    Buckets (past ++ lines.filterMap (windowDay parse offset fromTs toTs))
      (callEach (calIterCb parse offset) lines
        { days := days, fromTs := fromTs, toTs := toTs }).2.days := by
  induction lines generalizing past days with
  | nil =>
      rw [List.filterMap_nil, List.append_nil]
      exact buckets
  | cons line lines ih =>
      have later : ∀ other ∈ lines, ∀ day, windowDay parse offset fromTs toTs other = some day →
          day ∈ allowed := fun other member => window other (List.mem_cons_of_mem _ member)
      cases here : windowDay parse offset fromTs toTs line with
      | none =>
          rw [List.filterMap_cons_none here, callEach, calIterCb_outside here]
          exact ih buckets known later
      | some date =>
          obtain ⟨json, _, step⟩ := @calIterCb_inside parse offset line
            { days := days, fromTs := fromTs, toTs := toTs } date here
          have dateAllowed := window line List.mem_cons_self date here
          have room (absent : date ∉ days.map CalDay.dateUnix) : days.length < calMaxDays := by
            have nodup : (date :: days.map CalDay.dateUnix).Nodup :=
              List.nodup_cons.mpr ⟨absent, buckets.nodup⟩
            have inside : date :: days.map CalDay.dateUnix ⊆ allowed := by
              refine List.cons_subset.mpr ⟨dateAllowed, fun other member => ?_⟩
              obtain ⟨day, present, rfl⟩ := List.mem_map.mp member
              exact known _ (buckets.counts day present).2
            have most := (List.subperm_of_subset nodup inside).length_le
            rw [List.length_cons, List.length_map] at most
            omega
          rw [List.filterMap_cons_some here, callEach, step, ← List.singleton_append,
            ← List.append_assoc]
          refine ih (buckets.event date json.workerId room) (fun day member => ?_) later
          rcases List.mem_append.mp member with before | added
          · exact known day before
          · rwa [List.mem_singleton.mp added]

/-- The days of a window, from the last one back. -/
def windowDays (todayMidnight days : Int) : List Int :=
  (List.range days.toNat).map fun back : Nat => todayMidnight - (back : Int) * 86400

theorem windowDay_mem {now days date : Int} {line : Bytes}
    (inside : windowDay parse offset (midnight offset now - (days - 1) * 86400)
      (midnight offset now + 86400) line = some date) :
    date ∈ windowDays (midnight offset now) days ∧
      midnight offset now - (days - 1) * 86400 ≤ date ∧ date + 86400 ≤ midnight offset now + 86400 ∧
        midnight offset date = date := by
  obtain ⟨ts, _, late, early, rfl⟩ := windowDay_iff.mp inside
  simp only [midnight] at late early ⊢
  refine ⟨?_, by omega, by omega, by omega⟩
  refine List.mem_map.mpr
    ⟨((now + offset) / 86400 - (ts + offset) / 86400).toNat, List.mem_range.mpr ?_, ?_⟩
  · omega
  · rw [Int.toNat_of_nonneg (by omega)]
    omega

/-- The filter of a day takes the events of its bucket. -/
theorem passes_setDay {fromTs toTs date : Int} {line : Bytes} (aligned : midnight offset date = date)
    (within : fromTs ≤ date ∧ date + 86400 ≤ toTs)
    (late : 0 < date + 86400)
    (positive : 0 < date ∨ ∀ json, parse line = some json → 0 < json.ts) :
    (EventsParams.initial.setDay date).passes parse line = true ↔
      windowDay parse offset fromTs toTs line = some date := by
  have bounded : date ≠ 0 ∨ date + 86400 ≠ 0 := by omega
  have passes : (EventsParams.initial.setDay date).passes parse line =
      (parse line).any (EventsParams.initial.setDay date).admits :=
    if_pos (bounded.imp_right .inl)
  rw [passes, windowDay_iff, eventTs]
  cases parsed : parse line with
  | none => simp
  | some json =>
      have admits : (EventsParams.initial.setDay date).admits json = true ↔
          (date = 0 ∨ date ≤ json.ts) ∧ (date + 86400 = 0 ∨ json.ts < date + 86400) := by
        simp only [EventsParams.admits, EventsParams.setDay, EventsParams.initial]
        split_ifs <;> simp <;> omega
      rw [Option.any_some, admits, Option.bind_some]
      cases stamped : json.getInt (ascii "ts") with
      | none =>
          have missing : json.ts = 0 := by rw [JsonTree.ts, stamped, Option.getD_none]
          have known := positive.imp_right fun all => all json parsed
          refine iff_of_false ?_ (by simp)
          omega
      | some ts =>
          have present : json.ts = ts := by rw [JsonTree.ts, stamped, Option.getD_some]
          have known := positive.imp_right fun all => all json parsed
          rw [present] at known ⊢
          constructor
          · intro day
            refine ⟨ts, rfl, ?_, ?_, (midnight_eq_iff offset ts aligned).mpr ?_⟩ <;> omega
          · rintro ⟨other, same, _, _, day⟩
            obtain rfl := Option.some.inj same
            have bounds := (midnight_eq_iff offset ts aligned).mp day
            omega

end Window

/-- A query for a date. -/
def EventsQuery.ofDate (text : Bytes) : EventsQuery where
  offset := none
  limit := none
  workerId := none
  date := some text

theorem calDays_bounds (val : Option Bytes) : 1 ≤ calDays val ∧ calDays val ≤ 62 := by
  cases val with
  | none => decide
  | some val =>
      rw [calDays, calMaxDays]
      split_ifs
      · decide
      · omega

/-- A query for a day sends all of its events. -/
theorem eventsGet_day (parse : Bytes → Option JsonTree) (offset date : Int) (store : Store) :
    Sends (eventsGet parse ((EventsQuery.ofDate (dateText (localtime offset date))).params
      (dayStart offset)) store)
      ((iterLines store.file).filter
        ((EventsParams.initial.setDay (midnight offset date)).passes parse)) := by
  have read : (EventsQuery.ofDate (dateText (localtime offset date))).params (dayStart offset) =
      EventsParams.initial.setDay (midnight offset date) := by
    simp only [EventsQuery.params, EventsQuery.ofDate, Option.elim_none, Option.bind_some,
      dayStart_dateText, Option.elim_some]
  have start : (EventsParams.initial.setDay (midnight offset date)).tailOffset parse store = 0 :=
    if_neg fun latest => lt_irrefl 0 latest.1
  rw [read, eventsGet, start, eventIter_lines]
  obtain ⟨chunks, _⟩ := @eventsIterCb_sends parse (iterLines store.file)
    { chunks := [eventsOpening], first := true, skipped := 0, emitted := 0
      params := EventsParams.initial.setDay (midnight offset date) }
  refine ⟨_, congrArg (· ++ _) (chunks.trans ?_)⟩
  rw [commaSeparated_intersperse]
  rfl

/-- The buckets of the reply, for the midnights of the events of its window. -/
theorem calendarGet_buckets (parse : Bytes → Option JsonTree) (offset now : Int)
    (val : Option Bytes) (store : Store) {fromTs toTs : Int}
    (isFrom : fromTs = midnight offset now - (calDays val - 1) * 86400)
    (isTo : toTs = midnight offset now + 86400) :
    ∃ table, (callEach (calIterCb parse offset) (iterLines store.file)
        { days := [], fromTs := fromTs, toTs := toTs }).2.days = table ∧
      Buckets ((iterLines store.file).filterMap (windowDay parse offset fromTs toTs)) table ∧
      calendarGet parse offset val now store =
        { fromUnix := fromTs
          toUnix := toTs
          days := calDays val
          buckets := table.map fun day =>
            { dateUnix := day.dateUnix, events := day.events
              workers := countBits day.workerMask } } := by
  have days := calDays_bounds val
  have few : (windowDays (midnight offset now) (calDays val)).length ≤ calMaxDays := by
    rw [windowDays, List.length_map, List.length_range, calMaxDays]
    omega
  have inside (line : Bytes) (date : Int)
      (day : windowDay parse offset fromTs toTs line = some date) :
      date ∈ windowDays (midnight offset now) (calDays val) := by
    rw [isFrom, isTo] at day
    exact (windowDay_mem day).1
  refine ⟨_, rfl, @calIterCb_counts parse offset fromTs toTs _ few (iterLines store.file) [] []
    Buckets.start (by simp) fun line _ => inside line, ?_⟩
  simp only [calendarGet, mktime_midnight, eventIter_lines, isFrom, isTo]

theorem windowDay_isSome (parse : Bytes → Option JsonTree) (offset fromTs toTs : Int) (line : Bytes) :
    (windowDay parse offset fromTs toTs line).isSome = inWindow parse fromTs toTs line := by
  rw [windowDay, inWindow]
  cases eventTs parse line with
  | none => rfl
  | some ts =>
      rw [Option.bind_some, Option.any_some]
      split_ifs with inside
      · exact (decide_eq_true inside).symm
      · exact (decide_eq_false inside).symm

/-- Every event of the window is counted in the bucket of its own midnight and in no other, and a
bucket counts the events that `events_get` sends for its date. -/
theorem calendarGet_days (parse : Bytes → Option JsonTree) (offset now : Int) (val : Option Bytes)
    (store : Store) (reply : CalReply) (isReply : calendarGet parse offset val now store = reply)
    (positive : 0 < reply.fromUnix ∨
      ∀ line ∈ iterLines store.file, ∀ json, parse line = some json → 0 < json.ts) :
    (1 ≤ reply.days ∧ reply.days ≤ 62 ∧ reply.toUnix = midnight offset now + 86400 ∧
      reply.fromUnix = reply.toUnix - reply.days * 86400) ∧
      (reply.buckets.map CalBucket.dateUnix).Nodup ∧
      (∀ line ∈ iterLines store.file, ∀ ts, eventTs parse line = some ts →
        reply.fromUnix ≤ ts → ts < reply.toUnix →
        ∃ bucket ∈ reply.buckets, bucket.dateUnix = midnight offset ts) ∧
      (reply.buckets.map CalBucket.events).sum =
        ((iterLines store.file).filter (inWindow parse reply.fromUnix reply.toUnix)).length ∧
      ∀ bucket ∈ reply.buckets,
        bucket.events = ((iterLines store.file).filter fun line =>
          windowDay parse offset reply.fromUnix reply.toUnix line = some bucket.dateUnix).length ∧
        ∃ page, Sends (eventsGet parse
          ((EventsQuery.ofDate (dateText (localtime offset bucket.dateUnix))).params
            (dayStart offset)) store) page ∧ bucket.events = page.length := by
  have days := calDays_bounds val
  obtain ⟨table, _, buckets, built⟩ := calendarGet_buckets parse offset now val store rfl rfl
  rw [built] at isReply
  subst isReply
  dsimp only at positive ⊢
  have dates : (table.map fun day =>
      ({ dateUnix := day.dateUnix, events := day.events
         workers := countBits day.workerMask } : CalBucket)).map CalBucket.dateUnix =
      table.map CalDay.dateUnix := List.map_map
  have numbers : (table.map fun day =>
      ({ dateUnix := day.dateUnix, events := day.events
         workers := countBits day.workerMask } : CalBucket)).map CalBucket.events =
      table.map CalDay.events := List.map_map
  rw [dates, numbers]
  refine ⟨⟨days.1, days.2, rfl, by omega⟩, buckets.nodup, ?_, ?_, ?_⟩
  · intro line member ts event late early
    have day : windowDay parse offset _ _ line = some (midnight offset ts) :=
      windowDay_iff.mpr ⟨ts, event, late, early, rfl⟩
    obtain ⟨entry, inside, same⟩ := List.mem_map.mp
      (buckets.covers _ (List.mem_filterMap.mpr ⟨line, member, day⟩))
    exact ⟨_, List.mem_map_of_mem inside, same⟩
  · rw [buckets.total, List.length_filterMap_eq_countP, List.countP_eq_length_filter]
    exact congrArg List.length (List.filter_congr fun line _ => windowDay_isSome _ _ _ _ line)
  · intro bucket member
    obtain ⟨day, inside, rfl⟩ := List.mem_map.mp member
    obtain ⟨count, occurs⟩ := buckets.counts day inside
    obtain ⟨line, logged, here⟩ := List.mem_filterMap.mp occurs
    obtain ⟨_, late, early, aligned⟩ := windowDay_mem here
    obtain ⟨ts, event, _, _, own⟩ := windowDay_iff.mp here
    have counted : day.events = ((iterLines store.file).filter fun line =>
        windowDay parse offset (midnight offset now - (calDays val - 1) * 86400)
          (midnight offset now + 86400) line = some day.dateUnix).length := by
      rw [count, List.count_filterMap, List.countP_eq_length_filter]
      exact congrArg List.length (List.filter_congr fun line _ => beq_eq_decide _ _)
    have ends : 0 < day.dateUnix + 86400 := by
      rcases positive with opens | stamped
      · omega
      · obtain ⟨json, parsed, isTs⟩ := Option.bind_eq_some_iff.mp event
        have known := stamped line logged json parsed
        rw [JsonTree.ts, isTs, Option.getD_some] at known
        have bounds := (midnight_eq_iff offset ts aligned).mp own
        omega
    have day_positive (other : Bytes) (listed : other ∈ iterLines store.file) :
        0 < day.dateUnix ∨ ∀ json, parse other = some json → 0 < json.ts :=
      positive.imp (fun opens => opens.trans_le late) fun stamped => stamped other listed
    refine ⟨counted, _, eventsGet_day parse offset day.dateUnix store, ?_⟩
    rw [aligned, counted]
    refine congrArg List.length (List.filter_congr fun other listed => ?_)
    rw [Bool.eq_iff_iff, decide_eq_true_iff]
    exact (passes_setDay aligned ⟨late, early⟩ ends (day_positive other listed)).symm

/-- Two events of one morning and one of the next. -/
def weekEvents : Store where
  events := some (ascii "\x7b\"ts\":1700000000\x7d\n\x7b\"ts\":1700000060\x7d\n" ++
    ascii "\x7b\"ts\":1700100000\x7d\n")
  eventCount := 3

theorem calendarGet_days_week :
    ((calendarGet plainCodec.parse 28800 (some (ascii "7")) 1700123456 weekEvents).buckets.map
      fun bucket => (bucket.dateUnix, bucket.events)) = [(1699977600, 2), (1700064000, 1)] ∧
    ∀ bucket ∈
        (calendarGet plainCodec.parse 28800 (some (ascii "7")) 1700123456 weekEvents).buckets,
      ∃ page, Sends (eventsGet plainCodec.parse
        ((EventsQuery.ofDate (dateText (localtime 28800 bucket.dateUnix))).params
          (dayStart 28800)) weekEvents) page ∧ bucket.events = page.length := by
  have days := calendarGet_days plainCodec.parse 28800 1700123456 (some (ascii "7")) weekEvents _
    rfl (.inl (by decide +kernel))
  exact ⟨by decide +kernel, fun bucket member => (days.2.2.2.2 bucket member).2⟩

end LeanDingdong
