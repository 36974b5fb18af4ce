import Dingdong.AttendanceCore
import Dingdong.JsonTree
import Dingdong.StorageRetention

/-!
`events_get`: the event lines that match a query, a page of them at a time. Two callbacks
walk the log, one to count the matches and one to send them, and they take the same lines.
-/

namespace LeanDingdong

/-- The values of the query, `none` where `httpd_query_key_value` does not return `ESP_OK`. -/
structure EventsQuery where
  offset : Option Bytes
  limit : Option Bytes
  workerId : Option Bytes
  date : Option Bytes

/-- What `events_get` reads of the query. -/
structure EventsParams where
  offset : Nat
  offsetSet : Bool
  limit : Nat
  fromTs : Int
  toTs : Int
  workerId : Nat

/-- `atoi`, which stays in the range of an `int`. -/
def atoi (text : Bytes) : Int := max (-2 ^ 31) (min (2 ^ 31 - 1) (atoll text))

namespace EventsParams

def initial : EventsParams where
  offset := 0
  offsetSet := false
  limit := 200
  fromTs := 0
  toTs := 0
  workerId := 0

def setOffset (params : EventsParams) (val : Bytes) : EventsParams :=
  { params with offset := (atoi val).toNat, offsetSet := true }

def setLimit (params : EventsParams) (val : Bytes) : EventsParams :=
  let limit := atoi val
  { params with limit := if limit ≤ 0 ∨ 5000 < limit then 200 else limit.toNat }

def setWorkerId (params : EventsParams) (val : Bytes) : EventsParams :=
  { params with workerId := castU16 (atoi val) }

/-- A day, from its local midnight on, without a limit. -/
def setDay (params : EventsParams) (fromTs : Int) : EventsParams :=
  { params with fromTs := fromTs, toTs := fromTs + 86400, limit := 0 }

end EventsParams

/-- The first part of `events_get`; `dayStart` is `sscanf` with `%d-%d-%d` and `mktime`, in
the device's time zone. -/
def EventsQuery.params (dayStart : Bytes → Option Int) (query : EventsQuery) : EventsParams :=
  let params := query.offset.elim EventsParams.initial EventsParams.initial.setOffset
  let params := query.limit.elim params params.setLimit
  let params := query.workerId.elim params params.setWorkerId
  (query.date.bind dayStart).elim params params.setDay

section Callbacks

variable (parse : Bytes → Option JsonTree)

/-- `(int)` of the member, 0 without one. -/
def JsonTree.workerId (json : JsonTree) : Int :=
  ((json.getInt (ascii "worker_id")).map castInt).getD 0

def JsonTree.ts (json : JsonTree) : Int := (json.getInt (ascii "ts")).getD 0

/-- `count_ctx_t` -/
structure CountCtx where
  workerId : Nat
  count : Nat

def countIterCb (line : Bytes) (ctx : CountCtx) : EspErr × CountCtx :=
  match parse line with
  | none => (.ok, ctx)
  | some json =>
      (.ok, if json.workerId = ctx.workerId then { ctx with count := ctx.count + 1 } else ctx)

/-- `events_iter_ctx_t`, with the chunks sent so far. -/
structure EventsIterCtx where
  chunks : List Bytes
  first : Bool
  skipped : Nat
  emitted : Nat
  params : EventsParams

/-- The tests of a parsed line in `events_iter_cb`. -/
def EventsParams.admits (params : EventsParams) (json : JsonTree) : Bool :=
  if (params.fromTs ≠ 0 ∨ params.toTs ≠ 0) ∧ params.fromTs ≠ 0 ∧ json.ts < params.fromTs then false
  else if (params.fromTs ≠ 0 ∨ params.toTs ≠ 0) ∧ params.toTs ≠ 0 ∧ params.toTs ≤ json.ts then false
  else !decide (params.workerId ≠ 0 ∧ json.workerId ≠ params.workerId)

/-- Without a filter the line is not parsed. -/
def EventsParams.passes (params : EventsParams) (line : Bytes) : Bool :=
  if params.fromTs ≠ 0 ∨ params.toTs ≠ 0 ∨ params.workerId ≠ 0 then (parse line).any params.admits
  else true

def EventsIterCtx.send (ctx : EventsIterCtx) (line : Bytes) : EventsIterCtx :=
  { ctx with
    chunks := ctx.chunks ++ ((if ctx.first then [] else [ascii ","]) ++ [line])
    first := false
    emitted := ctx.emitted + 1 }

def eventsIterCb (line : Bytes) (ctx : EventsIterCtx) : EspErr × EventsIterCtx :=
  if !ctx.params.passes parse line then (.ok, ctx)
  else if ctx.skipped < ctx.params.offset then (.ok, { ctx with skipped := ctx.skipped + 1 })
  else if 0 < ctx.params.limit ∧ ctx.params.limit ≤ ctx.emitted then (.fail, ctx)
  else (.ok, ctx.send line)

/-- Tail mode: the offset of the last `limit` matches. -/
def EventsParams.tailOffset (params : EventsParams) (store : Store) : Nat :=
  if 0 < params.limit ∧ params.offsetSet = false ∧ params.fromTs = 0 ∧ params.toTs = 0 then
    -- a log of half a megabyte has far fewer lines than an `int` counts
    let matching :=
      if params.workerId = 0 then store.eventCount
      else (eventIter (countIterCb parse) { workerId := params.workerId, count := 0 } store).2.count
    if params.limit < matching then matching - params.limit else params.offset
  else params.offset

/-- The last chunk of the reply. -/
def EventsParams.tail (params : EventsParams) (count emitted : Nat) : Bytes :=
  ascii "],\"count\":" ++ decimal count ++ ascii ",\"emitted\":" ++ decimal emitted ++
    ascii ",\"offset\":" ++ decimal params.offset ++ ascii ",\"limit\":" ++ decimal params.limit ++
    ascii ",\"from_ts\":" ++ signedDecimal params.fromTs ++
    ascii ",\"to_ts\":" ++ signedDecimal params.toTs ++
    ascii ",\"worker_id\":" ++ decimal params.workerId ++ ascii "\x7d"

def eventsOpening : Bytes := ascii "\x7b\"events\":["

/-- `events_get` of an authorised request, after its query is read: the chunks of the reply. -/
def eventsGet (params : EventsParams) (store : Store) : List Bytes :=
  let params := { params with offset := params.tailOffset parse store }
  let ctx := (eventIter (eventsIterCb parse)
    { chunks := [eventsOpening], first := true, skipped := 0, emitted := 0, params := params }
    store).2
  ctx.chunks ++ [params.tail store.eventCount ctx.emitted]

def lineTs (line : Bytes) : Int := ((parse line).map JsonTree.ts).getD 0

def lineWorkerId (line : Bytes) : Int := ((parse line).map JsonTree.workerId).getD 0

/-- The line is inside the bounds and of the worker, where these are in force. -/
def EventsParams.wants (params : EventsParams) (line : Bytes) : Bool :=
  (params.fromTs = 0 ∨ params.fromTs ≤ lineTs parse line) ∧
    (params.toTs = 0 ∨ lineTs parse line < params.toTs) ∧
    (params.workerId = 0 ∨ lineWorkerId parse line = params.workerId)

end Callbacks

section Walk

variable {parse : Bytes → Option JsonTree} {params : EventsParams} {line : Bytes}
  {lines : List Bytes}

theorem passes_wants (parsable : (parse line).isSome = true) :
    params.passes parse line = params.wants parse line := by
  obtain ⟨json, parsed⟩ := Option.isSome_iff_exists.mp parsable
  rw [Bool.eq_iff_iff, EventsParams.passes, EventsParams.wants, lineTs, lineWorkerId, parsed,
    decide_eq_true_iff, Option.map_some, Option.map_some, Option.getD_some, Option.getD_some,
    Option.any_some, EventsParams.admits]
  split_ifs <;> simp only [Bool.not_eq_true', decide_eq_false_iff_not, true_iff, false_iff] <;> omega

theorem countIterCb_counts (ctx : CountCtx) (parsable : ∀ line ∈ lines, (parse line).isSome = true) :
    (callEach (countIterCb parse) lines ctx).2.count =
      ctx.count + (lines.filter fun line => lineWorkerId parse line = ctx.workerId).length := by
  induction lines generalizing ctx with
  | nil => rfl
  | cons line lines ih =>
      obtain ⟨json, parsed⟩ := Option.isSome_iff_exists.mp (parsable line List.mem_cons_self)
      have rest (next : CountCtx) := ih next fun other member =>
        parsable other (List.mem_cons_of_mem _ member)
      have reads : lineWorkerId parse line = json.workerId := by
        rw [lineWorkerId, parsed]
        rfl
      rw [callEach, countIterCb, parsed]
      dsimp only
      rw [rest]
      by_cases own : json.workerId = ctx.workerId
      · rw [if_pos own, List.filter_cons_of_pos (by simpa [reads] using own), List.length_cons]
        dsimp only
        omega
      · rw [if_neg own, List.filter_cons_of_neg (by simpa [reads] using own)]

/-- What a walk still sends of the lines that pass. -/
def EventsIterCtx.window (ctx : EventsIterCtx) (found : List Bytes) : List Bytes :=
  let rest := found.drop (ctx.params.offset - ctx.skipped)
  if ctx.params.limit = 0 then rest else rest.take (ctx.params.limit - ctx.emitted)

def commaSeparated (first : Bool) : List Bytes → List Bytes
  | [] => []
  | line :: rest => (if first then [] else [ascii ","]) ++ line :: commaSeparated false rest

theorem commaSeparated_intersperse (page : List Bytes) :
    commaSeparated true page = page.intersperse (ascii ",") := by
  have after (line : Bytes) (rest : List Bytes) :
      line :: commaSeparated false rest = (line :: rest).intersperse (ascii ",") := by
    induction rest generalizing line with
    | nil => rfl
    | cons next rest ih =>
        rw [commaSeparated, List.intersperse_cons_cons, ← ih next]
        rfl
  cases page with
  | nil => rfl
  | cons line rest => exact after line rest

/-- The walk skips, sends and stops as its window says. -/
theorem eventsIterCb_sends (ctx : EventsIterCtx) :
    (callEach (eventsIterCb parse) lines ctx).2.chunks =
        ctx.chunks ++ commaSeparated ctx.first (ctx.window (lines.filter (ctx.params.passes parse))) ∧
      (callEach (eventsIterCb parse) lines ctx).2.emitted =
        ctx.emitted + (ctx.window (lines.filter (ctx.params.passes parse))).length := by
  induction lines generalizing ctx with
  | nil =>
      have nothing : ctx.window [] = [] := by
        rw [EventsIterCtx.window, List.drop_nil, List.take_nil, ite_self]
      rw [List.filter_nil, nothing, commaSeparated, List.append_nil]
      exact ⟨rfl, rfl⟩
  | cons line lines ih =>
      cases passes : ctx.params.passes parse line with
      | false =>
          have stays : eventsIterCb parse line ctx = (.ok, ctx) := by
            rw [eventsIterCb, passes]
            rfl
          rw [callEach, stays, List.filter_cons_of_neg (by simp [passes])]
          exact ih ctx
      | true =>
          rw [List.filter_cons_of_pos passes]
          by_cases skips : ctx.skipped < ctx.params.offset
          · have skipped : eventsIterCb parse line ctx =
                (.ok, { ctx with skipped := ctx.skipped + 1 }) := by
              rw [eventsIterCb, passes, if_neg (by decide), if_pos skips]
            have same (found : List Bytes) : ctx.window (line :: found) =
                { ctx with skipped := ctx.skipped + 1 }.window found := by
              have left : ctx.params.offset - ctx.skipped =
                  ctx.params.offset - (ctx.skipped + 1) + 1 := by omega
              rw [EventsIterCtx.window, left]
              rfl
            rw [callEach, skipped, same]
            exact ih { ctx with skipped := ctx.skipped + 1 }
          · have none : ctx.params.offset - ctx.skipped = 0 := by omega
            by_cases full : 0 < ctx.params.limit ∧ ctx.params.limit ≤ ctx.emitted
            · have stops : eventsIterCb parse line ctx = (.fail, ctx) := by
                rw [eventsIterCb, passes, if_neg (by decide), if_neg skips, if_pos full]
              have nothing (found : List Bytes) : ctx.window found = [] := by
                rw [EventsIterCtx.window, if_neg (by omega), Nat.sub_eq_zero_of_le full.2,
                  List.take_zero]
              rw [callEach, stops, nothing, commaSeparated, List.append_nil]
              exact ⟨rfl, rfl⟩
            · have sends : eventsIterCb parse line ctx = (.ok, ctx.send line) := by
                rw [eventsIterCb, passes, if_neg (by decide), if_neg skips, if_neg full]
              have first (found : List Bytes) : ctx.window (line :: found) =
                  line :: (ctx.send line).window found := by
                simp only [EventsIterCtx.window, EventsIterCtx.send, none, List.drop_zero]
                split_ifs with unlimited
                · rfl
                · have left : ctx.params.limit - ctx.emitted =
                      ctx.params.limit - (ctx.emitted + 1) + 1 := by omega
                  rw [left, List.take_succ_cons]
              obtain ⟨chunks, emitted⟩ := ih (ctx.send line)
              have params : (ctx.send line).params = ctx.params := rfl
              rw [params] at chunks emitted
              rw [callEach, sends, first, commaSeparated]
              dsimp only
              constructor
              · rw [chunks]
                simp [EventsIterCtx.send]
              · rw [emitted, List.length_cons]
                simp only [EventsIterCtx.send]
                omega

end Walk

section Pages

variable {parse : Bytes → Option JsonTree} {params : EventsParams} {store : Store}

/-- The reply sends these lines and no others. -/
def Sends (reply page : List Bytes) : Prop :=
  ∃ tail, reply = eventsOpening :: page.intersperse (ascii ",") ++ [tail]

/-- The query asks neither for a time range nor for an offset. -/
def EventsParams.Latest (params : EventsParams) : Prop :=
  params.offsetSet = false ∧ params.fromTs = 0 ∧ params.toTs = 0

instance (params : EventsParams) : Decidable params.Latest := inferInstanceAs (Decidable (_ ∧ _ ∧ _))

/-- The lines of the log that match. -/
def EventsParams.found (parse : Bytes → Option JsonTree) (params : EventsParams) (store : Store) :
    List Bytes :=
  (iterLines store.file).filter (params.wants parse)

/-- From an offset on, up to the limit there is. -/
def EventsParams.slice (params : EventsParams) (offset : Nat) (found : List Bytes) : List Bytes :=
  if params.limit = 0 then found.drop offset else (found.drop offset).take params.limit

theorem eventsGet_slice (params : EventsParams)
    (parsable : ∀ line ∈ iterLines store.file, (parse line).isSome = true) :
    Sends (eventsGet parse params store)
      (params.slice (params.tailOffset parse store) (params.found parse store)) := by
  rw [eventsGet, eventIter_lines]
  obtain ⟨chunks, _⟩ := @eventsIterCb_sends parse (iterLines store.file)
    { chunks := [eventsOpening], first := true, skipped := 0, emitted := 0
      params := { params with offset := params.tailOffset parse store } }
  have passing : (iterLines store.file).filter
      (EventsParams.passes parse { params with offset := params.tailOffset parse store }) =
        params.found parse store :=
    List.filter_congr fun line member => passes_wants (parsable line member)
  rw [chunks, passing, commaSeparated_intersperse]
  exact ⟨_, rfl⟩

/-- In tail mode both counts are the number of matches. -/
theorem tailOffset_latest (latest : params.Latest) (limited : 0 < params.limit)
    (parsable : ∀ line ∈ iterLines store.file, (parse line).isSome = true)
    (counted : store.eventCount = (iterLines store.file).length) :
    params.tailOffset parse store =
      if params.limit < (params.found parse store).length then
        (params.found parse store).length - params.limit
      else params.offset := by
  obtain ⟨offset, fromTs, toTs⟩ := latest
  have matching : (if params.workerId = 0 then store.eventCount
      else (eventIter (countIterCb parse) { workerId := params.workerId, count := 0 } store).2.count) =
        (params.found parse store).length := by
    split_ifs with all
    · rw [counted, EventsParams.found, List.filter_eq_self.mpr]
      intro line _
      simp [EventsParams.wants, fromTs, toTs, all]
    · rw [eventIter_lines, countIterCb_counts _ parsable, Nat.zero_add, EventsParams.found]
      congr 1
      refine List.filter_congr fun line _ => ?_
      simp [EventsParams.wants, fromTs, toTs, all]
  rw [EventsParams.tailOffset, if_pos ⟨limited, offset, fromTs, toTs⟩, matching]

theorem slices_flatten (found : List Bytes) (size pages : Nat) :
    ((List.range pages).map fun index => (found.drop (index * size)).take size).flatten =
      found.take (pages * size) := by
  induction pages with
  | zero => simp
  | succ pages ih =>
      rw [List.range_succ, List.map_append, List.flatten_append, ih, Nat.succ_mul, List.take_add]
      simp

/-- The parameters with an explicit offset. -/
def EventsParams.startingAt (params : EventsParams) (offset : Nat) : EventsParams :=
  { params with offset := offset, offsetSet := true }

theorem setLimit_pos (params : EventsParams) (val : Bytes) : 0 < (params.setLimit val).limit := by
  rw [EventsParams.setLimit]
  dsimp only
  split_ifs <;> omega

/-- Without a time range there is a limit, and without an offset it is 0. -/
theorem params_latest (dayStart : Bytes → Option Int) (query : EventsQuery)
    (latest : (query.params dayStart).Latest) :
    0 < (query.params dayStart).limit ∧ (query.params dayStart).offset = 0 := by
  rcases query with ⟨offset, limit, workerId, date⟩
  cases day : date.bind dayStart with
  | some fromTs =>
      obtain ⟨_, start, stop⟩ := latest
      simp only [EventsQuery.params, day, Option.elim_some, EventsParams.setDay] at start stop
      omega
  | none =>
      cases offset with
      | some val =>
          have given := latest.1
          cases limit <;> cases workerId <;>
            simp [EventsQuery.params, day, EventsParams.setOffset, EventsParams.setLimit,
              EventsParams.setWorkerId] at given
      | none =>
          have reads : EventsQuery.params dayStart ⟨none, limit, workerId, date⟩ =
              workerId.elim (limit.elim EventsParams.initial EventsParams.initial.setLimit)
                (limit.elim EventsParams.initial EventsParams.initial.setLimit).setWorkerId := by
            rw [EventsQuery.params, day]
            rfl
          have positive : 0 < (limit.elim EventsParams.initial EventsParams.initial.setLimit).limit := by
            cases limit with
            | none => decide
            | some val => exact setLimit_pos EventsParams.initial val
          have start : (limit.elim EventsParams.initial EventsParams.initial.setLimit).offset = 0 := by
            cases limit <;> rfl
          rw [reads]
          cases workerId <;> exact ⟨positive, start⟩

/-- A query sends its matches from its offset up to its limit, or the last of them when it
asks for no range and no offset; and successive pages of any size make up all matches. -/
theorem eventsGet_pages (parse : Bytes → Option JsonTree) (dayStart : Bytes → Option Int)
    (query : EventsQuery) (store : Store)
    (parsable : ∀ line ∈ iterLines store.file, (parse line).isSome = true)
    (counted : store.eventCount = (iterLines store.file).length) :
    let params := query.params dayStart
    let found := params.found parse store
    (¬ params.Latest → Sends (eventsGet parse params store) (params.slice params.offset found)) ∧
    (params.Latest → Sends (eventsGet parse params store)
      (found.drop (found.length - min params.limit found.length))) ∧
    (0 < params.limit → ∀ pages, found.length ≤ pages * params.limit →
      ∃ parts : List (List Bytes), parts.length = pages ∧
        (∀ index part, parts[index]? = some part →
          Sends (eventsGet parse (params.startingAt (index * params.limit)) store) part) ∧
        parts.flatten = found) := by
  intro params found
  refine ⟨fun ranged => ?_, fun latest => ?_, fun limited pages enough => ?_⟩
  · have offset : params.tailOffset parse store = params.offset :=
      if_neg fun tail => ranged tail.2
    have sends := eventsGet_slice params parsable
    rwa [offset] at sends
  · obtain ⟨limited, start⟩ := params_latest dayStart query latest
    have sends := eventsGet_slice params parsable
    rw [tailOffset_latest latest limited parsable counted] at sends
    have page : params.slice (if params.limit < found.length then found.length - params.limit
        else params.offset) found = found.drop (found.length - min params.limit found.length) := by
      rw [EventsParams.slice, if_neg limited.ne']
      split_ifs with long
      · rw [min_eq_left long.le, List.take_of_length_le]
        rw [List.length_drop]
        omega
      · have short := not_lt.mp long
        rw [min_eq_right short, Nat.sub_self, start, List.drop_zero, List.take_of_length_le short]
    rwa [page] at sends
  · refine ⟨(List.range pages).map fun index =>
      (found.drop (index * params.limit)).take params.limit, by simp, ?_, ?_⟩
    · intro index part listed
      rw [List.getElem?_map] at listed
      obtain ⟨number, inRange, rfl⟩ := Option.map_eq_some_iff.mp listed
      obtain ⟨_, own⟩ := List.getElem?_eq_some_iff.mp inRange
      rw [List.getElem_range] at own
      subst own
      have sends := eventsGet_slice (params.startingAt (index * params.limit)) parsable
      have offset : (params.startingAt (index * params.limit)).tailOffset parse store =
          index * params.limit := if_neg fun tail => Bool.false_ne_true tail.2.1.symm
      have page : (params.startingAt (index * params.limit)).slice (index * params.limit) found =
          (found.drop (index * params.limit)).take params.limit := if_neg limited.ne'
      rw [offset] at sends
      exact page ▸ sends
    · rw [slices_flatten, List.take_of_length_le enough]

/-- Four events of two workers. -/
def fourEvents : Store where
  events := some (ascii "\x7b\"ts\":1,\"worker_id\":1\x7d\n\x7b\"ts\":2,\"worker_id\":2\x7d\n" ++
    ascii "\x7b\"ts\":3,\"worker_id\":1\x7d\n\x7b\"ts\":4,\"worker_id\":1\x7d\n")
  eventCount := 4

/-- The last two events of worker 1. -/
def lastTwo : EventsQuery where
  offset := none
  limit := some (ascii "2")
  workerId := some (ascii "1")
  date := none

theorem eventsGet_pages_lastTwo :
    Sends (eventsGet plainCodec.parse (lastTwo.params fun _ => none) fourEvents)
      [ascii "\x7b\"ts\":3,\"worker_id\":1\x7d", ascii "\x7b\"ts\":4,\"worker_id\":1\x7d"] := by
  have pages := eventsGet_pages plainCodec.parse (fun _ => none) lastTwo fourEvents
    (by decide +kernel) (by decide +kernel)
  have latest : (lastTwo.params fun _ => none).Latest := by decide +kernel
  have last : (let params := lastTwo.params fun _ => none
      let found := params.found plainCodec.parse fourEvents
      found.drop (found.length - min params.limit found.length)) =
        [ascii "\x7b\"ts\":3,\"worker_id\":1\x7d", ascii "\x7b\"ts\":4,\"worker_id\":1\x7d"] := by
    decide +kernel
  exact last ▸ pages.2.1 latest

end Pages

end LeanDingdong
