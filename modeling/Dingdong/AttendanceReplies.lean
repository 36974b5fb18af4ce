import Dingdong.AttendanceExport
import Dingdong.AttendancePaired
import Dingdong.StorageDelete

/-!
The bodies `events_get` and `events_paired_get` put together by hand: an opening, the entries
with commas between them, and a last chunk printed into a buffer. Over a log of recorded
events, whatever the query is, the chunks make up the text `cJSON` prints of one object, and
no buffer is too short for it.
-/

namespace LeanDingdong

open SlotTable TextLines

/-- What a client parses from `events_get`. -/
def eventsReply (params : EventsParams) (count : Nat) (page : List JsonTree) : JsonTree :=
  .object
    [(ascii "events", .array page), (ascii "count", .number count),
      (ascii "emitted", .number page.length), (ascii "offset", .number params.offset),
      (ascii "limit", .number params.limit), (ascii "from_ts", .number params.fromTs),
      (ascii "to_ts", .number params.toTs), (ascii "worker_id", .number params.workerId)]

/-- What a client parses from `events_paired_get`. -/
def pairedReply (segments : List Segment) : JsonTree :=
  .object
    [(ascii "segments", .array (segments.map Segment.json)),
      (ascii "count", .number segments.length)]

/-- The segments of the whole log. -/
def logSegments (codec : Codec) (store : Store) : List Segment :=
  pairedView ((iterLines store.file).map fun line => (codec.parse line).map JsonTree.pairEvent)

def segmentsOpening : Bytes := ascii "\x7b\"segments\":["

/-- The last chunk of `events_paired_get`. -/
def pairedTail (emitted : Nat) : Bytes := ascii "],\"count\":" ++ decimal emitted ++ ascii "\x7d"

/-- `events_paired_get` of an authorised request: the chunks of the reply. -/
def eventsPairedGet (codec : Codec) (store : Store) : List Bytes :=
  let segments := logSegments codec store
  segmentsOpening ::
    commaSeparated true (segments.map fun segment => codec.print segment.json) ++
    [pairedTail segments.length]

/-- The text `cJSON_PrintUnformatted` makes of an array and of an object, given those of their
parts, of a C string, and of an integer of at most 15 digits. -/
structure Codec.Unformatted (codec : Codec) : Prop where
  array : ∀ items : List JsonTree, codec.print (.array items) =
    91 :: ((commaSeparated true (items.map codec.print)).flatten ++ [93])
  object : ∀ members : List (Bytes × JsonTree), codec.print (.object members) =
    123 :: ((commaSeparated true (members.map fun member =>
      codec.print (.text member.1) ++ 58 :: codec.print member.2)).flatten ++ [125])
  text : ∀ value : Bytes, 0 ∉ value → codec.print (.text value) = printString value
  number : ∀ value : Int, value.natAbs < 10 ^ 15 →
    codec.print (.number value) = signedDecimal value

section Text

variable {codec : Codec}

/-- Texts with commas between them and a closing byte. -/
def closed (close : UInt8) : List Bytes → Bytes
  | [] => [close]
  | text :: texts => text ++ (if texts.isEmpty then [] else [44]) ++ closed close texts

theorem commaSeparated_closed (close : UInt8) (texts : List Bytes) :
    (commaSeparated true texts).flatten ++ [close] = closed close texts := by
  have after (text : Bytes) (texts : List Bytes) :
      (commaSeparated true (text :: texts)).flatten ++ [close] = closed close (text :: texts) := by
    induction texts generalizing text with
    | nil => simp [commaSeparated, closed]
    | cons next texts ih =>
        have later := ih next
        simp only [commaSeparated, if_true, List.nil_append, List.flatten_cons,
          List.append_assoc] at later
        rw [closed, List.append_assoc, ← later]
        simp [commaSeparated, ascii]
  cases texts with
  | nil => rfl
  | cons text texts => exact after text texts

theorem printItems_closed (items : List JsonTree) :
    JsonTree.printItems items = closed 93 (items.map JsonTree.print) := by
  induction items with
  | nil => rfl
  | cons item items ih =>
      rw [JsonTree.printItems, List.map_cons, closed, ih]
      cases items <;> rfl

theorem printMembers_closed (members : List (Bytes × JsonTree)) :
    JsonTree.printMembers members = closed 125 (members.map fun member =>
      printString member.1 ++ 58 :: member.2.print) := by
  induction members with
  | nil => rfl
  | cons member members ih =>
      rw [JsonTree.printMembers, List.map_cons, closed, ih]
      cases members <;> simp

theorem plainCodec_unformatted : plainCodec.Unformatted where
  array items := by
    rw [commaSeparated_closed]
    exact congrArg (91 :: ·) (printItems_closed items)
  object members := by
    rw [commaSeparated_closed]
    exact congrArg (123 :: ·) (printMembers_closed members)
  text _ _ := rfl
  number _ _ := rfl

theorem decimal_signed (value : Nat) : decimal value = signedDecimal value := by
  rw [signedDecimal, if_neg (by omega), Int.natAbs_natCast]

/-- The chunks of a reply are none of them empty. -/
theorem commaSeparated_nonempty {items : List Bytes} (nonempty : [] ∉ items) (first : Bool) :
    [] ∉ commaSeparated first items := by
  induction items generalizing first with
  | nil => simp [commaSeparated]
  | cons item items ih =>
      rw [List.mem_cons, not_or] at nonempty
      have rest := ih nonempty.2 false
      cases first <;> simp [commaSeparated, nonempty.1, rest, ascii]

/-- A name the handlers write needs no escapes. -/
theorem Codec.Unformatted.key (unformatted : codec.Unformatted) {key : Bytes}
    (member : key ∈ ["events", "segments", "count", "emitted", "offset", "limit", "from_ts", "to_ts",
      "worker_id"].map ascii) : codec.print (.text key) = 34 :: (key ++ [34]) := by
  have plain : ∀ key ∈ ["events", "segments", "count", "emitted", "offset", "limit", "from_ts",
      "to_ts", "worker_id"].map ascii, 0 ∉ key ∧ escapeText key = key := by decide +kernel
  rw [unformatted.text key (plain key member).1, printString, (plain key member).2]

theorem Codec.Unformatted.natural (unformatted : codec.Unformatted) {value : Nat}
    (small : value < 2 ^ 31) : codec.print (.number value) = decimal value := by
  rw [unformatted.number value (by omega), decimal_signed]

theorem pairedReply_print (unformatted : codec.Unformatted) {segments : List Segment}
    (few : segments.length < 2 ^ 31) :
    segmentsOpening ++
      (commaSeparated true ((segments.map Segment.json).map codec.print)).flatten ++
        pairedTail segments.length = codec.print (pairedReply segments) := by
  have keys (key : String) (member : ascii key ∈ ["events", "segments", "count", "emitted",
      "offset", "limit", "from_ts", "to_ts", "worker_id"].map ascii) := unformatted.key member
  rw [pairedTail, pairedReply, unformatted.object]
  simp only [List.map_cons, List.map_nil, keys "segments" (by decide), keys "count" (by decide),
    unformatted.array, unformatted.natural few]
  simp [commaSeparated, ascii, segmentsOpening]

end Text

section Records

variable {codec : Codec}

/-- A member as `cJSON_Parse` reads it. -/
def Member.entry (member : Member) : Bytes × JsonTree :=
  match member.value with
  | .number value => (member.key, .number value)
  | .text value => (member.key, .text value)

/-- Name and string are C strings, and a number has at most 15 digits. -/
structure Member.Exact (member : Member) : Prop where
  key : 0 ∉ member.key
  number : ∀ value, member.value = .number value → value.natAbs < 10 ^ 15
  text : ∀ value, member.value = .text value → 0 ∉ value

theorem Member.Exact.print_entry {member : Member} (exact : member.Exact)
    (unformatted : codec.Unformatted) :
    codec.print (.text member.entry.1) ++ 58 :: codec.print member.entry.2 = printMember member := by
  obtain ⟨key, number, text⟩ := exact
  obtain ⟨name, value⟩ := member
  cases value with
  | number value =>
      simp only [Member.entry, printMember, printValue, unformatted.text name key,
        unformatted.number value (number value rfl)]
  | text value =>
      simp only [Member.entry, printMember, printValue, unformatted.text name key,
        unformatted.text value (text value rfl)]

/-- The members printed one after another are the parts of the printed object. -/
theorem printUnformatted_closed {members : List Member} (some : members ≠ []) :
    printUnformatted members = 123 :: closed 125 (members.map printMember) := by
  refine congrArg (123 :: ·) ?_
  induction members using separated.induct with
  | case1 => exact absurd rfl some
  | case2 member => simp [separated, printParts, closed]
  | case3 member next rest ih =>
      have rest := ih (List.cons_ne_nil _ _)
      rw [List.map_cons] at rest
      rw [separated, printParts_cons, rest, List.map_cons]
      simp [closed]

theorem object_print (unformatted : codec.Unformatted) {members : List Member}
    (some : members ≠ []) (exact : ∀ member ∈ members, member.Exact) :
    codec.print (.object (members.map Member.entry)) = printUnformatted members := by
  have texts : (members.map Member.entry).map (fun member =>
      codec.print (.text member.1) ++ 58 :: codec.print member.2) = members.map printMember := by
    rw [List.map_map]
    exact List.map_congr_left fun member present => (exact member present).print_entry unformatted
  rw [unformatted.object, texts, commaSeparated_closed, printUnformatted_closed some]

theorem object_kept {members : List Member} (exact : ∀ member ∈ members, member.Exact) :
    (JsonTree.object (members.map Member.entry)).Kept := by
  rw [JsonTree.Kept]
  induction members with
  | nil => trivial
  | cons member members ih =>
      rw [List.forall_mem_cons] at exact
      obtain ⟨⟨key, number, text⟩, rest⟩ := exact
      obtain ⟨name, value⟩ := member
      cases value with
      | number value => exact ⟨key, (number value rfl).trans (by decide), ih rest⟩
      | text value => exact ⟨key, text value rfl, ih rest⟩

namespace EventRecord

variable (record : EventRecord)

/-- The object of the record. -/
def tree : JsonTree := .object (record.members.map Member.entry)

theorem members_exact : ∀ member ∈ record.members, member.Exact := by
  have number {key : Bytes} (noNul : 0 ∉ key) {value : Int} (small : value.natAbs < 10 ^ 15) :
      Member.Exact ⟨key, .number value⟩ :=
    ⟨noNul, fun _ same => JsonValue.number.inj same ▸ small, fun _ same => (by cases same)⟩
  have text {key : Bytes} (noNul : 0 ∉ key) {value : Bytes} (plain : 0 ∉ value) :
      Member.Exact ⟨key, .text value⟩ :=
    ⟨noNul, fun _ same => (by cases same), fun _ same => JsonValue.text.inj same ▸ plain⟩
  have note : Member.Exact record.noteMember := text (by decide) record.noteNoNul
  intro member present
  rcases List.mem_append.mp present with inHead | last
  · rcases record.mem_head.mp inHead with
      rfl | rfl | rfl | rfl | ⟨_, _, rfl⟩ | ⟨_, rfl⟩ | ⟨_, rfl⟩
    · exact number (by decide) record.tsPlain
    · exact number (by decide) record.monoPlain
    · exact text (by decide) (by cases record.type <;> decide)
    · exact text (by decide) (by cases record.src <;> decide)
    · exact text (by decide) (formatMac_noNul _)
    · have small : record.workerId < 2 ^ 16 := by
        rw [workerId]
        split
        · decide
        · exact UInt16.toNat_lt _
      exact number (by decide) (by omega)
    · have low := record.reason.le_toInt
      have high := record.reason.toInt_lt
      exact number (by decide) (by omega)
  · split_ifs at last
    · cases last
    · rw [List.mem_singleton.mp last]
      exact note

/-- The line of a record is the text of its object. -/
theorem tree_print (unformatted : codec.Unformatted) : codec.print record.tree = record.line := by
  have some : record.members ≠ [] := by
    rw [members, head]
    simp
  exact object_print unformatted some record.members_exact

theorem tree_kept : record.tree.Kept := object_kept record.members_exact

/-- The line of a record is read back. -/
theorem parse_line (faithful : codec.Faithful) (unformatted : codec.Unformatted) :
    codec.parse record.line = some record.tree := by
  rw [← record.tree_print unformatted, faithful.parse_print _ record.tree_kept]

/-- The time a view takes for the event is that of the record. -/
theorem tree_time : 0 ≤ record.tree.pairEvent.time ∧ record.tree.pairEvent.time < 10 ^ 15 := by
  have ts : record.tree.pairEvent.ts = some (record.ts : Int) := rfl
  have mono : record.tree.pairEvent.monoUs = some (record.monoUs : Int) := rfl
  have tsPlain := record.tsPlain
  have monoPlain := record.monoPlain
  rw [JsonEvent.time, ts, mono, Option.getD_some, Option.getD_some, eventTime]
  split_ifs
  · omega
  · rw [Int.tdiv_eq_ediv_of_nonneg (by omega)]
    omega

end EventRecord

/-- The lines of a log of records are the texts of their objects. -/
theorem records_printed (unformatted : codec.Unformatted) {store : Store}
    {records : List LoggedEvent} (holds : Holds store (records.map LoggedEvent.line)) :
    iterLines store.file = (records.map fun logged => logged.record.tree).map codec.print := by
  rw [holds.file, iterLines_encode, texts, List.map_map, List.map_map]
  exact List.map_congr_left fun logged _ => (logged.record.tree_print unformatted).symm

/-- A log has no more lines than bytes. -/
theorem records_few {store : Store} {records : List LoggedEvent}
    (holds : Holds store (records.map LoggedEvent.line)) : records.length ≤ store.file.length := by
  have counted := count_encode newline (@texts_noNewline (records.map LoggedEvent.line))
  rw [← holds.file, texts, List.length_map, List.length_map] at counted
  exact counted ▸ List.count_le_length

end Records

section Events

variable {codec : Codec} {params : EventsParams} {store : Store} {trees : List JsonTree}

/-- The events a query sends, of those it lets pass. -/
def EventsParams.page (params : EventsParams) (offset : Nat) (found : List JsonTree) :
    List JsonTree :=
  if params.limit = 0 then found.drop offset else (found.drop offset).take params.limit

theorem page_sublist (params : EventsParams) (offset : Nat) :
    (params.page offset (trees.filter params.admits)).Sublist trees := by
  have dropped := (List.drop_sublist offset _).trans (List.filter_sublist (p := params.admits)
    (l := trees))
  rw [EventsParams.page]
  split_ifs
  · exact dropped
  · exact (List.take_sublist _ _).trans dropped

/-- A line passes the tests the tree read from it passes. -/
theorem passes_read (params : EventsParams) {parse : Bytes → Option JsonTree} {line : Bytes}
    {tree : JsonTree} (read : parse line = some tree) :
    params.passes parse line = params.admits tree := by
  rw [EventsParams.passes, read, Option.any_some, EventsParams.admits]
  split_ifs <;> simp_all

/-- The walk over a printed log sends the page and counts it. -/
theorem eventsGet_page (params : EventsParams)
    (printed : iterLines store.file = trees.map codec.print)
    (read : ∀ tree ∈ trees, codec.parse (codec.print tree) = some tree) :
    let offset := params.tailOffset codec.parse store
    let page := params.page offset (trees.filter params.admits)
    eventsGet codec.parse params store =
      eventsOpening :: commaSeparated true (page.map codec.print) ++
        [{ params with offset := offset }.tail store.eventCount page.length] := by
  intro offset page
  obtain ⟨chunks, emitted⟩ := @eventsIterCb_sends codec.parse (iterLines store.file)
    { chunks := [eventsOpening], first := true, skipped := 0, emitted := 0
      params := { params with offset := offset } }
  have passing : (iterLines store.file).filter
      (EventsParams.passes codec.parse { params with offset := offset }) =
        (trees.filter params.admits).map codec.print := by
    rw [printed, List.filter_map]
    congr 1
    exact List.filter_congr fun tree member =>
      passes_read { params with offset := offset } (read tree member)
  have window (found : List JsonTree) : EventsIterCtx.window
      { chunks := [eventsOpening], first := true, skipped := 0, emitted := 0
        params := { params with offset := offset } } (found.map codec.print) =
      (params.page offset found).map codec.print := by
    rw [EventsIterCtx.window, EventsParams.page]
    dsimp only
    rw [Nat.sub_zero, Nat.sub_zero, apply_ite (List.map codec.print), List.map_take,
      List.map_drop]
  rw [passing, window] at chunks emitted
  rw [eventsGet, eventIter_lines]
  rw [chunks, emitted, List.length_map, Nat.zero_add]
  rfl

/-- What a query can ask for. -/
structure EventsParams.InRange (params : EventsParams) : Prop where
  offset : params.offset < 2 ^ 31
  limit : params.limit ≤ 5000
  fromTs : params.fromTs.natAbs < 10 ^ 15
  toTs : params.toTs.natAbs < 10 ^ 15
  workerId : params.workerId < 2 ^ 16

namespace EventsParams.InRange

theorem setOffset (range : params.InRange) (val : Bytes) : (params.setOffset val).InRange where
  offset := by
    have bounded : atoi val ≤ 2 ^ 31 - 1 := by rw [atoi]; omega
    show (atoi val).toNat < 2 ^ 31
    omega
  limit := range.limit
  fromTs := range.fromTs
  toTs := range.toTs
  workerId := range.workerId

theorem setLimit (range : params.InRange) (val : Bytes) : (params.setLimit val).InRange where
  offset := range.offset
  limit := by
    rw [EventsParams.setLimit]
    dsimp only
    split_ifs <;> omega
  fromTs := range.fromTs
  toTs := range.toTs
  workerId := range.workerId

theorem setWorkerId (range : params.InRange) (val : Bytes) : (params.setWorkerId val).InRange where
  offset := range.offset
  limit := range.limit
  fromTs := range.fromTs
  toTs := range.toTs
  workerId := by
    show castU16 (atoi val) < 2 ^ 16
    rw [castU16]
    omega

theorem setDay (range : params.InRange) {fromTs : Int} (small : fromTs.natAbs < 10 ^ 14) :
    (params.setDay fromTs).InRange where
  offset := range.offset
  limit := Nat.zero_le _
  fromTs := small.trans (by decide)
  toTs := by
    show (fromTs + 86400).natAbs < 10 ^ 15
    omega
  workerId := range.workerId

/-- A query gives parameters in range; a date is some seconds. -/
theorem ofQuery {dayStart : Bytes → Option Int}
    (dates : ∀ val day, dayStart val = some day → day.natAbs < 10 ^ 14) (query : EventsQuery) :
    (query.params dayStart).InRange := by
  have kept {value : Type} {before : EventsParams} {set : value → EventsParams}
      (range : before.InRange) (after : ∀ val, (set val).InRange) (given : Option value) :
      (given.elim before set).InRange := by
    cases given with
    | none => exact range
    | some val => exact after val
  have initial : EventsParams.initial.InRange := by constructor <;> decide
  have offset := kept initial initial.setOffset query.offset
  have limit := kept offset offset.setLimit query.limit
  have workerId := kept limit limit.setWorkerId query.workerId
  rw [EventsQuery.params]
  cases given : query.date.bind dayStart with
  | none => exact workerId
  | some day =>
      obtain ⟨val, _, isDay⟩ := Option.bind_eq_some_iff.mp given
      exact workerId.setDay (dates val day isDay)

end EventsParams.InRange

/-- The count of the matching lines is at most that of all lines. -/
theorem countIterCb_le (parse : Bytes → Option JsonTree) (lines : List Bytes) (ctx : CountCtx) :
    (callEach (countIterCb parse) lines ctx).2.count ≤ ctx.count + lines.length := by
  induction lines generalizing ctx with
  | nil => exact le_rfl
  | cons line lines ih =>
      cases parsed : parse line with
      | none =>
          rw [callEach, countIterCb, parsed]
          exact (ih ctx).trans (Nat.add_le_add_left (Nat.le_succ _) _)
      | some json =>
          have rest := ih (if json.workerId = ctx.workerId then { ctx with count := ctx.count + 1 }
            else ctx)
          have one : (if json.workerId = ctx.workerId then { ctx with count := ctx.count + 1 }
              else ctx).count ≤ ctx.count + 1 := by
            split_ifs
            · exact le_rfl
            · exact Nat.le_succ _
          rw [callEach, countIterCb, parsed, List.length_cons]
          exact rest.trans (by omega)

theorem tailOffset_lt (range : params.InRange) (parse : Bytes → Option JsonTree)
    (few : (iterLines store.file).length < 2 ^ 31) (counted : store.eventCount < 2 ^ 31) :
    params.tailOffset parse store < 2 ^ 31 := by
  have matching := countIterCb_le parse (iterLines store.file)
    { workerId := params.workerId, count := 0 }
  have inRange := range.offset
  rw [← eventIter_lines] at matching
  rw [EventsParams.tailOffset]
  dsimp only at matching ⊢
  split_ifs <;> omega

/-- The buffer of 200 bytes holds the last chunk. -/
theorem tail_length (range : params.InRange) {count emitted : Nat} (counted : count < 2 ^ 31)
    (sent : emitted < 2 ^ 31) : (params.tail count emitted).length < 200 := by
  have digits {value size : Nat} (positive : 0 < size) (bound : value < 10 ^ size) :=
    decimal_length_le positive bound
  have first := @digits count 10 (by decide) (by omega)
  have second := @digits emitted 10 (by decide) (by omega)
  have third := @digits params.offset 10 (by decide) (by have := range.offset; omega)
  have fourth := @digits params.limit 10 (by decide) (by have := range.limit; omega)
  have fifth := signedDecimal_length (by decide) range.fromTs
  have sixth := signedDecimal_length (by decide) range.toTs
  have seventh := @digits params.workerId 10 (by decide) (by have := range.workerId; omega)
  simp only [EventsParams.tail, List.length_append]
  have texts : (ascii "],\"count\":").length = 10 ∧ (ascii ",\"emitted\":").length = 11 ∧
      (ascii ",\"offset\":").length = 10 ∧ (ascii ",\"limit\":").length = 9 ∧
      (ascii ",\"from_ts\":").length = 11 ∧ (ascii ",\"to_ts\":").length = 9 ∧
      (ascii ",\"worker_id\":").length = 13 ∧ (ascii "\x7d").length = 1 := by decide
  omega

/-- An opening, printed values with commas between them and a last chunk all arrive. -/
theorem chunkedBody_reply (faithful : codec.Faithful) {opening tail : Bytes} (opens : opening ≠ [])
    (ends : tail ≠ []) (items : List JsonTree) :
    chunkedBody (opening :: commaSeparated true (items.map codec.print) ++ [tail]) =
      opening ++ (commaSeparated true (items.map codec.print)).flatten ++ tail := by
  have printed : [] ∉ items.map codec.print := by
    intro member
    obtain ⟨tree, _, empty⟩ := List.mem_map.mp member
    exact faithful.print_ne_nil tree empty
  have inner := commaSeparated_nonempty printed true
  have nonempty : [] ∉ opening :: commaSeparated true (items.map codec.print) ++ [tail] := by
    simp only [List.cons_append, List.mem_cons, List.mem_append, List.not_mem_nil, or_false, not_or]
    exact ⟨opens.symm, inner, ends.symm⟩
  rw [chunkedBody_flatten nonempty, List.cons_append, List.flatten_cons, List.flatten_append,
    List.flatten_singleton, List.append_assoc]

theorem eventsReply_print (unformatted : codec.Unformatted) (range : params.InRange) {count : Nat}
    (counted : count < 2 ^ 31) {page : List JsonTree} (sent : page.length < 2 ^ 31) :
    eventsOpening ++ (commaSeparated true (page.map codec.print)).flatten ++
      params.tail count page.length = codec.print (eventsReply params count page) := by
  have keys (key : String) (member : ascii key ∈ ["events", "segments", "count", "emitted",
      "offset", "limit", "from_ts", "to_ts", "worker_id"].map ascii) := unformatted.key member
  have limit := range.limit
  have workerId := range.workerId
  rw [EventsParams.tail, eventsReply, unformatted.object]
  simp only [List.map_cons, List.map_nil, keys "events" (by decide), keys "count" (by decide),
    keys "emitted" (by decide), keys "offset" (by decide), keys "limit" (by decide),
    keys "from_ts" (by decide), keys "to_ts" (by decide), keys "worker_id" (by decide),
    unformatted.array, unformatted.natural counted, unformatted.natural sent,
    unformatted.natural range.offset, unformatted.number _ range.fromTs,
    unformatted.number _ range.toTs, unformatted.natural (by omega : params.limit < 2 ^ 31),
    unformatted.natural (by omega : params.workerId < 2 ^ 31)]
  simp [commaSeparated, ascii, eventsOpening]

theorem eventsReply_kept (range : params.InRange) {count : Nat} (counted : count < 2 ^ 31)
    {page : List JsonTree} (sent : page.length < 2 ^ 31) (kept : ∀ tree ∈ page, tree.Kept) :
    (eventsReply params count page).Kept := by
  have keys : 0 ∉ ascii "events" ∧ 0 ∉ ascii "count" ∧ 0 ∉ ascii "emitted" ∧ 0 ∉ ascii "offset" ∧
      0 ∉ ascii "limit" ∧ 0 ∉ ascii "from_ts" ∧ 0 ∉ ascii "to_ts" ∧ 0 ∉ ascii "worker_id" := by
    decide
  have natural {value : Nat} (small : value < 2 ^ 31) : (value : Int).natAbs < 2 ^ 53 := by omega
  have limit := range.limit
  have workerId := range.workerId
  exact ⟨keys.1, JsonTree.keptItems_iff.mpr kept, keys.2.1, natural counted, keys.2.2.1,
    natural sent, keys.2.2.2.1, natural range.offset, keys.2.2.2.2.1, natural (by omega),
    keys.2.2.2.2.2.1, range.fromTs.trans (by decide), keys.2.2.2.2.2.2.1,
    range.toTs.trans (by decide), keys.2.2.2.2.2.2.2, natural (by omega), trivial⟩

end Events

section Segments

variable {codec : Codec} {ctx : PairCtx}

/-- Writing over a slot leaves at most one entry more. -/
theorem contents_update_length (table : Fin pairMaxOpen → PairOpen) (slot : Fin pairMaxOpen)
    (entry : PairOpen) : (contents PairOpen.live (Function.update table slot entry)).length ≤
      (contents PairOpen.live table).length + 1 := by
  have moved := (contents_update PairOpen.live table slot entry).length_eq
  have one : (occupant PairOpen.live entry).length ≤ 1 := by
    rw [occupant]
    split_ifs <;> simp
  rw [List.length_append, List.length_append] at moved
  omega

theorem fill_size_le (ctx : PairCtx) (entry : PairOpen) : (ctx.fill entry).size ≤ ctx.size + 1 :=
  Nat.add_le_add_left (contents_update_length _ _ entry) _

theorem close_size {slot : Fin pairMaxOpen} (used : (ctx.opens slot).live = true)
    (out : Option (Int × Bytes)) : (ctx.close slot out).size = ctx.size := by
  have taken := (ctx.close_entries used out).length_eq
  rw [PairCtx.size, PairCtx.size, taken, PairCtx.close]
  simp only [List.length_append, List.length_cons, List.length_nil]
  omega

/-- A line adds at most one segment to those sent and those still to be sent. -/
theorem pairedIterCb_size_le (ctx : PairCtx) (line : Option JsonEvent) :
    (pairedIterCb ctx line).size ≤ ctx.size + 1 := by
  have incoming (entry : PairOpen) : (pairIn ctx entry).size ≤ ctx.size + 1 := by
    rw [pairIn]
    cases found : findOpenSlot ctx.opens entry.workerId entry.addr entry.hasAddr with
    | none => exact fill_size_le ctx entry
    | some slot =>
        have closed := close_size (PairCtx.From.findOpenSlot_live found) none
        exact (fill_size_le _ entry).trans (Nat.add_le_add_right closed.le 1)
  have outgoing (workerId : Nat) (addr : Addr) (hasAddr : Bool) (out : Int × Bytes) :
      (pairOut ctx workerId addr hasAddr out).size ≤ ctx.size + 1 := by
    rw [pairOut]
    cases found : findOpenSlot ctx.opens workerId addr hasAddr with
    | none => exact Nat.le_succ _
    | some slot =>
        have closed := close_size (PairCtx.From.findOpenSlot_live found) (some out)
        exact closed.le.trans (Nat.le_succ _)
  rw [pairedIterCb.eq_def]
  split
  · exact Nat.le_succ _
  · split
    · dsimp only
      split_ifs
      · exact Nat.le_succ _
      · exact incoming _
      · exact outgoing ..
    · exact Nat.le_succ _

/-- The view has at most one segment for each line. -/
theorem pairedView_length_le (lines : List (Option JsonEvent)) :
    (pairedView lines).length ≤ lines.length := by
  have walk (ctx : PairCtx) : (lines.foldl pairedIterCb ctx).size ≤ ctx.size + lines.length := by
    induction lines generalizing ctx with
    | nil => exact le_rfl
    | cons line lines ih =>
        have first := pairedIterCb_size_le ctx line
        have rest := ih (pairedIterCb ctx line)
        rw [List.foldl_cons, List.length_cons]
        omega
  have whole := walk (PairCtx.start 0 0)
  have empty : (PairCtx.start 0 0).size = 0 := by
    rw [PairCtx.size, start_openEntries]
    rfl
  rw [empty, Nat.zero_add] at whole
  rw [pairedView, pairedRun, PairCtx.finish_length]
  exact whole

theorem readWorkerId_lt (workerId : Option Int) : readWorkerId workerId < 2 ^ 16 := by
  cases workerId with
  | none => decide
  | some value =>
      show castU16 value < 2 ^ 16
      rw [castU16]
      omega

/-- A segment of recorded events has exact numbers and C strings. -/
theorem Segment.From.kept {events : List JsonEvent} {segment : Segment}
    (source : segment.From (List.take 15) events)
    (timed : ∀ json ∈ events, 0 ≤ json.time ∧ json.time < 10 ^ 15)
    (noNul : ∀ json ∈ events, 0 ∉ json.srcText) : segment.json.Kept := by
  have keys : 0 ∉ ascii "worker_id" ∧ 0 ∉ ascii "peer" ∧ 0 ∉ ascii "in_ts" ∧ 0 ∉ ascii "in_src" ∧
      0 ∉ ascii "open" ∧ 0 ∉ ascii "out_ts" ∧ 0 ∉ ascii "out_src" ∧ 0 ∉ ascii "duration_s" := by
    decide
  obtain ⟨workerKey, peerKey, inKey, inSrcKey, openKey, outKey, outSrcKey, durationKey⟩ := keys
  obtain ⟨json, member, _, worker, began, src⟩ := source.opened
  have bound := readWorkerId_lt json.workerId
  have workerId : (segment.workerId : Int).natAbs < 2 ^ 53 := by omega
  have inTs := timed json member
  rw [← began] at inTs
  have inSrc : 0 ∉ segment.inSrc := by
    rw [src]
    exact fun inside => noNul json member (List.mem_of_mem_take inside)
  have ending : JsonTree.KeptMembers (segment.out.elim [(ascii "open", .bool true)] fun out =>
      [(ascii "out_ts", .number out.1), (ascii "out_src", .text out.2),
        (ascii "duration_s", .number (out.1 - segment.inTs))]) := by
    cases ended : segment.out with
    | none => exact ⟨openKey, trivial, trivial⟩
    | some out =>
        obtain ⟨last, inside, _, rfl⟩ := source.closed out ended
        have outTs := timed last inside
        have exact : last.time.natAbs < 2 ^ 53 := by omega
        have duration : (last.time - segment.inTs).natAbs < 2 ^ 53 := by omega
        exact ⟨outKey, exact, outSrcKey, noNul last inside, durationKey, duration, trivial⟩
  have start : segment.inTs.natAbs < 2 ^ 53 := by omega
  rw [Segment.json]
  cases segment.peer with
  | none => exact ⟨workerKey, workerId, inKey, start, inSrcKey, inSrc, ending⟩
  | some addr =>
      exact ⟨workerKey, workerId, peerKey, formatMac_noNul addr, inKey, start, inSrcKey, inSrc, ending⟩

/-- What the paired view makes of a log of records. -/
theorem recordSegments_kept (records : List LoggedEvent) :
    ∀ segment ∈ pairedView (records.map fun logged => some logged.record.tree.pairEvent),
      segment.json.Kept := by
  intro segment member
  have logged : ∀ line ∈ records.map (fun logged => some logged.record.tree.pairEvent),
      ∀ json ∈ line, json ∈ records.map fun logged => logged.record.tree.pairEvent := by
    intro line listed json here
    obtain ⟨logged, inside, rfl⟩ := List.mem_map.mp listed
    obtain rfl := Option.some.inj here
    exact List.mem_map_of_mem inside
  have source := pairedRun_from 0 0 logged segment member
  refine source.kept (fun json listed => ?_) fun json listed => ?_
  · obtain ⟨logged, _, rfl⟩ := List.mem_map.mp listed
    exact logged.record.tree_time
  · have tree : json ∈ (records.map fun logged => logged.record.tree).map JsonTree.pairEvent := by
      rwa [List.map_map]
    exact pairEvent_noNul tree

theorem pairedReply_kept {segments : List Segment} (few : segments.length < 2 ^ 31)
    (kept : ∀ segment ∈ segments, segment.json.Kept) : (pairedReply segments).Kept := by
  have keys : 0 ∉ ascii "segments" ∧ 0 ∉ ascii "count" := by decide
  have count : (segments.length : Int).natAbs < 2 ^ 53 := by omega
  refine ⟨keys.1, JsonTree.keptItems_iff.mpr fun tree member => ?_, keys.2, count, trivial⟩
  obtain ⟨segment, inside, rfl⟩ := List.mem_map.mp member
  exact kept segment inside

/-- The chunks of `events_paired_get` over a log of records. -/
theorem eventsPairedGet_body (faithful : codec.Faithful) (unformatted : codec.Unformatted)
    {store : Store} {records : List LoggedEvent}
    (holds : Holds store (records.map LoggedEvent.line)) (small : store.file.length < 2 ^ 31) :
    let segments := pairedView (records.map fun logged => some logged.record.tree.pairEvent)
    chunkedBody (eventsPairedGet codec store) = codec.print (pairedReply segments) ∧
      codec.parse (codec.print (pairedReply segments)) = some (pairedReply segments) := by
  intro segments
  have read : logSegments codec store = segments := by
    rw [logSegments, records_printed unformatted holds, List.map_map, List.map_map]
    refine congrArg pairedView (List.map_congr_left fun logged _ => ?_)
    show (codec.parse (codec.print logged.record.tree)).map JsonTree.pairEvent = _
    rw [faithful.parse_print _ logged.record.tree_kept]
    rfl
  have few : segments.length < 2 ^ 31 := by
    have lines := pairedView_length_le (records.map fun logged => some logged.record.tree.pairEvent)
    rw [List.length_map] at lines
    exact (lines.trans (records_few holds)).trans_lt small
  constructor
  · have printed : segments.map (fun segment => codec.print segment.json) =
        (segments.map Segment.json).map codec.print := by
      rw [List.map_map]
      rfl
    rw [eventsPairedGet, read, printed, ← pairedReply_print unformatted few]
    exact chunkedBody_reply faithful (List.cons_ne_nil _ _) (List.cons_ne_nil _ _) _
  · exact faithful.parse_print _ (pairedReply_kept few (recordSegments_kept records))

end Segments

/-- Whatever a query asks of a log of recorded events, the chunks of `events_get` are the text
of one object, its numbers fit the buffer of the last chunk, and a client parses from it the
events of the page as they were recorded; the chunks of `events_paired_get` are the text of one
object with the segments of that log. -/
theorem eventReplies_oneValue {codec : Codec} (faithful : codec.Faithful)
    (unformatted : codec.Unformatted) (dayStart : Bytes → Option Int)
    (dates : ∀ val day, dayStart val = some day → day.natAbs < 10 ^ 14) (query : EventsQuery)
    (store : Store) (records : List LoggedEvent)
    (holds : Holds store (records.map LoggedEvent.line)) (small : store.file.length < 2 ^ 31) :
    let params := query.params dayStart
    let trees := records.map fun logged => logged.record.tree
    let offset := params.tailOffset codec.parse store
    let page := params.page offset (trees.filter params.admits)
    let reply := eventsReply { params with offset := offset } store.eventCount page
    let body := chunkedBody (eventsGet codec.parse params store)
    let segments := pairedView (records.map fun logged => some logged.record.tree.pairEvent)
    let pairedBody := chunkedBody (eventsPairedGet codec store)
    (body = codec.print reply ∧ codec.parse body = some reply ∧
      ({ params with offset := offset }.tail store.eventCount page.length).length < 200) ∧
    pairedBody = codec.print (pairedReply segments) ∧
      codec.parse pairedBody = some (pairedReply segments) := by
  intro params trees offset page reply body segments pairedBody
  have range : params.InRange := EventsParams.InRange.ofQuery dates query
  have few : records.length < 2 ^ 31 := (records_few holds).trans_lt small
  have counted : store.eventCount < 2 ^ 31 := by rwa [holds.count, List.length_map]
  have printed : iterLines store.file = trees.map codec.print := records_printed unformatted holds
  have kept : ∀ tree ∈ trees, tree.Kept := by
    intro tree member
    obtain ⟨logged, _, rfl⟩ := List.mem_map.mp member
    exact logged.record.tree_kept
  have onPage : page.Sublist trees := page_sublist params offset
  have paged : page.length < 2 ^ 31 := by
    have length := onPage.length_le
    rw [List.length_map] at length
    exact length.trans_lt few
  have listed : (iterLines store.file).length < 2 ^ 31 := by
    rwa [printed, List.length_map, List.length_map]
  have moved : { params with offset := offset }.InRange :=
    { range with offset := tailOffset_lt range codec.parse listed counted }
  have isBody : body = codec.print reply := by
    have sent := eventsGet_page params printed fun tree member =>
      faithful.parse_print tree (kept tree member)
    rw [← eventsReply_print unformatted moved counted paged]
    exact (congrArg chunkedBody sent).trans
      (chunkedBody_reply faithful (List.cons_ne_nil _ _) (List.cons_ne_nil _ _) page)
  have isReply : reply.Kept :=
    eventsReply_kept moved counted paged fun tree member => kept tree (onPage.subset member)
  have paired := eventsPairedGet_body faithful unformatted holds small
  refine ⟨⟨isBody, ?_, tail_length moved counted paged⟩, paired.1, ?_⟩
  · rw [isBody, faithful.parse_print reply isReply]
  · exact (congrArg codec.parse paired.1).trans paired.2

theorem quotedArrival_ts : 1 < 10 ^ 15 := by decide

theorem quotedArrival_monoUs : 1000000 < 10 ^ 15 := by decide

theorem quotedArrival_note : 0 ∉ ascii "\"late\"" := by decide

/-- An arrival of the first worker, with quotes in its note. -/
def quotedArrival : EventRecord where
  ts := 1
  monoUs := 1000000
  type := .evIn
  src := .srcManualWeb
  peer := some (Addr.zero, 1)
  reason := 0
  note := ascii "\"late\""
  tsPlain := quotedArrival_ts
  monoPlain := quotedArrival_monoUs
  noteNoNul := quotedArrival_note

theorem quotedDeparture_ts : 2 < 10 ^ 15 := by decide

theorem blankNote_noNul : 0 ∉ ([] : Bytes) := List.not_mem_nil

/-- The departure that follows it. -/
def quotedDeparture : EventRecord where
  ts := 2
  monoUs := 1000000
  type := .evOut
  src := .srcManualWeb
  peer := some (Addr.zero, 1)
  reason := 0
  note := []
  tsPlain := quotedDeparture_ts
  monoPlain := quotedArrival_monoUs
  noteNoNul := blankNote_noNul

def quotedRecords : List LoggedEvent :=
  [⟨quotedArrival, by decide +kernel⟩, ⟨quotedDeparture, by decide +kernel⟩]

def quotedStore : Store where
  events := some (encode newline (texts (quotedRecords.map LoggedEvent.line)))
  eventCount := 2

theorem eventReplies_oneValue_quoted :
    (plainCodec.parse (chunkedBody (eventsPairedGet plainCodec quotedStore))).isSome = true ∧
      (plainCodec.parse (chunkedBody (eventsGet plainCodec.parse
        (lastTwo.params fun _ => none) quotedStore))).isSome = true := by
  have replies := eventReplies_oneValue plainCodec_faithful plainCodec_unformatted (fun _ => none)
    (by simp) lastTwo quotedStore quotedRecords ⟨rfl, rfl⟩ (by decide +kernel)
  exact ⟨by rw [replies.2.2]; rfl, by rw [replies.1.2.1]; rfl⟩

end LeanDingdong
