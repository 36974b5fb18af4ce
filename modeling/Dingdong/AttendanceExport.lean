import Dingdong.AttendanceCsv

/-!
`events_export_get`: the events or the segments of a time range as a file to download. The CSV
forms are read back as one record for each; the line-delimited form separates its lines as
the array of `events_get` does, so that it has lines only while there is at most one.
-/

namespace LeanDingdong

open CivilCalendar CsvRecords SlotTable

/-- The values of the query, `none` where there is none or, for the last three, where it does
not fit. -/
structure ExportQuery where
  format : Option Bytes
  mode : Option Bytes
  fromDate : Option Bytes
  toDate : Option Bytes
  workerId : Option Bytes

/-- What `events_export_get` reads of the query. -/
structure ExportParams where
  csv : Bool
  paired : Bool
  fromTs : Int
  toTs : Int
  workerId : Nat

/-- The first part of `events_export_get`; a long value of `format` or `mode` is cut. -/
def ExportQuery.params (dayStart : Bytes → Option Int) (query : ExportQuery) : ExportParams where
  csv := (query.format.map fun fmt => cstr (fmt.take 7)).getD (ascii "jsonl") = ascii "csv"
  paired := (query.mode.map fun mode => cstr (mode.take 7)).getD (ascii "raw") = ascii "paired"
  fromTs := (query.fromDate.bind dayStart).getD 0
  toTs := ((query.toDate.bind dayStart).map fun toTs => toTs + 86400).getD 0
  workerId := (query.workerId.map fun val => castU16 (atoi val)).getD 0

/-- A response with its two headers. -/
structure Download where
  contentType : Bytes
  disposition : Bytes
  chunks : List Bytes

def Download.body (download : Download) : Bytes := chunkedBody download.chunks

/-- The parameters of `events_iter_cb` in an export. -/
def ExportParams.filter (params : ExportParams) : EventsParams where
  offset := 0
  offsetSet := false
  limit := 0
  fromTs := params.fromTs
  toTs := params.toTs
  workerId := params.workerId

def ExportParams.contentType (params : ExportParams) : Bytes :=
  if params.csv then ascii "text/csv; charset=utf-8"
  else ascii "application/x-ndjson; charset=utf-8"

def ExportParams.disposition (params : ExportParams) : Bytes :=
  let name := if params.paired then ascii "segments" else ascii "events"
  let extension := if params.csv then ascii "csv" else ascii "jsonl"
  ascii "attachment; filename=\"dingdong-" ++ name ++
    (if 0 < params.fromTs ∨ 0 < params.toTs then
      ascii "-" ++ signedDecimal params.fromTs ++ ascii "-" ++ signedDecimal params.toTs
    else []) ++ ascii "." ++ extension ++ ascii "\""

/-- The members `paired_iter_cb` reads. -/
def JsonTree.pairEvent (json : JsonTree) : JsonEvent where
  type := (json.getText (ascii "type")).map cstr
  ts := json.getInt (ascii "ts")
  monoUs := json.getInt (ascii "mono_us")
  workerId := json.getInt (ascii "worker_id")
  peer := (json.getText (ascii "peer")).map cstr
  src := (json.getText (ascii "src")).map cstr

/-- The object `emit_segment` prints. -/
def Segment.json (segment : Segment) : JsonTree :=
  .object <|
    [(ascii "worker_id", .number segment.workerId)] ++
    segment.peer.elim [] (fun addr => [(ascii "peer", .text (formatMac addr))]) ++
    [(ascii "in_ts", .number segment.inTs), (ascii "in_src", .text segment.inSrc)] ++
    segment.out.elim [(ascii "open", .bool true)] fun out =>
      [(ascii "out_ts", .number out.1), (ascii "out_src", .text out.2),
        (ascii "duration_s", .number (out.1 - segment.inTs))]

section Handler

variable (codec : Codec) (localtimeR : Int → Tm) (workers : List Worker)

/-- The log through `paired_iter_cb`, which never stops the walk, and the slots left open. -/
def exportSegments (params : ExportParams) (store : Store) : List Segment :=
  (pairedRun params.fromTs params.toTs
    ((iterLines store.file).map fun line => (codec.parse line).map JsonTree.pairEvent)).finish

def eventsHeader : Bytes := ascii "ts,iso_local,type,src,worker_id,worker_name,peer,reason,note\n"

def segmentsHeader : Bytes :=
  ascii "worker_id,worker_name,date,in,out,duration_min,in_src,out_src\n"

/-- The chunks of an export. -/
def exportChunks (params : ExportParams) (store : Store) : List Bytes :=
  match params.paired, params.csv with
  | true, true =>
      [segmentsHeader] ++
        (exportSegments codec params store).flatMap (segmentChunks localtimeR workers)
  | true, false =>
      commaSeparated true
        ((exportSegments codec params store).map fun segment => codec.print segment.json) ++
        [ascii "\n"]
  | false, true =>
      (eventIter (eventsCsvIterCb localtimeR workers codec.parse)
        { chunks := [eventsHeader], fromTs := params.fromTs, toTs := params.toTs } store).2.chunks
  | false, false =>
      (eventIter (eventsIterCb codec.parse)
        { chunks := [], first := true, skipped := 0, emitted := 0, params := params.filter }
        store).2.chunks ++ [ascii "\n"]

/-- `events_export_get` of an authorised request, after its query is read. -/
def eventsExportGet (params : ExportParams) (store : Store) : Download where
  contentType := params.contentType
  disposition := params.disposition
  chunks := exportChunks codec localtimeR workers params store

end Handler

section Sources

/-- What `paired_iter_cb` takes for the source of an event. -/
def JsonEvent.srcText (json : JsonEvent) : Bytes := json.src.getD (ascii "?")

/-- What `paired_iter_cb` takes for the time of an event. -/
def JsonEvent.time (json : JsonEvent) : Int := eventTime (json.ts.getD 0) (json.monoUs.getD 0)

/-- An IN event of the log is what the slot holds. -/
def PairOpen.Opened (events : List JsonEvent) (entry : PairOpen) : Prop :=
  ∃ json ∈ events, json.type = some (ascii "in") ∧ entry.workerId = readWorkerId json.workerId ∧
    entry.inTs = json.time ∧ entry.inSrc = json.srcText.take 15

/-- An event of the log that is no IN event ends a segment so. -/
def EndedBy (events : List JsonEvent) (ending : Int × Bytes) : Prop :=
  ∃ json ∈ events, json.type ≠ some (ascii "in") ∧ ending = (json.time, json.srcText)

/-- The segment starts with an IN event of the log, whose source it has in this form, and
ends, if it does, with an OUT event. -/
structure Segment.From (inSrc : Bytes → Bytes) (events : List JsonEvent) (segment : Segment) :
    Prop where
  opened : ∃ json ∈ events, json.type = some (ascii "in") ∧
    segment.workerId = readWorkerId json.workerId ∧ segment.inTs = json.time ∧
    segment.inSrc = inSrc json.srcText
  closed : ∀ ending ∈ segment.out, EndedBy events ending

/-- The slots in use and the segments come from the log. -/
structure PairCtx.From (events : List JsonEvent) (ctx : PairCtx) : Prop where
  opens : ∀ slot, (ctx.opens slot).live = true → (ctx.opens slot).Opened events
  segments : ∀ segment ∈ ctx.segments, segment.From (List.take 15) events

variable {events : List JsonEvent} {ctx : PairCtx}

namespace PairCtx.From

theorem start (fromTs toTs : Int) : (PairCtx.start fromTs toTs).From events :=
  ⟨fun _ live => absurd live Bool.false_ne_true, fun _ member => absurd member List.not_mem_nil⟩

theorem close (known : ctx.From events) {slot : Fin pairMaxOpen}
    (live : (ctx.opens slot).live = true) {out : Option (Int × Bytes)}
    (closed : ∀ ending ∈ out, EndedBy events ending) : (ctx.close slot out).From events := by
  constructor
  · intro other used
    rw [PairCtx.close] at used ⊢
    dsimp only at used ⊢
    by_cases same : other = slot
    · rw [same, Function.update_self] at used
      exact absurd used Bool.false_ne_true
    · rw [Function.update_of_ne same] at used ⊢
      exact known.opens other used
  · intro segment member
    rcases List.mem_append.mp member with before | last
    · exact known.segments segment before
    · rw [List.mem_singleton.mp last]
      exact ⟨known.opens slot live, closed⟩

theorem fill (known : ctx.From events) {entry : PairOpen} (opened : entry.Opened events) :
    (ctx.fill entry).From events := by
  refine ⟨fun other used => ?_, known.segments⟩
  rw [PairCtx.fill] at used ⊢
  dsimp only at used ⊢
  by_cases same : other = (findFreeSlot ctx.opens).getD (oldestSlot ctx.opens)
  · rw [same, Function.update_self]
    exact opened
  · rw [Function.update_of_ne same] at used ⊢
    exact known.opens other used

theorem findOpenSlot_live {opens : Fin pairMaxOpen → PairOpen} {workerId : Nat} {addr : Addr}
    {hasAddr : Bool} {slot : Fin pairMaxOpen}
    (found : findOpenSlot opens workerId addr hasAddr = some slot) :
    (opens slot).live = true := by
  have passes := first_passes found
  rw [Bool.and_eq_true] at passes
  exact passes.1

theorem pairIn (known : ctx.From events) {entry : PairOpen} (opened : entry.Opened events) :
    (LeanDingdong.pairIn ctx entry).From events := by
  rw [LeanDingdong.pairIn]
  cases found : findOpenSlot ctx.opens entry.workerId entry.addr entry.hasAddr with
  | none => exact known.fill opened
  | some existing =>
      have closed : (ctx.close existing none).From events :=
        known.close (findOpenSlot_live found) fun _ absent => absurd absent (Option.not_mem_none _)
      exact closed.fill opened

theorem pairOut (known : ctx.From events) (workerId : Nat) (addr : Addr) (hasAddr : Bool)
    {json : JsonEvent} (member : json ∈ events) (isOut : json.type ≠ some (ascii "in")) :
    (LeanDingdong.pairOut ctx workerId addr hasAddr (json.time, json.srcText)).From events := by
  rw [LeanDingdong.pairOut]
  cases found : findOpenSlot ctx.opens workerId addr hasAddr with
  | none => exact known
  | some slot =>
      refine known.close (findOpenSlot_live found) fun ending here => ?_
      exact ⟨json, member, isOut, (Option.some.inj here).symm⟩

/-- One line. -/
theorem step (known : ctx.From events) {line : Option JsonEvent}
    (member : ∀ json ∈ line, json ∈ events) : (pairedIterCb ctx line).From events := by
  rw [pairedIterCb.eq_def]
  cases line with
  | none => exact known
  | some json =>
      have logged := member json rfl
      cases type : json.type with
      | none => simpa [type] using known
      | some text =>
          cases stamp : json.ts with
          | none => simpa [type, stamp] using known
          | some ts =>
              dsimp only
              rw [type, stamp]
              dsimp only
              split_ifs with outside isIn
              · exact known
              · refine known.pairIn ⟨json, logged, ?_, rfl, ?_, rfl⟩
                · rw [type, isIn]
                · rw [JsonEvent.time, stamp]
                  rfl
              · have time : json.time = eventTime ts (json.monoUs.getD 0) := by
                  rw [JsonEvent.time, stamp]
                  rfl
                have isOut : json.type ≠ some (ascii "in") := by
                  rw [type]
                  exact fun same => isIn (Option.some.inj same)
                rw [← time]
                exact known.pairOut _ _ _ logged isOut

end PairCtx.From

/-- Every segment of the view comes from the log. -/
theorem pairedRun_from {lines : List (Option JsonEvent)} (fromTs toTs : Int)
    (logged : ∀ line ∈ lines, ∀ json ∈ line, json ∈ events) :
    ∀ segment ∈ (pairedRun fromTs toTs lines).finish, segment.From (List.take 15) events := by
  have run : (pairedRun fromTs toTs lines).From events := by
    rw [pairedRun]
    generalize startsFrom : PairCtx.start fromTs toTs = ctx
    have known : ctx.From events := startsFrom ▸ PairCtx.From.start fromTs toTs
    clear startsFrom
    induction lines generalizing ctx with
    | nil => exact known
    | cons line lines ih =>
        exact ih (fun other member => logged other (List.mem_cons_of_mem _ member)) _
          (known.step (logged line List.mem_cons_self))
  intro segment member
  rcases List.mem_append.mp member with sent | left
  · exact run.segments segment sent
  · obtain ⟨entry, inside, rfl⟩ := List.mem_map.mp left
    obtain ⟨live, slot, here⟩ := mem_contents.mp inside
    subst here
    exact ⟨run.opens slot live, fun _ absent => absurd absent (Option.not_mem_none _)⟩

end Sources

section Csv

variable {codec : Codec} {localtimeR : Int → Tm} {workers : List Worker}

/-- The names of the columns. -/
def eventsColumns : List Bytes :=
  [ascii "ts", ascii "iso_local", ascii "type", ascii "src", ascii "worker_id",
    ascii "worker_name", ascii "peer", ascii "reason", ascii "note"]

def segmentsColumns : List Bytes :=
  [ascii "worker_id", ascii "worker_name", ascii "date", ascii "in", ascii "out",
    ascii "duration_min", ascii "in_src", ascii "out_src"]

theorem isRow_header {header : Bytes} {columns : List Bytes} (nonempty : columns ≠ [])
    (isLine : header = line rfc4180 columns)
    (plain : ∀ column ∈ columns, ∀ byte ∈ column, Plain rfc4180 byte) :
    IsRow [header] columns := by
  refine ⟨?_, columns, nonempty, ?_, List.forall₂_same.mpr fun column member =>
    encodes_plain (plain column member)⟩
  · rw [isLine, line]
    simp
  · rw [List.flatten_singleton, isLine]

theorem eventsHeader_isRow : IsRow [eventsHeader] eventsColumns := by
  refine isRow_header (by decide) (by decide) ?_
  unfold Plain
  decide

theorem segmentsHeader_isRow : IsRow [segmentsHeader] segmentsColumns := by
  refine isRow_header (by decide) (by decide) ?_
  unfold Plain
  decide

/-- The events of the log, with those that do not parse left out. -/
def logEvents (codec : Codec) (store : Store) : List JsonTree :=
  (iterLines store.file).filterMap codec.parse

theorem pairEvent_noNul {log : List JsonTree} {json : JsonEvent}
    (member : json ∈ log.map JsonTree.pairEvent) : 0 ∉ json.srcText := by
  obtain ⟨tree, _, rfl⟩ := List.mem_map.mp member
  rw [JsonEvent.srcText, JsonTree.pairEvent]
  cases tree.getText (ascii "src") with
  | none => exact (by decide : 0 ∉ ascii "?")
  | some src => exact cstr_noNul src

/-- The segments come from the events of the log. -/
theorem exportSegments_from (params : ExportParams) (store : Store) :
    ∀ segment ∈ exportSegments codec params store,
      segment.From (List.take 15) ((logEvents codec store).map JsonTree.pairEvent) := by
  refine pairedRun_from params.fromTs params.toTs fun line listed json here => ?_
  obtain ⟨text, member, rfl⟩ := List.mem_map.mp listed
  obtain ⟨tree, parsed, rfl⟩ := Option.map_eq_some_iff.mp here
  exact List.mem_map_of_mem (List.mem_filterMap.mpr ⟨text, member, parsed⟩)

theorem exportSegments_isRow {params : ExportParams} {store : Store} {segment : Segment}
    (member : segment ∈ exportSegments codec params store) :
    IsRow (segmentChunks localtimeR workers segment)
      (csvSegmentRecord localtimeR workers segment) := by
  obtain ⟨⟨json, logged, _, _, _, inSrc⟩, closed⟩ := exportSegments_from params store segment member
  refine segmentChunks_isRow localtimeR workers ?_ fun ending here => ?_
  · rw [inSrc]
    exact fun inside => pairEvent_noNul logged (List.mem_of_mem_take inside)
  · obtain ⟨json, logged, _, rfl⟩ := closed ending here
    exact pairEvent_noNul logged

/-- Where the log has no longer source, a segment has the whole source of its event. -/
theorem Segment.From.whole {log : List JsonTree} {segment : Segment}
    (known : segment.From (List.take 15) (log.map JsonTree.pairEvent))
    (short : ∀ json ∈ log, ∀ src ∈ json.getText (ascii "src"), (cstr src).length ≤ 15) :
    segment.From id (log.map JsonTree.pairEvent) := by
  obtain ⟨⟨json, logged, isIn, workerId, inTs, inSrc⟩, closed⟩ := known
  refine ⟨⟨json, logged, isIn, workerId, inTs, inSrc.trans (List.take_of_length_le ?_)⟩, closed⟩
  obtain ⟨tree, member, rfl⟩ := List.mem_map.mp logged
  rw [JsonEvent.srcText, JsonTree.pairEvent]
  cases isText : tree.getText (ascii "src") with
  | none => exact (by decide : (ascii "?").length ≤ 15)
  | some src => exact short tree member src isText

/-- RFC 4180 reads one record of nine fields for each event of the range from the rows of
`events_csv_iter_cb` and from the export, and one of eight fields for each segment from the
paired export: the strings byte for byte, the names as the registry has them, and the source
of an IN event whole where it has at most 15 bytes. -/
theorem exportCsv_decodes (codec : Codec) (localtimeR : Int → Tm) (workers : List Worker)
    (store : Store) (params : ExportParams) :
    let log := logEvents codec store
    let events := log.filter (JsonTree.inRange params.fromTs params.toTs)
    let segments := exportSegments codec params store
    let download := fun paired =>
      eventsExportGet codec localtimeR workers { params with csv := true, paired := paired } store
    (decode rfc4180 (chunkedBody (eventIter (eventsCsvIterCb localtimeR workers codec.parse)
        { chunks := [], fromTs := params.fromTs, toTs := params.toTs } store).2.chunks) =
        some (events.map (csvEventRecord localtimeR workers)) ∧
      decode rfc4180 (download false).body =
        some (eventsColumns :: events.map (csvEventRecord localtimeR workers)) ∧
      (∀ json, (csvEventRecord localtimeR workers json).length = 9) ∧
      ∀ value, -2 ^ 31 ≤ value → value < 2 ^ 31 → castInt value = value) ∧
    decode rfc4180 (download true).body =
        some (segmentsColumns :: segments.map (csvSegmentRecord localtimeR workers)) ∧
      (∀ segment, (csvSegmentRecord localtimeR workers segment).length = 8) ∧
      ((∀ json ∈ log, ∀ src ∈ json.getText (ascii "src"), (cstr src).length ≤ 15) →
        ∀ segment ∈ segments, segment.From id (log.map JsonTree.pairEvent)) := by
  intro log events segments download
  have rows : List.Forall₂ IsRow (events.map (eventChunks localtimeR workers))
      (events.map (csvEventRecord localtimeR workers)) :=
    List.forall₂_map_left_iff.mpr (List.forall₂_map_right_iff.mpr
      (List.forall₂_same.mpr fun json _ => eventChunks_isRow localtimeR workers json))
  have sent (before : List Bytes) :
      (eventIter (eventsCsvIterCb localtimeR workers codec.parse)
        { chunks := before, fromTs := params.fromTs, toTs := params.toTs } store).2.chunks =
        before ++ (events.map (eventChunks localtimeR workers)).flatten := by
    rw [eventIter_lines, eventsCsvIterCb_sends, List.flatMap_def]
    rfl
  refine ⟨⟨?_, ?_, fun _ => rfl, fun value low high => ?_⟩, ?_, fun _ => rfl, ?_⟩
  · rw [sent, List.nil_append]
    exact chunkedBody_decode rows
  · have body : (download false).body = chunkedBody
        ([eventsHeader] :: events.map (eventChunks localtimeR workers)).flatten :=
      congrArg chunkedBody (sent [eventsHeader])
    rw [body]
    exact chunkedBody_decode (.cons eventsHeader_isRow rows)
  · exact castInt_exact low high
  · have body : (download true).body = chunkedBody
        ([segmentsHeader] :: segments.map (segmentChunks localtimeR workers)).flatten := by
      rw [List.flatten_cons, ← List.flatMap_def]
      rfl
    rw [body]
    refine chunkedBody_decode (.cons segmentsHeader_isRow ?_)
    exact List.forall₂_map_left_iff.mpr (List.forall₂_map_right_iff.mpr
      (List.forall₂_same.mpr fun segment member => exportSegments_isRow member))
  · exact fun short segment member => (exportSegments_from params store segment member).whole short

end Csv

section Lines

/-- The lines of a text that are not blank. -/
def exportLines (body : Bytes) : List Bytes := (body.splitOn newline).filter (· ≠ [])

/-- `cJSON_IsObject` -/
def JsonTree.isObject : JsonTree → Bool
  | .object _ => true
  | _ => false

/-- Line by line the text gives these lines, each of them one object. -/
def ReadsBack (parse : Bytes → Option JsonTree) (body : Bytes) (found : List Bytes) : Prop :=
  exportLines body = found ∧ ∀ line ∈ exportLines body, (parse line).any JsonTree.isObject = true

/-- The lines the export is to have. -/
def ExportParams.found (codec : Codec) (params : ExportParams) (store : Store) : List Bytes :=
  (iterLines store.file).filter (params.filter.wants codec.parse)

variable {codec : Codec} {localtimeR : Int → Tm} {workers : List Worker} {store : Store}

theorem mem_intersperse {separator entry : Bytes} {list : List Bytes}
    (member : entry ∈ list.intersperse separator) : entry = separator ∨ entry ∈ list := by
  induction list with
  | nil => exact absurd member List.not_mem_nil
  | cons first list ih =>
      cases list with
      | nil => exact .inr member
      | cons second list =>
          rw [List.intersperse_cons_cons, List.mem_cons, List.mem_cons] at member
          rcases member with rfl | rfl | later
          · exact .inr List.mem_cons_self
          · exact .inl rfl
          · exact (ih later).imp_right (List.mem_cons_of_mem _)

theorem found_free {params : ExportParams} :
    ∀ line ∈ params.found codec store, newline ∉ line ∧ line ≠ [] :=
  fun line member => iterLines_free _ line (List.mem_filter.mp member).1

/-- The body of the raw line-delimited export: commas between the lines, one newline behind
the last. -/
theorem exportJsonl_body (params : ExportParams)
    (parsable : ∀ line ∈ iterLines store.file, (codec.parse line).isSome = true) :
    (eventsExportGet codec localtimeR workers { params with csv := false, paired := false }
      store).body = ((params.found codec store).intersperse (ascii ",")).flatten ++ [newline] := by
  have window (ctx : EventsIterCtx) (all : ctx.params = params.filter) (found : List Bytes)
      (unskipped : ctx.skipped = 0) : ctx.window found = found := by
    rw [EventsIterCtx.window, all, unskipped]
    rfl
  obtain ⟨chunks, _⟩ := @eventsIterCb_sends codec.parse (iterLines store.file)
    { chunks := [], first := true, skipped := 0, emitted := 0, params := params.filter }
  have passing : (iterLines store.file).filter (params.filter.passes codec.parse) =
      params.found codec store :=
    List.filter_congr fun line member => passes_wants (parsable line member)
  rw [List.nil_append, passing, window _ rfl _ rfl, commaSeparated_intersperse,
    ← eventIter_lines] at chunks
  have sent : exportChunks codec localtimeR workers { params with csv := false, paired := false }
      store = (params.found codec store).intersperse (ascii ",") ++ [[newline]] :=
    congrArg (· ++ [[newline]]) chunks
  have nonempty : [] ∉ (params.found codec store).intersperse (ascii ",") ++ [[newline]] := by
    intro member
    rcases List.mem_append.mp member with inside | last
    · rcases mem_intersperse inside with comma | line
      · exact absurd comma (by decide)
      · exact (found_free [] line).2 rfl
    · exact absurd (List.mem_singleton.mp last) (List.cons_ne_nil _ _).symm
  rw [Download.body, eventsExportGet]
  dsimp only
  rw [sent, chunkedBody_flatten nonempty, List.flatten_append]
  rfl

/-- The raw line-delimited export reads back as the matching lines of the log while there is
at most one of them. -/
theorem exportJsonl_readsBack_iff (codec : Codec) (localtimeR : Int → Tm) (workers : List Worker)
    (store : Store) (params : ExportParams)
    (objects : ∀ line ∈ iterLines store.file, (codec.parse line).any JsonTree.isObject = true) :
    ReadsBack codec.parse
      (eventsExportGet codec localtimeR workers { params with csv := false, paired := false }
        store).body (params.found codec store) ↔
      (params.found codec store).length ≤ 1 := by
  have parsable : ∀ line ∈ iterLines store.file, (codec.parse line).isSome = true :=
    fun line member => Option.isSome_of_any (objects line member)
  have free := @found_free codec store params
  have listed : ∀ line ∈ params.found codec store,
      (codec.parse line).any JsonTree.isObject = true :=
    fun line member => objects line (List.mem_filter.mp member).1
  rw [exportJsonl_body params parsable]
  revert free listed
  generalize params.found codec store = found
  intro free listed
  have noNewline : newline ∉ (found.intersperse (ascii ",")).flatten := by
    intro member
    obtain ⟨chunk, inside, here⟩ := List.mem_flatten.mp member
    rcases mem_intersperse inside with rfl | line
    · exact absurd here (by decide)
    · exact (free chunk line).1 here
  have lines : exportLines ((found.intersperse (ascii ",")).flatten ++ [newline]) =
      [(found.intersperse (ascii ",")).flatten].filter (· ≠ []) := by
    rw [exportLines, List.splitOn_append_cons_self_of_not_mem noNewline, List.splitOn_nil]
    rfl
  rw [ReadsBack, lines]
  cases found with
  | nil => exact iff_of_true ⟨rfl, fun _ member => absurd member List.not_mem_nil⟩ (Nat.zero_le 1)
  | cons line rest =>
      cases rest with
      | nil =>
          have single : [([line].intersperse (ascii ",")).flatten].filter (· ≠ []) = [line] := by
            rw [List.intersperse_singleton, List.flatten_singleton, List.filter_eq_self]
            intro other member
            rw [List.mem_singleton.mp member]
            exact decide_eq_true (free line List.mem_cons_self).2
          rw [single]
          exact iff_of_true ⟨rfl, listed⟩ le_rfl
      | cons next rest =>
          refine iff_of_false (fun reads => ?_) (by simp)
          have few := List.length_filter_le (· ≠ [])
            [((line :: next :: rest).intersperse (ascii ",")).flatten]
          rw [reads.1, List.length_cons, List.length_cons, List.length_singleton] at few
          omega

/-- Events of two workers. -/
def twoEvents : Store where
  events := some
    (ascii "\x7b\"ts\":1,\"worker_id\":1\x7d\n\x7b\"ts\":2,\"worker_id\":2\x7d\n")
  eventCount := 2

theorem twoEvents_objects : ∀ line ∈ iterLines twoEvents.file,
    (plainCodec.parse line).any JsonTree.isObject = true := by decide +kernel

/-- A download of the events of a worker, or of all of them. -/
def jsonlQuery (workerId : Option Bytes) : ExportQuery where
  format := some (ascii "jsonl")
  mode := some (ascii "raw")
  fromDate := none
  toDate := none
  workerId := workerId

/-- The body of the download. -/
def jsonlBody (query : ExportQuery) : Bytes :=
  (eventsExportGet plainCodec (localtime 0) [] (query.params fun _ => none) twoEvents).body

theorem exportJsonl_readsBack_worker :
    ReadsBack plainCodec.parse (jsonlBody (jsonlQuery (some (ascii "2"))))
      [ascii "\x7b\"ts\":2,\"worker_id\":2\x7d"] := by
  have reads := (exportJsonl_readsBack_iff plainCodec (localtime 0) [] twoEvents
    ((jsonlQuery (some (ascii "2"))).params fun _ => none) twoEvents_objects).mpr
    (by decide +kernel)
  have found : ((jsonlQuery (some (ascii "2"))).params fun _ => none).found plainCodec twoEvents =
      [ascii "\x7b\"ts\":2,\"worker_id\":2\x7d"] := by decide +kernel
  exact found ▸ reads

/-- Two events come as one line. -/
theorem exportJsonl_joins :
    (∀ line ∈ iterLines twoEvents.file, (plainCodec.parse line).any JsonTree.isObject = true) ∧
      ¬ ReadsBack plainCodec.parse (jsonlBody (jsonlQuery none))
        (((jsonlQuery none).params fun _ => none).found plainCodec twoEvents) :=
  ⟨twoEvents_objects, fun reads => absurd (congrArg List.length reads.1) (by decide +kernel)⟩

end Lines

end LeanDingdong
