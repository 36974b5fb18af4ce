import Dingdong.AttendanceEvents
import Dingdong.CsvRecords
import Dingdong.DateText
import Dingdong.WorkerHardDelete

/-!
The rows of the exports: an event by `events_csv_iter_cb`, a segment by `emit_segment`. Each
row goes out in many chunks, and in every branch they add up to a line of as many fields as
the header has.
-/

namespace LeanDingdong

open CivilCalendar CsvRecords

/-- RFC 4180, with a line feed alone for a line end as well. -/
def rfc4180 : Dialect UInt8 where
  separator := 44
  quote := 34
  lineFeed := 10
  carriageReturn := 13
  distinct := by decide

/-- What a client receives: a chunk of length 0 ends a chunked response. -/
def chunkedBody (chunks : List Bytes) : Bytes := (chunks.takeWhile (· ≠ [])).flatten

/-- `csv_field_quote`: the chunks it sends. -/
def csvFieldQuote (s : Bytes) : List Bytes :=
  let s := cstr s
  if s = [] then []
  else if 44 ∈ s ∨ 34 ∈ s ∨ 10 ∈ s ∨ 13 ∈ s then
    [ascii "\""] ++ s.map (fun byte => if byte = 34 then ascii "\"\"" else [byte]) ++ [ascii "\""]
  else [s]

section Rows

/-- `valuestring` of a member that `cJSON_IsString`, else the empty string. -/
def JsonTree.string (json : JsonTree) (key : Bytes) : Bytes := (json.getText key).getD []

variable (localtimeR : Int → Tm) (workers : List Worker)

/-- `%Y-%m-%d %H:%M:%S` of a time that is known. -/
def isoLocal (ts : Int) : Bytes :=
  if 0 < ts then dateText (localtimeR ts) ++ ascii " " ++ clockText (localtimeR ts) else []

/-- The chunks of an event in `events_csv_iter_cb`. -/
def eventChunks (json : JsonTree) : List Bytes :=
  [signedDecimal json.ts, ascii ","] ++
    (if 0 < json.ts then
      [dateText (localtimeR json.ts) ++ ascii " " ++ clockText (localtimeR json.ts)]
    else []) ++ [ascii ","] ++
    csvFieldQuote (json.string (ascii "type")) ++ [ascii ","] ++
    csvFieldQuote (json.string (ascii "src")) ++ [ascii ","] ++
    (if 0 < json.workerId then
      [signedDecimal json.workerId] ++
        match workerGet workers (castU16 json.workerId) with
        | some worker => [ascii ","] ++ csvFieldQuote worker.name.bytes
        | none => [ascii ","]
    else [ascii ","]) ++ [ascii ","] ++
    csvFieldQuote (json.string (ascii "peer")) ++ [ascii ","] ++
    (match json.getInt (ascii "reason") with
    | some reason => [signedDecimal (castInt reason)]
    | none => []) ++ [ascii ","] ++
    csvFieldQuote (json.string (ascii "note")) ++ [ascii "\n"]

/-- `csv_ctx_t`, with the chunks sent so far. -/
structure CsvCtx where
  chunks : List Bytes
  fromTs : Int
  toTs : Int

def eventsCsvIterCb (parse : Bytes → Option JsonTree) (line : Bytes) (ctx : CsvCtx) :
    EspErr × CsvCtx :=
  match parse line with
  | none => (.ok, ctx)
  | some json =>
      if ctx.fromTs ≠ 0 ∧ json.ts < ctx.fromTs then (.ok, ctx)
      else if ctx.toTs ≠ 0 ∧ ctx.toTs ≤ json.ts then (.ok, ctx)
      else (.ok, { ctx with chunks := ctx.chunks ++ eventChunks localtimeR workers json })

/-- The chunks of a segment in `emit_segment` for CSV. -/
def segmentChunks (segment : Segment) : List Bytes :=
  [decimal segment.workerId ++ ascii ","] ++
    (if segment.workerId ≠ 0 then
      (workerGet workers segment.workerId).elim [] fun info => csvFieldQuote info.name.bytes
    else []) ++ [ascii ","] ++
    (if 0 < segment.inTs then
      [dateText (localtimeR segment.inTs), ascii ",", clockText (localtimeR segment.inTs)]
    else [ascii ","]) ++ [ascii ","] ++
    (match segment.out with
    | some (outTs, _) =>
        if 0 < outTs then
          [clockText (localtimeR outTs), ascii ",",
            signedDecimal (castInt ((outTs - segment.inTs).tdiv 60))]
        else [ascii ",", ascii "open"]
    | none => [ascii ",", ascii "open"]) ++ [ascii ","] ++
    csvFieldQuote segment.inSrc ++ [ascii ","] ++
    (match segment.out with
    | some (_, outSrc) => csvFieldQuote outSrc
    | none => []) ++ [ascii "\n"]

/-- The name in the registry, empty for a number that is not there. -/
def workerName (workerId : Nat) : Bytes :=
  ((workerGet workers workerId).map fun worker => worker.name.bytes).getD []

/-- The nine fields of an event, with its strings and the name from the registry in these forms. -/
def eventFields (text name : Bytes → Bytes) (json : JsonTree) : List Bytes :=
  [signedDecimal json.ts,
    isoLocal localtimeR json.ts,
    text (json.string (ascii "type")),
    text (json.string (ascii "src")),
    if 0 < json.workerId then signedDecimal json.workerId else [],
    if 0 < json.workerId then name (workerName workers (castU16 json.workerId)) else [],
    text (json.string (ascii "peer")),
    ((json.getInt (ascii "reason")).map fun reason => signedDecimal (castInt reason)).getD [],
    text (json.string (ascii "note"))]

/-- An event as a record: its strings are C strings. -/
def csvEventRecord (json : JsonTree) : List Bytes := eventFields localtimeR workers cstr id json

/-- The end is known. -/
def Segment.outTime (segment : Segment) : Option Int :=
  (segment.out.map Prod.fst).filter fun outTs => 0 < outTs

/-- The eight fields of a segment, with its strings in this form. -/
def segmentFields (text : Bytes → Bytes) (segment : Segment) : List Bytes :=
  [decimal segment.workerId,
    text (workerName workers segment.workerId),
    if 0 < segment.inTs then dateText (localtimeR segment.inTs) else [],
    if 0 < segment.inTs then clockText (localtimeR segment.inTs) else [],
    (segment.outTime.map fun outTs => clockText (localtimeR outTs)).getD [],
    (segment.outTime.map fun outTs =>
      signedDecimal (castInt ((outTs - segment.inTs).tdiv 60))).getD (ascii "open"),
    text segment.inSrc,
    text ((segment.out.map Prod.snd).getD [])]

/-- A segment as a record. -/
def csvSegmentRecord (segment : Segment) : List Bytes := segmentFields localtimeR workers id segment

end Rows

section Fields

theorem numeric_plain {byte : UInt8} (numeric : Numeric byte) : Plain rfc4180 byte := by
  have all : ∀ digit ∈ ascii "-0123456789", Plain rfc4180 digit := by
    unfold Plain
    decide
  exact all byte numeric

theorem encodes_numeric {text : Bytes} (numeric : ∀ byte ∈ text, Numeric byte) :
    Encodes rfc4180 text text :=
  encodes_plain fun byte member => numeric_plain (numeric byte member)

theorem encodes_nil : Encodes rfc4180 [] [] := encodes_plain fun _ member => absurd member (by simp)

theorem encodes_ite {condition : Prop} [Decidable condition] {text field : Bytes}
    (encodes : Encodes rfc4180 text field) :
    Encodes rfc4180 (if condition then text else []) (if condition then field else []) := by
  split_ifs
  · exact encodes
  · exact encodes_nil

theorem twoDigits_numeric {value : Int} : ∀ byte ∈ twoDigits value, Numeric byte := by
  intro byte member
  rw [twoDigits] at member
  split_ifs at member
  · rcases List.mem_append.mp member with zero | digit
    · rw [List.mem_singleton.mp zero]
      decide
    · exact decimal_numeric byte digit
  · exact decimal_numeric byte member

theorem dateText_plain {tm : Tm} : ∀ byte ∈ dateText tm, Plain rfc4180 byte := by
  intro byte member
  simp only [dateText, List.mem_append] at member
  rcases member with (((year | dash) | month) | dash) | day
  · exact numeric_plain (signedDecimal_numeric byte year)
  · exact numeric_plain (List.mem_singleton.mp dash ▸ by decide)
  · exact numeric_plain (twoDigits_numeric byte month)
  · exact numeric_plain (List.mem_singleton.mp dash ▸ by decide)
  · exact numeric_plain (twoDigits_numeric byte day)

theorem clockText_plain {tm : Tm} : ∀ byte ∈ clockText tm, Plain rfc4180 byte := by
  have colon : Plain rfc4180 58 := by
    unfold Plain
    decide
  intro byte member
  simp only [clockText, List.mem_append] at member
  rcases member with (((hour | mark) | minute) | mark) | second
  · exact numeric_plain (twoDigits_numeric byte hour)
  · exact List.mem_singleton.mp mark ▸ colon
  · exact numeric_plain (twoDigits_numeric byte minute)
  · exact List.mem_singleton.mp mark ▸ colon
  · exact numeric_plain (twoDigits_numeric byte second)

theorem isoLocal_plain {localtimeR : Int → Tm} {ts : Int} :
    ∀ byte ∈ isoLocal localtimeR ts, Plain rfc4180 byte := by
  intro byte member
  rw [isoLocal] at member
  split_ifs at member
  · simp only [List.mem_append] at member
    rcases member with (date | blank) | clock
    · exact dateText_plain byte date
    · rw [List.mem_singleton.mp blank]
      unfold Plain
      decide
    · exact clockText_plain byte clock
  · exact absurd member List.not_mem_nil

/-- Quoted or not, a string is one field. -/
theorem csvFieldQuote_encodes (s : Bytes) : Encodes rfc4180 (csvFieldQuote s).flatten (cstr s) := by
  simp only [csvFieldQuote]
  split_ifs with empty special
  · rw [empty]
    exact encodes_nil
  · have doubled : (([ascii "\""] ++ (cstr s).map (fun byte => if byte = 34 then ascii "\"\""
        else [byte]) ++ [ascii "\""]).flatten : Bytes) =
        [rfc4180.quote] ++ (cstr s).flatMap (double rfc4180) ++ [rfc4180.quote] := by
      simp only [List.flatten_append, List.flatten_singleton, ← List.flatMap_def]
      rfl
    rw [doubled]
    exact encodes_quoted _
  · rw [List.flatten_singleton]
    refine encodes_plain fun byte member => ?_
    refine ⟨?_, ?_, ?_, ?_⟩ <;> rintro rfl <;> exact special (by tauto)

/-- No chunk of a quoted field is empty. -/
@[simp] theorem csvFieldQuote_nonempty (s : Bytes) : [] ∉ csvFieldQuote s := by
  simp only [csvFieldQuote]
  split_ifs with empty special
  · exact List.not_mem_nil
  · have inside (bytes : Bytes) :
        [] ∉ bytes.map fun byte => if byte = 34 then ascii "\"\"" else [byte] := by
      intro member
      obtain ⟨byte, _, isNil⟩ := List.mem_map.mp member
      split_ifs at isNil
      exact absurd isNil (by decide)
    simpa [ascii] using inside (cstr s)
  · simpa using Ne.symm empty

@[simp] theorem signedDecimal_ne_nil (value : Int) : signedDecimal value ≠ [] := by
  obtain ⟨digit, more, split, _⟩ := JsonTree.signedDecimal_cons value
  rw [split]
  exact List.cons_ne_nil _ _

@[simp] theorem clockText_ne_nil (tm : Tm) : clockText tm ≠ [] := by simp [clockText, ascii]

@[simp] theorem dateText_ne_nil (tm : Tm) : dateText tm ≠ [] := by simp [dateText, ascii]

end Fields

section Lines

variable {localtimeR : Int → Tm} {workers : List Worker}

/-- A string as the rows have it. -/
def quoted (s : Bytes) : Bytes := (csvFieldQuote s).flatten

theorem csvFieldQuote_nil : csvFieldQuote [] = [] := rfl

theorem quoted_encodes {s : Bytes} (noNul : 0 ∉ s) : Encodes rfc4180 (quoted s) s := by
  have encodes := csvFieldQuote_encodes s
  rwa [cstr_of_noNul noNul] at encodes

theorem workerName_noNul (workerId : Nat) : 0 ∉ workerName workers workerId := by
  rw [workerName]
  cases workerGet workers workerId with
  | none => exact List.not_mem_nil
  | some worker => exact worker.name.noNul

/-- In every branch an event's chunks make up a line of its nine fields. -/
theorem eventChunks_line (json : JsonTree) :
    (eventChunks localtimeR workers json).flatten =
      line rfc4180 (eventFields localtimeR workers quoted quoted json) := by
  simp only [eventChunks, eventFields, workerName, isoLocal, line, List.intercalate_cons_cons,
    List.intercalate_singleton, List.flatten_append, List.flatten_cons, List.flatten_nil]
  cases workerGet workers (castU16 json.workerId) <;> cases json.getInt (ascii "reason") <;>
    split_ifs <;>
    simp [quoted, csvFieldQuote_nil, rfc4180, ascii]

theorem eventFields_encodes (json : JsonTree) :
    List.Forall₂ (Encodes rfc4180) (eventFields localtimeR workers quoted quoted json)
      (csvEventRecord localtimeR workers json) := by
  have reason : ∀ byte ∈ ((json.getInt (ascii "reason")).map fun reason =>
      signedDecimal (castInt reason)).getD [], Numeric byte := by
    cases json.getInt (ascii "reason") with
    | none => exact fun _ member => absurd member List.not_mem_nil
    | some reason => exact signedDecimal_numeric
  exact .cons (encodes_numeric signedDecimal_numeric)
    (.cons (encodes_plain isoLocal_plain)
    (.cons (csvFieldQuote_encodes _)
    (.cons (csvFieldQuote_encodes _)
    (.cons (encodes_ite (encodes_numeric signedDecimal_numeric))
    (.cons (encodes_ite (quoted_encodes (workerName_noNul _)))
    (.cons (csvFieldQuote_encodes _)
    (.cons (encodes_numeric reason)
    (.cons (csvFieldQuote_encodes _) .nil))))))))

/-- In every branch a segment's chunks make up a line of its eight fields. -/
theorem segmentChunks_line (segment : Segment) :
    (segmentChunks localtimeR workers segment).flatten =
      line rfc4180 (segmentFields localtimeR workers quoted segment) := by
  have unknown : workerGet workers 0 = none := if_pos rfl
  rcases segment with ⟨workerId, peer, inTs, inSrc, out⟩
  have name : (if workerId ≠ 0 then
      (workerGet workers workerId).elim [] fun info => csvFieldQuote info.name.bytes
    else []).flatten = quoted (workerName workers workerId) := by
    rw [workerName]
    by_cases anonymous : workerId = 0
    · rw [anonymous, unknown]
      rfl
    · rw [if_pos anonymous]
      cases workerGet workers workerId <;> rfl
  simp only [segmentChunks, segmentFields, Segment.outTime, line, List.intercalate_cons_cons,
    List.intercalate_singleton, List.flatten_append, List.flatten_cons, List.flatten_nil, name]
  cases out with
  | none => split_ifs <;> simp [quoted, csvFieldQuote_nil, rfc4180, ascii]
  | some out =>
      by_cases known : 0 < out.1
      · have ends : Option.filter (fun outTs => decide (0 < outTs)) (some out.1) = some out.1 :=
          if_pos (decide_eq_true known)
        split_ifs <;> simp [quoted, known, ends, rfc4180, ascii]
      · have ends : Option.filter (fun outTs => decide (0 < outTs)) (some out.1) = none :=
          if_neg (by simpa using known)
        split_ifs <;> simp [quoted, known, ends, rfc4180, ascii]

theorem segmentFields_encodes {segment : Segment} (inSrc : 0 ∉ segment.inSrc)
    (outSrc : ∀ out ∈ segment.out, 0 ∉ out.2) :
    List.Forall₂ (Encodes rfc4180) (segmentFields localtimeR workers quoted segment)
      (csvSegmentRecord localtimeR workers segment) := by
  have outText : 0 ∉ (segment.out.map Prod.snd).getD [] := by
    cases isOut : segment.out with
    | none => exact List.not_mem_nil
    | some out => exact outSrc out isOut
  have out : Encodes rfc4180
      ((segment.outTime.map fun outTs => clockText (localtimeR outTs)).getD [])
      ((segment.outTime.map fun outTs => clockText (localtimeR outTs)).getD []) := by
    cases segment.outTime with
    | none => exact encodes_nil
    | some outTs => exact encodes_plain clockText_plain
  have duration : Encodes rfc4180
      ((segment.outTime.map fun outTs =>
        signedDecimal (castInt ((outTs - segment.inTs).tdiv 60))).getD (ascii "open"))
      ((segment.outTime.map fun outTs =>
        signedDecimal (castInt ((outTs - segment.inTs).tdiv 60))).getD (ascii "open")) := by
    cases segment.outTime with
    | none =>
        refine encodes_plain fun byte member => ?_
        have letters : ∀ letter ∈ ascii "open", Plain rfc4180 letter := by
          unfold Plain
          decide
        exact letters byte member
    | some outTs => exact encodes_numeric signedDecimal_numeric
  exact .cons (encodes_numeric decimal_numeric)
    (.cons (quoted_encodes (workerName_noNul _))
    (.cons (encodes_ite (encodes_plain dateText_plain))
    (.cons (encodes_ite (encodes_plain clockText_plain))
    (.cons out
    (.cons duration
    (.cons (quoted_encodes inSrc)
    (.cons (quoted_encodes outText) .nil)))))))

theorem eventChunks_nonempty (json : JsonTree) :
    [] ∉ eventChunks localtimeR workers json := by
  simp only [eventChunks]
  cases workerGet workers (castU16 json.workerId) <;> cases json.getInt (ascii "reason") <;>
    split_ifs <;>
    simp [ascii]

theorem segmentChunks_nonempty (segment : Segment) :
    [] ∉ segmentChunks localtimeR workers segment := by
  simp only [segmentChunks]
  cases segment.out with
  | none => cases workerGet workers segment.workerId <;> split_ifs <;> simp [ascii]
  | some out =>
      cases workerGet workers segment.workerId <;> by_cases known : 0 < out.1 <;> split_ifs <;>
        simp [known, ascii]

end Lines

section Bodies

theorem chunkedBody_flatten {chunks : List Bytes} (nonempty : [] ∉ chunks) :
    chunkedBody chunks = chunks.flatten := by
  rw [chunkedBody, List.takeWhile_eq_self_iff.mpr]
  intro chunk member
  simpa using fun empty : chunk = [] => nonempty (empty ▸ member)

/-- The chunks are a row that is read as this record. -/
def IsRow (chunks record : List Bytes) : Prop :=
  [] ∉ chunks ∧ ∃ texts, texts ≠ [] ∧ chunks.flatten = line rfc4180 texts ∧
    List.Forall₂ (Encodes rfc4180) texts record

/-- Rows sent one after the other are read as their records. -/
theorem chunkedBody_decode {rows records : List (List Bytes)}
    (isRow : List.Forall₂ IsRow rows records) :
    decode rfc4180 (chunkedBody rows.flatten) = some records := by
  have lines : [] ∉ rows.flatten ∧ ∃ texts : List (List Bytes), (∀ row ∈ texts, row ≠ []) ∧
      rows.flatten.flatten = texts.flatMap (line rfc4180) ∧
      List.Forall₂ (List.Forall₂ (Encodes rfc4180)) texts records := by
    induction isRow with
    | nil =>
        exact ⟨List.not_mem_nil, [], fun _ member => absurd member List.not_mem_nil, rfl, .nil⟩
    | @cons row record rows records first _ ih =>
        obtain ⟨sent, texts, nonempty, whole, encodes⟩ := first
        obtain ⟨others, rows, nonempties, wholes, encoded⟩ := ih
        refine ⟨?_, texts :: rows, List.forall_mem_cons.mpr ⟨nonempty, nonempties⟩, ?_,
          .cons encodes encoded⟩
        · rw [List.flatten_cons, List.mem_append, not_or]
          exact ⟨sent, others⟩
        · rw [List.flatten_cons, List.flatten_append, whole, wholes, List.flatMap_cons]
  obtain ⟨sent, texts, nonempty, whole, encodes⟩ := lines
  rw [chunkedBody_flatten sent, whole]
  exact decode_lines encodes nonempty

theorem eventChunks_isRow (localtimeR : Int → Tm) (workers : List Worker) (json : JsonTree) :
    IsRow (eventChunks localtimeR workers json) (csvEventRecord localtimeR workers json) :=
  ⟨eventChunks_nonempty json, _, List.cons_ne_nil _ _, eventChunks_line json,
    eventFields_encodes json⟩

theorem segmentChunks_isRow (localtimeR : Int → Tm) (workers : List Worker) {segment : Segment}
    (inSrc : 0 ∉ segment.inSrc) (outSrc : ∀ out ∈ segment.out, 0 ∉ out.2) :
    IsRow (segmentChunks localtimeR workers segment)
      (csvSegmentRecord localtimeR workers segment) :=
  ⟨segmentChunks_nonempty segment, _, List.cons_ne_nil _ _, segmentChunks_line segment,
    segmentFields_encodes inSrc outSrc⟩

end Bodies

section Walk

variable {localtimeR : Int → Tm} {workers : List Worker} {parse : Bytes → Option JsonTree}

/-- The event is in a range, where a bound of 0 is none. -/
def JsonTree.inRange (fromTs toTs : Int) (json : JsonTree) : Bool :=
  (fromTs = 0 ∨ fromTs ≤ json.ts) ∧ (toTs = 0 ∨ json.ts < toTs)

theorem eventsCsvIterCb_parsed {line : Bytes} {json : JsonTree} (parsed : parse line = some json)
    (ctx : CsvCtx) :
    eventsCsvIterCb localtimeR workers parse line ctx =
      (.ok, if json.inRange ctx.fromTs ctx.toTs then
        { ctx with chunks := ctx.chunks ++ eventChunks localtimeR workers json } else ctx) := by
  rw [eventsCsvIterCb, parsed]
  dsimp only
  split_ifs with early inside late inside inside
  · simp only [JsonTree.inRange, decide_eq_true_iff] at inside
    omega
  · rfl
  · simp only [JsonTree.inRange, decide_eq_true_iff] at inside
    omega
  · rfl
  · rfl
  · refine absurd ?_ inside
    simp only [JsonTree.inRange, decide_eq_true_iff]
    omega

/-- The walk sends every event of the range. -/
theorem eventsCsvIterCb_sends (lines : List Bytes) (ctx : CsvCtx) :
    (callEach (eventsCsvIterCb localtimeR workers parse) lines ctx).2.chunks =
      ctx.chunks ++ ((lines.filterMap parse).filter (JsonTree.inRange ctx.fromTs ctx.toTs)).flatMap
        (eventChunks localtimeR workers) := by
  induction lines generalizing ctx with
  | nil => exact (List.append_nil _).symm
  | cons line lines ih =>
      cases parsed : parse line with
      | none =>
          have stays : eventsCsvIterCb localtimeR workers parse line ctx = (.ok, ctx) := by
            rw [eventsCsvIterCb, parsed]
          rw [callEach, stays, List.filterMap_cons_none parsed]
          exact ih ctx
      | some json =>
          rw [callEach, eventsCsvIterCb_parsed parsed, List.filterMap_cons_some parsed]
          dsimp only
          rw [ih]
          by_cases inside : json.inRange ctx.fromTs ctx.toTs = true
          · rw [if_pos inside, List.filter_cons_of_pos inside, List.flatMap_cons, List.append_assoc]
          · rw [if_neg inside, List.filter_cons_of_neg inside]

end Walk

end LeanDingdong
