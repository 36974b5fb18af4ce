import Dingdong.StorageByTime
import Dingdong.StorageDelete

/-!
The retention rewrite on a log of events. The search reads long lines in pieces, and only
the first piece of a line looks like the start of one: what the line opens with cannot
stand anywhere else in it.
-/

namespace LeanDingdong

open TextLines Substrings

section Atoll

theorem decimal_isDigit (value : Nat) : ∀ byte ∈ decimal value,
    isDigit byte = true ∧ isSpace byte = false ∧ byte ≠ 45 ∧ byte ≠ 43 := by
  intro byte member
  obtain ⟨digit, inside, rfl⟩ := List.mem_map.mp member
  have small := Decimal.digits_lt inside
  interval_cases digit <;> decide

/-- Digits that no digit follows add their value behind what was read. -/
theorem digitsValue_digits (value : Nat) {digits rest : Bytes}
    (digit : ∀ byte ∈ digits, isDigit byte = true) (ends : ∀ stop ∈ rest.head?, isDigit stop = false) :
    digitsValue value (digits ++ rest) =
      value * 10 ^ digits.length + Nat.ofDigits 10 (digits.map fun byte => byte.toNat - 48).reverse := by
  induction digits generalizing value with
  | nil =>
      cases rest with
      | nil => simp [digitsValue]
      | cons stop rest => simp [digitsValue, ends stop rfl]
  | cons byte digits ih =>
      rw [List.cons_append, digitsValue, if_pos (digit byte List.mem_cons_self),
        ih _ fun other member => digit other (List.mem_cons_of_mem _ member)]
      rw [List.map_cons, List.reverse_cons, Nat.ofDigits_append, Nat.ofDigits_singleton,
        List.length_reverse, List.length_map, List.length_cons, Nat.pow_succ]
      ring

theorem atoll_decimal {value : Nat} (small : (value : Int) ≤ int64Max) {rest : Bytes}
    (ends : ∀ stop ∈ rest.head?, isDigit stop = false) : atoll (decimal value ++ rest) = value := by
  obtain ⟨first, digits, split⟩ := List.exists_cons_of_ne_nil (decimal_ne_nil value)
  have firstListed : first ∈ decimal value := by
    rw [split]
    exact List.mem_cons_self
  obtain ⟨_, plain⟩ := decimal_isDigit value first firstListed
  have whole := digitsValue_digits 0 (fun byte member => (decimal_isDigit value byte member).1) ends
  rw [decimal_digits, Decimal.ofDigits_digits, Nat.zero_mul, Nat.zero_add] at whole
  rw [split, List.cons_append] at whole ⊢
  rw [atoll, List.dropWhile_cons, plain.1, if_neg Bool.false_ne_true, signedDigits,
    if_neg plain.2.1, if_neg plain.2.2, whole]
  exact min_eq_right small

end Atoll

namespace EventRecord

variable (record : EventRecord)

/-- The line opens with its `ts`, and no `ts` stands in it after that. -/
theorem line_opening : ∃ (stop : UInt8) (tail : Bytes), stop ∈ separators ∧
    record.line ++ [newline] = ascii "\x7b\"ts\":" ++ (decimal record.ts ++ stop :: tail) ∧
    ¬ keyNeedle (ascii "ts") [] <:+: (record.line ++ [newline]).drop 2 := by
  obtain ⟨parts, rest, lineEq, heads, seps, absent⟩ := record.line_split
  have named : ascii "ts" ∈ numberKeys := by decide
  have plain := numberKeys_plain named
  have nodup := record.head_nodup
  have plains : ∀ part ∈ parts, PlainKey part.1.key := fun part present =>
    record.head_plain (heads ▸ List.mem_map_of_mem present)
  rw [← heads, List.map_map] at nodup
  rw [head] at heads
  cases parts with
  | nil => cases heads
  | cons part parts =>
      obtain ⟨own, _⟩ := List.cons.inj heads
      have separator := seps part List.mem_cons_self
      rw [List.map_cons, List.nodup_cons] at nodup
      have others : ∀ other ∈ parts, other.1.key ≠ ascii "ts" := by
        intro other present same
        refine nodup.1 (List.mem_map.mpr ⟨other, present, ?_⟩)
        rw [Function.comp_apply, Function.comp_apply, own, same]
      have number : printValue part.1.value = decimal record.ts := by
        rw [own]
        rfl
      have member : printMember part.1 = 34 :: (ascii "ts" ++ 34 :: 58 :: decimal record.ts) := by
        rw [← number, own]
        rfl
      have text : record.line ++ [newline] = 123 :: 34 :: (ascii "ts" ++
          34 :: 58 :: (decimal record.ts ++ part.2 :: (printParts parts ++ rest))) := by
        rw [lineEq, printParts_cons, member]
        simp
      refine ⟨part.2, printParts parts ++ rest, separator, text, ?_⟩
      rw [← strstr_none_iff (keyNeedle_ne_nil _ _), text]
      show strstr (keyNeedle (ascii "ts") []) (ascii "ts" ++ 34 :: 58 ::
        (decimal record.ts ++ part.2 :: (printParts parts ++ rest))) = none
      have keyFree : 34 ∉ ascii "ts" := plain.not_mem (by decide)
      rw [keyNeedle, strstr_skip_free _ keyFree, ← keyNeedle, ← number, strstr_skip_value plain part.1.value separator,
        strstr_skip_parts plain (fun other present => plains other (List.mem_cons_of_mem _ present))
          (fun other present => seps other (List.mem_cons_of_mem _ present)) others]
      exact absent _ named []

/-- The search reads the `ts` of a line in any front of it that is long enough. -/
theorem parseTs_front {front : Bytes} (prefixed : front <+: record.line ++ [newline])
    (covers : 22 ≤ front.length ∨ record.line <+: front) :
    parseTsFromLine front = record.ts := by
  obtain ⟨stop, tail, separator, lineEq, _⟩ := record.line_opening
  have digits : (decimal record.ts).length ≤ 15 := decimal_length_le (by decide) record.tsPlain
  have brace : (ascii "\x7b\"ts\":").length = 6 := rfl
  have openingInside : ascii "\x7b\"ts\":" ++ (decimal record.ts ++ [stop]) <+: record.line := by
    rcases List.eq_nil_or_concat tail with rfl | ⟨tail, last, rfl⟩
    · -- the separator would be the newline
      rw [← List.append_assoc] at lineEq
      obtain rfl := List.singleton_inj.mp (List.append_inj_right' lineEq rfl)
      exact absurd separator (by decide)
    · refine ⟨tail, ?_⟩
      rw [List.concat_eq_append, ← List.cons_append, ← List.append_assoc, ← List.append_assoc]
        at lineEq
      rw [List.append_inj_left' lineEq rfl]
      simp
  have inside : ascii "\x7b\"ts\":" ++ (decimal record.ts ++ [stop]) <+: front := by
    rcases covers with long | whole
    · have opening := openingInside.trans (List.prefix_append record.line [newline])
      refine List.prefix_of_prefix_length_le opening prefixed ?_
      rw [List.length_append, List.length_append, List.length_singleton]
      omega
    · exact openingInside.trans whole
  obtain ⟨shown, rfl⟩ := inside
  have noNul : 0 ∉ ascii "\x7b\"ts\":" ++ (decimal record.ts ++ [stop]) ++ shown := by
    intro member
    rcases List.mem_append.mp (prefixed.subset member) with nul | nul
    · exact record.line_noNul nul
    · exact absurd (List.mem_singleton.mp nul) (by decide)
  have split : ascii "\x7b\"ts\":" ++ (decimal record.ts ++ [stop]) ++ shown =
      ascii "\x7b\"ts\":" ++ (decimal record.ts ++ stop :: shown) := by simp
  have small : (record.ts : Int) ≤ int64Max := by
    have := record.tsPlain
    rw [int64Max]
    omega
  have ends : ∀ byte ∈ (stop :: shown).head?, isDigit byte = false := by
    intro byte first
    obtain rfl := Option.some.inj first
    exact (by decide : ∀ byte ∈ separators, isDigit byte = false) stop separator
  rw [parseTsFromLine, cstr_of_noNul noNul, split, if_pos (List.prefix_append _ _),
    List.drop_left' brace, atoll_decimal small ends]

/-- No later piece of the line is taken for a start. -/
theorem parseTs_piece {piece : Bytes} (inside : piece <:+: (record.line ++ [newline]).drop 2) :
    parseTsFromLine piece = 0 := by
  obtain ⟨_, _, _, _, absent⟩ := record.line_opening
  rw [parseTsFromLine, if_neg]
  intro opens
  have needle : keyNeedle (ascii "ts") [] <:+: ascii "\x7b\"ts\":" := ⟨[123], [], rfl⟩
  have front : cstr piece <+: piece := List.takeWhile_prefix _
  exact absent (needle.trans ((opens.trans front).isInfix.trans inside))

end EventRecord

section Search

variable {cutoffUnix : Int} {offset : Nat}

theorem keepOffset_none {bufs : List Bytes}
    (older : ∀ buf ∈ bufs, parseTsFromLine buf < cutoffUnix) :
    keepOffset cutoffUnix offset bufs = none := by
  induction bufs generalizing offset with
  | nil => rfl
  | cons buf bufs ih =>
      rw [keepOffset, if_neg (not_le.mpr (older buf List.mem_cons_self))]
      exact ih fun other member => older other (List.mem_cons_of_mem _ member)

/-- The pieces of one line are found at its start or not at all. -/
theorem keepOffset_line (positive : 0 < cutoffUnix) (record : EventRecord) :
    keepOffset cutoffUnix offset (lineChunks newline 511 record.line) =
      if cutoffUnix ≤ record.ts then some offset else none := by
  by_cases fits : record.line.length < 511
  · rw [lineChunks_short newline record.line_noNewline fits, keepOffset,
      record.parseTs_front (List.prefix_refl _) (.inr (List.prefix_append _ _)), keepOffset]
  · have long : 511 ≤ record.line.length := not_lt.mp fits
    have room : 0 < 511 := by decide
    have front : record.line.take 511 <+: record.line ++ [newline] :=
      (List.take_prefix _ _).trans (List.prefix_append _ _)
    have covers : 22 ≤ (record.line.take 511).length := by
      rw [List.length_take]
      omega
    rw [lineChunks_cut newline room record.line_noNewline long, keepOffset,
      record.parseTs_front front (.inl covers)]
    refine if_congr Iff.rfl rfl (keepOffset_none fun buf member => ?_)
    have piece : buf <:+: record.line.drop 511 ++ [newline] := by
      rw [← chunks_flatten newline room (record.line.drop 511 ++ [newline])]
      exact List.infix_of_mem_flatten member
    have later : record.line.drop 511 ++ [newline] <:+: (record.line ++ [newline]).drop 2 := by
      rw [← List.drop_append_of_le_length long]
      exact (List.drop_suffix_drop_left _ (by decide)).isInfix
    rw [record.parseTs_piece (piece.trans later)]
    exact positive

/-- The event is older than the cutoff. -/
def LoggedEvent.older (cutoffUnix : Int) (event : LoggedEvent) : Bool :=
  event.record.ts < cutoffUnix

/-- The file of some events. -/
def eventsFile (events : List LoggedEvent) : Bytes :=
  encode newline (texts (events.map LoggedEvent.line))

theorem eventsFile_append (first second : List LoggedEvent) :
    eventsFile (first ++ second) = eventsFile first ++ eventsFile second := by
  simp [eventsFile, texts]

/-- The search finds the first event that is new enough, by the length of those before. -/
theorem keepOffset_events (positive : 0 < cutoffUnix) (offset : Nat) (events : List LoggedEvent) :
    keepOffset cutoffUnix offset (searchBuffers (eventsFile events)) =
      if events.dropWhile (LoggedEvent.older cutoffUnix) = [] then none
      else some (offset +
        (eventsFile (events.takeWhile (LoggedEvent.older cutoffUnix))).length) := by
  have room : 0 < 511 := by decide
  rw [searchBuffers, eventsFile, chunks_encode newline room]
  induction events generalizing offset with
  | nil => rfl
  | cons event events ih =>
      have whole : (lineChunks newline 511 event.record.line).flatten =
          event.record.line ++ [newline] := chunks_flatten newline room _
      have first : texts ((event :: events).map LoggedEvent.line) =
          event.record.line :: texts (events.map LoggedEvent.line) := rfl
      rw [first, List.flatMap_cons, keepOffset_append, keepOffset_line positive, whole]
      by_cases recent : cutoffUnix ≤ event.record.ts
      · have kept : event.older cutoffUnix = false := by
          simpa [LoggedEvent.older] using recent
        rw [if_pos recent, List.dropWhile_cons_of_neg (by simp [kept]),
          List.takeWhile_cons_of_neg (by simp [kept]), if_neg (List.cons_ne_nil _ _)]
        rfl
      · have dropped : event.older cutoffUnix = true := by
          simpa [LoggedEvent.older] using recent
        have rest := ih (offset + (event.record.line ++ [newline]).length)
        have length : (eventsFile (event :: events.takeWhile (LoggedEvent.older cutoffUnix))).length =
            (event.record.line ++ [newline]).length +
              (eventsFile (events.takeWhile (LoggedEvent.older cutoffUnix))).length := by
          rw [← List.length_append]
          simp [eventsFile, texts, LoggedEvent.line]
        rw [if_neg recent, Option.orElse_none, rest, List.dropWhile_cons_of_pos dropped,
          List.takeWhile_cons_of_pos dropped, length, Nat.add_assoc]

end Search

section Rotate

variable {cutoffUnix : Int} {store : Store}

theorem eventsFile_eq_nil {events : List LoggedEvent} : eventsFile events = [] ↔ events = [] := by
  rw [eventsFile, encode_eq_nil, texts, List.map_eq_nil_iff, List.map_eq_nil_iff]

theorem count_eventsFile (events : List LoggedEvent) :
    (eventsFile events).count newline = events.length := by
  rw [eventsFile, count_encode newline texts_noNewline, texts, List.length_map, List.length_map]

/-- What the rewrite leaves, by where the first event that is new enough stands. -/
theorem eventRotateByTime_events {events : List LoggedEvent}
    (present : store.events = some (eventsFile events)) (positive : 0 < cutoffUnix) :
    eventRotateByTime .none cutoffUnix store =
      if events.dropWhile (LoggedEvent.older cutoffUnix) = [] then
        (.ok, { events := none, eventCount := 0 })
      else if events.takeWhile (LoggedEvent.older cutoffUnix) = [] then (.ok, store)
      else (.ok, { events := some (eventsFile (events.dropWhile (LoggedEvent.older cutoffUnix)))
                   eventCount := (events.dropWhile (LoggedEvent.older cutoffUnix)).length }) := by
  have found := keepOffset_events positive 0 events
  have split : eventsFile events =
      eventsFile (events.takeWhile (LoggedEvent.older cutoffUnix)) ++
        eventsFile (events.dropWhile (LoggedEvent.older cutoffUnix)) := by
    rw [← eventsFile_append, List.takeWhile_append_dropWhile]
  rw [Nat.zero_add] at found
  rw [eventRotateByTime, if_neg (not_le.mpr positive), present]
  simp only [RotateFaults.none, Bool.false_eq_true, if_false, readable, found]
  by_cases nothing : events.dropWhile (LoggedEvent.older cutoffUnix) = []
  · rw [if_pos nothing, if_pos nothing]
  rw [if_neg nothing, if_neg nothing]
  by_cases all : events.takeWhile (LoggedEvent.older cutoffUnix) = []
  · rw [if_pos all, eventsFile_eq_nil.mpr all]
    rfl
  · obtain ⟨before, length⟩ := Nat.exists_eq_succ_of_ne_zero
      (mt List.length_eq_zero_iff.mp (mt eventsFile_eq_nil.mp all))
    rw [if_neg all, length]
    have rest : (eventsFile events).drop (before + 1) =
        eventsFile (events.dropWhile (LoggedEvent.older cutoffUnix)) := by
      rw [split, ← Nat.succ_eq_add_one, ← length, List.drop_left]
    simp only [Nat.succ_eq_add_one, rest, writeBlocks_none, freadBlocks_flatten (by decide : 0 < 1024),
      scanEventCount, Bool.false_eq_true, if_false, readable, count_eventsFile]

/-- In a log in order the events from the first recent one on are the recent ones. -/
theorem keeps_ordered {events : List LoggedEvent}
    (ordered : events.Pairwise fun earlier later => earlier.record.ts ≤ later.record.ts) :
    (events.dropWhile fun event => event.record.ts < cutoffUnix) =
      events.filter fun event => cutoffUnix ≤ event.record.ts := by
  induction events with
  | nil => rfl
  | cons event events ih =>
      rw [List.pairwise_cons] at ordered
      by_cases recent : cutoffUnix ≤ event.record.ts
      · have all : ∀ later ∈ event :: events, cutoffUnix ≤ later.record.ts := by
          intro later member
          rcases List.mem_cons.mp member with rfl | after
          · exact recent
          · have := ordered.1 later after
            omega
        rw [List.dropWhile_cons_of_neg (by simpa using recent),
          List.filter_eq_self.mpr fun later member => decide_eq_true (all later member)]
      · rw [List.dropWhile_cons_of_pos (by simpa using recent),
          List.filter_cons_of_neg (by simpa using recent), ih ordered.2]

/-- The rewrite leaves the events from the first one that is new enough on; their count is
right when it was before, or when an event is dropped. -/
theorem rotateByTime_keeps (store : Store) (events : List LoggedEvent)
    (present : store.events = some (eventsFile events)) (cutoffUnix : Int)
    (positive : 0 < cutoffUnix) :
    let kept := events.dropWhile fun event => event.record.ts < cutoffUnix
    let result := eventRotateByTime .none cutoffUnix store
    result.1 = .ok ∧ result.2.file = eventsFile kept ∧
      (store.eventCount = events.length ∨ kept ≠ events ∨ events = [] →
        result.2.eventCount = kept.length) ∧
      (kept = events → events ≠ [] → result.2 = store) ∧
      (∃ dropped, events = dropped ++ kept ∧ ∀ event ∈ dropped, event.record.ts < cutoffUnix) ∧
      ((events.Pairwise fun earlier later => earlier.record.ts ≤ later.record.ts) →
        kept = events.filter fun event => cutoffUnix ≤ event.record.ts) := by
  intro kept result
  have rotated : result = _ := eventRotateByTime_events present positive
  have same : events.dropWhile (LoggedEvent.older cutoffUnix) = kept := rfl
  have split := List.takeWhile_append_dropWhile (p := LoggedEvent.older cutoffUnix) (l := events)
  rw [same] at rotated split
  have older : ∀ event ∈ events.takeWhile (LoggedEvent.older cutoffUnix),
      event.record.ts < cutoffUnix := by
    intro event member
    have dropped : event.older cutoffUnix = true := List.mem_takeWhile_imp member
    exact of_decide_eq_true dropped
  have outcome : result.1 = .ok ∧ result.2.file = eventsFile kept ∧
      (store.eventCount = events.length ∨ kept ≠ events ∨ events = [] →
        result.2.eventCount = kept.length) ∧
      (kept = events → events ≠ [] → result.2 = store) := by
    by_cases nothing : kept = []
    · rw [rotated, if_pos nothing, nothing]
      exact ⟨rfl, rfl, fun _ => rfl, fun all some => absurd all.symm some⟩
    rw [if_neg nothing] at rotated
    by_cases all : events.takeWhile (LoggedEvent.older cutoffUnix) = []
    · have whole : kept = events := by
        rw [all] at split
        exact split
      rw [rotated, if_pos all, whole]
      refine ⟨rfl, ?_, ?_, fun _ _ => rfl⟩
      · rw [Store.file, present, Option.getD_some]
      · rintro (exact | apart | empty)
        · exact exact
        · exact absurd rfl apart
        · exact absurd (whole.trans empty) nothing
    · rw [rotated, if_neg all]
      refine ⟨rfl, rfl, fun _ => rfl, fun whole _ => ?_⟩
      rw [whole] at split
      exact absurd (List.append_left_eq_self.mp split) all
  obtain ⟨ok, file, count, still⟩ := outcome
  exact ⟨ok, file, count, still, ⟨_, split.symm, older⟩, keeps_ordered⟩

/-- An event of the given second. -/
def agedRecord (ts : Nat) (plain : ts < 10 ^ 15) : EventRecord :=
  { notedRecord 1 with ts := ts, tsPlain := plain }

theorem firstSecond_plain : 1 < 10 ^ 15 := by decide

theorem secondSecond_plain : 2 < 10 ^ 15 := by decide

theorem agedRecord_first : (agedRecord 1 firstSecond_plain).line.length ≤ lineBufMax := by decide

theorem agedRecord_second : (agedRecord 2 secondSecond_plain).line.length ≤ lineBufMax := by decide

/-- Two events, a second apart. -/
def agingEvents : List LoggedEvent :=
  [{ record := agedRecord 1 firstSecond_plain, accepted := agedRecord_first },
    { record := agedRecord 2 secondSecond_plain, accepted := agedRecord_second }]

theorem rotateByTime_keeps_last :
    let result := eventRotateByTime .none 2 { events := some (eventsFile agingEvents), eventCount := 2 }
    result.2.file = eventsFile (agingEvents.drop 1) ∧ result.2.eventCount = 1 := by
  have keeps := rotateByTime_keeps { events := some (eventsFile agingEvents), eventCount := 2 }
    agingEvents rfl 2 (by decide)
  exact ⟨keeps.2.1, keeps.2.2.1 (.inl rfl)⟩

/-- An event of worker 7 whose line has 1023 bytes. -/
def longEvent : LoggedEvent := notedEvent 921 (by decide +kernel)

def otherEvent : EventRecord := { notedRecord 1 with peer := some (⟨1, 2, 3, 4, 5, 7⟩, 8) }

/-- The store after both events are appended and those of worker 8 deleted. -/
def miscounted : Store :=
  (eventDeleteByWorker .none 8 (eventAppend .none otherEvent.line
    (eventAppend .none longEvent.record.line Store.empty).2).2).2

/-- That delete counts the long line twice, and a rewrite with nothing to drop keeps the count. -/
theorem rotateByTime_miscounted :
    ¬ ∀ (store : Store) (events : List LoggedEvent), store.events = some (eventsFile events) →
      ∀ cutoffUnix : Int, 0 < cutoffUnix →
        let kept := events.dropWhile fun event => event.record.ts < cutoffUnix
        let result := eventRotateByTime .none cutoffUnix store
        result.2.file = eventsFile kept ∧ result.2.eventCount = kept.length := by
  intro claimed
  have reached : miscounted = { events := some (eventsFile [longEvent]), eventCount := 2 } := by
    decide +kernel
  have count := (claimed miscounted [longEvent] (congrArg Store.events reached) 1 (by decide)).2
  rw [reached, eventRotateByTime_events rfl (by decide)] at count
  exact absurd count (by decide)

end Rotate

end LeanDingdong
