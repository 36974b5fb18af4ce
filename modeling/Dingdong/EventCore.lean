import Dingdong.CJson
import Dingdong.StorageLog

/-!
The events of `dd_event.c`: one record and the line `dd_event_record` stores for it.
-/

namespace LeanDingdong

open Substrings

inductive EventType where
  | evIn
  | evOut
  deriving DecidableEq, Repr

inductive EventSource where
  | srcBleAuto
  | srcManualWeb
  | srcManualBtn
  deriving DecidableEq, Repr

def eventTypeStr : EventType → Bytes
  | .evIn => ascii "in"
  | .evOut => ascii "out"

def eventSourceStr : EventSource → Bytes
  | .srcBleAuto => ascii "ble_auto"
  | .srcManualWeb => ascii "manual_web"
  | .srcManualBtn => ascii "manual_btn"

/-- What one call of `dd_event_record` puts into its object. Both clocks stay in the
range `cJSON` prints digit by digit. -/
structure EventRecord where
  ts : Nat
  monoUs : Nat
  type : EventType
  src : EventSource
  /-- the peer and the id `dd_worker_lookup_or_create` gave for it, 0 for none -/
  peer : Option (Addr × UInt16)
  reason : Int32
  /-- the bytes of `note`, empty when it is `NULL` -/
  note : Bytes
  tsPlain : ts < 10 ^ 15
  monoPlain : monoUs < 10 ^ 15
  noteNoNul : 0 ∉ note

namespace EventRecord

def workerId (record : EventRecord) : Nat :=
  match record.peer with
  | none => 0
  | some (_, id) => id.toNat

/-- Every member but the note. -/
def head (record : EventRecord) : List Member :=
  [⟨ascii "ts", .number record.ts⟩, ⟨ascii "mono_us", .number record.monoUs⟩,
    ⟨ascii "type", .text (eventTypeStr record.type)⟩,
    ⟨ascii "src", .text (eventSourceStr record.src)⟩] ++
  (match record.peer with
    | none => []
    | some (addr, _) => [⟨ascii "peer", .text (formatMac addr)⟩]) ++
  (if record.workerId = 0 then [] else [⟨ascii "worker_id", .number record.workerId⟩]) ++
  (if record.type = .evOut then [⟨ascii "reason", .number record.reason.toInt⟩] else [])

def noteMember (record : EventRecord) : Member := ⟨ascii "note", .text record.note⟩

/-- The members of the object, in the order they are added. -/
def members (record : EventRecord) : List Member :=
  record.head ++ if record.note = [] then [] else [record.noteMember]

/-- The text handed to `dd_storage_event_append`. -/
def line (record : EventRecord) : Bytes := printUnformatted record.members

end EventRecord

/-- The member names of an event, the note apart, in order. -/
def headKeys : List Bytes :=
  [ascii "ts", ascii "mono_us", ascii "type", ascii "src", ascii "peer", ascii "worker_id",
    ascii "reason"]

theorem headKeys_plain : ∀ key ∈ headKeys, PlainKey key := by
  have letters : ∀ key ∈ headKeys, key ≠ [] ∧
      ∀ byte ∈ key, byte ∈ ascii "abcdefghijklmnopqrstuvwxyz_" := by decide
  exact fun key member => ⟨(letters key member).1, (letters key member).2⟩

/-- The members the deletes search for. -/
def numberKeys : List Bytes := [ascii "ts", ascii "mono_us", ascii "worker_id"]

theorem numberKeys_plain {key : Bytes} (named : key ∈ numberKeys) : PlainKey key :=
  headKeys_plain key ((by decide : ∀ key ∈ numberKeys, key ∈ headKeys) key named)

namespace EventRecord

variable (record : EventRecord)

theorem head_keys : (record.head.map Member.key).Sublist headKeys := by
  have peer : ((match record.peer with
      | none => []
      | some (addr, _) => [(⟨ascii "peer", .text (formatMac addr)⟩ : Member)]).map
        Member.key).Sublist [ascii "peer"] := by
    cases record.peer <;> simp
  have worker : ((if record.workerId = 0 then [] else
      [(⟨ascii "worker_id", .number record.workerId⟩ : Member)]).map
        Member.key).Sublist [ascii "worker_id"] := by
    split_ifs <;> simp
  have reason : ((if record.type = .evOut then
      [(⟨ascii "reason", .number record.reason.toInt⟩ : Member)] else []).map
        Member.key).Sublist [ascii "reason"] := by
    split_ifs <;> simp
  rw [head, List.map_append, List.map_append, List.map_append]
  exact (((List.Sublist.refl _).append peer).append worker).append reason

theorem head_nodup : (record.head.map Member.key).Nodup :=
  record.head_keys.nodup (by decide)

theorem head_plain {member : Member} (present : member ∈ record.head) : PlainKey member.key :=
  headKeys_plain _ (record.head_keys.subset (List.mem_map_of_mem present))

theorem mem_head {member : Member} :
    member ∈ record.head ↔
      member = ⟨ascii "ts", .number record.ts⟩ ∨ member = ⟨ascii "mono_us", .number record.monoUs⟩ ∨
      member = ⟨ascii "type", .text (eventTypeStr record.type)⟩ ∨
      member = ⟨ascii "src", .text (eventSourceStr record.src)⟩ ∨
      (∃ peer ∈ record.peer, member = ⟨ascii "peer", .text (formatMac peer.1)⟩) ∨
      (record.workerId ≠ 0 ∧ member = ⟨ascii "worker_id", .number record.workerId⟩) ∨
      (record.type = .evOut ∧ member = ⟨ascii "reason", .number record.reason.toInt⟩) := by
  rw [head]
  cases record.peer <;> split_ifs <;> simp [*]

theorem head_number {member : Member} (present : member ∈ record.head)
    (named : member.key ∈ numberKeys) : ∃ number, member.value = .number number := by
  have others : ∀ name ∈ [ascii "type", ascii "src", ascii "peer"], name ∉ numberKeys := by decide
  rcases record.mem_head.mp present with rfl | rfl | rfl | rfl | ⟨_, _, rfl⟩ | ⟨_, rfl⟩ | ⟨_, rfl⟩
  · exact ⟨_, rfl⟩
  · exact ⟨_, rfl⟩
  · exact absurd named (others (ascii "type") (by decide))
  · exact absurd named (others (ascii "src") (by decide))
  · exact absurd named (others (ascii "peer") (by decide))
  · exact ⟨_, rfl⟩
  · exact ⟨_, rfl⟩

theorem line_printable : ∀ byte ∈ record.line, Printable byte := printUnformatted_printable

theorem line_ne_nil : record.line ≠ [] := List.cons_ne_nil _ _

theorem line_noNewline : newline ∉ record.line :=
  fun member => absurd (record.line_printable newline member) (by decide)

theorem line_noNul : 0 ∉ record.line :=
  fun member => absurd (record.line_printable 0 member) (by decide)

/-- More bytes than the members before the note ever take. -/
def headRoom : Nat := 1000

theorem printValue_length {member : Member} (present : member ∈ record.head) :
    (printValue member.value).length ≤ 104 := by
  have text {text : Bytes} (short : text.length ≤ 17) :
      (printValue (.text text)).length ≤ 104 := by
    have := escapeText_length text
    simp only [printValue, printString, List.length_cons, List.length_append, List.length_nil]
    omega
  have number {value : Int} (bound : value.natAbs < 10 ^ 15) :
      (printValue (.number value)).length ≤ 104 :=
    (signedDecimal_length (by decide) bound).trans (by decide)
  rcases record.mem_head.mp present with rfl | rfl | rfl | rfl | ⟨_, _, rfl⟩ | ⟨_, rfl⟩ | ⟨_, rfl⟩
  · exact number record.tsPlain
  · exact number record.monoPlain
  · exact text (by cases record.type <;> decide)
  · exact text (by cases record.src <;> decide)
  · exact text (formatMac_length _).le
  · refine number ?_
    have : record.workerId < 65536 := by
      rw [workerId]
      split
      · decide
      · exact UInt16.toNat_lt _
    simp only [Int.natAbs_natCast]
    omega
  · have low := record.reason.le_toInt
    have high := record.reason.toInt_lt
    exact number (by omega)

theorem printMember_length {member : Member} (present : member ∈ record.head) :
    (printMember member).length ≤ 120 := by
  have value := record.printValue_length present
  have key : member.key.length ≤ 9 :=
    (by decide : ∀ key ∈ headKeys, key.length ≤ 9) _
      (record.head_keys.subset (List.mem_map_of_mem present))
  rw [printMember, printString, (record.head_plain present).escape]
  simp only [List.length_append, List.length_cons, List.length_nil]
  omega

theorem printParts_length {parts : List (Member × UInt8)} {bound : Nat}
    (short : ∀ member ∈ parts.map Prod.fst, (printMember member).length ≤ bound) :
    (printParts parts).length ≤ parts.length * (bound + 1) := by
  induction parts with
  | nil => simp [printParts]
  | cons part parts ih =>
      have first := short part.1 (by simp)
      have rest := ih fun member present => short member (by
        rw [List.map_cons]
        exact List.mem_cons_of_mem _ present)
      simp only [printParts_cons, List.length_append, List.length_cons]
      rw [Nat.succ_mul]
      omega

theorem head_room {parts : List (Member × UInt8)} (heads : parts.map Prod.fst = record.head) :
    (printParts parts).length + 1 < headRoom := by
  have text : (printParts parts).length ≤ parts.length * (120 + 1) :=
    printParts_length fun member present => record.printMember_length (heads ▸ present)
  have count : parts.length ≤ 7 := by
    rw [← List.length_map (f := Prod.fst), heads, ← List.length_map (f := Member.key)]
    exact record.head_keys.length_le
  have : parts.length * 121 ≤ 7 * 121 := Nat.mul_le_mul_right _ count
  rw [headRoom]
  omega

/-- Without a note the line is short. -/
theorem line_unnoted (unnoted : record.note = []) : record.line.length < headRoom := by
  have room := record.head_room (separated_members record.head)
  rw [line, members, if_pos unnoted, List.append_nil, printUnformatted, List.length_cons]
  exact room

/-- The terminated line: the head's members, then text no number is found in. -/
theorem line_split : ∃ (parts : List (Member × UInt8)) (rest : Bytes),
    record.line ++ [newline] = 123 :: (printParts parts ++ rest) ∧
    parts.map Prod.fst = record.head ∧ (∀ part ∈ parts, part.2 ∈ separators) ∧
    ∀ key ∈ numberKeys, ∀ digits, strstr (keyNeedle key digits) rest = none := by
  have ends {key digits : Bytes} : strstr (keyNeedle key digits) [newline] = none :=
    strstr_skip_free [newline] (by decide) []
  by_cases empty : record.note = []
  · refine ⟨separated record.head, [newline], ?_, separated_members _,
      separated_separators, fun key _ digits => ends⟩
    simp [line, members, empty, printUnformatted]
  · refine ⟨record.head.map (·, 44), printMember record.noteMember ++ [125, newline], ?_, ?_, ?_, ?_⟩
    · simp [line, members, empty, printUnformatted, separated_snoc, printParts]
    · exact (List.map_map ..).trans (List.map_id _)
    · intro part present
      obtain ⟨member, _, rfl⟩ := List.mem_map.mp present
      show (44 : UInt8) ∈ separators
      decide
    · intro key named digits
      have notePlain : PlainKey record.noteMember.key := ⟨show ascii "note" ≠ [] by decide,
        show ∀ byte ∈ ascii "note", byte ∈ ascii "abcdefghijklmnopqrstuvwxyz_" by decide⟩
      rw [strstr_skip_member (numberKeys_plain named) notePlain (by decide), ends]
      rw [keyNeedle_prefix_member (numberKeys_plain named) notePlain]
      rintro ⟨rfl, _⟩
      exact absurd named (show ascii "note" ∉ numberKeys by decide)

/-- A search for a number in the front of the terminated line, as long as the front
covers the head, finds the member of that name. -/
theorem matchedBy_front {key : Bytes} (named : key ∈ numberKeys) {value : Int} {stops : Bytes}
    (stopsSeparators : ∀ byte ∈ separators, byte ∈ stops)
    (stopsEnd : ∀ byte ∈ stops, ¬ Numeric byte) {front : Bytes}
    (prefixed : front <+: record.line ++ [newline])
    (covers : headRoom ≤ front.length ∨ front = record.line ++ [newline]) :
    matchedBy (keyNeedle key (signedDecimal value)) stops front = true ↔
      (⟨key, .number value⟩ : Member) ∈ record.head := by
  obtain ⟨parts, rest, lineEq, heads, seps, absent⟩ := record.line_split
  have room := record.head_room heads
  obtain ⟨shown, frontEq, shownPrefix⟩ : ∃ shown, front = 123 :: (printParts parts ++ shown) ∧
      shown <+: rest := by
    rw [lineEq] at prefixed covers
    have inside : 123 :: printParts parts <+: front := by
      have whole : 123 :: printParts parts <+: 123 :: (printParts parts ++ rest) := ⟨rest, rfl⟩
      refine List.prefix_of_prefix_length_le whole prefixed ?_
      rcases covers with long | rfl
      · simp only [List.length_cons]
        omega
      · simp
    obtain ⟨shown, rfl⟩ := inside
    refine ⟨shown, rfl, ?_⟩
    rw [List.cons_append, List.cons_prefix_cons, List.prefix_append_right_inj] at prefixed
    exact prefixed.2
  have plain := numberKeys_plain named
  have search : matchedBy (keyNeedle key (signedDecimal value)) stops (printParts parts ++ shown) =
      true ↔ ∃ part ∈ parts, part.1 = { key := key, value := .number value } :=
    matchedBy_members plain stopsSeparators stopsEnd
    (fun part present => record.head_plain (heads ▸ List.mem_map_of_mem present)) seps
    (by
      have := record.head_nodup
      rwa [← heads, List.map_map] at this)
    (fun part present same => record.head_number (heads ▸ List.mem_map_of_mem present)
      (same ▸ named))
    (strstr_none_front (keyNeedle_ne_nil _ _) shownPrefix (absent key named _))
  have brace : strstr (keyNeedle key (signedDecimal value)) (123 :: (printParts parts ++ shown)) =
      strstr (keyNeedle key (signedDecimal value)) (printParts parts ++ shown) :=
    strstr_skip_free [123] (by decide) _
  rw [frontEq, matchedBy, afterMatch, brace]
  rw [matchedBy, afterMatch] at search
  rw [search, ← heads, List.mem_map]

theorem mem_head_ts {value : Int} :
    (⟨ascii "ts", .number value⟩ : Member) ∈ record.head ↔ value = record.ts := by
  rw [mem_head]
  simp [ascii]

theorem mem_head_monoUs {value : Int} :
    (⟨ascii "mono_us", .number value⟩ : Member) ∈ record.head ↔ value = record.monoUs := by
  rw [mem_head]
  simp [ascii]

theorem mem_head_workerId {value : Nat} (positive : 0 < value) :
    (⟨ascii "worker_id", .number value⟩ : Member) ∈ record.head ↔ value = record.workerId := by
  have named : record.workerId ≠ 0 ∧ value = record.workerId ↔ value = record.workerId := by omega
  rw [mem_head, ← named]
  simp [ascii]

end EventRecord

end LeanDingdong
