import Dingdong.Substrings
import Dingdong.Util

/-!
The text `cJSON_PrintUnformatted` makes of an object whose members are strings and
integers below 10^15, and what a search for `"key":digits` finds in it. No string
value can contain the search text: its quotes are escaped.
-/

namespace LeanDingdong

open Substrings

inductive JsonValue where
  | number (value : Int)
  | text (value : Bytes)
  deriving DecidableEq

structure Member where
  key : Bytes
  value : JsonValue
  deriving DecidableEq

/-- One byte of a string as `print_string_ptr` writes it. -/
def escapeByte (byte : UInt8) : Bytes :=
  if byte = 34 then ascii "\\\""
  else if byte = 92 then ascii "\\\\"
  else if byte = 8 then ascii "\\b"
  else if byte = 12 then ascii "\\f"
  else if byte = 10 then ascii "\\n"
  else if byte = 13 then ascii "\\r"
  else if byte = 9 then ascii "\\t"
  else if byte < 32 then ascii "\\u00" ++ hexByte byte
  else [byte]

def escapeText (text : Bytes) : Bytes := text.flatMap escapeByte

def printString (text : Bytes) : Bytes := 34 :: (escapeText text ++ [34])

def printValue : JsonValue → Bytes
  | .number value => signedDecimal value
  | .text value => printString value

def printMember (member : Member) : Bytes := printString member.key ++ 58 :: printValue member.value

/-- The members after the opening brace, each with the comma or brace that follows it. -/
def separated : List Member → List (Member × UInt8)
  | [] => []
  | [member] => [(member, 125)]
  | member :: next :: rest => (member, 44) :: separated (next :: rest)

def printParts (parts : List (Member × UInt8)) : Bytes :=
  parts.flatMap fun part => printMember part.1 ++ [part.2]

/-- `cJSON_PrintUnformatted` of an object with members. -/
def printUnformatted (members : List Member) : Bytes := 123 :: printParts (separated members)

@[simp] theorem printParts_cons (part : Member × UInt8) (parts : List (Member × UInt8)) :
    printParts (part :: parts) = printMember part.1 ++ part.2 :: printParts parts := by
  simp [printParts]

theorem separated_members (members : List Member) : (separated members).map Prod.fst = members := by
  induction members using separated.induct with
  | case1 => rfl
  | case2 member => rfl
  | case3 member next rest ih => simp [separated, ih]

/-- The bytes that may follow a member. -/
def separators : Bytes := ascii ",\x7d"

theorem separated_separators {members : List Member} :
    ∀ part ∈ separated members, part.2 ∈ separators := by
  induction members using separated.induct with
  | case1 => simp [separated]
  | case2 member =>
      intro part present
      rw [List.mem_singleton.mp present]
      show (125 : UInt8) ∈ separators
      decide
  | case3 member next rest ih =>
      intro part present
      rcases List.mem_cons.mp present with rfl | later
      · show (44 : UInt8) ∈ separators
        decide
      · exact ih part later

theorem separated_snoc (members : List Member) (last : Member) :
    separated (members ++ [last]) = members.map (·, 44) ++ [(last, 125)] := by
  induction members with
  | nil => rfl
  | cons member members ih =>
      cases members with
      | nil => rfl
      | cons next rest => simpa [separated] using ih

/-- Printed text holds no control character. -/
def Printable (byte : UInt8) : Prop := 32 ≤ byte

instance (byte : UInt8) : Decidable (Printable byte) := inferInstanceAs (Decidable (_ ≤ _))

theorem hexByte_printable {value : UInt8} : ∀ byte ∈ hexByte value, Printable byte := by
  have digit (value : Nat) : Printable (hexDigit value) :=
    (by decide : ∀ byte ∈ hexDigits, Printable byte) _ (hexDigit_mem value)
  simp [hexByte, digit]

/-- The escapes of one letter. -/
def shortEscapes : List Bytes :=
  [ascii "\\\"", ascii "\\\\", ascii "\\b", ascii "\\f", ascii "\\n", ascii "\\r", ascii "\\t"]

/-- A byte has a short escape, a numeric one, or stands for itself. -/
theorem escapeByte_cases (byte : UInt8) :
    escapeByte byte ∈ shortEscapes ∨ escapeByte byte = ascii "\\u00" ++ hexByte byte ∨
      escapeByte byte = [byte] ∧ (byte ≠ 34 ∧ byte ≠ 92) ∧ Printable byte := by
  rw [escapeByte]
  split_ifs with quote escape _ _ _ _ _ small
  iterate 7 exact .inl (by decide)
  · exact .inr (.inl rfl)
  · exact .inr (.inr ⟨rfl, ⟨quote, escape⟩, UInt8.not_lt.mp small⟩)

theorem escapeByte_printable {symbol : UInt8} : ∀ byte ∈ escapeByte symbol, Printable byte := by
  rcases escapeByte_cases symbol with short | unicode | ⟨plain, _, visible⟩
  · exact (by decide : ∀ text ∈ shortEscapes, ∀ byte ∈ text, Printable byte) _ short
  · rw [unicode]
    intro byte member
    rcases List.mem_append.mp member with start | digits
    · exact (by decide : ∀ byte ∈ ascii "\\u00", Printable byte) byte start
    · exact hexByte_printable byte digits
  · rw [plain]
    intro byte member
    rw [List.mem_singleton.mp member]
    exact visible

theorem numeric_printable {byte : UInt8} (numeric : Numeric byte) : Printable byte :=
  (by decide : ∀ byte ∈ ascii "-0123456789", Printable byte) byte numeric

theorem escapeText_printable {text : Bytes} : ∀ byte ∈ escapeText text, Printable byte := by
  intro byte member
  obtain ⟨symbol, _, inside⟩ := List.mem_flatMap.mp member
  exact escapeByte_printable byte inside

theorem printString_printable {text : Bytes} : ∀ byte ∈ printString text, Printable byte := by
  intro byte member
  simp only [printString, List.mem_cons, List.mem_append, List.not_mem_nil, or_false] at member
  rcases member with rfl | inside | rfl
  · decide
  · exact escapeText_printable byte inside
  · decide

theorem printMember_printable {member : Member} : ∀ byte ∈ printMember member, Printable byte := by
  intro byte inside
  rcases List.mem_append.mp inside with key | value
  · exact printString_printable byte key
  · rcases List.mem_cons.mp value with rfl | value
    · decide
    · cases same : member.value with
      | number number =>
          rw [same] at value
          exact numeric_printable (signedDecimal_numeric byte value)
      | text text =>
          rw [same] at value
          exact printString_printable byte value

theorem printUnformatted_printable {members : List Member} :
    ∀ byte ∈ printUnformatted members, Printable byte := by
  intro byte inside
  rcases List.mem_cons.mp inside with rfl | inside
  · decide
  · obtain ⟨part, present, inside⟩ := List.mem_flatMap.mp inside
    rcases List.mem_append.mp inside with text | stop
    · exact printMember_printable byte text
    · rw [List.mem_singleton.mp stop]
      exact (by decide : ∀ byte ∈ separators, Printable byte) _ (separated_separators part present)

theorem escapeByte_length (byte : UInt8) : (escapeByte byte).length ≤ 6 := by
  rcases escapeByte_cases byte with short | unicode | ⟨plain, _, _⟩
  · exact (by decide : ∀ text ∈ shortEscapes, text.length ≤ 6) _ short
  · rw [unicode]
    exact le_of_eq rfl
  · rw [plain]
    exact (by decide : 1 ≤ 6)

theorem escapeText_length (text : Bytes) : (escapeText text).length ≤ 6 * text.length := by
  induction text with
  | nil => simp [escapeText]
  | cons byte text ih =>
      have first := escapeByte_length byte
      simp only [escapeText] at ih
      simp only [escapeText, List.flatMap_cons, List.length_append, List.length_cons]
      omega

theorem signedDecimal_length {value : Int} {size : Nat} (positive : 0 < size)
    (bound : value.natAbs < 10 ^ size) : (signedDecimal value).length ≤ size + 1 := by
  have digits := decimal_length_le positive bound
  have sign : (ascii "-").length = 1 := rfl
  rw [signedDecimal]
  split
  · rw [List.length_append]
    omega
  · omega

section Search

/-- The quotes inside an escaped text are escaped. -/
theorem escapeByte_escaped (byte : UInt8) : QuotesEscaped 34 92 (34 :: escapeByte byte) := by
  unfold QuotesEscaped
  rcases escapeByte_cases byte with short | unicode | ⟨plain, ⟨quote, _⟩, _⟩
  · exact (by decide : ∀ text ∈ shortEscapes,
      (34 :: text).IsChain fun before symbol => symbol = 34 → before = 92) _ short
  · have free : ∀ digit ∈ hexDigits, digit ≠ 34 := by decide
    have first := free _ (hexDigit_mem (byte.toNat / 16))
    have second := free _ (hexDigit_mem (byte.toNat % 16))
    rw [unicode]
    simp [ascii, hexByte, first, second]
  · rw [plain]
    simp [quote]

theorem escapeText_escaped (text : Bytes) : QuotesEscaped 34 92 (34 :: escapeText text) := by
  induction text with
  | nil => simp [QuotesEscaped, escapeText]
  | cons byte text ih =>
      have split : (34 : UInt8) :: escapeText (byte :: text) =
          (34 :: escapeByte byte) ++ escapeText text := by simp [escapeText]
      rw [split, QuotesEscaped, List.isChain_append]
      refine ⟨escapeByte_escaped byte, ih.tail, ?_⟩
      -- no escaped byte starts with a quote
      intro last _ first isFirst same
      subst same
      cases rest : escapeText text with
      | nil => simp [rest] at isFirst
      | cons head rest' =>
          rw [rest] at isFirst
          simp only [List.head?_cons, Option.mem_def, Option.some.injEq] at isFirst
          subst isFirst
          rw [QuotesEscaped, rest, List.isChain_cons_cons] at ih
          exact absurd (ih.1 rfl) (by decide)

/-- A member name as the sources use them: letters and underscores. -/
structure PlainKey (key : Bytes) : Prop where
  nonempty : key ≠ []
  plain : ∀ byte ∈ key, byte ∈ ascii "abcdefghijklmnopqrstuvwxyz_"

theorem PlainKey.not_mem {key : Bytes} (plain : PlainKey key) {byte : UInt8}
    (other : byte ∉ ascii "abcdefghijklmnopqrstuvwxyz_") : byte ∉ key :=
  fun member => other (plain.plain byte member)

theorem PlainKey.escape {key : Bytes} (plain : PlainKey key) : escapeText key = key := by
  have single : ∀ byte ∈ ascii "abcdefghijklmnopqrstuvwxyz_", escapeByte byte = [byte] := by decide
  have letters := plain.plain
  clear plain
  induction key with
  | nil => rfl
  | cons byte key ih =>
      have rest := ih fun other member => letters other (by simp [member])
      simp only [escapeText] at rest
      simp [escapeText, single byte (letters byte (by simp)), rest]

/-- What the deletes search for: `"key":digits`. -/
def keyNeedle (key digits : Bytes) : Bytes := 34 :: (key ++ 34 :: 58 :: digits)

theorem keyNeedle_ne_nil (key digits : Bytes) : keyNeedle key digits ≠ [] := List.cons_ne_nil _ _

variable {key digits : Bytes}

/-- The colon and number after a key hold no quote and do not continue one. -/
theorem strstr_skip_number (plain : PlainKey key) (value : Int) {stop : UInt8}
    (separator : stop ∈ separators) (rest : Bytes) :
    strstr (keyNeedle key digits) (34 :: 58 :: (signedDecimal value ++ stop :: rest)) =
      strstr (keyNeedle key digits) rest := by
  obtain ⟨first, name, keyEq⟩ := List.exists_cons_of_ne_nil plain.nonempty
  have notColon : first ≠ 58 := by
    rintro rfl
    have colonFree : (58 : UInt8) ∉ key := plain.not_mem (by decide)
    exact colonFree (by simp [keyEq])
  rw [keyNeedle, strstr_skip_quote (by rw [keyEq]; exact not_prefix_of_head notColon)]
  have free : (34 : UInt8) ∉ 58 :: (signedDecimal value ++ [stop]) := by
    simp only [List.mem_cons, List.mem_append, List.not_mem_nil, or_false, not_or]
    refine ⟨by decide, fun member => ?_, ?_⟩
    · exact absurd (signedDecimal_numeric _ member) (by decide)
    · exact (by decide : ∀ byte ∈ separators, 34 ≠ byte) stop separator
  have split : 58 :: (signedDecimal value ++ stop :: rest) =
      (58 :: (signedDecimal value ++ [stop])) ++ rest := by simp
  rw [split, strstr_skip_free _ free]

/-- The colon and string after a key are passed over, escaped quotes and all. -/
theorem strstr_skip_string (plain : PlainKey key) (value : Bytes) {stop : UInt8}
    (separator : stop ∈ separators) (rest : Bytes) :
    strstr (keyNeedle key digits) (34 :: 58 :: (printString value ++ stop :: rest)) =
      strstr (keyNeedle key digits) rest := by
  obtain ⟨first, name, keyEq⟩ := List.exists_cons_of_ne_nil plain.nonempty
  have notColon : first ≠ 58 := by
    rintro rfl
    have colonFree : (58 : UInt8) ∉ key := plain.not_mem (by decide)
    exact colonFree (by simp [keyEq])
  have quoteFree : (34 : UInt8) ∉ key := plain.not_mem (by decide)
  have escapeFree : (92 : UInt8) ∉ key := plain.not_mem (by decide)
  have stopFacts := (by decide : ∀ byte ∈ separators,
    byte ∉ ascii "abcdefghijklmnopqrstuvwxyz_" ∧ 58 ≠ byte ∧ byte ≠ 34) stop separator
  have escaped := escapeText_escaped value
  have split : 58 :: (printString value ++ stop :: rest) =
      [58] ++ 34 :: (escapeText value ++ 34 :: stop :: rest) := by simp [printString]
  rw [keyNeedle, strstr_skip_quote (by rw [keyEq]; exact not_prefix_of_head notColon), split,
    strstr_skip_free _ (by decide),
    strstr_skip_quote (not_prefix_escaped plain.nonempty quoteFree escapeFree stopFacts.2.1 escaped),
    strstr_skip_escaped plain.nonempty quoteFree escapeFree (plain.not_mem stopFacts.1)
      stopFacts.2.1 stopFacts.2.2 escaped.tail]

/-- The value of a member is passed over whatever it is. -/
theorem strstr_skip_value (plain : PlainKey key) (value : JsonValue) {stop : UInt8}
    (separator : stop ∈ separators) (rest : Bytes) :
    strstr (keyNeedle key digits) (34 :: 58 :: (printValue value ++ stop :: rest)) =
      strstr (keyNeedle key digits) rest := by
  cases value with
  | number value => exact strstr_skip_number plain value separator rest
  | text value => exact strstr_skip_string plain value separator rest

theorem printMember_plain {member : Member} (plain : PlainKey member.key) (rest : Bytes) :
    printMember member ++ rest =
      34 :: (member.key ++ 34 :: 58 :: (printValue member.value ++ rest)) := by
  simp [printMember, printString, plain.escape]

/-- A member is passed over unless it starts with the needle. -/
theorem strstr_skip_member (plain : PlainKey key) {member : Member}
    (memberPlain : PlainKey member.key) {stop : UInt8} (separator : stop ∈ separators)
    {rest : Bytes}
    (absent : ¬ keyNeedle key digits <+: printMember member ++ stop :: rest) :
    strstr (keyNeedle key digits) (printMember member ++ stop :: rest) =
      strstr (keyNeedle key digits) rest := by
  rw [printMember_plain memberPlain] at absent ⊢
  rw [strstr_skip absent, keyNeedle, strstr_skip_free _ (memberPlain.not_mem (by decide))]
  exact strstr_skip_value plain member.value separator rest

/-- A member starts with the needle exactly when it has the key and its value starts
with the digits. -/
theorem keyNeedle_prefix_member (plain : PlainKey key) {member : Member}
    (memberPlain : PlainKey member.key) (rest : Bytes) :
    keyNeedle key digits <+: printMember member ++ rest ↔
      key = member.key ∧ digits <+: printValue member.value ++ rest := by
  rw [printMember_plain memberPlain, keyNeedle, List.cons_prefix_cons, and_iff_right rfl,
    prefix_through_quote (plain.not_mem (by decide)) (memberPlain.not_mem (by decide)),
    List.cons_prefix_cons, and_iff_right rfl]

/-- Members of other names are passed over. -/
theorem strstr_skip_parts (plain : PlainKey key) {parts : List (Member × UInt8)} {rest : Bytes}
    (plains : ∀ part ∈ parts, PlainKey part.1.key) (seps : ∀ part ∈ parts, part.2 ∈ separators)
    (others : ∀ part ∈ parts, part.1.key ≠ key) :
    strstr (keyNeedle key digits) (printParts parts ++ rest) =
      strstr (keyNeedle key digits) rest := by
  induction parts with
  | nil => rfl
  | cons part parts ih =>
      have first : part ∈ part :: parts := List.mem_cons_self
      have absent : ¬ keyNeedle key digits <+:
          printMember part.1 ++ part.2 :: (printParts parts ++ rest) := by
        rw [keyNeedle_prefix_member plain (plains part first)]
        exact fun named => others part first named.1.symm
      rw [printParts_cons, List.append_assoc, List.cons_append,
        strstr_skip_member plain (plains part first) (seps part first) absent]
      exact ih (fun other present => plains other (List.mem_cons_of_mem _ present))
        (fun other present => seps other (List.mem_cons_of_mem _ present))
        fun other present => others other (List.mem_cons_of_mem _ present)

/-- The character after the first match, `m[needle_len]`; NUL at the end of the text. -/
def afterMatch (needle text : Bytes) : Option UInt8 :=
  (strstr needle text).map fun found => (found.drop needle.length).headD 0

/-- Whether the first match is followed by one of the given characters. -/
def matchedBy (needle stops text : Bytes) : Bool :=
  (afterMatch needle text).any fun after => stops.contains after

/-- On complete members with distinct plain names, followed by text the needle does
not occur in, the first match ends its number exactly when a member of that name
holds that number. -/
theorem matchedBy_members (plain : PlainKey key) {value : Int} {stops : Bytes}
    (stopsSeparators : ∀ byte ∈ separators, byte ∈ stops) (stopsEnd : ∀ byte ∈ stops, ¬ Numeric byte)
    {parts : List (Member × UInt8)} {rest : Bytes}
    (plains : ∀ part ∈ parts, PlainKey part.1.key)
    (seps : ∀ part ∈ parts, part.2 ∈ separators)
    (distinct : (parts.map fun part => part.1.key).Nodup)
    (numbers : ∀ part ∈ parts, part.1.key = key → ∃ number, part.1.value = .number number)
    (absent : strstr (keyNeedle key (signedDecimal value)) rest = none) :
    matchedBy (keyNeedle key (signedDecimal value)) stops (printParts parts ++ rest) = true ↔
      ∃ part ∈ parts, part.1 = { key := key, value := .number value } := by
  induction parts with
  | nil => simp [printParts, matchedBy, afterMatch, absent]
  | cons part parts ih =>
      have separator := seps part (by simp)
      have memberPlain := plains part (by simp)
      rw [List.map_cons, List.nodup_cons] at distinct
      have later := ih (fun other present => plains other (by simp [present]))
        (fun other present => seps other (by simp [present])) distinct.2
        (fun other present => numbers other (by simp [present]))
      rw [printParts_cons, List.append_assoc, List.cons_append]
      by_cases here : keyNeedle key (signedDecimal value) <+:
          printMember part.1 ++ part.2 :: (printParts parts ++ rest)
      · -- the first match is this member: compare the digits up to their end
        have names := (keyNeedle_prefix_member plain memberPlain _).mp here
        obtain ⟨number, valueEq⟩ := numbers part (by simp) names.1.symm
        have only : ∀ other ∈ parts, other.1 ≠ { key := key, value := .number value } := by
          intro other present same
          exact distinct.1 (List.mem_map.mpr ⟨other, present, by rw [same, ← names.1]⟩)
        have tail : (printMember part.1 ++ part.2 :: (printParts parts ++ rest)).drop
            (keyNeedle key (signedDecimal value)).length =
              (signedDecimal number ++ part.2 :: (printParts parts ++ rest)).drop
                (signedDecimal value).length := by
          rw [printMember_plain memberPlain, keyNeedle, valueEq, ← names.1]
          simp [printValue, List.drop_append]
        have digitsPrefix := names.2
        rw [valueEq] at digitsPrefix
        rw [matchedBy, afterMatch, strstr_here (keyNeedle_ne_nil _ _) here]
        simp only [Option.map_some, Option.any_some, tail, List.contains_iff_mem]
        constructor
        · intro stopped
          refine ⟨part, by simp, ?_⟩
          obtain ⟨more, split⟩ := digitsPrefix
          rw [printValue] at split
          rw [← split, List.drop_left] at stopped
          cases more with
          | nil =>
              -- the separator would be one of the needle's digits
              have inside : part.2 ∈ signedDecimal value := by
                rw [List.append_nil] at split
                simp [split]
              exact absurd (signedDecimal_numeric _ inside)
                (stopsEnd part.2 (stopsSeparators part.2 separator))
          | cons stop more =>
              have ends := append_cons_inj Numeric signedDecimal_numeric
                (stopsEnd stop (by simpa using stopped)) signedDecimal_numeric
                (stopsEnd part.2 (stopsSeparators part.2 separator)) split
              have := signedDecimal_inj ends.1
              rw [this, names.1, ← valueEq]
        · rintro ⟨other, present, same⟩
          rcases List.mem_cons.mp present with rfl | present
          · have : number = value := by simpa [same] using valueEq.symm
            rw [this, List.drop_left]
            exact stopsSeparators _ separator
          · exact absurd same (only other present)
      · have skip := strstr_skip_member plain memberPlain separator here
        have notThis : part.1 ≠ { key := key, value := .number value } := by
          intro same
          apply here
          rw [keyNeedle_prefix_member plain memberPlain, same]
          exact ⟨rfl, List.prefix_append _ _⟩
        rw [matchedBy, afterMatch, skip]
        rw [matchedBy, afterMatch] at later
        rw [later]
        simp [notThis]

end Search

end LeanDingdong
