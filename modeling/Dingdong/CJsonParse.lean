import Dingdong.CJson

/-!
Reading printed objects back. `Json` stands for the printer and parser of `cJSON`;
`Faithful` says what the registry relies on. The printer of flat objects with a
parser for its own texts is one such pair.
-/

namespace LeanDingdong

/-- `cJSON_PrintUnformatted` and `cJSON_Parse` on objects of strings and integers. -/
structure Json where
  print : List Member → Bytes
  parse : Bytes → Option (List Member)

/-- Values that survive: C strings, and integers a double holds exactly. -/
def JsonValue.Kept : JsonValue → Prop
  | .number value => value.natAbs < 2 ^ 53
  | .text bytes => 0 ∉ bytes

/-- The bytes a value takes at most: six for each byte of a string, 25 for a number. -/
def JsonValue.room : JsonValue → Nat
  | .number _ => 25
  | .text bytes => 6 * bytes.length + 2

def Member.room (member : Member) : Nat := 6 * member.key.length + 4 + member.value.room

/-- Parsing a printed object gives back its members, and the text is no longer than
escapes of six bytes make it. -/
structure Json.Faithful (json : Json) : Prop where
  parse_print : ∀ members, (∀ member ∈ members, member.value.Kept) →
    json.parse (json.print members) = some members
  print_length : ∀ members, (∀ member ∈ members, member.value.Kept) →
    (json.print members).length ≤ 2 + (members.map Member.room).sum
  print_ne_nil : ∀ members, json.print members ≠ []

/-- `cJSON_GetObjectItem`, for names in lower case. -/
def getObjectItem (members : List Member) (key : Bytes) : Option JsonValue :=
  (members.find? fun member => member.key = key).map Member.value

/-- `valuestring` of a member that `cJSON_IsString`. -/
def getString (members : List Member) (key : Bytes) : Option Bytes :=
  match getObjectItem members key with
  | some (.text text) => some text
  | _ => none

/-- `valuedouble` of a member that `cJSON_IsNumber`. -/
def getNumber (members : List Member) (key : Bytes) : Option Int :=
  match getObjectItem members key with
  | some (.number number) => some number
  | _ => none

/-- Values the registry writes: C strings, and numbers that an `int64_t` holds. -/
def JsonValue.Stored : JsonValue → Prop
  | .number value => value.natAbs ≤ 2 ^ 63
  | .text bytes => 0 ∉ bytes

/-- Strings come back from any record as they were, numbers come back rounded to a double, and
the text is no longer than escapes of six bytes make it. -/
structure Json.KeepsTexts (json : Json) : Prop where
  parse_print : ∀ members, (∀ member ∈ members, member.value.Stored) →
    ∃ parsed, json.parse (json.print members) = some parsed ∧
      (∀ key, getString parsed key = getString members key) ∧
      ∀ key value, getNumber parsed key = some value → value.natAbs ≤ 2 ^ 63
  print_length : ∀ members, (∀ member ∈ members, member.value.Stored) →
    (json.print members).length ≤ 2 + (members.map Member.room).sum
  print_ne_nil : ∀ members, json.print members ≠ []

section Parse

/-- The byte a short escape stands for. -/
def unescapeByte (symbol : UInt8) : UInt8 :=
  if symbol = 98 then 8 else if symbol = 102 then 12 else if symbol = 110 then 10
  else if symbol = 114 then 13 else if symbol = 116 then 9 else symbol

/-- The text up to its closing quote, and what follows. -/
def parseText : Bytes → Option (Bytes × Bytes)
  | [] => none
  | byte :: rest =>
      if byte = 34 then some ([], rest)
      else if byte = 92 then
        match rest with
        | [] => none
        | symbol :: rest =>
            if symbol = 117 then
              match rest with
              | _ :: _ :: high :: low :: rest =>
                  match hexValue high, hexValue low with
                  | some high, some low =>
                      (parseText rest).map fun parsed =>
                        (UInt8.ofNat (16 * high + low) :: parsed.1, parsed.2)
                  | _, _ => none
              | _ => none
            else (parseText rest).map fun parsed => (unescapeByte symbol :: parsed.1, parsed.2)
      else (parseText rest).map fun parsed => (byte :: parsed.1, parsed.2)

def readDecimal (text : Bytes) : Nat :=
  Nat.ofDigits 10 (text.map fun byte => byte.toNat - 48).reverse

def readInteger (text : Bytes) : Int :=
  match text with
  | 45 :: digits => -(readDecimal digits : Int)
  | digits => readDecimal digits

def parseValue (text : Bytes) : Option (JsonValue × Bytes) :=
  match text with
  | 34 :: rest => (parseText rest).map fun parsed => (.text parsed.1, parsed.2)
  | text =>
      some (.number (readInteger (text.takeWhile fun byte => Numeric byte)),
        text.dropWhile fun byte => Numeric byte)

/-- One member with the colon inside and the separator after it. -/
def parseMember (text : Bytes) : Option (Member × Bytes) :=
  match text with
  | 34 :: rest =>
      match parseText rest with
      | some (key, 58 :: rest) =>
          match parseValue rest with
          | some (value, _ :: rest) => some ({ key := key, value := value }, rest)
          | _ => none
      | _ => none
  | _ => none

/-- The members up to the end of the text, at most `fuel` of them. -/
def parseMembers : Nat → Bytes → Option (List Member)
  | _, [] => some []
  | 0, _ :: _ => none
  | fuel + 1, text =>
      match parseMember text with
      | some (member, rest) => (parseMembers fuel rest).map (member :: ·)
      | none => none

/-- The object after its opening brace. -/
def parseUnformatted (text : Bytes) : Option (List Member) :=
  match text with
  | 123 :: rest => parseMembers rest.length rest
  | _ => none

theorem hexValue_hexDigit {value : Nat} (small : value < 16) :
    hexValue (hexDigit value) = some value := by
  interval_cases value <;> rfl

theorem ofNat_hexByte (byte : UInt8) :
    UInt8.ofNat (16 * (byte.toNat / 16) + byte.toNat % 16) = byte := by
  rw [Nat.div_add_mod]
  exact UInt8.ofNat_toNat

theorem parseText_quote (rest : Bytes) : parseText (34 :: rest) = some ([], rest) := by
  rw [parseText.eq_def]
  rfl

theorem parseText_plain {byte : UInt8} (quote : byte ≠ 34) (escape : byte ≠ 92) (rest : Bytes) :
    parseText (byte :: rest) =
      (parseText rest).map fun parsed => (byte :: parsed.1, parsed.2) := by
  rw [parseText.eq_def]
  simp only [if_neg quote, if_neg escape]

theorem parseText_short {symbol : UInt8} (short : symbol ≠ 117) (rest : Bytes) :
    parseText (92 :: symbol :: rest) =
      (parseText rest).map fun parsed => (unescapeByte symbol :: parsed.1, parsed.2) := by
  rw [parseText.eq_def]
  simp [short]

theorem parseText_unicode (byte : UInt8) (rest : Bytes) :
    parseText (ascii "\\u00" ++ hexByte byte ++ rest) =
      (parseText rest).map fun parsed => (byte :: parsed.1, parsed.2) := by
  have highSmall : byte.toNat / 16 < 16 := by
    have := byte.toNat_lt
    omega
  have lowSmall : byte.toNat % 16 < 16 := by omega
  have split : ascii "\\u00" ++ hexByte byte ++ rest = 92 :: 117 :: 48 :: 48 ::
      hexDigit (byte.toNat / 16) :: hexDigit (byte.toNat % 16) :: rest := rfl
  rw [split, parseText.eq_def]
  simp only [hexValue_hexDigit highSmall, hexValue_hexDigit lowSmall, ofNat_hexByte]
  rfl

/-- One escaped byte is read back, whatever follows. -/
theorem parseText_escapeByte (byte : UInt8) (rest : Bytes) :
    parseText (escapeByte byte ++ rest) =
      (parseText rest).map fun parsed => (byte :: parsed.1, parsed.2) := by
  rw [escapeByte]
  split_ifs with quote escape
  all_goals try subst byte
  iterate 7 exact parseText_short (by decide) rest
  · exact parseText_unicode byte rest
  · exact parseText_plain quote escape rest

theorem parseText_escapeText (text rest : Bytes) :
    parseText (escapeText text ++ 34 :: rest) = some (text, rest) := by
  induction text with
  | nil => exact parseText_quote rest
  | cons byte text ih =>
      rw [escapeText] at ih
      rw [escapeText, List.flatMap_cons, List.append_assoc, parseText_escapeByte, ih]
      rfl

theorem readDecimal_decimal (value : Nat) : readDecimal (decimal value) = value := by
  rw [readDecimal, decimal_digits, Decimal.ofDigits_digits]

theorem readInteger_signedDecimal (value : Int) : readInteger (signedDecimal value) = value := by
  rw [signedDecimal]
  split
  · rename_i negative
    show -(readDecimal (decimal value.natAbs) : Int) = value
    rw [readDecimal_decimal]
    omega
  · rename_i positive
    obtain ⟨digit, rest, split⟩ := List.exists_cons_of_ne_nil (decimal_ne_nil value.natAbs)
    have notMinus : digit ≠ 45 := by
      rintro rfl
      exact minus_not_mem_decimal value.natAbs (by rw [split]; rfl)
    have plain : readInteger (decimal value.natAbs) = readDecimal (decimal value.natAbs) := by
      rw [split]
      simp [readInteger, notMinus]
    rw [plain, readDecimal_decimal]
    omega

theorem span_numeric {number : Bytes} (numeric : ∀ byte ∈ number, Numeric byte) {stop : UInt8}
    (ends : ¬ Numeric stop) (rest : Bytes) :
    (number ++ stop :: rest).takeWhile (fun byte => Numeric byte) = number ∧
      (number ++ stop :: rest).dropWhile (fun byte => Numeric byte) = stop :: rest := by
  have all : ∀ byte ∈ number, decide (Numeric byte) = true := fun byte member => by
    simpa using numeric byte member
  constructor
  · rw [List.takeWhile_append_of_pos all]
    simp [ends]
  · rw [List.dropWhile_append_of_pos all]
    simp [ends]

theorem parseValue_printValue (value : JsonValue) {stop : UInt8} (separator : stop ∈ separators)
    (rest : Bytes) : parseValue (printValue value ++ stop :: rest) = some (value, stop :: rest) := by
  cases value with
  | text bytes =>
      rw [printValue, printString, List.cons_append, List.append_assoc, List.singleton_append]
      simp only [parseValue, parseText_escapeText, Option.map_some]
  | number number =>
      have ends : ¬ Numeric stop :=
        (by decide : ∀ byte ∈ separators, ¬ Numeric byte) stop separator
      have numeric : ∀ byte ∈ signedDecimal number, Numeric byte := signedDecimal_numeric
      obtain ⟨taken, dropped⟩ := span_numeric numeric ends rest
      rw [printValue, parseValue.eq_2, taken, dropped, readInteger_signedDecimal]
      -- a number does not start with a quote
      intro tail same
      cases digits : signedDecimal number with
      | nil =>
          rw [digits, List.nil_append, List.cons.injEq] at same
          exact absurd (same.1 ▸ separator) (by decide)
      | cons digit more =>
          rw [digits, List.cons_append, List.cons.injEq] at same
          exact absurd (same.1 ▸ numeric digit (by simp [digits])) (by decide)

theorem parseMember_printMember (member : Member) {stop : UInt8} (separator : stop ∈ separators)
    (rest : Bytes) : parseMember (printMember member ++ stop :: rest) = some (member, rest) := by
  have split : printMember member ++ stop :: rest =
      34 :: (escapeText member.key ++ 34 :: 58 :: (printValue member.value ++ stop :: rest)) := by
    simp [printMember, printString]
  rw [split]
  simp only [parseMember, parseText_escapeText, parseValue_printValue member.value separator]

theorem parseMembers_printParts {parts : List (Member × UInt8)} {fuel : Nat}
    (enough : parts.length ≤ fuel) (seps : ∀ part ∈ parts, part.2 ∈ separators) :
    parseMembers fuel (printParts parts) = some (parts.map Prod.fst) := by
  induction parts generalizing fuel with
  | nil => cases fuel <;> rfl
  | cons part parts ih =>
      obtain ⟨fuel, rfl⟩ : ∃ less, fuel = less + 1 := ⟨fuel - 1, by
        rw [List.length_cons] at enough
        omega⟩
      have later := ih (by simpa using enough) fun other present => seps other (by simp [present])
      have first := parseMember_printMember part.1 (seps part (by simp)) (printParts parts)
      rw [printParts_cons]
      cases text : printMember part.1 ++ part.2 :: printParts parts with
      | nil => simp at text
      | cons byte tail =>
          rw [text] at first
          simp only [parseMembers, first, later, Option.map_some, List.map_cons]

theorem printParts_count (parts : List (Member × UInt8)) :
    parts.length ≤ (printParts parts).length := by
  induction parts with
  | nil => exact Nat.le_refl _
  | cons part parts ih =>
      simp only [printParts_cons, List.length_append, List.length_cons]
      omega

/-- A printed object is read back member by member. -/
theorem parseUnformatted_printUnformatted (members : List Member) :
    parseUnformatted (printUnformatted members) = some members := by
  rw [printUnformatted, parseUnformatted,
    parseMembers_printParts (printParts_count _) separated_separators, separated_members]

/-- The printer of plain decimal integers with the parser for its texts. -/
def plainJson : Json := { print := printUnformatted, parse := parseUnformatted }

theorem printValue_room {value : JsonValue} (stored : value.Stored) :
    (printValue value).length ≤ value.room := by
  cases value with
  | text bytes =>
      have := escapeText_length bytes
      simp only [printValue, printString, JsonValue.room, List.length_cons, List.length_append,
        List.length_nil]
      omega
  | number number =>
      rw [JsonValue.Stored] at stored
      have length := @signedDecimal_length number 19 (by decide) (by omega)
      rw [printValue, JsonValue.room]
      omega

theorem printParts_room {parts : List (Member × UInt8)}
    (stored : ∀ part ∈ parts, part.1.value.Stored) :
    (printParts parts).length ≤ ((parts.map Prod.fst).map Member.room).sum := by
  induction parts with
  | nil => exact Nat.le_refl _
  | cons part parts ih =>
      have later := ih fun other present => stored other (by simp [present])
      have value := printValue_room (stored part (by simp))
      have key := escapeText_length part.1.key
      simp only [printParts_cons, printMember, printString, List.length_append, List.length_cons,
        List.length_nil, List.map_cons, List.sum_cons, Member.room]
      omega

theorem printUnformatted_room {members : List Member}
    (stored : ∀ member ∈ members, member.value.Stored) :
    (printUnformatted members).length ≤ 2 + (members.map Member.room).sum := by
  have inside : ∀ part ∈ separated members, part.1.value.Stored := fun part present =>
    stored part.1 (by
      rw [← separated_members members]
      exact List.mem_map_of_mem present)
  have room := printParts_room inside
  rw [separated_members] at room
  rw [printUnformatted, List.length_cons]
  omega

theorem JsonValue.Kept.stored {value : JsonValue} (kept : value.Kept) : value.Stored := by
  cases value with
  | text bytes => exact kept
  | number number =>
      rw [JsonValue.Kept] at kept
      rw [JsonValue.Stored]
      omega

theorem plainJson_faithful : plainJson.Faithful where
  parse_print members _ := parseUnformatted_printUnformatted members
  print_length _ kept := printUnformatted_room fun member inside => (kept member inside).stored
  print_ne_nil _ := List.cons_ne_nil _ _

theorem plainJson_keepsTexts : plainJson.KeepsTexts where
  parse_print members stored := by
    refine ⟨members, parseUnformatted_printUnformatted members, fun _ => rfl, ?_⟩
    intro key value found
    rw [getNumber, getObjectItem] at found
    cases first : members.find? fun member => member.key = key with
    | none => simp [first] at found
    | some member =>
        have number : member.value = .number value := by
          obtain ⟨name, number | text⟩ := member
          · simpa [first] using found
          · simp [first] at found
        have held := stored member (List.mem_of_find?_eq_some first)
        rwa [number] at held
  print_length _ stored := printUnformatted_room stored
  print_ne_nil _ := List.cons_ne_nil _ _

end Parse

end LeanDingdong
