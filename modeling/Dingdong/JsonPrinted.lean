import Dingdong.JsonText
import Dingdong.JsonTree

/-!
What `cJSON` prints is a JSON text when the strings it prints are texts: the printer
copies bytes from 128 on as they are and does not look at what they encode.
-/

namespace LeanDingdong

open JsonText Utf8

section Strings

theorem hexByte_hexDigit (value : UInt8) : ∀ byte ∈ hexByte value, HexDigit byte := by
  have digit (value : Nat) : HexDigit (hexDigit value) :=
    (by decide : ∀ byte ∈ hexDigits, HexDigit byte) _ (hexDigit_mem value)
  simp [hexByte, digit]

theorem escapeByte_high {byte : UInt8} (high : 128 ≤ byte) : escapeByte byte = [byte] := by
  have apart {other : UInt8} (low : other < 128) : byte ≠ other := by
    rintro rfl
    exact absurd high (UInt8.not_le.mpr low)
  have shown : ¬ byte < 32 := UInt8.not_lt.mpr (UInt8.le_trans (by decide) high)
  rw [escapeByte, if_neg (apart (by decide)), if_neg (apart (by decide)), if_neg (apart (by decide)),
    if_neg (apart (by decide)), if_neg (apart (by decide)), if_neg (apart (by decide)),
    if_neg (apart (by decide)), if_neg shown]

/-- Bytes from 128 on are printed as they are. -/
theorem escapeText_high {bytes : Bytes} (high : ∀ byte ∈ bytes, 128 ≤ byte) :
    escapeText bytes = bytes :=
  (List.flatMap_congr fun byte member => escapeByte_high (high byte member)).trans
    (List.flatMap_singleton' bytes)

/-- The printed character of a text is a character of a string. -/
theorem chars_escape (char : Char) {rest : Bytes} (later : Chars rest) :
    Chars (escapeText (String.utf8EncodeChar char) ++ rest) := by
  rcases encodeChar_cases char with ⟨low, single⟩ | ⟨high, bytes⟩
  · rw [single, escapeText, List.flatMap_singleton]
    rcases escapeByte_cases char.val.toUInt8 with short | unicode | ⟨plain, ⟨quote, escape⟩, shown⟩
    · have letter := (by decide : ∀ text ∈ shortEscapes, text = [92, text.getD 1 0] ∧
        text.getD 1 0 ∈ [34, 92, 47, 98, 102, 110, 114, 116]) _ short
      rw [letter.1]
      exact .short _ letter.2 later
    · have digits : ∀ byte ∈ [48, 48] ++ hexByte char.val.toUInt8, HexDigit byte := by
        intro byte member
        rcases List.mem_append.mp member with zeros | hex
        · exact (by decide : ∀ byte ∈ [48, 48], HexDigit byte) byte zeros
        · exact hexByte_hexDigit _ byte hex
      rw [unicode]
      exact .unicode rfl digits later
    · have value := toUInt8_toNat low
      rw [plain, ← single]
      refine .plain char ?_ ?_ ?_ later
      · rw [← value]
        exact UInt8.le_iff_toNat_le.mp shown
      · rintro rfl
        exact quote rfl
      · rintro rfl
        exact escape rfl
  · rw [escapeText_high bytes]
    refine .plain char (by omega) ?_ ?_ later
    · rintro rfl
      exact absurd high (by decide)
    · rintro rfl
      exact absurd high (by decide)

theorem chars_escapeText (text : List Char) : Chars (escapeText (encode text)) := by
  induction text with
  | nil => exact .nil
  | cons char text ih =>
      rw [encode_cons, escapeText, List.flatMap_append]
      exact chars_escape char ih

theorem quoted_printString {bytes : Bytes} (valid : Valid bytes) : Quoted (printString bytes) := by
  obtain ⟨text, rfl⟩ := valid
  exact ⟨_, chars_escapeText text, rfl⟩

end Strings

section Numbers

theorem digits_decimal (value : Nat) : Digits (decimal value) := by
  refine ⟨decimal_ne_nil value, fun byte member => ?_, fun zero => ?_⟩
  · obtain ⟨digit, inside, rfl⟩ := List.mem_map.mp member
    have small := Decimal.digits_lt inside
    interval_cases digit <;> decide
  · rcases eq_or_ne value 0 with rfl | nonzero
    · rfl
    · rw [decimal, List.head?_map, Option.map_eq_some_iff] at zero
      obtain ⟨digit, first, same⟩ := zero
      have small := Decimal.digits_lt (List.mem_of_mem_head? first)
      have here : digit = 0 := by
        interval_cases digit <;> first | rfl | exact absurd same (by decide)
      exact absurd (here ▸ first) (Decimal.digits_head nonzero)

theorem number_signedDecimal (value : Int) : Number (signedDecimal value) := by
  rw [signedDecimal]
  split_ifs
  · exact .inr ⟨_, digits_decimal _, rfl⟩
  · exact .inl (digits_decimal _)

end Numbers

namespace JsonTree

mutual

/-- Every string of the tree, the names of members included, has the property. -/
def Texts (good : Bytes → Prop) : JsonTree → Prop
  | null => True
  | bool _ => True
  | number _ => True
  | text value => good value
  | array items => TextsItems good items
  | object members => TextsMembers good members

def TextsItems (good : Bytes → Prop) : List JsonTree → Prop
  | [] => True
  | item :: items => item.Texts good ∧ TextsItems good items

def TextsMembers (good : Bytes → Prop) : List (Bytes × JsonTree) → Prop
  | [] => True
  | (key, value) :: members => good key ∧ value.Texts good ∧ TextsMembers good members

end

section Mono

variable {good better : Bytes → Prop}

mutual

theorem texts_mono (implied : ∀ text, good text → better text) :
    ∀ tree : JsonTree, tree.Texts good → tree.Texts better
  | null, _ => trivial
  | bool _, _ => trivial
  | number _, _ => trivial
  | text value, here => implied value here
  | array items, texts => textsItems_mono implied items texts
  | object members, texts => textsMembers_mono implied members texts

theorem textsItems_mono (implied : ∀ text, good text → better text) :
    ∀ items : List JsonTree, TextsItems good items → TextsItems better items
  | [], _ => trivial
  | item :: items, texts => ⟨texts_mono implied item texts.1, textsItems_mono implied items texts.2⟩

theorem textsMembers_mono (implied : ∀ text, good text → better text) :
    ∀ members : List (Bytes × JsonTree), TextsMembers good members → TextsMembers better members
  | [], _ => trivial
  | (key, value) :: members, texts =>
      ⟨implied key texts.1, texts_mono implied value texts.2.1,
        textsMembers_mono implied members texts.2.2⟩

end

end Mono

mutual

/-- A tree of texts is printed as a JSON text. -/
theorem print_value : ∀ tree : JsonTree, tree.Texts Valid → Value tree.print
  | null, _ => .null
  | bool true, _ => .true
  | bool false, _ => .false
  | number value, _ => .number (number_signedDecimal value)
  | text _, valid => .string (quoted_printString valid)
  | array items, texts => by
      rw [print]
      rcases printItems_items items texts with rfl | ⟨printed, whole, same⟩
      · exact .noItems
      · rw [same]
        exact .array whole
  | object members, texts => by
      rw [print]
      rcases printMembers_members members texts with rfl | ⟨printed, whole, same⟩
      · exact .noMembers
      · rw [same]
        exact .object whole

theorem printItems_items : ∀ items : List JsonTree, TextsItems Valid items →
    items = [] ∨ ∃ printed, Items printed ∧ printItems items = printed ++ [93]
  | [], _ => .inl rfl
  | [item], texts => .inr ⟨_, .last (print_value item texts.1), by simp [printItems]⟩
  | item :: next :: items, texts => by
      rcases printItems_items (next :: items) texts.2 with none | ⟨printed, whole, same⟩
      · cases none
      · refine .inr ⟨_, .more (print_value item texts.1) whole, ?_⟩
        rw [printItems, same]
        simp

theorem printMembers_members : ∀ members : List (Bytes × JsonTree), TextsMembers Valid members →
    members = [] ∨ ∃ printed, Members printed ∧ printMembers members = printed ++ [125]
  | [], _ => .inl rfl
  | [(key, value)], texts =>
      .inr ⟨_, .last (quoted_printString texts.1) (print_value value texts.2.1),
        by simp [printMembers]⟩
  | (key, value) :: next :: members, texts => by
      rcases printMembers_members (next :: members) texts.2.2 with none | ⟨printed, whole, same⟩
      · cases none
      · refine .inr ⟨_, .more (quoted_printString texts.1) (print_value value texts.2.1) whole, ?_⟩
        rw [printMembers, same]
        simp

end

end JsonTree

end LeanDingdong
