import Mathlib.Data.List.Basic

/-!
Texts as the bytes of their characters. A front of an encoded text is one itself exactly
when it ends where a character does, which the byte behind it tells.
-/

namespace Utf8

open String (utf8EncodeChar)

/-- The UTF-8 encoding of a text. -/
def encode (text : List Char) : List UInt8 := text.flatMap utf8EncodeChar

/-- The bytes are the encoding of a text. -/
def Valid (bytes : List UInt8) : Prop := ∃ text, encode text = bytes

@[simp] theorem encode_nil : encode [] = [] := rfl

theorem encode_cons (char : Char) (text : List Char) :
    encode (char :: text) = utf8EncodeChar char ++ encode text := List.flatMap_cons

theorem encode_append (first second : List Char) :
    encode (first ++ second) = encode first ++ encode second := List.flatMap_append

theorem valid_nil : Valid [] := ⟨[], rfl⟩

section Chars

variable {char other : Char} {bytes rest : List UInt8}

/-- No character's encoding is the front of another's. -/
theorem encodeChar_inj (same : utf8EncodeChar char ++ bytes = utf8EncodeChar other ++ rest) :
    char = other := by
  have decoded := congrArg (fun list => list.toByteArray.utf8DecodeChar? 0) same
  simp only [List.toByteArray_append, ByteArray.utf8DecodeChar?_utf8EncodeChar_append] at decoded
  exact Option.some.inj decoded

theorem valid_cons : Valid (utf8EncodeChar char ++ bytes) ↔ Valid bytes := by
  constructor
  · rintro ⟨text, same⟩
    cases text with
    | nil => simp at same
    | cons other text =>
        rw [encode_cons] at same
        obtain rfl := encodeChar_inj same
        exact ⟨text, List.append_cancel_left same⟩
  · rintro ⟨text, rfl⟩
    exact ⟨char :: text, encode_cons char text⟩

theorem encodeChar_getElem {index : Nat} (inside : index < (utf8EncodeChar char).length) :
    ((utf8EncodeChar char)[index]).IsUTF8FirstByte ↔ index = 0 :=
  UInt8.isUTF8FirstByte_getElem_utf8EncodeChar

/-- A part of a character is no text. -/
theorem not_valid_part {count : Nat} (some : 0 < count) (part : count < (utf8EncodeChar char).length) :
    ¬ Valid ((utf8EncodeChar char).take count) := by
  rintro ⟨text, same⟩
  have length := congrArg List.length same
  rw [List.length_take, Nat.min_eq_left (Nat.le_of_lt part)] at length
  cases text with
  | nil =>
      rw [encode_nil, List.length_nil] at length
      omega
  | cons other text =>
      rw [encode_cons] at same
      have whole : utf8EncodeChar char ++ [] =
          utf8EncodeChar other ++ (encode text ++ (utf8EncodeChar char).drop count) := by
        rw [← List.append_assoc, same, List.take_append_drop, List.append_nil]
      obtain rfl := encodeChar_inj whole
      rw [encode_cons, List.length_append] at length
      omega

/-- A character is a byte below 128, or all of its bytes are 128 or more. -/
theorem encodeChar_cases (char : Char) :
    (char.toNat < 128 ∧ utf8EncodeChar char = [char.val.toUInt8]) ∨
      (128 ≤ char.toNat ∧ ∀ byte ∈ utf8EncodeChar char, 128 ≤ byte) := by
  have marked (low : UInt8) {mark : UInt8} (high : 128 ≤ mark) : 128 ≤ low ||| mark := by
    rw [UInt8.le_iff_toNat_le] at high ⊢
    rw [UInt8.toNat_or]
    exact Nat.le_trans high Nat.right_le_or
  have wide (size : char.utf8Size ≠ 1) : 128 ≤ char.toNat := by
    rw [Ne, Char.utf8Size_eq_one_iff, UInt32.le_iff_toNat_le] at size
    exact Nat.lt_of_not_le size
  rcases char.utf8Size_eq with size | size | size | size
  · refine .inl ⟨?_, String.utf8EncodeChar_eq_singleton size⟩
    rw [Char.utf8Size_eq_one_iff, UInt32.le_iff_toNat_le] at size
    exact Nat.lt_succ_of_le size
  · refine .inr ⟨wide (by omega), ?_⟩
    rw [String.utf8EncodeChar_eq_cons_cons size]
    simp [marked]
  · refine .inr ⟨wide (by omega), ?_⟩
    rw [String.utf8EncodeChar_eq_cons_cons_cons size]
    simp [marked]
  · refine .inr ⟨wide (by omega), ?_⟩
    rw [String.utf8EncodeChar_eq_cons_cons_cons_cons size]
    simp [marked]

theorem toUInt8_toNat (low : char.toNat < 128) : char.val.toUInt8.toNat = char.toNat := by
  rw [UInt32.toNat_toUInt8]
  exact Nat.mod_eq_of_lt (show char.toNat < 2 ^ 8 by omega)

end Chars

/-- Bytes below 128 are characters of their own. -/
theorem valid_ascii {bytes : List UInt8} (small : ∀ byte ∈ bytes, byte < 128) : Valid bytes := by
  induction bytes with
  | nil => exact valid_nil
  | cons byte bytes ih =>
      have here : (Char.ofUInt8 byte).toNat = byte.toNat := UInt8.toNat_toUInt32 byte
      have single : utf8EncodeChar (Char.ofUInt8 byte) = [byte] := by
        rcases encodeChar_cases (Char.ofUInt8 byte) with ⟨_, single⟩ | ⟨large, _⟩
        · rw [single]
          exact congrArg (fun value => [value]) (UInt8.toUInt8_toUInt32 byte)
        · have low := UInt8.lt_iff_toNat_lt.mp (small byte List.mem_cons_self)
          rw [here] at large
          exact absurd low (Nat.not_lt.mpr large)
      rw [← List.singleton_append, ← single, valid_cons]
      exact ih fun other member => small other (List.mem_cons_of_mem _ member)

/-- A front of a text is a text if and only if the byte behind it starts a character. -/
theorem valid_take_iff {bytes : List UInt8} (valid : Valid bytes) (count : Nat) :
    Valid (bytes.take count) ↔ ∀ byte ∈ bytes[count]?, byte.IsUTF8FirstByte := by
  obtain ⟨text, rfl⟩ := valid
  induction text generalizing count with
  | nil => simp [valid_nil]
  | cons char text ih =>
      rw [encode_cons]
      rcases Nat.lt_or_ge count (utf8EncodeChar char).length with inside | behind
      · rw [List.take_append_of_le_length (Nat.le_of_lt inside), List.getElem?_append_left inside,
          List.getElem?_eq_getElem inside]
        rcases Nat.eq_zero_or_pos count with rfl | some
        · simp [valid_nil]
        · refine iff_of_false (not_valid_part some inside) fun first => ?_
          have start := (encodeChar_getElem inside).mp (first _ rfl)
          omega
      · rw [List.take_append, List.take_of_length_le behind, valid_cons, ih,
          List.getElem?_append_right behind]

end Utf8
