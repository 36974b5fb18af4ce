import Dingdong.Utf8

/-!
The grammar of JSON texts in UTF-8, for texts without white space between their tokens and
numbers without fraction and exponent. A string is made of encoded characters and escapes.
-/

namespace JsonText

open String (utf8EncodeChar)

/-- A hexadecimal digit. -/
def HexDigit (byte : UInt8) : Prop :=
  (48 ≤ byte ∧ byte ≤ 57) ∨ (65 ≤ byte ∧ byte ≤ 70) ∨ (97 ≤ byte ∧ byte ≤ 102)

instance (byte : UInt8) : Decidable (HexDigit byte) := inferInstanceAs (Decidable (_ ∨ _))

/-- The characters of a string. -/
inductive Chars : List UInt8 → Prop
  | nil : Chars []
  | plain (char : Char) {rest : List UInt8} : 32 ≤ char.toNat → char ≠ '"' → char ≠ '\\' →
      Chars rest → Chars (utf8EncodeChar char ++ rest)
  | short (byte : UInt8) {rest : List UInt8} : byte ∈ [34, 92, 47, 98, 102, 110, 114, 116] →
      Chars rest → Chars (92 :: byte :: rest)
  | unicode {digits rest : List UInt8} : digits.length = 4 → (∀ byte ∈ digits, HexDigit byte) →
      Chars rest → Chars (92 :: 117 :: (digits ++ rest))

/-- A string. -/
def Quoted (bytes : List UInt8) : Prop := ∃ chars, Chars chars ∧ bytes = 34 :: (chars ++ [34])

/-- Digits without a leading zero. -/
def Digits (bytes : List UInt8) : Prop :=
  bytes ≠ [] ∧ (∀ byte ∈ bytes, 48 ≤ byte ∧ byte ≤ 57) ∧ (bytes.head? = some 48 → bytes = [48])

/-- A whole number. -/
def Number (bytes : List UInt8) : Prop :=
  Digits bytes ∨ ∃ digits, Digits digits ∧ bytes = 45 :: digits

mutual

/-- A value. -/
inductive Value : List UInt8 → Prop
  | null : Value [110, 117, 108, 108]
  | true : Value [116, 114, 117, 101]
  | false : Value [102, 97, 108, 115, 101]
  | number {bytes : List UInt8} : Number bytes → Value bytes
  | string {bytes : List UInt8} : Quoted bytes → Value bytes
  | noItems : Value [91, 93]
  | array {items : List UInt8} : Items items → Value (91 :: (items ++ [93]))
  | noMembers : Value [123, 125]
  | object {members : List UInt8} : Members members → Value (123 :: (members ++ [125]))

/-- Values with commas between them. -/
inductive Items : List UInt8 → Prop
  | last {value : List UInt8} : Value value → Items value
  | more {value rest : List UInt8} : Value value → Items rest → Items (value ++ 44 :: rest)

/-- Names and values with commas between them. -/
inductive Members : List UInt8 → Prop
  | last {key value : List UInt8} : Quoted key → Value value → Members (key ++ 58 :: value)
  | more {key value rest : List UInt8} : Quoted key → Value value → Members rest →
      Members (key ++ 58 :: (value ++ 44 :: rest))

end

end JsonText
