import Mathlib.Data.List.TakeWhile
import Dingdong.Decimal

/-! Bytes, C strings, error codes and the address format shared by the components. -/

namespace LeanDingdong

abbrev Bytes := List UInt8

/-- A check of the bytes of a text goes through the text, not through all bytes. -/
instance (priority := high) decidableBytes {text : Bytes} {property : UInt8 → Prop}
    [DecidablePred property] : Decidable (∀ byte ∈ text, property byte) :=
  List.decidableBAll property text

/-- The codes of `esp_err_t` the components return. -/
inductive EspErr where
  | ok
  | fail
  | noMem
  | invalidArg
  | invalidState
  | invalidSize
  | notFound
  deriving DecidableEq, Repr

/-- The bytes of a string literal. -/
def ascii (text : String) : Bytes := text.toList.map fun char => UInt8.ofNat char.toNat

/-- What the string functions see of a buffer: the bytes before the first NUL. -/
def cstr (buffer : Bytes) : Bytes := buffer.takeWhile (· ≠ 0)

theorem cstr_of_noNul {buffer : Bytes} (noNul : 0 ∉ buffer) : cstr buffer = buffer := by
  apply List.takeWhile_eq_self_iff.mpr
  intro byte member
  simpa using fun zero : byte = 0 => noNul (zero ▸ member)

theorem cstr_noNul (text : Bytes) : 0 ∉ cstr text := by
  intro member
  have := List.mem_takeWhile_imp member
  simp at this

def hexDigits : Bytes := ascii "0123456789abcdef"

def hexDigit (value : Nat) : UInt8 := hexDigits.getD value 48

theorem hexDigit_mem (value : Nat) : hexDigit value ∈ hexDigits := by
  rw [hexDigit, List.getD_eq_getElem?_getD]
  cases found : hexDigits[value]? with
  | none => decide
  | some digit => exact List.mem_of_getElem? found

/-- `%02x` -/
def hexByte (byte : UInt8) : Bytes := [hexDigit (byte.toNat / 16), hexDigit (byte.toNat % 16)]

/-- `%u`, `%lld` of a number that is not negative -/
def decimal (value : Nat) : Bytes := (Decimal.digits value).map fun digit => UInt8.ofNat (48 + digit)

/-- `%lld` -/
def signedDecimal (value : Int) : Bytes :=
  if value < 0 then ascii "-" ++ decimal value.natAbs else decimal value.natAbs

/-- The bytes a printed number is made of. -/
def Numeric (byte : UInt8) : Prop := byte ∈ ascii "-0123456789"

instance (byte : UInt8) : Decidable (Numeric byte) := inferInstanceAs (Decidable (_ ∈ _))

theorem digit_numeric {digit : Nat} (small : digit < 10) : Numeric (UInt8.ofNat (48 + digit)) := by
  interval_cases digit <;> decide

theorem decimal_numeric {value : Nat} : ∀ byte ∈ decimal value, Numeric byte := by
  intro byte member
  obtain ⟨digit, inside, rfl⟩ := List.mem_map.mp member
  exact digit_numeric (Decimal.digits_lt inside)

theorem signedDecimal_numeric {value : Int} : ∀ byte ∈ signedDecimal value, Numeric byte := by
  intro byte member
  rw [signedDecimal] at member
  split at member
  · rcases List.mem_append.mp member with sign | digit
    · rw [List.mem_singleton.mp sign]
      decide
    · exact decimal_numeric byte digit
  · exact decimal_numeric byte member

theorem decimal_digits (value : Nat) :
    (decimal value).map (fun byte => byte.toNat - 48) = Decimal.digits value := by
  rw [decimal, List.map_map]
  refine (List.map_congr_left fun digit member => ?_).trans (List.map_id _)
  have small := Decimal.digits_lt member
  interval_cases digit <;> rfl

theorem decimal_inj {first second : Nat} (same : decimal first = decimal second) :
    first = second :=
  Decimal.digits_inj (by rw [← decimal_digits, ← decimal_digits, same])

theorem minus_not_mem_decimal (value : Nat) : ascii "-" ≠ (decimal value).take 1 := by
  intro same
  obtain ⟨digit, rest, split⟩ := List.exists_cons_of_ne_nil (Decimal.digits_ne_nil value)
  have first : digit ∈ Decimal.digits value := by simp [split]
  have small := Decimal.digits_lt first
  simp only [decimal, split, List.map_cons, List.take_succ_cons, List.take_zero] at same
  interval_cases digit <;> exact absurd same (by decide)

theorem signedDecimal_inj {first second : Int} (same : signedDecimal first = signedDecimal second) :
    first = second := by
  rw [signedDecimal, signedDecimal] at same
  split at same <;> split at same
  · have := decimal_inj (List.append_cancel_left same)
    omega
  · exact absurd (congrArg (List.take 1) same) (minus_not_mem_decimal _)
  · exact absurd (congrArg (List.take 1) same).symm (minus_not_mem_decimal _)
  · have := decimal_inj same
    omega

theorem decimal_length_le {value size : Nat} (positive : 0 < size) (bound : value < 10 ^ size) :
    (decimal value).length ≤ size := by
  rw [decimal, List.length_map]
  exact Decimal.digits_length_le positive bound

theorem decimal_ne_nil (value : Nat) : decimal value ≠ [] := by
  simpa [decimal] using Decimal.digits_ne_nil value

/-- A BLE address, `uint8_t[6]`. -/
structure Addr where
  byte0 : UInt8
  byte1 : UInt8
  byte2 : UInt8
  byte3 : UInt8
  byte4 : UInt8
  byte5 : UInt8
  deriving DecidableEq, Repr

/-- `dd_format_mac`: six `%02x` with colons between them. -/
def formatMac (addr : Addr) : Bytes :=
  hexByte addr.byte0 ++ ascii ":" ++ hexByte addr.byte1 ++ ascii ":" ++ hexByte addr.byte2 ++
    ascii ":" ++ hexByte addr.byte3 ++ ascii ":" ++ hexByte addr.byte4 ++ ascii ":" ++
      hexByte addr.byte5

theorem formatMac_length (addr : Addr) : (formatMac addr).length = 17 := by
  simp [formatMac, hexByte, ascii]

/-- What holds of the digits and the colon holds of all bytes of an address. -/
theorem formatMac_all {good : UInt8 → Prop} (digits : ∀ digit ∈ hexDigits, good digit)
    (colon : good 58) (addr : Addr) : ∀ byte ∈ formatMac addr, good byte := by
  have separator : ∀ byte ∈ ascii ":", good byte := by simpa [ascii] using colon
  have hex (value : UInt8) : ∀ byte ∈ hexByte value, good byte := by
    simp [hexByte, digits _ (hexDigit_mem _)]
  have more {front : Bytes} (all : ∀ byte ∈ front, good byte) (value : UInt8) :
      ∀ byte ∈ front ++ ascii ":" ++ hexByte value, good byte :=
    List.forall_mem_append.mpr ⟨List.forall_mem_append.mpr ⟨all, separator⟩, hex value⟩
  exact more (more (more (more (more (hex addr.byte0) _) _) _) _) _

theorem formatMac_noNul (addr : Addr) : 0 ∉ formatMac addr := by
  have digits : ∀ digit ∈ hexDigits, digit ≠ 0 := by decide
  intro member
  exact formatMac_all digits (by decide) addr 0 member rfl

def Addr.zero : Addr := ⟨0, 0, 0, 0, 0, 0⟩

def hexValue (byte : UInt8) : Option Nat :=
  if 48 ≤ byte ∧ byte ≤ 57 then some (byte.toNat - 48)
  else if 97 ≤ byte ∧ byte ≤ 102 then some (byte.toNat - 87)
  else if 65 ≤ byte ∧ byte ≤ 70 then some (byte.toNat - 55)
  else none

def isSpace (byte : UInt8) : Bool := byte = 32 ∨ (9 ≤ byte ∧ byte ≤ 13)

/-- `%02x` of `sscanf` and the cast to `uint8_t`: white space, then a sign and a digit
or up to two digits. -/
def scanHexByte (text : Bytes) : Option (UInt8 × Bytes) :=
  match text.dropWhile isSpace with
  | [] => none
  | [digit] => (hexValue digit).map fun value => (UInt8.ofNat value, [])
  | head :: digit :: rest =>
      if head = 45 then (hexValue digit).map fun value => (UInt8.ofNat (256 - value), rest)
      else if head = 43 then (hexValue digit).map fun value => (UInt8.ofNat value, rest)
      else
        match hexValue head, hexValue digit with
        | none, _ => none
        | some high, none => some (UInt8.ofNat high, digit :: rest)
        | some high, some low => some (UInt8.ofNat (16 * high + low), rest)

def scanColon : Bytes → Option Bytes
  | 58 :: rest => some rest
  | _ => none

/-- `sscanf` with `%02x:%02x:%02x:%02x:%02x:%02x` when it returns 6. -/
def scanMac (text : Bytes) : Option Addr := do
  let (byte0, text) ← scanHexByte text
  let (byte1, text) ← scanHexByte (← scanColon text)
  let (byte2, text) ← scanHexByte (← scanColon text)
  let (byte3, text) ← scanHexByte (← scanColon text)
  let (byte4, text) ← scanHexByte (← scanColon text)
  let (byte5, _) ← scanHexByte (← scanColon text)
  pure ⟨byte0, byte1, byte2, byte3, byte4, byte5⟩

end LeanDingdong
