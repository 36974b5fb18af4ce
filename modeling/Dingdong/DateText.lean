import Dingdong.CivilCalendar
import Dingdong.StorageRetention

/-!
Dates as the handlers read and write them: `sscanf` with `%d-%d-%d` on the dates of a query,
`strftime` on those of an export. What is written for a day reads back as that day.
-/

namespace LeanDingdong

open CivilCalendar

section Scan

/-- `%d`: white space, a sign and digits, for a value that an `int` holds. -/
def scanInt (text : Bytes) : Option (Int × Bytes) :=
  let text := text.dropWhile isSpace
  let digits := if text.head? = some 45 ∨ text.head? = some 43 then text.tail else text
  let value := digitsValue 0 digits
  if digits.head?.any isDigit then
    some (if text.head? = some 45 then -(value : Int) else value, digits.dropWhile isDigit)
  else none

def scanDash : Bytes → Option Bytes
  | 45 :: rest => some rest
  | _ => none

/-- `sscanf` with `%d-%d-%d` when it returns 3. -/
def scanDate (text : Bytes) : Option (Int × Int × Int) := do
  let (year, text) ← scanInt text
  let (month, text) ← scanInt (← scanDash text)
  let (day, _) ← scanInt (← scanDash text)
  pure (year, month, day)

/-- The local midnight a date in a query stands for. -/
def dayStart (offset : Int) (text : Bytes) : Option Int :=
  (scanDate text).map fun (year, month, day) =>
    mktime offset { sec := 0, min := 0, hour := 0, mday := day, mon := month - 1, year := year - 1900 }

end Scan

section Format

/-- Two digits, as `%m`, `%d`, `%H`, `%M` and `%S`. -/
def twoDigits (value : Int) : Bytes :=
  if value < 10 then ascii "0" ++ decimal value.toNat else decimal value.toNat

/-- `%Y-%m-%d` -/
def dateText (tm : Tm) : Bytes :=
  signedDecimal (tm.year + 1900) ++ ascii "-" ++ twoDigits (tm.mon + 1) ++ ascii "-" ++
    twoDigits tm.mday

/-- `%H:%M:%S` -/
def clockText (tm : Tm) : Bytes :=
  twoDigits tm.hour ++ ascii ":" ++ twoDigits tm.min ++ ascii ":" ++ twoDigits tm.sec

end Format

section Read

variable {rest : Bytes}

theorem dropWhile_digits {digits : Bytes} (digit : ∀ byte ∈ digits, isDigit byte = true)
    (ends : ∀ stop ∈ rest.head?, isDigit stop = false) :
    (digits ++ rest).dropWhile isDigit = rest := by
  rw [List.dropWhile_append_of_pos fun byte member => digit byte member]
  cases rest with
  | nil => rfl
  | cons stop rest => rw [List.dropWhile_cons, ends stop rfl, if_neg Bool.false_ne_true]

theorem isDigit_plain {byte : UInt8} (digit : isDigit byte = true) :
    isSpace byte = false ∧ byte ≠ 45 ∧ byte ≠ 43 := by
  have range : 48 ≤ byte.toNat ∧ byte.toNat ≤ 57 := by
    simpa [isDigit, UInt8.le_iff_toNat_le] using digit
  refine ⟨?_, ?_, ?_⟩
  · refine decide_eq_false ?_
    rintro (blank | control)
    · rw [blank] at range
      exact absurd range (by decide)
    · have low := UInt8.le_iff_toNat_le.mp control.2
      have bound : (13 : UInt8).toNat = 13 := rfl
      omega
  · rintro rfl
    exact absurd range (by decide)
  · rintro rfl
    exact absurd range (by decide)

theorem digitsValue_front {digits : Bytes} (digit : ∀ byte ∈ digits, isDigit byte = true)
    (ends : ∀ stop ∈ rest.head?, isDigit stop = false) :
    digitsValue 0 (digits ++ rest) = digitsValue 0 digits := by
  have whole := digitsValue_digits 0 digit ends
  have alone := @digitsValue_digits 0 digits [] digit fun _ none => absurd none (by simp)
  rw [List.append_nil] at alone
  rw [whole, alone]

/-- Digits with no sign before them and no digit behind them are their value. -/
theorem scanInt_digits {digits : Bytes} (digit : ∀ byte ∈ digits, isDigit byte = true)
    (nonempty : digits ≠ []) (ends : ∀ stop ∈ rest.head?, isDigit stop = false) :
    scanInt (digits ++ rest) = some ((digitsValue 0 digits : Int), rest) := by
  obtain ⟨first, others, rfl⟩ := List.exists_cons_of_ne_nil nonempty
  have opens := digit first List.mem_cons_self
  obtain ⟨visible, unsigned⟩ := isDigit_plain opens
  have kept : (first :: others ++ rest).dropWhile isSpace = first :: others ++ rest := by
    rw [List.cons_append, List.dropWhile_cons, visible, if_neg Bool.false_ne_true]
  have head : (first :: others ++ rest).head? = some first := rfl
  have noMinus : ¬ some first = some (45 : UInt8) := fun same => unsigned.1 (Option.some.inj same)
  have noPlus : ¬ some first = some (43 : UInt8) := fun same => unsigned.2 (Option.some.inj same)
  simp only [scanInt, kept, head, noMinus, noPlus, or_self, if_false, Option.any_some, opens,
    if_true, digitsValue_front digit ends, dropWhile_digits digit ends]

theorem scanInt_minus {digits : Bytes} (digit : ∀ byte ∈ digits, isDigit byte = true)
    (nonempty : digits ≠ []) (ends : ∀ stop ∈ rest.head?, isDigit stop = false) :
    scanInt (45 :: (digits ++ rest)) = some (-(digitsValue 0 digits : Int), rest) := by
  obtain ⟨first, others, rfl⟩ := List.exists_cons_of_ne_nil nonempty
  have opens := digit first List.mem_cons_self
  have kept : (45 :: (first :: others ++ rest)).dropWhile isSpace =
      45 :: (first :: others ++ rest) := rfl
  have head : (first :: others ++ rest).head? = some first := rfl
  simp only [scanInt, kept, List.head?_cons, true_or, if_true, List.tail_cons, head,
    Option.any_some, opens, digitsValue_front digit ends, dropWhile_digits digit ends]

theorem digitsValue_decimal (value : Nat) : digitsValue 0 (decimal value) = value := by
  have whole := @digitsValue_digits 0 (decimal value) []
    (fun byte member => (decimal_isDigit value byte member).1) fun _ none => absurd none (by simp)
  rwa [List.append_nil, decimal_digits, Decimal.ofDigits_digits, Nat.zero_mul, Nat.zero_add] at whole

theorem scanInt_signedDecimal (value : Int)
    (ends : ∀ stop ∈ rest.head?, isDigit stop = false) :
    scanInt (signedDecimal value ++ rest) = some (value, rest) := by
  have digit : ∀ byte ∈ decimal value.natAbs, isDigit byte = true :=
    fun byte member => (decimal_isDigit _ byte member).1
  rw [signedDecimal]
  split_ifs with negative
  · have reads := scanInt_minus digit (decimal_ne_nil _) ends
    rw [digitsValue_decimal] at reads
    refine reads.trans ?_
    rw [Int.ofNat_natAbs_of_nonpos negative.le, neg_neg]
  · rw [scanInt_digits digit (decimal_ne_nil _) ends, digitsValue_decimal,
      Int.natAbs_of_nonneg (not_lt.mp negative)]

theorem scanInt_twoDigits {value : Int} (positive : 0 ≤ value)
    (ends : ∀ stop ∈ rest.head?, isDigit stop = false) :
    scanInt (twoDigits value ++ rest) = some (value, rest) := by
  have digit : ∀ byte ∈ decimal value.toNat, isDigit byte = true :=
    fun byte member => (decimal_isDigit _ byte member).1
  have whole : (value.toNat : Int) = value := Int.toNat_of_nonneg positive
  rw [twoDigits]
  split_ifs with short
  · have padded : ∀ byte ∈ ascii "0" ++ decimal value.toNat, isDigit byte = true := by
      intro byte member
      rcases List.mem_append.mp member with zero | inside
      · rw [List.mem_singleton.mp zero]
        decide
      · exact digit byte inside
    have reads : digitsValue 0 (ascii "0" ++ decimal value.toNat) = value.toNat :=
      digitsValue_decimal _
    rw [scanInt_digits padded (List.cons_ne_nil _ _) ends, reads, whole]
  · rw [scanInt_digits digit (decimal_ne_nil _) ends, digitsValue_decimal, whole]

/-- The date that is written for a time leads back to its midnight. -/
theorem dayStart_dateText (offset time : Int) :
    dayStart offset (dateText (localtime offset time)) = some (midnight offset time) := by
  have date := localtime_date offset time
  have split : dateText (localtime offset time) =
      signedDecimal ((localtime offset time).year + 1900) ++
        (45 :: (twoDigits ((localtime offset time).mon + 1) ++
          (45 :: (twoDigits (localtime offset time).mday ++ [])))) := by
    rw [dateText]
    simp [ascii]
  have dash (text : Bytes) : ∀ stop ∈ (45 :: text).head?, isDigit stop = false := by
    intro stop here
    rw [← Option.mem_some.mp here]
    rfl
  have scanned : scanDate (dateText (localtime offset time)) =
      some ((localtime offset time).year + 1900, (localtime offset time).mon + 1,
        (localtime offset time).mday) := by
    rw [scanDate, split, scanInt_signedDecimal _ (dash _)]
    simp only [Option.bind_eq_bind, Option.bind_some, scanDash]
    rw [scanInt_twoDigits (by omega) (dash _)]
    simp only [Option.bind_some]
    rw [scanInt_twoDigits (by omega) (fun _ none => absurd none (by simp))]
    rfl
  rw [dayStart, scanned, Option.map_some, ← mktime_midnight]
  simp only [Int.add_sub_cancel]

end Read

end LeanDingdong
