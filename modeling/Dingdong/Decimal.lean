import Mathlib.Data.Nat.Digits.Lemmas

/-! Numbers in plain decimal, most significant digit first. -/

namespace Decimal

def digits (value : Nat) : List Nat :=
  if value = 0 then [0] else (Nat.digits 10 value).reverse

theorem digits_lt {value digit : Nat} (member : digit ∈ digits value) : digit < 10 := by
  by_cases zero : value = 0
  · simp_all [digits]
  · simp only [digits, zero, if_false, List.mem_reverse] at member
    exact Nat.digits_lt_base (by decide) member

theorem digits_ne_nil (value : Nat) : digits value ≠ [] := by
  by_cases zero : value = 0
  · simp [digits, zero]
  · simp [digits, zero, Nat.digits_ne_nil_iff_ne_zero.mpr zero]

/-- Only zero starts with a zero. -/
theorem digits_head {value : Nat} (nonzero : value ≠ 0) : (digits value).head? ≠ some 0 := by
  rw [digits, if_neg nonzero, List.head?_reverse]
  intro zero
  obtain ⟨nonempty, last⟩ := List.mem_getLast?_eq_getLast zero
  exact Nat.getLast_digit_ne_zero 10 nonzero last.symm

theorem ofDigits_digits (value : Nat) : Nat.ofDigits 10 (digits value).reverse = value := by
  by_cases zero : value = 0
  · simp [digits, zero]
  · simp [digits, zero, Nat.ofDigits_digits]

theorem digits_inj {first second : Nat} (same : digits first = digits second) :
    first = second := by
  rw [← ofDigits_digits first, same, ofDigits_digits]

theorem digits_length_le {value size : Nat} (positive : 0 < size) (bound : value < 10 ^ size) :
    (digits value).length ≤ size := by
  by_cases zero : value = 0
  · simp only [digits, zero, if_true, List.length_singleton]
    exact positive
  · simp only [digits, zero, if_false, List.length_reverse]
    exact (Nat.digits_length_le_iff (by decide) value).mpr bound

end Decimal
