import FileRoutes.Text.Digit
import Mathlib

/-! # Decimal digits of a fixed count

A number that has no more digits than are written is read back from them
(`ofDigitChars_decimalDigits`), and such digits are in the order of their numbers
(`decimalDigits_lt_decimalDigits`). They are all that a number with so many digits is written with
(`toDigits_eq_decimalDigits`). -/

namespace FileRoutes.Text

variable {count value other : Nat}

/-- There are as many digits as are asked for. -/
@[simp] theorem length_decimalDigits (count value : Nat) :
    (decimalDigits count value).length = count := by
  induction count generalizing value with
  | zero => rfl
  | succ count ih => rw [decimalDigits, List.length_append, ih, List.length_singleton]

/-- All of them are digits. -/
theorem all_isDigit_decimalDigits (count value : Nat) :
    (decimalDigits count value).all Char.isDigit = true := by
  induction count generalizing value with
  | zero => rfl
  | succ count ih =>
    have last : value % 10 < 10 := Nat.mod_lt _ (by decide)
    simp [decimalDigits, ih, Nat.isDigit_digitChar, last]

/-- A number without its last digit has one digit less. -/
theorem div_ten_lt (fit : value < 10 ^ (count + 1)) : value / 10 < 10 ^ count := by
  rw [Nat.pow_succ, Nat.mul_comm] at fit
  exact Nat.div_lt_of_lt_mul fit

/-- **A number that fits is read back** from its digits. -/
theorem ofDigitChars_decimalDigits (fit : value < 10 ^ count) :
    Nat.ofDigitChars 10 (decimalDigits count value) 0 = value := by
  induction count generalizing value with
  | zero =>
    obtain rfl : value = 0 := by simpa using fit
    rfl
  | succ count ih =>
    rw [decimalDigits, Nat.ofDigitChars_append, ih (div_ten_lt fit),
      Nat.ofDigitChars_cons_digitChar_of_lt_ten (Nat.mod_lt _ (by decide))]
    exact Nat.div_add_mod value 10

/-- The least number with more digits is a power. -/
theorem powerOfTen_eq (count : Nat) : powerOfTen count = 10 ^ count := by
  induction count with
  | zero => rfl
  | succ count ih => rw [powerOfTen, ih, Nat.pow_succ]

/-- A greater digit is a greater character. -/
theorem digitChar_lt_digitChar (less : value < other) (bound : other < 10) :
    value.digitChar < other.digitChar := by
  have code := Nat.toNat_digitChar_of_lt_ten bound
  have code' := Nat.toNat_digitChar_of_lt_ten (less.trans bound)
  simp only [Char.toNat] at code code'
  rw [Char.lt_def, UInt32.lt_iff_toNat_lt]
  omega

/-- **Digits are in the order of their numbers**, whatever stands behind them. -/
theorem decimalDigits_lt_decimalDigits (less : value < other) (fit : other < 10 ^ count)
    (text text' : List Char) :
    decimalDigits count value ++ text < decimalDigits count other ++ text' := by
  induction count generalizing value other text text' with
  | zero =>
    obtain rfl : other = 0 := by simpa using fit
    exact absurd less (Nat.not_lt_zero value)
  | succ count ih =>
    rw [decimalDigits, decimalDigits, List.append_assoc, List.append_assoc]
    rcases Nat.lt_or_eq_of_le (Nat.div_le_div_right (c := 10) less.le) with front | same
    · exact ih front (div_ten_lt fit) _ _
    · have last : value % 10 < other % 10 := by omega
      have bound : other % 10 < 10 := Nat.mod_lt _ (by decide)
      rw [same]
      exact List.append_left_lt
        (List.cons_lt_cons_iff.2 (.inl (digitChar_lt_digitChar last bound)))

/-- A number that has no fewer digits is written with these. -/
theorem toDigits_eq_decimalDigits (full : 10 ^ count ≤ value) (fit : value < 10 ^ (count + 1)) :
    Nat.toDigits 10 value = decimalDigits (count + 1) value := by
  induction count generalizing value with
  | zero =>
    have small : value < 10 := by simpa using fit
    rw [Nat.toDigits_of_lt_base small, decimalDigits, decimalDigits, Nat.mod_eq_of_lt small,
      List.nil_append]
  | succ count ih =>
    have front : 10 ^ count ≤ value / 10 := by
      rw [Nat.pow_succ] at full
      exact (Nat.le_div_iff_mul_le (by decide)).2 full
    have more : 10 ≤ value := by omega
    rw [Nat.toDigits_of_base_le (by decide) more, ih front (div_ten_lt fit)]
    rfl

end FileRoutes.Text
