/-! # Decimal digits

A **decimal digit** of any script has a value from 0 to 9. The digits of one script stand in a row
of ten, so a digit is found by the row whose zero is at most nine places before it
(`digitValue?`). A number is written in the digits of ASCII, also with a fixed count of them
(`decimalDigits`). -/

namespace FileRoutes.Text

/-- The code points of the digit zero in the scripts of Unicode 14, in ascending order. -/
def zeroDigits : List Nat :=
  [
    0x30, 0x660, 0x6F0, 0x7C0, 0x966, 0x9E6, 0xA66, 0xAE6,
    0xB66, 0xBE6, 0xC66, 0xCE6, 0xD66, 0xDE6, 0xE50, 0xED0,
    0xF20, 0x1040, 0x1090, 0x17E0, 0x1810, 0x1946, 0x19D0, 0x1A80,
    0x1A90, 0x1B50, 0x1BB0, 0x1C40, 0x1C50, 0xA620, 0xA8D0, 0xA900,
    0xA9D0, 0xA9F0, 0xAA50, 0xABF0, 0xFF10, 0x104A0, 0x10D30, 0x11066,
    0x110F0, 0x11136, 0x111D0, 0x112F0, 0x11450, 0x114D0, 0x11650, 0x116C0,
    0x11730, 0x118E0, 0x11950, 0x11C50, 0x11D50, 0x11DA0, 0x16A60, 0x16AC0,
    0x16B50, 0x1D7CE, 0x1D7D8, 0x1D7E2, 0x1D7EC, 0x1D7F6, 0x1E140, 0x1E2F0,
    0x1E950, 0x1FBF0 ]

/-- The value of a decimal digit; `none` for any other character. -/
def digitValue? (c : Char) : Option Nat :=
  (zeroDigits.find? fun start => start ≤ c.toNat && c.toNat ≤ start + 9).map (c.toNat - ·)

/-- The number that a row of decimal digits writes, the first digit being the most significant. -/
def ofDigits (digits : List Nat) : Nat :=
  digits.foldl (fun value digit => 10 * value + digit) 0

/-- No digits write zero. -/
@[simp] theorem ofDigits_nil : ofDigits [] = 0 := rfl

/-- A digit at the end counts the ones, and all before it the tens. -/
@[simp] theorem ofDigits_concat (digits : List Nat) (digit : Nat) :
    ofDigits (digits ++ [digit]) = 10 * ofDigits digits + digit := by
  simp [ofDigits]

/-- A number in decimal, cut or filled up to a fixed count of digits. -/
def decimalDigits : (count : Nat) → Nat → List Char
  | 0, _ => []
  | count + 1, value => decimalDigits count (value / 10) ++ [(value % 10).digitChar]

/-- The least number that has more digits than a count: a one and that many zeros. -/
def powerOfTen : (count : Nat) → Nat
  | 0 => 1
  | count + 1 => powerOfTen count * 10

/-- It is not zero. -/
theorem powerOfTen_pos (count : Nat) : 0 < powerOfTen count := by
  induction count with
  | zero => exact Nat.one_pos
  | succ count ih => exact Nat.mul_pos ih (by decide)

end FileRoutes.Text
