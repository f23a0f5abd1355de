/-! Digits beyond nine.

Letters go on counting where the decimal digits end. A number in base sixteen, or in a
smaller base, is read digit by digit. -/
namespace VersionStore.Hexadecimal

/-- The value of a hexadecimal digit. -/
def digit? (c : Char) : Option Nat :=
  if c.isDigit then some (c.toNat - '0'.toNat)
  else if 'a' ≤ c ∧ c ≤ 'f' then some (c.toNat - 'a'.toNat + 10)
  else if 'A' ≤ c ∧ c ≤ 'F' then some (c.toNat - 'A'.toNat + 10)
  else none

/-- The value of digits in a base, if all are digits of that base. -/
def valueIn? (base : Nat) (digits : List Char) : Option Nat := do
  let values ← digits.mapM digit?
  if values.all (· < base) then some (values.foldl (fun n d => base * n + d) 0) else none

/-- The value of hexadecimal digits. What is no digit counts as zero. -/
def value (digits : List Char) : Nat :=
  digits.foldl (fun n c => 16 * n + (digit? c).getD 0) 0

/-- The digits of a number in base sixteen, lower case, without leading zeros. -/
def digits (n : Nat) : List Char := Nat.toDigits 16 n

end VersionStore.Hexadecimal
