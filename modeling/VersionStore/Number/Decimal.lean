/-! Unsigned integers in decimal. -/
namespace VersionStore.Decimal

/-- The number that a list of decimal digits stands for. -/
def value (digits : List Char) : Nat :=
  digits.foldl (fun n c => 10 * n + (c.toNat - '0'.toNat)) 0

/-- Reads an unsigned word: digits, after a plus sign if there is one. -/
def word? (chars : List Char) : Option Nat :=
  let digits := match chars with
    | '+' :: rest => rest
    | chars => chars
  if !digits.isEmpty && digits.all Char.isDigit && decide (value digits < 0x10000000000000000) then
    some (value digits)
  else none

end VersionStore.Decimal
