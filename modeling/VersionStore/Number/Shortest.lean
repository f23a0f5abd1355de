import VersionStore.Number.Double

/-! The shortest decimal text of a double.

A decimal reads back as a double exactly when it lies between the midpoints to
the neighbouring doubles (the midpoints belong to the double with the even
significand). `digits` takes the first decimal grid, coarsest first, on which
one of the two neighbours of the value lies in that interval, and there the
nearer of the two; seventeen digits always suffice. `text` writes the result in
positional form from `1e-5` up to below `1e16`, and with an exponent beyond. -/
namespace VersionStore.Double

/-- The decimals that read back as one double: fractions over a common denominator. -/
structure Interval where
  low : Nat
  value : Nat
  high : Nat
  den : Nat
  closed : Bool

/-- The interval of decimals that read back as a positive double. -/
def interval (d : Double) : Interval :=
  let m := d.significand
  let below := if m = unit ∧ 1 < d.magnitude / unit then 1 else 2
  let (scale, den) := shift 1 1 (d.exponent - 2)
  ⟨(4 * m - below) * scale, 4 * m * scale, (4 * m + 2) * scale, den, m % 2 == 0⟩

/-- Whether `count · 10 ^ power` lies in the interval. -/
def Interval.admits (i : Interval) (count : Nat) (power : Int) : Bool :=
  let up := Nat.pow 10 power.toNat
  let down := Nat.pow 10 (-power).toNat
  let point := count * up * i.den
  if i.closed then decide (i.low * down ≤ point ∧ point ≤ i.high * down)
  else decide (i.low * down < point ∧ point < i.high * down)

/-- The power of ten just below a positive fraction. -/
def decimalExponent (num den : Nat) : Int :=
  let guess : Int := ((Nat.toDigits 10 num).length : Int) - (Nat.toDigits 10 den).length
  if den * Nat.pow 10 guess.toNat ≤ num * Nat.pow 10 (-guess).toNat then guess else guess - 1

/-- The neighbour of the value on the grid of `10 ^ power` that reads back, if there is one. -/
def Interval.neighbour (i : Interval) (power : Int) : Option Nat :=
  let num := i.value * Nat.pow 10 (-power).toNat
  let den := i.den * Nat.pow 10 power.toNat
  let floor := num / den
  let near := roundEven num den
  let far := if near = floor then floor + 1 else floor
  if i.admits near power then some near
  else if i.admits far power then some far
  else none

/-- Tries grids of one digit more each time. -/
def Interval.search (i : Interval) (top : Int) : Nat → Nat → Nat × Int
  | 0, count => let power := top + 1 - count; (roundEven (i.value * Nat.pow 10 (-power).toNat)
      (i.den * Nat.pow 10 power.toNat), power)
  | left + 1, count =>
    match i.neighbour (top + 1 - count) with
    | some n => (n, top + 1 - count)
    | none => i.search top left (count + 1)

/-- The shortest decimal that reads back as a positive double: an integer and a power of ten. -/
def digits (d : Double) : Nat × Int :=
  let i := d.interval
  i.search (decimalExponent i.value i.den) 16 1

/-- Drops trailing zeros of an integer's decimal digits, and says how many. -/
def stripZeros (ds : List Char) : List Char × Nat :=
  let kept := (ds.reverse.dropWhile (· == '0')).reverse
  (kept, ds.length - kept.length)

/-- The text of decimal digits whose first one stands for `10 ^ exponent`. -/
def layout (ds : List Char) (exponent : Int) : List Char :=
  if 0 ≤ exponent ∧ exponent ≤ 15 then
    let whole := exponent.toNat + 1
    let ds := ds ++ List.replicate (whole + 1 - ds.length) '0'
    ds.take whole ++ '.' :: ds.drop whole
  else if -5 ≤ exponent ∧ exponent < 0 then
    '0' :: '.' :: List.replicate ((-exponent).toNat - 1) '0' ++ ds
  else
    let tail := match ds.drop 1 with
      | [] => []
      | rest => '.' :: rest
    let sign := if exponent < 0 then '-' else '+'
    ds.take 1 ++ tail ++ 'e' :: sign :: Nat.toDigits 10 exponent.natAbs

def text (d : Double) : String :=
  let sign := if d.negative then ['-'] else []
  if d.isZero then String.ofList (sign ++ ['0', '.', '0'])
  else
    let (n, power) := d.digits
    let (ds, zeros) := stripZeros (Nat.toDigits 10 n)
    String.ofList (sign ++ layout ds (power + zeros + ds.length - 1))

end VersionStore.Double
