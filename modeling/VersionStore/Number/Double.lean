/-! Binary64 numbers as bit patterns.

A double is its sixty-four bits; what it stands for is a significand times a
power of two, and every operation here is exact integer arithmetic followed by
one rounding to the nearest double, ties to the even one. `none` stands for a
magnitude beyond the largest finite double. -/
namespace VersionStore

/-- A binary64 number, held by its bits. -/
structure Double where
  bits : UInt64
  deriving DecidableEq

namespace Double

/-- The value of the sign bit. -/
def signBit : Nat := 0x8000000000000000

/-- The value of the lowest bit of the exponent; a significand of 53 bits starts here. -/
def unit : Nat := 0x10000000000000

/-- The magnitude of infinity, beyond all finite doubles. -/
def infinity : Nat := 2047 * unit

/-- The bits below the sign bit; they order magnitudes. -/
def magnitude (d : Double) : Nat := d.bits.toNat % signBit

def negative (d : Double) : Bool := decide (signBit ≤ d.bits.toNat)

/-- The double with this sign and these bits below it. -/
def ofMagnitude (negative : Bool) (magnitude : Nat) : Double :=
  ⟨UInt64.ofNat (magnitude % signBit + if negative then signBit else 0)⟩

/-- Zero and minus zero. -/
def isZero (d : Double) : Bool := d.magnitude == 0

/-- The integer significand: a finite double is `significand · 2 ^ exponent` up to sign. -/
def significand (d : Double) : Nat :=
  if d.magnitude / unit = 0 then d.magnitude % unit else unit + d.magnitude % unit

/-- The power of two that belongs to `significand`. -/
def exponent (d : Double) : Int := max (d.magnitude / unit : Nat) 1 - 1075

/-- A number whose order is the numeric order of finite doubles; the two zeros share one. -/
def rank (d : Double) : Int := if d.negative then -(d.magnitude : Int) else d.magnitude

def compare (a b : Double) : Ordering := Ord.compare a.rank b.rank

/-- A fraction times a power of two, as a fraction. -/
def shift (num den : Nat) (power : Int) : Nat × Nat :=
  if 0 ≤ power then (num * Nat.pow 2 power.toNat, den) else (num, den * Nat.pow 2 (-power).toNat)

/-- The integer nearest to a fraction, a half going to the even neighbour. -/
def roundEven (num den : Nat) : Nat :=
  let q := num / den
  let twice := 2 * (num % den)
  if den < twice || (twice == den && q % 2 == 1) then q + 1 else q

/-- The exponent at which a positive fraction has a significand of 53 bits, or the least
exponent there is. -/
def exponentOf (num den : Nat) : Int :=
  let guess : Int := (num.log2 : Int) - den.log2 - 52
  let (n, d) := shift num den (-guess)
  max (-1074) (if n / d < unit then guess - 1 else guess)

/-- The double nearest to a fraction, as bits below the sign. -/
def nearest (num den : Nat) : Option Nat :=
  if num = 0 then some 0
  else
    let e := exponentOf num den
    let (n, d) := shift num den (-e)
    let magnitude := (e + 1074).toNat * unit + roundEven n d
    if magnitude < infinity then some magnitude else none

def ofFraction (negative : Bool) (num den : Nat) : Option Double :=
  (nearest num den).map (ofMagnitude negative)

/-- The largest finite double of a sign; it answers where a magnitude is known to be finite. -/
def largest (negative : Bool) : Double := ofMagnitude negative (infinity - 1)

/-- The double nearest to an integer of at most sixty-four bits. -/
def ofInt (n : Int) : Double := (ofFraction (n < 0) n.natAbs 1).getD (largest (n < 0))

def mul (a b : Double) : Option Double :=
  let (n, d) := shift (a.significand * b.significand) 1 (a.exponent + b.exponent)
  ofFraction (a.negative != b.negative) n d

/-- The quotient of two finite doubles, the second not zero. -/
def div (a b : Double) : Option Double :=
  let (n, d) := shift a.significand b.significand (a.exponent - b.exponent)
  ofFraction (a.negative != b.negative) n d

/-- The double nearest to a power of ten, up to the largest finite one. -/
def powerOfTen (k : Nat) : Double := (ofFraction false (Nat.pow 10 k) 1).getD (largest false)

/-- Division by `10 ^ places`, at most 308 places at a time, each step rounded. -/
def shrink (d : Double) (places : Nat) : Double :=
  if d.isZero then d
  else if 308 < places then shrink ((d.div (powerOfTen 308)).getD d) (places - 308)
  else (d.div (powerOfTen places)).getD d
termination_by places
decreasing_by omega

/-- A significand times a power of ten: the significand is rounded first, then the product or
quotient with the rounded power. Out of range is `none`. -/
def ofDecimal (negative : Bool) (significand : Nat) (exponent : Int) : Option Double :=
  let whole := (ofFraction negative significand 1).getD (largest negative)
  if exponent < 0 then some (whole.shrink (-exponent).toNat)
  else if whole.isZero then some whole
  else if 308 < exponent then none
  else whole.mul (powerOfTen exponent.toNat)

/-- Whether the double nearest to `n · 10 ^ power` would be infinite. The largest finite double
has 309 digits, so only a number of that many is compared with it. -/
def overflows (n : Nat) (power : Int) : Bool :=
  let places := (Nat.toDigits 10 n).length + power
  if n = 0 ∨ places < 309 then false
  else if 309 < places then true
  else if 0 ≤ power then (nearest (n * Nat.pow 10 power.toNat) 1).isNone
  else (nearest n (Nat.pow 10 (-power).toNat)).isNone

end Double

end VersionStore
