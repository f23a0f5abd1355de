import VersionStore.Json.Value
import VersionStore.Number.Decimal

/-! Numerals of JSON text.

A numeral is an optional minus sign, an integer part without leading zeros, an optional
fraction and an optional exponent. Without fraction and exponent it is an integer, if it
fits in a machine word. Everything else is a double: digits are gathered into a word as
long as they fit, and the decimal found so far is scaled by a power of ten. -/
namespace VersionStore.Json

/-- The parts of a numeral, digits as they are written. -/
structure Numeral where
  negative : Bool
  whole : List Char
  fraction : Option (List Char)
  exponent : Option Int
  deriving DecidableEq

namespace Numeral

/-- Splits off the digits in front. -/
def digits (cs : List Char) : List Char × List Char :=
  (cs.takeWhile Char.isDigit, cs.dropWhile Char.isDigit)

def minus : List Char → Bool × List Char
  | '-' :: rest => (true, rest)
  | cs => (false, cs)

def sign : List Char → Bool × List Char
  | '+' :: rest => (false, rest)
  | cs => minus cs

/-- Whether a list of digits may be the integer part. -/
def isWhole : List Char → Bool
  | [] => false
  | ['0'] => true
  | c :: _ => c != '0'

/-- Splits off a fraction, which needs a digit after its point. -/
def fraction? : List Char → Option (Option (List Char) × List Char)
  | '.' :: cs =>
    let (ds, rest) := digits cs
    if ds.isEmpty then none else some (some ds, rest)
  | cs => some (none, cs)

/-- The integer that a power spells, with any sign. -/
def power? (cs : List Char) : Option Int :=
  let (negative, cs) := sign cs
  let (ds, rest) := digits cs
  if ds.isEmpty || !rest.isEmpty then none
  else some (if negative then -(Decimal.value ds : Int) else Decimal.value ds)

/-- The exponent that the rest of a numeral spells, if there is any rest. -/
def exponent? : List Char → Option (Option Int)
  | [] => some none
  | c :: rest => if c == 'e' || c == 'E' then (power? rest).map some else none

def parse? (cs : List Char) : Option Numeral := do
  let (negative, cs) := minus cs
  let (whole, cs) := digits cs
  if !isWhole whole then none
  else
    let (fraction, cs) ← fraction? cs
    let exponent ← exponent? cs
    return ⟨negative, whole, fraction, exponent⟩

/-- Gathers digits into a word: the significand, and how many digits did not fit. -/
def gather (significand : Nat) : List Char → Nat × Nat
  | [] => (significand, 0)
  | c :: rest =>
    let next := 10 * significand + (c.toNat - '0'.toNat)
    if next < 0x10000000000000000 then gather next rest else (significand, rest.length + 1)

/-- The decimal that the digits stand for, as a significand of one word and a power of ten:
digits of the integer part that do not fit count as zeros, those of the fraction are dropped. -/
def decimal (n : Numeral) : Nat × Int :=
  let (significand, dropped) := gather 0 n.whole
  let fraction := n.fraction.getD []
  let (significand, unread) := gather significand fraction
  (significand, (dropped : Int) - (fraction.length - unread : Nat) + n.exponent.getD 0)

/-- The numeral as a double, if that is finite. -/
def double? (n : Numeral) : Option Double :=
  let (significand, exponent) := n.decimal
  Double.ofDecimal n.negative significand exponent

/-- The number that a numeral stands for. Minus zero and integers beyond a word are doubles. -/
def number? (n : Numeral) : Option Number :=
  let m := Decimal.value n.whole
  if n.fraction.isSome || n.exponent.isSome then n.double?.map .double
  else if n.negative then
    if 0 < m ∧ m ≤ 0x8000000000000000 then some (.integer (-(m : Int))) else n.double?.map .double
  else if m < 0x10000000000000000 then some (.integer m) else n.double?.map .double

end Numeral

end VersionStore.Json
