import VersionStore.Json.Value
import VersionStore.Number.Decimal
import VersionStore.Toml.Text

/-! The unquoted values of TOML: booleans, integers, floats, dates and times.

Each is one word, except that a date and a time may have a blank between them. Settings
are never floats or dates, so these are only checked for their form and kept as words. -/
namespace VersionStore.Toml

def isWordChar (c : Char) : Bool :=
  c.isAlphanum || c == '_' || c == '+' || c == '-' || c == '.' || c == ':'

/-- The further digits of a number, which may have single underscores between them. -/
def groupedRest (isDigit : Char → Bool) : List Char → Option (List Char)
  | [] => some []
  | '_' :: c :: rest => if isDigit c then (groupedRest isDigit rest).map (c :: ·) else none
  | c :: rest => if isDigit c then (groupedRest isDigit rest).map (c :: ·) else none

/-- Digits that may have single underscores between them. -/
def grouped (isDigit : Char → Bool) : List Char → Option (List Char)
  | [] => none
  | c :: rest => if isDigit c then (groupedRest isDigit rest).map (c :: ·) else none

/-- Splits off a sign; without one the number is positive. -/
def splitSign : List Char → Bool × List Char
  | '-' :: rest => (true, rest)
  | '+' :: rest => (false, rest)
  | cs => (false, cs)

/-- The digits of an integer part, which has no leading zeros. -/
def wholePart (cs : List Char) : Option (List Char) := do
  match ← grouped Char.isDigit cs with
  | '0' :: _ :: _ => none
  | digits => some digits

/-- The value of digits in a base. -/
def inBase (base : Nat) (isDigit : Char → Bool) (cs : List Char) : Option Int := do
  let digits ← grouped isDigit cs
  (Hexadecimal.valueIn? base digits).map Int.ofNat

/-- An integer, in one of four bases; it must fit in a signed word. -/
def integer? (cs : List Char) : Option Int := do
  let n ← match cs with
    | '0' :: 'x' :: rest => inBase 16 (fun c => (Hexadecimal.digit? c).isSome) rest
    | '0' :: 'o' :: rest => inBase 8 (fun c => decide ('0' ≤ c ∧ c ≤ '7')) rest
    | '0' :: 'b' :: rest => inBase 2 (fun c => c == '0' || c == '1') rest
    | cs =>
      let (negative, cs) := splitSign cs
      (wholePart cs).map fun digits =>
        if negative then -(Decimal.value digits : Int) else Decimal.value digits
  if Word.isSigned n then some n else none

def isGroupChar (c : Char) : Bool := c.isDigit || c == '_'

/-- A float as it is written: its digits stand for an integer, which a power of ten scales. -/
structure Scaled where
  negative : Bool
  digits : List Char
  power : Int
  deriving DecidableEq

/-- The value of an exponent, without its letter. -/
def exponent? (cs : List Char) : Option Int :=
  let (negative, cs) := splitSign cs
  (grouped Char.isDigit cs).map fun digits =>
    if negative then -(Decimal.value digits : Int) else Decimal.value digits

/-- Reads a float that is written with digits. It has a fraction or an exponent. -/
def scaled? (cs : List Char) : Option Scaled := do
  let (negative, cs) := splitSign cs
  let whole ← wholePart (cs.takeWhile isGroupChar)
  let (fraction, rest) ← match cs.dropWhile isGroupChar with
    | '.' :: rest => do
      let fraction ← grouped Char.isDigit (rest.takeWhile isGroupChar)
      pure (fraction, rest.dropWhile isGroupChar)
    | rest => pure ([], rest)
  match rest with
  | [] => if fraction.isEmpty then none else some ⟨negative, whole ++ fraction, -fraction.length⟩
  | e :: rest =>
    if e == 'e' || e == 'E' then
      (exponent? rest).map fun power => ⟨negative, whole ++ fraction, power - fraction.length⟩
    else none

/-- Whether a word is a float. One that is written with digits must not be infinite, unless it
is negative. -/
def isFloat (cs : List Char) : Bool :=
  let word := (splitSign cs).2
  word == ['i', 'n', 'f'] || word == ['n', 'a', 'n'] ||
    (scaled? cs).any fun x => x.negative || !Double.overflows (Decimal.value x.digits) x.power

/-- A number of two digits up to a limit. -/
def twoDigits? (low high : Nat) (a b : Char) : Option Nat :=
  if a.isDigit && b.isDigit then
    let n := Decimal.value [a, b]
    if low ≤ n ∧ n ≤ high then some n else none
  else none

/-- The number of days of a month. -/
def daysIn (year month : Nat) : Nat :=
  if month = 2 then if year % 4 = 0 ∧ (year % 100 ≠ 0 ∨ year % 400 = 0) then 29 else 28
  else if month ∈ [4, 6, 9, 11] then 30
  else 31

/-- What follows a date at the beginning of a word. -/
def afterDate? : List Char → Option (List Char)
  | a :: b :: c :: d :: '-' :: e :: f :: '-' :: g :: h :: rest => do
    if !([a, b, c, d].all Char.isDigit) then none
    let month ← twoDigits? 1 12 e f
    let _ ← twoDigits? 1 (daysIn (Decimal.value [a, b, c, d]) month) g h
    return rest
  | _ => none

/-- What follows a time of day at the beginning of a word. -/
def afterTime? : List Char → Option (List Char)
  | a :: b :: ':' :: c :: d :: ':' :: e :: f :: rest => do
    let _ ← twoDigits? 0 23 a b
    let _ ← twoDigits? 0 59 c d
    let _ ← twoDigits? 0 60 e f
    match rest with
    | '.' :: rest =>
      if (rest.takeWhile Char.isDigit).isEmpty then none
      else return rest.dropWhile Char.isDigit
    | rest => return rest
  | _ => none

/-- Whether a text is an offset from universal time, or nothing. -/
def isOffset : List Char → Bool
  | [] => true
  | ['Z'] | ['z'] => true
  | [sign, a, b, ':', c, d] =>
    (sign == '+' || sign == '-') && (twoDigits? 0 23 a b).isSome && (twoDigits? 0 59 c d).isSome
  | _ => false

/-- Whether a word is a date, a time, or both. -/
def isDate (cs : List Char) : Bool :=
  match afterDate? cs with
  | some [] => true
  | some (c :: rest) =>
    (c == 'T' || c == 't' || c == ' ') && (afterTime? rest).any isOffset
  | none => (afterTime? cs).any List.isEmpty

/-- A word that no setting reads. -/
def unread (word : List Char) : Json.Value := .object [("word", .string (String.ofList word))]

def ofWord? (cs : List Char) : Option Json.Value :=
  if cs == ['t', 'r', 'u', 'e'] then some (.boolean true)
  else if cs == ['f', 'a', 'l', 's', 'e'] then some (.boolean false)
  else
    match integer? cs with
    | some n => some (.integer n)
    | none => if isFloat cs || isDate cs then some (unread cs) else none

/-- Whether a text goes on, after a date, with a blank and a time. -/
def timeFollows : List Char → Bool
  | ' ' :: a :: b :: ':' :: _ => a.isDigit && b.isDigit
  | _ => false

def scalar : Text.Scan Json.Value := fun cs =>
  let word := cs.takeWhile isWordChar
  let rest := cs.dropWhile isWordChar
  let (word, rest) :=
    if afterDate? word == some [] && timeFollows rest then
      (word ++ ' ' :: (rest.drop 1).takeWhile isWordChar, (rest.drop 1).dropWhile isWordChar)
    else (word, rest)
  (ofWord? word).map (·, rest)

end VersionStore.Toml
