import VersionStore.Number.Double
import VersionStore.Number.Word
import VersionStore.Table

/-! JSON values.

A number is an integer or a double, and the two kinds never agree: `5` and `5.0` are
different values. The members of an object are a table, so they stand in key order. -/
namespace VersionStore.Json

/-- A number: an integer, or a double for whatever is not written as one. -/
inductive Number where
  | integer (n : Int)
  | double (d : Double)
  deriving DecidableEq

namespace Number

/-- Equality of numbers: within one kind, by value. -/
def agrees : Number → Number → Bool
  | .integer m, .integer n => m == n
  | .double d, .double e => d.compare e == .eq
  | _, _ => false

/-- The number as a sixty-four-bit signed integer, if it is one. -/
def signed? : Number → Option Int
  | .integer n => if Word.isSigned n then some n else none
  | .double _ => none

def toDouble : Number → Double
  | .integer n => Double.ofInt n
  | .double d => d

/-- Order of numbers: as integers where both are signed, else as doubles. -/
def compare (x y : Number) : Ordering :=
  match x.signed?, y.signed? with
  | some m, some n => Ord.compare m n
  | _, _ => x.toDouble.compare y.toDouble

end Number

inductive Value where
  | null
  | boolean (b : Bool)
  | number (n : Number)
  | string (s : String)
  | array (items : List Value)
  | object (members : List (String × Value))

namespace Value

def integer (n : Int) : Value := .number (.integer n)

/-- An object, its members brought into key order. -/
def ofMembers (members : List (String × Value)) : Value := .object (Table.ofList members)

/-- The member of an object under a key; other values have no members. -/
def member? (key : String) : Value → Option Value
  | .object members => Table.get? key members
  | _ => none

def string? : Value → Option String
  | .string s => some s
  | _ => none

mutual

/-- Equality of values; the numbers in them agree by kind and value. -/
def agrees : Value → Value → Bool
  | .null, .null => true
  | .boolean a, .boolean b => a == b
  | .number m, .number n => m.agrees n
  | .string s, .string t => s == t
  | .array xs, .array ys => agreeItems xs ys
  | .object xs, .object ys => agreeMembers xs ys
  | _, _ => false

def agreeItems : List Value → List Value → Bool
  | [], [] => true
  | x :: xs, y :: ys => x.agrees y && agreeItems xs ys
  | _, _ => false

def agreeMembers : List (String × Value) → List (String × Value) → Bool
  | [], [] => true
  | (k, x) :: xs, (l, y) :: ys => k == l && x.agrees y && agreeMembers xs ys
  | _, _ => false

end

end Value

end VersionStore.Json
