import VersionStore.Json.Value
import VersionStore.Number.Shortest

/-! JSON values as text.

The text is compact: no blanks, members in the order of the object. A character is
escaped only where the grammar asks for it. -/
namespace VersionStore.Json

/-- One character inside a JSON string. -/
def printChar (c : Char) : List Char :=
  match c with
  | '"' => ['\\', '"']
  | '\\' => ['\\', '\\']
  | '\n' => ['\\', 'n']
  | '\r' => ['\\', 'r']
  | '\t' => ['\\', 't']
  | '\x08' => ['\\', 'b']
  | '\x0c' => ['\\', 'f']
  | c =>
    if c.toNat < 0x20 then
      ['\\', 'u', '0', '0', Nat.digitChar (c.toNat / 16), Nat.digitChar (c.toNat % 16)]
    else [c]

def printString (s : String) : List Char := '"' :: s.toList.flatMap printChar ++ ['"']

def printInt (n : Int) : List Char :=
  if n < 0 then '-' :: Nat.toDigits 10 n.natAbs else Nat.toDigits 10 n.natAbs

/-- A number; a double always has a point or an exponent. -/
def Number.print : Number → List Char
  | .integer n => printInt n
  | .double d => d.text.toList

namespace Value

mutual

def print : Value → List Char
  | .null => ['n', 'u', 'l', 'l']
  | .boolean true => ['t', 'r', 'u', 'e']
  | .boolean false => ['f', 'a', 'l', 's', 'e']
  | .number n => n.print
  | .string s => printString s
  | .array [] => ['[', ']']
  | .array (item :: rest) => '[' :: print item ++ printItems rest ++ [']']
  | .object [] => ['\x7b', '\x7d']
  | .object ((key, value) :: rest) =>
    '\x7b' :: printString key ++ ':' :: print value ++ printMembers rest ++ ['\x7d']

/-- The further items of an array, each after a comma. -/
def printItems : List Value → List Char
  | [] => []
  | item :: rest => ',' :: print item ++ printItems rest

/-- The further members of an object, each after a comma. -/
def printMembers : List (String × Value) → List Char
  | [] => []
  | (key, value) :: rest =>
    ',' :: printString key ++ ':' :: print value ++ printMembers rest

end

def text (v : Value) : String := String.ofList v.print

end Value

end VersionStore.Json
