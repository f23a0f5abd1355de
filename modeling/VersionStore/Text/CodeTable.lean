import VersionStore.Number.Hexadecimal
import VersionStore.Text.Split

/-! Tables of code points.

Data of the Unicode standard is written as text: words in hexadecimal, with blanks between
them. A word of a set is a code point or a range `first-last`. A word of a map goes on
with a colon and what the code points become: several of them with plus signs between
them, one, or none. In a range that becomes one code point the others become those that
follow it. A word of a map without a colon says what becomes of the code point after the
last one. -/
namespace VersionStore.Text

/-- The code points from one to another. -/
structure CodeRange where
  first : Nat
  last : Nat
  deriving DecidableEq

namespace CodeRange

def contains (range : CodeRange) (c : Char) : Bool :=
  decide (range.first ≤ c.toNat ∧ c.toNat ≤ range.last)

def read (word : List Char) : CodeRange :=
  match splitAt '-' word with
  | [first, last] => ⟨Hexadecimal.value first, Hexadecimal.value last⟩
  | _ => ⟨Hexadecimal.value word, Hexadecimal.value word⟩

end CodeRange

/-- A set of characters. -/
abbrev CodeSet := List CodeRange

namespace CodeSet

def contains (set : CodeSet) (c : Char) : Bool := set.any (·.contains c)

def read (text : String) : CodeSet := (words text.toList).map CodeRange.read

end CodeSet

/-- What becomes of the characters of a range. -/
structure CodeRow where
  range : CodeRange
  target : List Nat
  deriving DecidableEq

/-- What becomes of a character of the range. -/
def CodeRow.apply (row : CodeRow) (c : Char) : List Char :=
  match row.target with
  | [code] => [Char.ofNat (code + (c.toNat - row.range.first))]
  | codes => codes.map Char.ofNat

/-- A map from characters to what becomes of them. -/
abbrev CodeMap := List CodeRow

namespace CodeMap

/-- What becomes of a character, if the map says so. -/
def find? (map : CodeMap) (c : Char) : Option (List Char) :=
  (List.find? (·.range.contains c) map).map (·.apply c)

/-- The character that becomes some others, if there is one. -/
def source? (map : CodeMap) (cs : List Char) : Option Char :=
  (List.find? (fun row => row.target == cs.map Char.toNat) map).map
    (Char.ofNat ·.range.first)

/-- Reads what code points become. -/
def readTarget (cs : List Char) : List Nat :=
  if cs.isEmpty then [] else (splitAt '+' cs).map Hexadecimal.value

/-- Reads the rows of a map. A word without a colon is about the code point `next`. -/
def readRows (next : Nat) : List (List Char) → CodeMap
  | [] => []
  | word :: rest =>
    match splitAt ':' word with
    | [source, target] =>
      let range := CodeRange.read source
      ⟨range, readTarget target⟩ :: readRows (range.last + 1) rest
    | _ => ⟨⟨next, next⟩, readTarget word⟩ :: readRows (next + 1) rest

def read (text : String) : CodeMap := readRows 0 (words text.toList)

end CodeMap

end VersionStore.Text
