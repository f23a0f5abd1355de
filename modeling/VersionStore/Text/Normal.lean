import VersionStore.Text.Normal.Decomposition
import VersionStore.Text.Normal.Order

/-! The normal form of text.

Text can say the same thing in several ways: a letter with an accent is one character, or
a letter and a mark, and marks may come in different orders. The normal form takes all
characters apart, puts the marks in order, and then joins what can be joined to the
character before it (form C of the Unicode standard). The syllables of Hangul are taken
apart and joined by their numbers. -/
namespace VersionStore.Text

/-! ### Syllables

A syllable is a leading consonant, a vowel, and possibly a trailing consonant. -/

def firstSyllable : Nat := 0xAC00

/-- The first leading consonant; there are 19. -/
def firstLeading : Nat := 0x1100

/-- The first vowel; there are 21. -/
def firstVowel : Nat := 0x1161

/-- What stands for no trailing consonant; 27 trailing consonants follow it. -/
def noTrailing : Nat := 0x11A7

/-- The parts of a syllable. -/
def syllableParts? (c : Char) : Option (List Char) :=
  let n := c.toNat - firstSyllable
  if c.toNat < firstSyllable ∨ 19 * 21 * 28 ≤ n then none
  else
    let start := [Char.ofNat (firstLeading + n / 28 / 21), Char.ofNat (firstVowel + n / 28 % 21)]
    if n % 28 = 0 then some start else some (start ++ [Char.ofNat (noTrailing + n % 28)])

/-- The syllable that two characters make: a leading consonant and a vowel, or a syllable
without a trailing consonant and one. -/
def syllable? (a b : Char) : Option Char :=
  let leading := a.toNat - firstLeading
  let vowel := b.toNat - firstVowel
  let start := a.toNat - firstSyllable
  let trailing := b.toNat - noTrailing
  if firstLeading ≤ a.toNat ∧ leading < 19 ∧ firstVowel ≤ b.toNat ∧ vowel < 21 then
    some (Char.ofNat (firstSyllable + (leading * 21 + vowel) * 28))
  else if firstSyllable ≤ a.toNat ∧ start < 19 * 21 * 28 ∧ start % 28 = 0 ∧
      noTrailing < b.toNat ∧ trailing < 28 then
    some (Char.ofNat (a.toNat + trailing))
  else none

/-! ### Characters -/

/-- What a character is made of, if it is made of others. -/
def parts? (c : Char) : Option (List Char) :=
  match syllableParts? c with
  | some cs => some cs
  | none => decompositions.find? c

/-- The character that two others make. -/
def joined? (a b : Char) : Option Char :=
  match syllable? a b with
  | some c => some c
  | none => (decompositions.source? [a, b]).filter (!uncomposed.contains ·)

/-- Takes a character apart, and its parts, as many times as given. -/
def takeApart : Nat → Char → List Char
  | 0, c => [c]
  | depth + 1, c =>
    match parts? c with
    | some cs => cs.flatMap (takeApart depth)
    | none => [c]

/-- How many times a character may have to be taken apart. -/
def deepest : Nat := 3

/-! ### Text -/

/-- Takes all characters apart and orders the marks. -/
def decomposed (cs : List Char) : List Char := orderMarks (cs.flatMap (takeApart deepest))

/-- Joins characters to the one in front, `start`, behind which there are already some `marks`
that could not be joined. A mark may be joined unless one of its own class stands between. -/
def compose (start : Char) (marks : List Char) : List Char → List Char
  | [] => start :: marks
  | c :: rest =>
    let free := marks.getLast?.all fun mark => combiningClass mark < combiningClass c
    match if free then joined? start c else none with
    | some joined => compose joined marks rest
    | none =>
      if combiningClass c = 0 then start :: marks ++ compose c [] rest
      else compose start (marks ++ [c]) rest

/-- Joins the characters of a text. Nothing is joined to marks at the beginning. -/
def composed : List Char → List Char
  | [] => []
  | c :: rest => if combiningClass c = 0 then compose c [] rest else c :: composed rest

def normal (cs : List Char) : List Char := composed (decomposed cs)

end VersionStore.Text
