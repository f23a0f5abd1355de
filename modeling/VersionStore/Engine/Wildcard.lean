import VersionStore.Text.Affix

/-! Names that match a pattern.

In a pattern `*` stands for any text, also an empty one, and every other character for
itself. The texts between the stars are looked for from left to right, each at its first
occurrence; the one before the first star must stand at the beginning, and the one behind
the last star at the end. -/
namespace VersionStore

namespace Wildcard

/-- The text in front of the first star, and the texts behind each star. -/
def parts : List Char → List Char × List (List Char)
  | [] => ([], [])
  | c :: rest =>
    let (first, further) := parts rest
    if c = '*' then ([], first :: further) else (c :: first, further)

/-- What follows the first occurrence of a text. -/
def afterFirst? (part : List Char) : List Char → Option (List Char)
  | [] => if part.isEmpty then some [] else none
  | c :: rest =>
    if part.isPrefixOf (c :: rest) then some ((c :: rest).drop part.length)
    else afterFirst? part rest

/-- Whether the texts behind the stars occur in what is left of a name, the last at its end. -/
def tailMatches : List (List Char) → List Char → Bool
  | [], rest => rest.isEmpty
  | [last], rest => last.isSuffixOf rest
  | part :: parts, rest =>
    match afterFirst? part rest with
    | some rest => tailMatches parts rest
    | none => false

/-- Whether a name matches a pattern. -/
def matchesChars (pattern name : List Char) : Bool :=
  let (first, further) := parts pattern
  match Text.afterStart? first name with
  | some rest => tailMatches further rest
  | none => false

end Wildcard

/-- Whether a name matches a pattern in which `*` stands for any text. -/
def wildcardMatches (pattern name : String) : Bool :=
  Wildcard.matchesChars pattern.toList name.toList

end VersionStore
