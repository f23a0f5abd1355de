import VersionStore.Identifier
import VersionStore.Namespace
import VersionStore.Number.Decimal

/-! Keys of cached lookups.

A cache is keyed by strings. The key of a lookup names the namespace and the
classification it was made for, so a cached record never reaches another tenant. In its
encoding each of the two is preceded by its length in bytes and a colon; then follow a
letter for the kind of lookup and the text that was looked up. -/
namespace VersionStore

/-- How a record is looked up: by its whole identifier, or by how it starts. -/
inductive Lookup where
  | identifier
  | start
  deriving DecidableEq

namespace Lookup

def letter : Lookup → Char
  | .identifier => 'i'
  | .start => 'p'

def ofLetter? : Char → Option Lookup
  | 'i' => some .identifier
  | 'p' => some .start
  | _ => none

theorem ofLetter?_eq_some_iff {c : Char} {lookup : Lookup} :
    ofLetter? c = some lookup ↔ c = lookup.letter := by
  constructor
  · intro h
    unfold ofLetter? at h
    split at h <;> simp_all [letter] <;> subst h <;> rfl
  · rintro rfl
    cases lookup <;> rfl

end Lookup

/-- The key of a cached lookup. -/
structure CacheKey where
  scope : Namespace
  classification : String
  lookup : Lookup
  text : String
  deriving DecidableEq

namespace CacheKey

def ofIdentifier (scope : Namespace) (classification : String) (identifier : Identifier) :
    CacheKey :=
  ⟨scope, classification, .identifier, identifier.text⟩

def ofStart (scope : Namespace) (classification start : String) : CacheKey :=
  ⟨scope, classification, .start, start⟩

/-- A text after its length in bytes and a colon. -/
def sized (text : List Char) : List Char :=
  Nat.toDigits 10 (Text.byteLength text) ++ ':' :: text

def chars (key : CacheKey) : List Char :=
  sized key.scope.text.toList ++ sized key.classification.toList ++
    key.lookup.letter :: key.text.toList

/-- The string that stands for a key in the cache. -/
def encode (key : CacheKey) : String := String.ofList key.chars

/-- Splits off a number of bytes, which must end between two characters. -/
def takeBytes : Nat → List Char → Option (List Char × List Char)
  | 0, cs => some ([], cs)
  | _ + 1, [] => none
  | n + 1, c :: rest =>
    if c.utf8Size ≤ n + 1 then
      (takeBytes (n + 1 - c.utf8Size) rest).map fun (taken, left) => (c :: taken, left)
    else none

/-- Splits off a text that is preceded by its length and a colon. -/
def takeSized (cs : List Char) : Option (List Char × List Char) :=
  match cs.dropWhile (· != ':') with
  | [] => none
  | _ :: rest => (Decimal.word? (cs.takeWhile (· != ':'))).bind (takeBytes · rest)

/-- Reads an encoded key. -/
def decode? (encoded : String) : Option CacheKey := do
  let (scope, rest) ← takeSized encoded.toList
  let (classification, rest) ← takeSized rest
  match rest with
  | [] => none
  | letter :: text =>
    let lookup ← Lookup.ofLetter? letter
    let scope ← (Namespace.parse (String.ofList scope)).toOption
    return ⟨scope, String.ofList classification, lookup, String.ofList text⟩

end CacheKey

end VersionStore
