/-! Scanning text from left to right.

A scan looks at the remaining characters and either fails or gives a result and what it
left. -/
namespace VersionStore.Text

/-- A scan with a result. -/
abbrev Scan (α : Type) := StateT (List Char) Option α

namespace Scan

def fail {α : Type} : Scan α := fun _ => none

/-- The next character, left in place. -/
def peek : Scan (Option Char) := fun cs => some (cs.head?, cs)

/-- Whether the remaining text starts with some characters, which are then skipped. -/
def accept (start : List Char) : Scan Bool := fun cs =>
  if start.isPrefixOf cs then some (true, cs.drop start.length) else some (false, cs)

/-- Skips characters that must come next. -/
def expect (start : List Char) : Scan Unit := do
  if ← accept start then return () else fail

/-- The characters in front that are of a kind. -/
def takeWhile (kind : Char → Bool) : Scan (List Char) := fun cs =>
  some (cs.takeWhile kind, cs.dropWhile kind)

/-- A scan given as a function on the remaining characters. -/
def ofFunction {α : Type} (f : List Char → Option (α × List Char)) : Scan α := f

/-- The result of a scan of a whole text. -/
def all? {α : Type} (scan : Scan α) (text : List Char) : Option α :=
  match scan text with
  | some (a, []) => some a
  | _ => none

end Scan

end VersionStore.Text
