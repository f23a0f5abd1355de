import VersionStore.Number.Hexadecimal
import VersionStore.Text.Scan

/-! The strings, keys and blanks of TOML.

Strings are written between quotation marks, with escapes, or between apostrophes, as
they are. Tripled marks enclose text of several lines: its first line break is dropped,
and up to two marks may stand before the closing ones. -/
namespace VersionStore.Toml

open VersionStore.Text (Scan)

/-- Whether a character may stand in a comment, and, marks apart, on a line of a string. -/
def isPlain (c : Char) : Bool := c == '\t' || (decide (0x20 ≤ c.toNat) && c.toNat != 0x7F)

def isSpace (c : Char) : Bool := c == ' ' || c == '\t'

def isKeyChar (c : Char) : Bool := c.isAlphanum || c == '_' || c == '-'

/-- The character that a one-letter escape stands for. -/
def escaped? : Char → Option Char
  | 'b' => some '\x08'
  | 't' => some '\t'
  | 'n' => some '\n'
  | 'f' => some '\x0c'
  | 'r' => some '\r'
  | '"' => some '"'
  | '\\' => some '\\'
  | _ => none

/-- The character with a code point written in hexadecimal. -/
def ofHex? (digits : List Char) : Option Char := do
  let code ← Hexadecimal.valueIn? 16 digits
  if code < 0xD800 ∨ (0xDFFF < code ∧ code < 0x110000) then some (Char.ofNat code) else none

/-- Adds a character in front of a scanned text. -/
def prepend (c : Char) (found : Option (List Char × List Char)) : Option (List Char × List Char) :=
  found.map fun (text, rest) => (c :: text, rest)

/-- The rest of a string with escapes, on one line. -/
def quotedLine : List Char → Option (List Char × List Char)
  | '"' :: rest => some ([], rest)
  | '\\' :: 'u' :: a :: b :: c :: d :: rest =>
    (ofHex? [a, b, c, d]).bind fun x => prepend x (quotedLine rest)
  | '\\' :: 'U' :: a :: b :: c :: d :: e :: f :: g :: h :: rest =>
    (ofHex? [a, b, c, d, e, f, g, h]).bind fun x => prepend x (quotedLine rest)
  | '\\' :: c :: rest => (escaped? c).bind fun x => prepend x (quotedLine rest)
  | c :: rest => if isPlain c then prepend c (quotedLine rest) else none
  | [] => none

/-- The rest of a string without escapes, on one line. -/
def literalLine : List Char → Option (List Char × List Char)
  | '\'' :: rest => some ([], rest)
  | c :: rest => if isPlain c then prepend c (literalLine rest) else none
  | [] => none

/-- How a text of several lines goes on: as text, or after a backslash that ends a line,
before that line break and after it. -/
inductive Continuation where
  | text
  | lineEnd
  | lineStart
  deriving DecidableEq

/-- The rest of a string with escapes, on several lines. -/
def quotedLines : Continuation → List Char → Option (List Char × List Char)
  | .lineEnd, '\n' :: rest => quotedLines .lineStart rest
  | .lineEnd, '\r' :: '\n' :: rest => quotedLines .lineStart rest
  | .lineEnd, c :: rest => if isSpace c then quotedLines .lineEnd rest else none
  | .lineStart, '\n' :: rest => quotedLines .lineStart rest
  | .lineStart, '\r' :: '\n' :: rest => quotedLines .lineStart rest
  | .lineStart, ' ' :: rest => quotedLines .lineStart rest
  | .lineStart, '\t' :: rest => quotedLines .lineStart rest
  | _, '"' :: '"' :: '"' :: '"' :: '"' :: rest => some (['"', '"'], rest)
  | _, '"' :: '"' :: '"' :: '"' :: rest => some (['"'], rest)
  | _, '"' :: '"' :: '"' :: rest => some ([], rest)
  | _, '\n' :: rest => prepend '\n' (quotedLines .text rest)
  | _, '\r' :: '\n' :: rest => prepend '\n' (quotedLines .text rest)
  | _, '\\' :: 'u' :: a :: b :: c :: d :: rest =>
    (ofHex? [a, b, c, d]).bind fun x => prepend x (quotedLines .text rest)
  | _, '\\' :: 'U' :: a :: b :: c :: d :: e :: f :: g :: h :: rest =>
    (ofHex? [a, b, c, d, e, f, g, h]).bind fun x => prepend x (quotedLines .text rest)
  | _, '\\' :: c :: rest =>
    if isSpace c || c == '\n' || c == '\r' then quotedLines .lineEnd (c :: rest)
    else (escaped? c).bind fun x => prepend x (quotedLines .text rest)
  | _, c :: rest => if isPlain c then prepend c (quotedLines .text rest) else none
  | _, [] => none

/-- The rest of a string without escapes, on several lines. -/
def literalLines : List Char → Option (List Char × List Char)
  | '\'' :: '\'' :: '\'' :: '\'' :: '\'' :: rest => some (['\'', '\''], rest)
  | '\'' :: '\'' :: '\'' :: '\'' :: rest => some (['\''], rest)
  | '\'' :: '\'' :: '\'' :: rest => some ([], rest)
  | '\n' :: rest => prepend '\n' (literalLines rest)
  | '\r' :: '\n' :: rest => prepend '\n' (literalLines rest)
  | c :: rest => if isPlain c then prepend c (literalLines rest) else none
  | [] => none

/-- Skips one line break, if there is one. -/
def skipBreak : Scan Unit := do
  if ← Scan.accept ['\n'] then return ()
  else let _ ← Scan.accept ['\r', '\n']

/-- Blanks within a line. -/
def skipSpaces : Scan Unit := do
  let _ ← Scan.takeWhile isSpace

/-- A string on one line. -/
def line : Scan (List Char) := do
  if ← Scan.accept ['"'] then Scan.ofFunction quotedLine
  else
    Scan.expect ['\'']
    Scan.ofFunction literalLine

def string : Scan (List Char) := do
  if ← Scan.accept ['"', '"', '"'] then
    skipBreak
    Scan.ofFunction (quotedLines .text)
  else if ← Scan.accept ['\'', '\'', '\''] then
    skipBreak
    Scan.ofFunction literalLines
  else line

/-- One part of a key. -/
def keyPart : Scan String := do
  match ← Scan.peek with
  | some '"' | some '\'' => return String.ofList (← line)
  | _ =>
    let chars ← Scan.takeWhile isKeyChar
    if chars.isEmpty then Scan.fail else return String.ofList chars

/-- The further parts of a key, each after a dot; at most `count`. -/
def keyParts : Nat → Scan (List String)
  | 0 => Scan.fail
  | count + 1 => do
    skipSpaces
    if ← Scan.accept ['.'] then
      skipSpaces
      let part ← keyPart
      return part :: (← keyParts count)
    else return []

/-- How many levels a key or a nested value may have. -/
def levelLimit : Nat := 80

/-- A key: one or more parts with dots between them. Blanks behind it are skipped. -/
def key : Scan (List String) := do
  let part ← keyPart
  return part :: (← keyParts (levelLimit - 1))

/-- Skips blanks, line breaks and comments. -/
def skipLinesFrom (comment : Bool) : List Char → Option (Unit × List Char)
  | [] => some ((), [])
  | '\n' :: rest => skipLinesFrom false rest
  | '\r' :: '\n' :: rest => skipLinesFrom false rest
  | c :: rest =>
    if comment then if isPlain c then skipLinesFrom true rest else none
    else if isSpace c then skipLinesFrom false rest
    else if c == '#' then skipLinesFrom true rest
    else some ((), c :: rest)

/-- Skips blanks, line breaks and comments. -/
def skipLines : Scan Unit := Scan.ofFunction (skipLinesFrom false)

/-- Skips what may follow on a line, and its end. -/
def endLine : Scan Unit := do
  skipSpaces
  if ← Scan.accept ['#'] then
    let _ ← Scan.takeWhile isPlain
  match ← Scan.peek with
  | none => return ()
  | some '\n' => Scan.expect ['\n']
  | _ => Scan.expect ['\r', '\n']

end VersionStore.Toml
