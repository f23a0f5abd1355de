import VersionStore.Number.Hexadecimal

/-! The tokens of JSON text.

Text is read one character at a time. Marks stand alone, a string is what lies between
its quotes, and everything else that is not blank runs together into words, which are
told apart later. A string is kept as it is written: a four-digit escape stands for half
of a surrogate pair only once someone needs the text. -/
namespace VersionStore.Json

/-- One element of a string: a character, or the number of a four-digit escape. -/
inductive Piece where
  | char (c : Char)
  | escape (code : Nat)
  deriving DecidableEq

inductive Token where
  | openArray
  | closeArray
  | openObject
  | closeObject
  | colon
  | comma
  | string (pieces : List Piece)
  | word (chars : List Char)
  deriving DecidableEq

namespace Piece

/-- Whether a code is the first half of a surrogate pair. -/
def isHigh (code : Nat) : Bool := decide (0xD800 ≤ code ∧ code < 0xDC00)

/-- Whether a code is the second half of a surrogate pair. -/
def isLow (code : Nat) : Bool := decide (0xDC00 ≤ code ∧ code < 0xE000)

/-- The characters of a string; there are none if half a surrogate pair stands alone. -/
def text? : List Piece → Option (List Char)
  | [] => some []
  | .char c :: rest => (text? rest).map (c :: ·)
  | .escape high :: .escape low :: rest =>
    if isHigh high then
      if isLow low then
        (text? rest).map (Char.ofNat (0x10000 + (high - 0xD800) * 0x400 + (low - 0xDC00)) :: ·)
      else none
    else if isLow high then none
    else (text? (.escape low :: rest)).map (Char.ofNat high :: ·)
  | .escape code :: rest =>
    if isHigh code || isLow code then none else (text? rest).map (Char.ofNat code :: ·)

end Piece

namespace Token

/-- Where a scan stands: between tokens, in a word, or in a string (whose pieces, like a
word's characters, are held in reverse), possibly after a backslash or among the digits
of an escape. -/
inductive Mode where
  | between
  | word (chars : List Char)
  | string (pieces : List Piece)
  | backslash (pieces : List Piece)
  | escape (pieces : List Piece) (left : Nat) (code : Nat)

/-- The character that a one-letter escape stands for. -/
def escaped? : Char → Option Char
  | '"' => some '"'
  | '\\' => some '\\'
  | '/' => some '/'
  | 'b' => some '\x08'
  | 'f' => some '\x0c'
  | 'n' => some '\n'
  | 'r' => some '\r'
  | 't' => some '\t'
  | _ => none

/-- The token that is a single mark. -/
def mark? : Char → Option Token
  | '[' => some .openArray
  | ']' => some .closeArray
  | '\x7b' => some .openObject
  | '\x7d' => some .closeObject
  | ':' => some .colon
  | ',' => some .comma
  | _ => none

/-- Whether a character may stand between tokens. -/
def isBlank (c : Char) : Bool := c == ' ' || c == '\t' || c == '\n' || c == '\r'

/-- Whether a character belongs to a word. -/
def isWordChar (c : Char) : Bool := c.isAlphanum || c == '+' || c == '-' || c == '.'

/-- Reads a character that is not part of the token before it. -/
def start? (c : Char) : Option (Mode × List Token) :=
  if isBlank c then some (.between, [])
  else if c == '"' then some (.string [], [])
  else if isWordChar c then some (.word [c], [])
  else (mark? c).map fun token => (.between, [token])

/-- Reads one character: the new mode, and the tokens that it ends. -/
def step? : Mode → Char → Option (Mode × List Token)
  | .between, c => start? c
  | .word chars, c =>
    if isWordChar c then some (.word (c :: chars), [])
    else (start? c).map fun (mode, tokens) => (mode, .word chars.reverse :: tokens)
  | .string pieces, c =>
    if c == '"' then some (.between, [.string pieces.reverse])
    else if c == '\\' then some (.backslash pieces, [])
    else if c.toNat < 0x20 then none
    else some (.string (.char c :: pieces), [])
  | .backslash pieces, c =>
    if c == 'u' then some (.escape pieces 3 0, [])
    else (escaped? c).map fun e => (.string (.char e :: pieces), [])
  | .escape pieces left code, c =>
    (Hexadecimal.digit? c).map fun digit =>
      match left with
      | 0 => (.string (.escape (16 * code + digit) :: pieces), [])
      | left + 1 => (.escape pieces left (16 * code + digit), [])

/-- The token that the end of the text completes. -/
def finish? : Mode → Option (List Token)
  | .between => some []
  | .word chars => some [.word chars.reverse]
  | _ => none

/-- The tokens of the remaining text. -/
def scanFrom? (mode : Mode) : List Char → Option (List Token)
  | [] => finish? mode
  | c :: rest =>
    match step? mode c with
    | none => none
    | some (mode, tokens) => (scanFrom? mode rest).map (tokens ++ ·)

def scan? (text : List Char) : Option (List Token) := scanFrom? .between text

end Token

end VersionStore.Json
