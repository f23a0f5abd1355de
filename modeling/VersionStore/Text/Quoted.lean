import VersionStore.Number.Hexadecimal
import VersionStore.Text.Invisible

/-! Quoted text for messages.

A string is shown between double quotes. Quotes, backslashes and the common control
characters have short escapes, an invisible character is written by its code point in
hexadecimal, and every other character stands for itself. -/
namespace VersionStore.Text

/-- One character as it stands inside double quotes. -/
def quoteChar (c : Char) : List Char :=
  match c with
  | '\x00' => ['\\', '0']
  | '\t' => ['\\', 't']
  | '\n' => ['\\', 'n']
  | '\r' => ['\\', 'r']
  | '"' => ['\\', '"']
  | '\\' => ['\\', '\\']
  | c =>
    if isInvisible c then ['\\', 'u', '\x7b'] ++ Hexadecimal.digits c.toNat ++ ['\x7d'] else [c]

/-- A string between double quotes, escaped so that it can be read unambiguously. -/
def quoted (s : String) : String :=
  String.ofList ('"' :: s.toList.flatMap quoteChar ++ ['"'])

end VersionStore.Text
