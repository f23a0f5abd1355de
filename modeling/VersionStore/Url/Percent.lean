import VersionStore.Number.Hexadecimal
import VersionStore.Text.Bytes

/-! Percent encoding.

A character that may not stand in some part of a URL is written as the bytes of its UTF-8
encoding, each as a percent sign and two hexadecimal digits. Which characters these are
depends on the part. -/
namespace VersionStore.Url

/-- A byte as a percent sign and two hexadecimal digits, upper case. -/
def encodeByte (b : UInt8) : List Char :=
  ['%', (Nat.digitChar (b.toNat / 16)).toUpper, (Nat.digitChar (b.toNat % 16)).toUpper]

/-- Encodes the characters of a kind. -/
def percentEncode (reserved : Char → Bool) (cs : List Char) : List Char :=
  cs.flatMap fun c => if reserved c then (String.utf8EncodeChar c).flatMap encodeByte else [c]

/-- Whether a character is a control character or beyond ASCII; no part of a URL holds one. -/
def isForeign (c : Char) : Bool := decide (c.toNat < 0x20) || decide (0x7E < c.toNat)

def reservedInFragment (c : Char) : Bool := isForeign c || " \"<>`".toList.contains c

def reservedInQuery (c : Char) : Bool := isForeign c || " \"#<>'".toList.contains c

def reservedInPath (c : Char) : Bool := reservedInFragment c || "#?\x7b\x7d".toList.contains c

/-- The characters that are encoded in one segment of a path, which is all of it to be read
literally. -/
def reservedInSegment (c : Char) : Bool := reservedInPath c || "/%\\".toList.contains c

def reservedInUser (c : Char) : Bool := reservedInPath c || "/:;=@[\\]^|".toList.contains c

/-- The bytes of an encoded text. A percent sign without two digits behind it stands for itself. -/
def percentDecode : List Char → List UInt8
  | [] => []
  | '%' :: a :: b :: rest =>
    match Hexadecimal.digit? a, Hexadecimal.digit? b with
    | some high, some low => UInt8.ofNat (16 * high + low) :: percentDecode rest
    | _, _ => '%'.toUInt8 :: percentDecode (a :: b :: rest)
  | c :: rest => String.utf8EncodeChar c ++ percentDecode rest

/-- The text of an encoded text, if its bytes are UTF-8. -/
def percentDecodeText? (cs : List Char) : Option (List Char) :=
  (String.fromUTF8? ⟨(percentDecode cs).toArray⟩).map String.toList

end VersionStore.Url
