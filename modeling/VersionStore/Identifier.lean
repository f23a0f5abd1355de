import VersionStore.Digest.Sha256
import VersionStore.Text.Affix
import VersionStore.Text.Bytes

/-! Identifiers of paths.

All versions of a path share one identifier, the first half of the path's SHA-256 digest
in hexadecimal; versions differ only in their timestamp. -/
namespace VersionStore

/-- The identifier of a path. Any text can stand here: one read back from an engine need
not come from a path. -/
structure Identifier where
  text : String
  deriving DecidableEq

namespace Identifier

/-- The digest bytes that an identifier keeps. -/
def keptBytes : Nat := 16

def digits (path : String) : List Char :=
  Text.hex ((Digest.sha256 (Text.encodeUtf8 path.toList)).take keptBytes)

def derive (path : String) : Identifier := ⟨String.ofList (digits path)⟩

def startsWith (identifier : Identifier) (start : String) : Bool :=
  Text.startsWith identifier.text start

/-- The order of identifiers is that of their texts. -/
def compare (a b : Identifier) : Ordering := Ord.compare a.text b.text

theorem length_digits (path : String) : (digits path).length = 32 := by
  rw [digits, Text.length_hex, List.length_take, Digest.length_sha256]
  rfl

theorem length_derive (path : String) : (derive path).text.length = 32 := by
  rw [derive, String.length_ofList, length_digits]

theorem derive_text_ne_empty (path : String) : (derive path).text ≠ "" := by
  intro hempty
  have hlength := length_derive path
  rw [hempty] at hlength
  cases hlength

theorem startsWith_eq_true_iff {identifier : Identifier} {start : String} :
    identifier.startsWith start = true ↔ start.toList <+: identifier.text.toList :=
  List.isPrefixOf_iff_prefix

/-- A text that the identifier of a path starts with is not longer than it, and is in
hexadecimal. -/
theorem of_startsWith_derive {path start : String} (h : (derive path).startsWith start = true) :
    start.length ≤ 32 ∧ ∀ c ∈ start.toList, c ∈ Text.hexDigits := by
  have hbegins : start.toList <+: digits path := by
    simpa [derive] using startsWith_eq_true_iff.mp h
  refine ⟨?_, fun c hc => Text.mem_hexDigits_of_mem_hex (hbegins.subset hc)⟩
  rw [← length_digits path]
  exact hbegins.length_le

/-- The identifier of a path starts with a whole one only if it is that one. -/
theorem startsWith_derive_iff {path other : String} :
    (derive path).startsWith (derive other).text = true ↔ derive path = derive other := by
  rw [startsWith_eq_true_iff]
  constructor
  · intro h
    have hlength : (derive other).text.toList.length = (derive path).text.toList.length :=
      (length_derive other).trans (length_derive path).symm
    have htext := String.toList_inj.mp (h.eq_of_length hlength)
    exact congrArg Identifier.mk htext.symm
  · intro h
    exact h ▸ List.prefix_rfl

end Identifier

end VersionStore
