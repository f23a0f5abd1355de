import VersionStore.Cache.Key

/-! Keys that never meet.

The length in front of a text says where the text ends, whatever characters it has, so
the parts of an encoded key can be told apart and no two keys share an encoding
(`encode_injective`). -/
namespace VersionStore

namespace Text

/-- Of two beginnings of one text, those of equal length in bytes are equal. -/
theorem append_inj_of_byteLength {a b x y : List Char} (hlength : byteLength a = byteLength b)
    (h : a ++ x = b ++ y) : a = b ∧ x = y := by
  induction a generalizing b with
  | nil =>
    cases b with
    | nil => exact ⟨rfl, h⟩
    | cons c rest =>
      have := c.utf8Size_pos
      simp only [byteLength] at hlength
      omega
  | cons c rest ih =>
    cases b with
    | nil =>
      have := c.utf8Size_pos
      simp only [byteLength] at hlength
      omega
    | cons d rest' =>
      obtain ⟨rfl, hrest⟩ := List.cons.inj h
      simp only [byteLength, Nat.add_left_cancel_iff] at hlength
      obtain ⟨rfl, hx⟩ := ih hlength hrest
      exact ⟨rfl, hx⟩

end Text

namespace CacheKey

theorem toDigits_inj {m n : Nat} (h : Nat.toDigits 10 m = Nat.toDigits 10 n) : m = n := by
  rw [← Nat.ofDigitChars_ten_toDigits (n := m), h, Nat.ofDigitChars_ten_toDigits]

theorem ne_colon_of_mem_toDigits {n : Nat} {c : Char} (h : c ∈ Nat.toDigits 10 n) :
    (c != ':') = true := by
  have hdigit := Nat.isDigit_of_mem_toDigits (by omega) (by omega) h
  rw [bne_iff_ne]
  rintro rfl
  exact absurd hdigit (by decide)

/-- What stands in front of the colon is the length. -/
theorem takeWhile_sized (text rest : List Char) :
    (sized text ++ rest).takeWhile (· != ':') = Nat.toDigits 10 (Text.byteLength text) := by
  rw [sized, List.append_assoc, List.takeWhile_append_of_pos fun c => ne_colon_of_mem_toDigits]
  simp

theorem sized_append_inj {a b x y : List Char} (h : sized a ++ x = sized b ++ y) :
    a = b ∧ x = y := by
  have hdigits := congrArg (List.takeWhile (· != ':')) h
  rw [takeWhile_sized, takeWhile_sized] at hdigits
  have hlength := toDigits_inj hdigits
  unfold sized at h
  rw [hlength, List.append_assoc, List.append_assoc, List.append_cancel_left_eq] at h
  exact Text.append_inj_of_byteLength hlength (List.cons.inj h).2

theorem letter_inj {a b : Lookup} (h : a.letter = b.letter) : a = b := by
  cases a <;> cases b <;> first | rfl | exact absurd h (by decide)

/-- No two keys share an encoding. -/
theorem encode_injective {a b : CacheKey} (h : a.encode = b.encode) : a = b := by
  obtain ⟨⟨scope, _, _⟩, classification, lookup, text⟩ := a
  obtain ⟨⟨scope', _, _⟩, classification', lookup', text'⟩ := b
  have h := String.ofList_injective h
  simp only [chars, List.append_assoc] at h
  obtain ⟨hscope, h⟩ := sized_append_inj h
  obtain ⟨hclassification, h⟩ := sized_append_inj h
  obtain ⟨hletter, htext⟩ := List.cons.inj h
  obtain rfl := String.toList_inj.mp hscope
  obtain rfl := String.toList_inj.mp hclassification
  obtain rfl := letter_inj hletter
  obtain rfl := String.toList_inj.mp htext
  rfl

end CacheKey

end VersionStore
