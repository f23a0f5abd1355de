/-! Beginnings and ends of strings, character by character. -/
namespace VersionStore.Text

def startsWith (s start : String) : Bool := start.toList.isPrefixOf s.toList

/-- What remains of a list after a beginning. -/
def afterStart? (start : List Char) (s : List Char) : Option (List Char) :=
  if start.isPrefixOf s then some (s.drop start.length) else none

/-- What remains of a list before an end. -/
def beforeEnd? (ending : List Char) (s : List Char) : Option (List Char) :=
  if ending.isSuffixOf s then some (s.take (s.length - ending.length)) else none

/-- Whether a list occurs inside another. -/
def occursIn (part : List Char) : List Char → Bool
  | [] => part.isEmpty
  | c :: rest => part.isPrefixOf (c :: rest) || occursIn part rest

theorem afterStart?_eq_some_iff {start s rest : List Char} :
    afterStart? start s = some rest ↔ s = start ++ rest := by
  unfold afterStart?
  constructor
  · intro h
    split at h
    · next hs =>
      obtain ⟨tail, rfl⟩ := List.isPrefixOf_iff_prefix.mp hs
      cases h
      rw [List.drop_left]
    · cases h
  · rintro rfl
    have hs : start.isPrefixOf (start ++ rest) = true :=
      List.isPrefixOf_iff_prefix.mpr ⟨rest, rfl⟩
    simp [hs]

theorem beforeEnd?_eq_some_iff {ending s stem : List Char} :
    beforeEnd? ending s = some stem ↔ s = stem ++ ending := by
  unfold beforeEnd?
  constructor
  · intro h
    split at h
    · next hs =>
      obtain ⟨front, rfl⟩ := List.isSuffixOf_iff_suffix.mp hs
      simp only [List.length_append, Nat.add_sub_cancel, List.take_left, Option.some.injEq] at h
      rw [h]
    · cases h
  · rintro rfl
    have hs : ending.isSuffixOf (stem ++ ending) = true :=
      List.isSuffixOf_iff_suffix.mpr ⟨stem, rfl⟩
    simp [hs]

end VersionStore.Text
