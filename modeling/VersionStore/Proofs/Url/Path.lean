import VersionStore.Url

/-! Names in paths.

What is percent encoded can be decoded, as long as the percent sign itself is encoded
(`percentDecodeText?_percentEncode`). So a name that is added to a path as one segment
stays one segment, and whoever decodes the segments below the base finds the names again
(`path_below`). The names that are left out or drop characters are no `IsSegment`. -/
namespace VersionStore.Url

/-! ### Percent encoding -/

/-- The digits of a byte are read back. -/
theorem digit?_toUpper :
    ∀ n < 16, Hexadecimal.digit? (Nat.digitChar n).toUpper = some n := by decide

theorem percentDecode_encodeByte (b : UInt8) (rest : List Char) :
    percentDecode (encodeByte b ++ rest) = b :: percentDecode rest := by
  have hb := b.toNat_lt
  have hhigh := digit?_toUpper (b.toNat / 16) (by omega)
  have hlow := digit?_toUpper (b.toNat % 16) (by omega)
  have hcode : UInt8.ofNat (16 * (b.toNat / 16) + b.toNat % 16) = b := by
    rw [Nat.div_add_mod, UInt8.ofNat_toNat]
  simp only [encodeByte, List.cons_append, List.nil_append, percentDecode, hhigh, hlow, hcode]

theorem percentDecode_encodeBytes (bytes : List UInt8) (rest : List Char) :
    percentDecode (bytes.flatMap encodeByte ++ rest) = bytes ++ percentDecode rest := by
  induction bytes with
  | nil => rfl
  | cons b bytes ih =>
    rw [List.flatMap_cons, List.append_assoc, percentDecode_encodeByte, ih, List.cons_append]

/-- A character that is no percent sign stands for itself. -/
theorem percentDecode_cons {c : Char} (h : c ≠ '%') (rest : List Char) :
    percentDecode (c :: rest) = String.utf8EncodeChar c ++ percentDecode rest := by
  rcases rest with _ | ⟨a, _ | ⟨b, rest⟩⟩ <;> simp [percentDecode, h]

/-- The bytes of an encoded text are those of the text. -/
theorem percentDecode_percentEncode {reserved : Char → Bool} (h : reserved '%' = true)
    (cs : List Char) : percentDecode (percentEncode reserved cs) = Text.encodeUtf8 cs := by
  unfold percentEncode Text.encodeUtf8
  induction cs with
  | nil => rfl
  | cons c cs ih =>
    rw [List.flatMap_cons, List.flatMap_cons]
    by_cases hc : reserved c = true
    · rw [if_pos hc, percentDecode_encodeBytes, ih]
    · have hne : c ≠ '%' := by
        rintro rfl
        exact hc h
      rw [if_neg hc, List.singleton_append, percentDecode_cons hne, ih]

/-- The text of an encoded text is the text. -/
theorem percentDecodeText?_percentEncode {reserved : Char → Bool} (h : reserved '%' = true)
    (cs : List Char) : percentDecodeText? (percentEncode reserved cs) = some cs := by
  have hbytes : (⟨(percentDecode (percentEncode reserved cs)).toArray⟩ : ByteArray) =
      (String.ofList cs).toByteArray := by
    rw [percentDecode_percentEncode h, String.toByteArray_ofList]
    exact ByteArray.ext List.data_toByteArray.symm
  unfold percentDecodeText? String.fromUTF8?
  rw [hbytes, dif_pos (String.ofList cs).isValidUTF8]
  exact congrArg some String.toList_ofList

/-- Encoding makes no text shorter. -/
theorem length_le_percentEncode (reserved : Char → Bool) (cs : List Char) :
    cs.length ≤ (percentEncode reserved cs).length := by
  unfold percentEncode
  induction cs with
  | nil => exact Nat.le_refl 0
  | cons c cs ih =>
    have hchar : 1 ≤ (if reserved c then (String.utf8EncodeChar c).flatMap encodeByte
        else [c]).length := by
      split
      · cases hbytes : String.utf8EncodeChar c with
        | nil =>
          have hsize := String.length_utf8EncodeChar c
          rw [hbytes] at hsize
          exact absurd hsize (Nat.ne_of_lt c.utf8Size_pos)
        | cons b bytes => simp [encodeByte]
      · exact Nat.le_refl 1
    rw [List.flatMap_cons, List.length_append, List.length_cons]
    omega

/-! ### Segments -/

/-- Whether a name stays whole and literal when it is added to a path. -/
structure IsSegment (name : String) : Prop where
  nonempty : name.toList ≠ []
  kept : ∀ c ∈ name.toList, isDropped c = false
  not_here : name.toList ≠ ['.']
  not_above : name.toList ≠ ['.', '.']

theorem isSegment_iff {name : String} :
    IsSegment name ↔ name.toList ≠ [] ∧ name.toList.all (!isDropped ·) = true ∧
      name.toList ≠ ['.'] ∧ name.toList ≠ ['.', '.'] := by
  simp only [List.all_eq_true, Bool.not_eq_true']
  exact ⟨fun ⟨h, hkept, hhere, habove⟩ => ⟨h, hkept, hhere, habove⟩,
    fun ⟨h, hkept, hhere, habove⟩ => ⟨h, hkept, hhere, habove⟩⟩

instance (name : String) : Decidable (IsSegment name) := decidable_of_iff' _ isSegment_iff

/-- A name as a segment. -/
def segment (name : String) : List Char := percentEncode reservedInSegment name.toList

/-- A segment decodes to its name. -/
theorem decode_segment (name : String) :
    (percentDecodeText? (segment name)).map String.ofList = some name := by
  rw [segment, percentDecodeText?_percentEncode (by decide), Option.map_some, String.ofList_toList]

theorem segment_injective {name other : String} (h : segment name = segment other) :
    name = other := by
  have hdecode := decode_segment name
  rw [h, decode_segment other] at hdecode
  exact (Option.some.inj hdecode).symm

theorem segment_ne_nil {name : String} (h : name.toList ≠ []) : segment name ≠ [] := by
  intro hsegment
  have hdecode := percentDecodeText?_percentEncode (by decide : reservedInSegment '%' = true)
    name.toList
  rw [← segment, hsegment] at hdecode
  exact h (Option.some.inj (hdecode.symm.trans (percentDecodeText?_percentEncode
    (by decide : reservedInSegment '%' = true) [])))

/-- A name is added as its segment. -/
theorem addName_eq {name : String} (h : IsSegment name) (path : List (List Char)) :
    addName path name.toList = path ++ [segment name] := by
  have hkept : name.toList.filter (!isDropped ·) = name.toList := by
    rw [List.filter_eq_self]
    intro c hc
    rw [h.kept c hc]
    rfl
  have hlast : path ++ [segment name] ≠ [[]] := by
    intro hroot
    have hsegment : segment name ∈ ([[]] : List (List Char)) :=
      hroot ▸ List.mem_append_right _ List.mem_cons_self
    exact segment_ne_nil h.nonempty (List.mem_singleton.mp hsegment)
  unfold addName
  simp only [hkept, h.not_here, h.not_above, or_self, if_false]
  unfold addSegment rooted
  exact if_neg hlast

/-- The path of names below a base: that of the base, and one segment for each name. -/
theorem path_below (base : Url) {names : List String} (h : ∀ name ∈ names, IsSegment name) :
    (base.below names).path = withoutTrailingSlash base.path ++ names.map segment := by
  unfold below
  show (names.map String.toList).foldl addName (withoutTrailingSlash base.path) = _
  generalize withoutTrailingSlash base.path = path
  induction names generalizing path with
  | nil => exact (List.append_nil path).symm
  | cons name rest ih =>
    rw [List.map_cons, List.foldl_cons, addName_eq (h name List.mem_cons_self),
      ih (fun other hother => h other (List.mem_cons_of_mem _ hother)), List.map_cons,
      List.append_assoc, List.singleton_append]

/-! ### Lengths -/

theorem pathText_append_singleton (path : List (List Char)) (segment : List Char) :
    pathText (path ++ [segment]) = path.flatMap ('/' :: ·) ++ '/' :: segment := by
  have hne : path ++ [segment] ≠ [] := by simp
  rw [pathText.eq_2 _ hne, List.flatMap_append, List.flatMap_singleton]

theorem length_pathText_le (url : Url) : (pathText url.path).length ≤ url.text.length := by
  unfold text target
  simp only [String.length_ofList, String.toList_ofList, List.length_append]
  omega

end VersionStore.Url
