import VersionStore.Json.Printer
import VersionStore.Proofs.Json.Grammar

/-! What printed text spells.

A printed string spells its own characters, some of them by escapes (`Piece.text?_ofString`).
A printed array or object spells what its parts spell, whatever these are
(`Tree.SpelledBy.array`, `Tree.SpelledBy.object`). -/
namespace VersionStore.Json

/-! ### Strings -/

namespace Piece

/-- How a character of a printed string is read back: by its number if it is printed so, and as
itself otherwise. -/
def ofChar (c : Char) : Piece := if (printChar c).length ≤ 2 then .char c else .escape c.toNat

/-- How a printed string is read back. -/
def ofString (s : String) : List Piece := s.toList.map ofChar

/-- The digits of a number below sixteen are read back. -/
theorem digit?_digitChar : ∀ n < 16, Hexadecimal.digit? (Nat.digitChar n) = some n := by decide

/-- A printed character spells one piece. -/
theorem spelledBy_printChar (c : Char) : (ofChar c).SpelledBy (printChar c) := by
  unfold ofChar printChar
  split
  case h_8 hquote hbackslash _ _ _ _ _ =>
    split
    · next hlow =>
      have hhigh := digit?_digitChar (c.toNat / 16) (by omega)
      have hdigit := digit?_digitChar (c.toNat % 16) (by omega)
      have hzero : Hexadecimal.digit? '0' = some 0 := rfl
      have hcode := CodeSpelledBy.digits hzero hzero hhigh hdigit
      have hvalue : 16 * (16 * (16 * 0 + 0) + c.toNat / 16) + c.toNat % 16 = c.toNat := by omega
      rw [hvalue] at hcode
      exact .code hcode
    · next hlow => exact .plain hquote hbackslash (Nat.le_of_not_lt hlow)
  all_goals exact .letter rfl

theorem spellEach_printed (cs : List Char) :
    SpellEach (cs.map ofChar) (cs.flatMap printChar) := by
  induction cs with
  | nil => exact .nil
  | cons c cs ih => exact .cons (spelledBy_printChar c) ih

/-- Only control characters are read back by their numbers. -/
theorem ofChar_cases (c : Char) :
    ofChar c = .char c ∨ ofChar c = .escape c.toNat ∧ c.toNat < 0x20 := by
  unfold ofChar printChar
  split
  case h_8 =>
    split
    · next hlow => exact .inr ⟨if_neg (by simp), hlow⟩
    · exact .inl (if_pos (by simp))
  all_goals exact .inl rfl

theorem text?_escape {code : Nat} (h : code < 0x20) (rest : List Piece) :
    text? (.escape code :: rest) = (text? rest).map (Char.ofNat code :: ·) := by
  have hhigh : isHigh code = false := decide_eq_false (by omega)
  have hlow : isLow code = false := decide_eq_false (by omega)
  rcases rest with _ | ⟨_ | _, _⟩ <;> simp [text?, hhigh, hlow]

/-- The pieces of a printed string spell that string. -/
theorem text?_ofString (s : String) : text? (ofString s) = some s.toList := by
  unfold ofString
  induction s.toList with
  | nil => rfl
  | cons c cs ih =>
    rw [List.map_cons]
    rcases ofChar_cases c with hc | ⟨hc, hlow⟩
    · rw [hc, text?, ih]
      rfl
    · rw [hc, text?_escape hlow, ih, Char.ofNat_toNat]
      rfl

end Piece

namespace Tree

theorem text?_ofString (s : String) : text? (Piece.ofString s) = some s := by
  rw [text?, Piece.text?_ofString, Option.map_some, String.ofList_toList]

/-! ### Values -/

namespace SpelledBy

/-- A printed string spells its pieces. -/
theorem string (s : String) : SpelledBy (.string (Piece.ofString s)) (Value.string s).print :=
  .of_core (.string (Piece.spellEach_printed s.toList))

section
variable {α : Type} {value : α → Value} {tree : α → Tree} {parts : List α}

theorem items (h : ∀ a ∈ parts, SpelledBy (tree a) (value a).print) :
    Items (parts.map tree) (Value.printItems (parts.map value)) := by
  induction parts with
  | nil => exact .nil
  | cons a more ih =>
    obtain ⟨hfirst, hmore⟩ := List.forall_mem_cons.mp h
    exact .cons hfirst (ih hmore)

/-- A printed array spells what its items spell. -/
theorem array (h : ∀ a ∈ parts, SpelledBy (tree a) (value a).print) :
    SpelledBy (.array (parts.map tree)) (Value.array (parts.map value)).print := by
  cases parts with
  | nil => exact .of_core (.emptyArray isBlankText_nil)
  | cons a more =>
    obtain ⟨hfirst, hmore⟩ := List.forall_mem_cons.mp h
    exact .of_core (.array hfirst (items hmore))

end

/-- A printed object with one member spells what the member spells. -/
theorem object {v : Value} {tree : Tree} (h : SpelledBy tree v.print) (key : String) :
    SpelledBy (.object [(Piece.ofString key, tree)]) (Value.object [(key, v)]).print := by
  have hkey : Key (Piece.ofString key) (printString key) := by
    have hpadded := Key.padded isBlankText_nil (Piece.spellEach_printed key.toList) isBlankText_nil
    rwa [List.nil_append, List.append_nil] at hpadded
  exact .of_core (.object hkey h .nil)

end SpelledBy

end Tree

end VersionStore.Json
