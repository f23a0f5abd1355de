import VersionStore.Engine.Wildcard

/-! What a pattern covers.

A pattern covers a name if the name comes out of it once each star is replaced by some text
(`covers_iff_fill`). To find that out by trying takes all ways to cut the name. The search
from left to right takes each part at its first occurrence and never goes back, and it finds
the same names (`wildcardMatches_eq`): whatever fits behind a later occurrence also fits
behind the first one, where more is left. So a pattern matches the names that it can be
filled to, and no others (`wildcardMatches_iff_fill`). -/
namespace VersionStore

namespace Wildcard

/-- Whether a pattern covers a name; for a star, all that it can stand for is tried. -/
def covers : List Char → List Char → Bool
  | [], name => name.isEmpty
  | c :: pattern, name =>
    if c = '*' then (List.range (name.length + 1)).any fun n => covers pattern (name.drop n)
    else name.head? == some c && covers pattern name.tail

/-- A pattern with a text in the place of each star, in order. -/
def fill : List Char → List (List Char) → List Char
  | [], _ => []
  | c :: pattern, texts =>
    if c = '*' then texts.headD [] ++ fill pattern texts.tail else c :: fill pattern texts

/-- Whether texts occur one after the other, each behind a gap, the last one at the end. -/
def Fits : List (List Char) → List Char → Prop
  | [], rest => rest = []
  | part :: parts, rest => ∃ gap behind, rest = gap ++ (part ++ behind) ∧ Fits parts behind

theorem covers_star {pattern name : List Char} :
    covers ('*' :: pattern) name = true ↔
      ∃ gap rest, name = gap ++ rest ∧ covers pattern rest = true := by
  rw [covers, if_pos rfl, List.any_eq_true]
  constructor
  · rintro ⟨n, -, hcovers⟩
    exact ⟨name.take n, name.drop n, (List.take_append_drop n name).symm, hcovers⟩
  · rintro ⟨gap, rest, rfl, hcovers⟩
    refine ⟨gap.length, List.mem_range.mpr ?_, ?_⟩
    · rw [List.length_append]
      omega
    · rwa [List.drop_left]

/-- A pattern covers the names that it can be filled to, with as many texts as it has stars. -/
theorem covers_iff_fill {pattern name : List Char} :
    covers pattern name = true ↔
      ∃ texts : List (List Char), texts.length = pattern.count '*' ∧ fill pattern texts = name := by
  induction pattern generalizing name with
  | nil =>
    rw [covers, List.isEmpty_iff]
    constructor
    · rintro rfl
      exact ⟨[], rfl, rfl⟩
    · rintro ⟨_, -, rfl⟩
      rfl
  | cons c pattern ih =>
    by_cases hstar : c = '*'
    · subst hstar
      rw [covers_star, List.count_cons_self]
      constructor
      · rintro ⟨gap, rest, rfl, hcovers⟩
        obtain ⟨texts, hlength, rfl⟩ := ih.mp hcovers
        exact ⟨gap :: texts, congrArg (· + 1) hlength, by simp [fill]⟩
      · rintro ⟨texts, hlength, rfl⟩
        obtain ⟨gap, texts, rfl⟩ := List.exists_cons_of_length_eq_add_one hlength
        refine ⟨gap, fill pattern texts, by simp [fill], ih.mpr ⟨texts, ?_, rfl⟩⟩
        exact Nat.succ.inj hlength
    · rw [List.count_cons_of_ne hstar, covers, if_neg hstar, Bool.and_eq_true, ih]
      constructor
      · rintro ⟨hhead, texts, hlength, htail⟩
        refine ⟨texts, hlength, ?_⟩
        rw [fill, if_neg hstar, htail]
        obtain ⟨rest, rfl⟩ := List.head?_eq_some_iff.mp (beq_iff_eq.mp hhead)
        rfl
      · rintro ⟨texts, hlength, rfl⟩
        exact ⟨by simp [fill, hstar], texts, hlength, by simp [fill, hstar]⟩

/-- A pattern covers a name that starts with its first part, if the others fit what is left. -/
theorem covers_iff {pattern name : List Char} :
    covers pattern name = true ↔
      ∃ rest, name = (parts pattern).1 ++ rest ∧ Fits (parts pattern).2 rest := by
  induction pattern generalizing name with
  | nil => simp [covers, parts, Fits]
  | cons c pattern ih =>
    by_cases hstar : c = '*'
    · subst hstar
      rw [covers_star]
      simp only [parts, if_pos, List.nil_append, Fits, ih]
      constructor
      · rintro ⟨gap, _, rfl, behind, rfl, hfits⟩
        exact ⟨_, rfl, gap, behind, rfl, hfits⟩
      · rintro ⟨_, rfl, gap, behind, rfl, hfits⟩
        exact ⟨gap, _, rfl, behind, rfl, hfits⟩
    · simp only [covers, parts, if_neg hstar, List.cons_append]
      cases name with
      | nil => simp
      | cons d name =>
        simp only [List.head?_cons, List.tail_cons, Bool.and_eq_true, beq_iff_eq, Option.some.injEq,
          ih, List.cons.injEq]
        constructor
        · rintro ⟨rfl, rest, rfl, hfits⟩
          exact ⟨rest, ⟨rfl, rfl⟩, hfits⟩
        · rintro ⟨rest, ⟨rfl, rfl⟩, hfits⟩
          exact ⟨rfl, rest, rfl, hfits⟩

theorem parts_of_not_mem {pattern : List Char} (h : '*' ∉ pattern) :
    parts pattern = (pattern, []) := by
  induction pattern with
  | nil => rfl
  | cons c rest ih =>
    rw [List.mem_cons, not_or] at h
    obtain ⟨hc, hrest⟩ := h
    simp [parts, ih hrest, Ne.symm hc]

/-- What is found at the first occurrence of a text stands behind it. -/
theorem eq_of_afterFirst? {part rest behind : List Char} (h : afterFirst? part rest = some behind) :
    ∃ gap, rest = gap ++ (part ++ behind) := by
  induction rest with
  | nil =>
    unfold afterFirst? at h
    split at h
    · next hempty =>
      cases h
      exact ⟨[], by simpa using hempty⟩
    · cases h
  | cons c rest ih =>
    unfold afterFirst? at h
    split at h
    · next hprefix =>
      obtain ⟨tail, htail⟩ := List.isPrefixOf_iff_prefix.mp hprefix
      cases h
      exact ⟨[], by simp [← htail]⟩
    · obtain ⟨gap, hgap⟩ := ih h
      exact ⟨c :: gap, by rw [hgap, List.cons_append]⟩

/-- Behind the first occurrence of a text stands all that stands behind any other. -/
theorem suffix_of_afterFirst? (part gap behind : List Char) :
    ∃ first, afterFirst? part (gap ++ (part ++ behind)) = some first ∧ behind <:+ first := by
  induction gap with
  | nil =>
    refine ⟨behind, ?_, List.suffix_rfl⟩
    cases part with
    | nil => cases behind <;> rfl
    | cons c part => simp [afterFirst?, List.isPrefixOf_iff_prefix]
  | cons c gap ih =>
    rw [List.cons_append, afterFirst?]
    split
    · next hprefix =>
      -- found before the gap ends: more is left, and it ends in the same text
      refine ⟨_, rfl, List.suffix_of_suffix_length_le ?_ (List.drop_suffix ..) ?_⟩
      · exact ⟨c :: (gap ++ part), by simp⟩
      · simp only [List.length_drop, List.length_cons, List.length_append]
        omega
    · exact ih

/-- What fits a text fits a longer one with the same end, unless nothing may precede it. -/
theorem Fits.of_suffix {part : List Char} {parts : List (List Char)} {rest longer : List Char}
    (h : Fits (part :: parts) rest) (hsuffix : rest <:+ longer) : Fits (part :: parts) longer := by
  obtain ⟨front, rfl⟩ := hsuffix
  obtain ⟨gap, behind, rfl, hfits⟩ := h
  exact ⟨front ++ gap, behind, (List.append_assoc ..).symm, hfits⟩

theorem tailMatches_cons (part next : List Char) (parts : List (List Char)) (rest : List Char) :
    tailMatches (part :: next :: parts) rest =
      (afterFirst? part rest).any (tailMatches (next :: parts)) := by
  cases h : afterFirst? part rest <;> simp [tailMatches, h]

theorem matchesChars_eq (pattern name : List Char) :
    matchesChars pattern name =
      (Text.afterStart? (parts pattern).1 name).any (tailMatches (parts pattern).2) := by
  cases h : Text.afterStart? (parts pattern).1 name <;> simp [matchesChars, h]

/-- The search from left to right finds out whether texts fit. -/
theorem tailMatches_iff {parts : List (List Char)} {rest : List Char} :
    tailMatches parts rest = true ↔ Fits parts rest := by
  induction parts generalizing rest with
  | nil => simp [tailMatches, Fits]
  | cons part parts ih =>
    cases parts with
    | nil =>
      simp only [tailMatches, List.isSuffixOf_iff_suffix, Fits]
      constructor
      · rintro ⟨gap, rfl⟩
        exact ⟨gap, [], by rw [List.append_nil], rfl⟩
      · rintro ⟨gap, _, rfl, rfl⟩
        exact ⟨gap, by rw [List.append_nil]⟩
    | cons next parts =>
      rw [tailMatches_cons, Option.any_eq_true]
      constructor
      · rintro ⟨behind, hfirst, htail⟩
        obtain ⟨gap, rfl⟩ := eq_of_afterFirst? hfirst
        exact ⟨gap, behind, rfl, ih.mp htail⟩
      · rintro ⟨gap, behind, rfl, hfits⟩
        obtain ⟨first, hfirst, hsuffix⟩ := suffix_of_afterFirst? part gap behind
        exact ⟨first, hfirst, ih.mpr (hfits.of_suffix hsuffix)⟩

end Wildcard

open Wildcard in
/-- Patterns match the names that they cover. -/
theorem wildcardMatches_eq (pattern name : String) :
    wildcardMatches pattern name = covers pattern.toList name.toList := by
  rw [Bool.eq_iff_iff, covers_iff, wildcardMatches, matchesChars_eq, Option.any_eq_true]
  simp only [Text.afterStart?_eq_some_iff, tailMatches_iff]

open Wildcard in
/-- **Matching is exact.** A pattern matches a name if and only if the name is the pattern with
some text, possibly an empty one, in the place of each star. -/
theorem wildcardMatches_iff_fill (pattern name : String) :
    wildcardMatches pattern name = true ↔
      ∃ texts : List (List Char), texts.length = pattern.toList.count '*' ∧
        fill pattern.toList texts = name.toList := by
  rw [wildcardMatches_eq, covers_iff_fill]

/-- One `a` cannot be both what stands before the star and what stands behind it. -/
example : wildcardMatches "a*a" "a" = false ∧ wildcardMatches "a*ab*b" "aabab" = true := by
  decide

open Wildcard in
/-- A pattern without stars matches its own text only. -/
theorem wildcardMatches_iff {pattern : String} (h : '*' ∉ pattern.toList) (name : String) :
    wildcardMatches pattern name = true ↔ name = pattern := by
  rw [wildcardMatches_eq, covers_iff, parts_of_not_mem h]
  simp [Fits, String.toList_inj]

end VersionStore
