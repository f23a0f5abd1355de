import VersionStore.Proofs.Cache.Reading
import VersionStore.Proofs.Number.Decimal

/-! All spellings of a key.

A length is read the way any unsigned word is, so a sign and zeros may stand in front of it.
They change nothing about the key that is read. Hence a key has many spellings, and these
are exactly the texts that it is read from; its encoding is the one in which neither length
has anything in front (`decode_iff_spelled`). -/
namespace VersionStore

namespace CacheKey

open Decimal (Lead)

/-- The characters of a key, with something in front of the length of its namespace and of that
of its classification. -/
def charsBehind (front back : Lead) (key : CacheKey) : List Char :=
  front.chars ++ (sized key.scope.text.toList ++
    (back.chars ++ (sized key.classification.toList ++ key.lookup.letter :: key.text.toList)))

def spelled (front back : Lead) (key : CacheKey) : String :=
  String.ofList (key.charsBehind front back)

/-- The encoding of a key is its plainest spelling. -/
theorem encode_eq (key : CacheKey) : key.encode = key.spelled {} {} := by
  have hchars : key.chars = key.charsBehind {} {} := List.append_assoc ..
  rw [encode, spelled, hchars]

theorem ne_colon_of_mem_lead {lead : Lead} {n : Nat} {c : Char}
    (h : c ∈ lead.chars ++ Nat.toDigits 10 n) : (c != ':') = true := by
  rcases List.mem_append.mp h with h | h
  · rcases List.mem_append.mp h with h | h
    · split at h
      · obtain rfl := List.mem_singleton.mp h
        rfl
      · cases h
    · rw [List.eq_of_mem_replicate h]
      rfl
  · exact ne_colon_of_mem_toDigits h

theorem lead_append_sized (lead : Lead) (text rest : List Char) :
    lead.chars ++ (sized text ++ rest) =
      (lead.chars ++ Nat.toDigits 10 (Text.byteLength text)) ++ ':' :: (text ++ rest) := by
  simp [sized]

theorem takeWhile_lead (lead : Lead) (text rest : List Char) :
    (lead.chars ++ (sized text ++ rest)).takeWhile (· != ':') =
      lead.chars ++ Nat.toDigits 10 (Text.byteLength text) := by
  rw [lead_append_sized, List.takeWhile_append_of_pos fun c => ne_colon_of_mem_lead]
  simp

theorem dropWhile_lead (lead : Lead) (text rest : List Char) :
    (lead.chars ++ (sized text ++ rest)).dropWhile (· != ':') = ':' :: (text ++ rest) := by
  rw [lead_append_sized, List.dropWhile_append_of_pos fun c => ne_colon_of_mem_lead]
  simp

/-- What is split off stood behind its length, which may have had something in front. -/
theorem takeSized_eq_some_iff {cs text rest : List Char} :
    takeSized cs = some (text, rest) ↔ Text.byteLength text < 0x10000000000000000 ∧
      ∃ lead : Lead, cs = lead.chars ++ (sized text ++ rest) := by
  constructor
  · intro h
    unfold takeSized at h
    split at h
    · cases h
    · next colon behind hbehind =>
      obtain ⟨n, hword, htake⟩ := Option.bind_eq_some_iff.mp h
      obtain ⟨hlt, lead, hfront⟩ := Decimal.word?_eq_some_iff.mp hword
      obtain ⟨rfl, rfl⟩ := takeBytes_eq_some_iff.mp htake
      have hcolon : colon = ':' := by
        have hnot := List.head?_dropWhile_not (· != ':') cs
        rw [hbehind] at hnot
        simpa using hnot
      refine ⟨hlt, lead, ?_⟩
      subst hcolon
      rw [lead_append_sized, ← hfront, ← hbehind, List.takeWhile_append_dropWhile]
  · rintro ⟨hlt, lead, rfl⟩
    unfold takeSized
    rw [dropWhile_lead, takeWhile_lead]
    show (Decimal.word? _).bind _ = _
    rw [Decimal.word?_eq_some_iff.mpr ⟨hlt, lead, rfl⟩]
    exact takeBytes_eq_some_iff.mpr ⟨rfl, rfl⟩

theorem lead_append_sized_inj {a b : Lead} {text text' rest rest' : List Char}
    (h : a.chars ++ (sized text ++ rest) = b.chars ++ (sized text' ++ rest')) :
    a = b ∧ text = text' ∧ rest = rest' := by
  have hfront := congrArg (List.takeWhile (· != ':')) h
  rw [takeWhile_lead, takeWhile_lead] at hfront
  obtain ⟨rfl, -⟩ := Decimal.lead_append_toDigits_inj hfront
  exact ⟨rfl, sized_append_inj (List.append_cancel_left h)⟩

/-- The parts that spell a key. -/
theorem ofParts?_eq_some_iff {scope classification rest : List Char} {key : CacheKey} :
    ofParts? scope classification rest = some key ↔
      scope = key.scope.text.toList ∧ classification = key.classification.toList ∧
        rest = key.lookup.letter :: key.text.toList := by
  cases rest with
  | nil => exact ⟨nofun, fun h => by cases h.2.2⟩
  | cons letter text =>
    constructor
    · intro h
      obtain ⟨lookup, hletter, h⟩ := Option.bind_eq_some_iff.mp h
      obtain ⟨ns, hscope, h⟩ := Option.bind_eq_some_iff.mp h
      cases h
      obtain rfl := Lookup.ofLetter?_eq_some_iff.mp hletter
      have hscope : Namespace.parse (String.ofList scope) = .ok ns := by
        cases hparse : Namespace.parse (String.ofList scope) with
        | error e => rw [hparse] at hscope; cases hscope
        | ok found => rw [hparse] at hscope; cases hscope; rfl
      rw [← Namespace.parse_eq_ok_iff.mp hscope]
      simp
    · rintro ⟨rfl, rfl, hrest⟩
      obtain ⟨rfl, rfl⟩ := List.cons.inj hrest
      have hletter := Lookup.ofLetter?_eq_some_iff.mpr (rfl : key.lookup.letter = key.lookup.letter)
      simp [ofParts?, hletter, Namespace.parse_text, Except.toOption]

/-- **Which texts are keys.** A text is read as a key if it spells the key, the way its
encoding does except that a sign and zeros may stand in front of each length; the lengths are
those of texts that fit in a memory. It is the encoding of the key that is read exactly if
neither length has anything in front. -/
theorem decode_iff_spelled (s : String) (key : CacheKey) :
    (decode? s = some key ↔ Text.byteLength key.classification.toList < 0x10000000000000000 ∧
      ∃ front back : Lead, s = key.spelled front back) ∧
    ∀ front back : Lead, s = key.spelled front back →
      (key.encode = s ↔ front = {} ∧ back = {}) := by
  refine ⟨⟨fun h => ?_, ?_⟩, ?_⟩
  · rw [decode?_eq] at h
    obtain ⟨⟨scope, behind⟩, hscope, h⟩ := Option.bind_eq_some_iff.mp h
    obtain ⟨⟨classification, rest⟩, hclassification, h⟩ := Option.bind_eq_some_iff.mp h
    obtain ⟨-, front, hs⟩ := takeSized_eq_some_iff.mp hscope
    obtain ⟨hlength, back, hbehind⟩ := takeSized_eq_some_iff.mp hclassification
    obtain ⟨rfl, rfl, rfl⟩ := ofParts?_eq_some_iff.mp h
    refine ⟨hlength, front, back, ?_⟩
    rw [spelled, charsBehind, ← hbehind, ← hs, String.ofList_toList]
  · rintro ⟨hlength, front, back, rfl⟩
    rw [decode?_eq, spelled, String.toList_ofList, charsBehind,
      takeSized_eq_some_iff.mpr ⟨byteLength_scope key.scope, front, rfl⟩, Option.bind_some,
      takeSized_eq_some_iff.mpr ⟨hlength, back, rfl⟩, Option.bind_some]
    exact ofParts?_eq_some_iff.mpr ⟨rfl, rfl, rfl⟩
  · rintro front back rfl
    constructor
    · intro h
      rw [encode_eq] at h
      obtain ⟨rfl, -, h⟩ := lead_append_sized_inj (String.ofList_injective h)
      obtain ⟨rfl, -⟩ := lead_append_sized_inj h
      exact ⟨rfl, rfl⟩
    · rintro ⟨rfl, rfl⟩
      exact key.encode_eq

/-- A sign in front of a length, and zeros in front of another: the same key is read from both
texts, and neither is its encoding. -/
theorem decode_signed_length : ∃ key : CacheKey,
    decode? "+4:org19:datastorepab" = some key ∧ key.encode ≠ "+4:org19:datastorepab" ∧
      decode? "4:org1009:datastorepab" = some key ∧ key.encode ≠ "4:org1009:datastorepab" :=
  ⟨⟨⟨"org1", by decide, by decide⟩, "datastore", .start, "ab"⟩, by decide, by decide, by decide,
    by decide⟩

end CacheKey
end VersionStore
