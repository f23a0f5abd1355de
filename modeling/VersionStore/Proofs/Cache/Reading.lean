import VersionStore.Proofs.Cache.Key

/-! Reading keys back.

An encoded key reads back as the key it was made from, so no two keys share an encoding
(`decode_encode`). On any other text a reader has to trust digits that may claim any
length: it cuts the text where they say, and a cut past the end of the text or inside a
character is a fault. The reader looks at the bytes first. It cuts only where the text has
that many bytes and the next one does not continue a character; those are exactly the
places between characters (`isBoundary_encodeUtf8_iff`), so no text whatsoever makes it
fault. -/
namespace VersionStore

namespace Text

/-! ### Places between characters, seen from the bytes -/

/-- Whether a byte is the first of a character: the others have `10` as highest bits. -/
def startsCharacter (b : UInt8) : Bool := b.toNat / 64 != 2

/-- Whether so many bytes from the front of an encoded text end between two characters, or
at an end of the text. -/
def isBoundary (n : Nat) (bytes : List UInt8) : Bool :=
  n == 0 || n == bytes.length || bytes[n]?.any startsCharacter

theorem startsCharacter_ofNat {n : Nat} (h : n < 256) :
    startsCharacter (UInt8.ofNat n) = (n / 64 != 2) := by
  rw [startsCharacter, UInt8.toNat_ofNat', Nat.mod_eq_of_lt h]

/-- A byte that holds six bits of a character continues it. -/
theorem startsCharacter_continuation (n : Nat) :
    startsCharacter (UInt8.ofNat (n % 64 + 128)) = false := by
  rw [startsCharacter_ofNat (by omega), bne_eq_false_iff_eq]
  omega

/-- A character is encoded as a byte that starts it and bytes that continue it. -/
theorem exists_utf8EncodeChar (c : Char) : ∃ first more,
    String.utf8EncodeChar c = first :: more ∧ startsCharacter first = true ∧
      ∀ b ∈ more, startsCharacter b = false := by
  unfold String.utf8EncodeChar
  extract_lets v
  by_cases hone : v ≤ 127
  · rw [if_pos hone]
    refine ⟨_, _, rfl, ?_, by simp⟩
    rw [startsCharacter_ofNat (by omega), bne_iff_ne]
    omega
  rw [if_neg hone]
  -- Two, three or four bytes: what stands above the bits of the first one is never `10`.
  by_cases htwo : v ≤ 2047
  · rw [if_pos htwo]
    refine ⟨_, _, rfl, ?_, by simp only [List.forall_mem_cons, startsCharacter_continuation,
      List.not_mem_nil, false_implies, implies_true, and_self]⟩
    rw [startsCharacter_ofNat (by omega), bne_iff_ne]
    omega
  rw [if_neg htwo]
  split <;>
    refine ⟨_, _, rfl, ?_, by simp only [List.forall_mem_cons, startsCharacter_continuation,
      List.not_mem_nil, false_implies, implies_true, and_self]⟩ <;>
    rw [startsCharacter_ofNat (by omega), bne_iff_ne] <;> omega

/-- No character of a text starts inside its first one. -/
theorem isBoundary_inside {c : Char} {n : Nat} (rest : List Char) (hpos : 0 < n)
    (hlt : n < c.utf8Size) : isBoundary n (encodeUtf8 (c :: rest)) = false := by
  obtain ⟨first, more, hbytes, -, hmore⟩ := exists_utf8EncodeChar c
  have hsize := String.length_utf8EncodeChar c
  rw [hbytes, List.length_cons] at hsize
  obtain ⟨k, rfl⟩ : ∃ k, n = k + 1 := ⟨n - 1, by omega⟩
  have hk : k < more.length := by omega
  have hbyte : (encodeUtf8 (c :: rest))[k + 1]? = some more[k] := by
    rw [encodeUtf8_cons, hbytes, List.cons_append, List.getElem?_cons_succ,
      List.getElem?_append_left hk, List.getElem?_eq_getElem hk]
  have hlength := length_encodeUtf8 (c :: rest)
  rw [byteLength] at hlength
  simp only [isBoundary, hbyte, Option.any_some, hmore _ (List.getElem_mem hk), Bool.or_false,
    Bool.or_eq_false_iff, beq_eq_false_iff_ne]
  omega

/-- Past the first character of a text, the places are those of the others. -/
theorem isBoundary_past (c : Char) (n : Nat) (rest : List Char) :
    isBoundary (c.utf8Size + n) (encodeUtf8 (c :: rest)) = isBoundary n (encodeUtf8 rest) := by
  have hpos := c.utf8Size_pos
  have hbyte : (encodeUtf8 (c :: rest))[c.utf8Size + n]? = (encodeUtf8 rest)[n]? := by
    rw [encodeUtf8_cons, List.getElem?_append_right (by rw [String.length_utf8EncodeChar]; omega),
      String.length_utf8EncodeChar, Nat.add_sub_cancel_left]
  have hzero : (c.utf8Size + n == 0) = false := beq_eq_false_iff_ne.mpr (by omega)
  have hend : (c.utf8Size + n == (encodeUtf8 (c :: rest)).length) =
      (n == (encodeUtf8 rest).length) := by
    rw [length_encodeUtf8, length_encodeUtf8, byteLength, Bool.eq_iff_iff, beq_iff_eq, beq_iff_eq]
    omega
  rw [isBoundary, hzero, hend, hbyte, Bool.false_or, isBoundary]
  cases n with
  | succ n => rfl
  | zero =>
    -- Right behind the first character, the text ends or another character starts.
    cases rest with
    | nil => rfl
    | cons d others =>
      obtain ⟨first, more, hbytes, hfirst, -⟩ := exists_utf8EncodeChar d
      rw [encodeUtf8_cons, hbytes]
      simp [hfirst]

/-- Bytes end between two characters exactly where some of the characters have that many. -/
theorem isBoundary_encodeUtf8_iff (n : Nat) (cs : List Char) :
    isBoundary n (encodeUtf8 cs) = true ↔ ∃ a b, cs = a ++ b ∧ byteLength a = n := by
  induction cs generalizing n with
  | nil =>
    cases n with
    | zero => exact ⟨fun _ => ⟨[], [], rfl, rfl⟩, fun _ => rfl⟩
    | succ n =>
      constructor
      · intro h
        exact absurd h (by simp [isBoundary, encodeUtf8])
      · rintro ⟨a, b, hab, hlength⟩
        obtain ⟨rfl, -⟩ := List.append_eq_nil_iff.mp hab.symm
        cases hlength
  | cons c rest ih =>
    rcases Nat.eq_zero_or_pos n with rfl | hpos
    · exact ⟨fun _ => ⟨[], c :: rest, rfl, rfl⟩, fun _ => rfl⟩
    constructor
    · intro h
      have hsize : c.utf8Size ≤ n := by
        refine Nat.le_of_not_lt fun hlt => ?_
        rw [isBoundary_inside rest hpos hlt] at h
        cases h
      obtain ⟨m, rfl⟩ := Nat.exists_eq_add_of_le hsize
      rw [isBoundary_past] at h
      obtain ⟨a, b, rfl, rfl⟩ := (ih m).mp h
      exact ⟨c :: a, b, rfl, rfl⟩
    · rintro ⟨a, b, hab, rfl⟩
      cases a with
      | nil => exact absurd hpos (by simp [byteLength])
      | cons d a =>
        obtain ⟨rfl, rfl⟩ := List.cons.inj hab
        rw [byteLength, isBoundary_past]
        exact (ih _).mpr ⟨a, b, rfl, rfl⟩

end Text

namespace CacheKey

/-! ### Cutting a text -/

/-- Splitting off a number of bytes gives two parts of the text, the first of that length. -/
theorem takeBytes_eq_some_iff {n : Nat} {cs a b : List Char} :
    takeBytes n cs = some (a, b) ↔ cs = a ++ b ∧ Text.byteLength a = n := by
  constructor
  · intro h
    induction n, cs using takeBytes.induct generalizing a with
    | case1 cs =>
      rw [takeBytes] at h
      obtain ⟨rfl, rfl⟩ := Prod.mk.inj (Option.some.inj h)
      exact ⟨rfl, rfl⟩
    | case2 n => cases h
    | case3 n c rest hle ih =>
      rw [takeBytes, if_pos hle] at h
      obtain ⟨⟨taken, left⟩, htake, hparts⟩ := Option.map_eq_some_iff.mp h
      obtain ⟨rfl, rfl⟩ := Prod.mk.inj hparts
      obtain ⟨rfl, hlength⟩ := ih htake
      exact ⟨rfl, by rw [Text.byteLength, hlength]; omega⟩
    | case4 n c rest hgt =>
      rw [takeBytes, if_neg hgt] at h
      cases h
  · rintro ⟨rfl, rfl⟩
    induction a with
    | nil => rw [Text.byteLength, takeBytes, List.nil_append]
    | cons c a ih =>
      obtain ⟨k, hk⟩ : ∃ k, c.utf8Size = k + 1 :=
        ⟨c.utf8Size - 1, (Nat.sub_add_cancel c.utf8Size_pos).symm⟩
      have hlength : Text.byteLength (c :: a) = k + Text.byteLength a + 1 := by
        rw [Text.byteLength, hk]; omega
      have hrest : k + Text.byteLength a + 1 - c.utf8Size = Text.byteLength a := by omega
      rw [hlength, List.cons_append, takeBytes, if_pos (by omega), hrest, ih]
      rfl

/-- How the cut of a text goes wrong. -/
inductive CutFault where
  | beyond
  | inside
  deriving DecidableEq

/-- Cuts a text after a number of bytes. -/
def cut (n : Nat) (cs : List Char) : Except CutFault (List Char × List Char) :=
  if Text.byteLength cs < n then .error .beyond
  else match takeBytes n cs with
    | some parts => .ok parts
    | none => .error .inside

/-- A result that may be missing, without a fault. -/
def faultless {α : Type} (result : Option α) : OptionT (Except CutFault) α :=
  OptionT.mk (.ok result)

/-- Cuts a text after a number of bytes if, by the look of its bytes, it can be cut there. -/
def cutChecked (n : Nat) (cs : List Char) : OptionT (Except CutFault) (List Char × List Char) :=
  if Text.byteLength cs < n || !Text.isBoundary n (Text.encodeUtf8 cs) then failure
  else OptionT.lift (cut n cs)

/-- The check lets through exactly the cuts that succeed. -/
theorem cutChecked_eq (n : Nat) (cs : List Char) :
    cutChecked n cs = faultless (takeBytes n cs) := by
  cases htake : takeBytes n cs with
  | some parts =>
    obtain ⟨rfl, hlength⟩ := takeBytes_eq_some_iff.mp htake
    have hboundary := (Text.isBoundary_encodeUtf8_iff n _).mpr ⟨parts.1, parts.2, rfl, hlength⟩
    have hfits : ¬ Text.byteLength (parts.1 ++ parts.2) < n := by
      rw [Text.byteLength_append]; omega
    rw [cutChecked, hboundary, decide_eq_false hfits, cut, if_neg hfits, htake]
    rfl
  | none =>
    have hinside : Text.isBoundary n (Text.encodeUtf8 cs) = false := by
      refine Bool.eq_false_iff.mpr fun hboundary => ?_
      obtain ⟨a, b, hparts⟩ := (Text.isBoundary_encodeUtf8_iff n cs).mp hboundary
      rw [takeBytes_eq_some_iff.mpr hparts] at htake
      cases htake
    rw [cutChecked, hinside, Bool.not_false, Bool.or_true]
    rfl

/-- Splits off a text behind its length and a colon, if it can be cut there. -/
def takeSizedChecked (cs : List Char) : OptionT (Except CutFault) (List Char × List Char) :=
  match cs.dropWhile (· != ':') with
  | [] => failure
  | _ :: rest => do
    let n ← faultless (Decimal.word? (cs.takeWhile (· != ':')))
    cutChecked n rest

theorem takeSizedChecked_eq (cs : List Char) :
    takeSizedChecked cs = faultless (takeSized cs) := by
  unfold takeSizedChecked takeSized
  cases cs.dropWhile (· != ':') with
  | nil => rfl
  | cons colon rest =>
    cases hword : Decimal.word? (cs.takeWhile (· != ':')) with
    | none => rfl
    | some n => exact cutChecked_eq n rest

/-- The key that the parts of a text spell: the texts in front, and the rest, which starts
with a letter. -/
def ofParts? (scope classification : List Char) : List Char → Option CacheKey
  | [] => none
  | letter :: text => do
    let lookup ← Lookup.ofLetter? letter
    let scope ← (Namespace.parse (String.ofList scope)).toOption
    return ⟨scope, String.ofList classification, lookup, String.ofList text⟩

theorem decode?_eq (encoded : String) : decode? encoded =
    (takeSized encoded.toList).bind fun front =>
      (takeSized front.2).bind fun back => ofParts? front.1 back.1 back.2 := by
  unfold decode? ofParts?
  rfl

/-- Reads an encoded key, cutting it where its digits say. -/
def decodeChecked (encoded : String) : OptionT (Except CutFault) CacheKey := do
  let front ← takeSizedChecked encoded.toList
  let back ← takeSizedChecked front.2
  faultless (ofParts? front.1 back.1 back.2)

theorem faultless_bind {α β : Type} (result : Option α) (f : α → Option β) :
    (faultless result >>= fun a => faultless (f a)) = faultless (result.bind f) := by
  cases result <;> rfl

/-- Reading never faults. -/
theorem decodeChecked_eq (encoded : String) :
    decodeChecked encoded = faultless (decode? encoded) := by
  simp only [decodeChecked, takeSizedChecked_eq, faultless_bind, decode?_eq]

/-! ### What was written reads back -/

/-- The digits of a number below the word size read as that number. -/
theorem word?_toDigits {n : Nat} (h : n < 0x10000000000000000) :
    Decimal.word? (Nat.toDigits 10 n) = some n := by
  have hdigits : (Nat.toDigits 10 n).all Char.isDigit = true :=
    List.all_eq_true.mpr fun c => Nat.isDigit_of_mem_toDigits (by omega) (by omega)
  have hvalue : Decimal.value (Nat.toDigits 10 n) = n := Nat.ofDigitChars_ten_toDigits
  unfold Decimal.word?
  split
  · next rest hplus =>
    rw [hplus] at hdigits
    exact absurd hdigits (by simp)
  · have hne : (Nat.toDigits 10 n).isEmpty = false := by simp [Nat.toDigits_ne_nil]
    simp only [hne, hdigits, hvalue, h]
    rfl

/-- A text behind its length is split off whole, whatever follows. -/
theorem takeSized_sized {text : List Char} (h : Text.byteLength text < 0x10000000000000000)
    (rest : List Char) : takeSized (sized text ++ rest) = some (text, rest) := by
  have htail : (sized text ++ rest).dropWhile (· != ':') = ':' :: (text ++ rest) := by
    rw [sized, List.append_assoc, List.dropWhile_append_of_pos fun c => ne_colon_of_mem_toDigits]
    rfl
  rw [takeSized, htail, takeWhile_sized, word?_toDigits h]
  exact takeBytes_eq_some_iff.mpr ⟨rfl, rfl⟩

theorem byteLength_scope (ns : Namespace) :
    Text.byteLength ns.text.toList < 0x10000000000000000 := by
  have h := ns.short
  unfold maxNamespaceBytes at h
  omega

/-- An encoded key reads back as that key. A length is written in a word, and no text that
fits in a memory has more bytes than a word can count. Hence different keys have different
encodings. Of any other text some key is read, or none, and no cut on the way is a fault. -/
theorem decode_encode :
    (∀ key : CacheKey, Text.byteLength key.classification.toList < 0x10000000000000000 →
      decode? key.encode = some key) ∧
    (∀ a b : CacheKey, a.encode = b.encode ↔ a = b) ∧
    ∀ encoded : String, (decodeChecked encoded).run = .ok (decode? encoded) := by
  refine ⟨fun key hlength => ?_, fun a b => ⟨encode_injective, congrArg encode⟩,
    fun encoded => congrArg OptionT.run (decodeChecked_eq encoded)⟩
  have hletter := Lookup.ofLetter?_eq_some_iff.mpr (rfl : key.lookup.letter = key.lookup.letter)
  rw [decode?_eq, encode, String.toList_ofList, chars, List.append_assoc,
    takeSized_sized (byteLength_scope key.scope), Option.bind_some, takeSized_sized hlength,
    Option.bind_some, ofParts?, hletter, String.ofList_toList, Namespace.parse_text]
  simp [Except.toOption]

/-- A classification of digits, colons and letters that stand for kinds of lookups, with a
character of two bytes. -/
theorem decode_encode_digits : ∃ key : CacheKey, key.encode = "1:a6:é:1:bpi2:" ∧
    Text.byteLength key.classification.toList < 0x10000000000000000 ∧
    decode? key.encode = some key := by
  refine ⟨⟨⟨"a", by decide, by decide⟩, "é:1:b", .start, "i2:"⟩, by decide, by decide, ?_⟩
  exact decode_encode.1 _ (by decide)

end CacheKey
end VersionStore
