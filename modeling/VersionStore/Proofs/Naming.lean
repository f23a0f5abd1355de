import VersionStore.Proofs.Engine

/-! Which names indices get.

An engine takes a text for the name of one index if it is made of small letters, digits, `.`,
`_` and `-`, starts with a letter or a digit and has no more than 255 bytes. The names of
indices are put together from two texts that are checked apart, a namespace and the suffix
of the settings. The two checks see to the spelling: whatever passes them makes a name that
an engine cannot take for a pattern, a list, a path or an escape (`IsIndexName`), and
namespaces with one suffix are told apart by their names.

They do not see to the length. A namespace may have 200 bytes, which leaves 55 for the
suffix, but a suffix may be of any length. `index_names_legal` says that a suffix of more
than 55 bytes is what it takes for a name to be too long. -/
namespace VersionStore

/-- The most bytes that an engine takes in the name of an index. -/
def maxIndexNameBytes : Nat := 255

/-- The characters that the name of an index may start with. -/
def indexNameStarts : List Char := "abcdefghijklmnopqrstuvwxyz0123456789".toList

/-- The characters that the name of an index may hold. -/
def indexNameCharacters : List Char := indexNameStarts ++ "._-".toList

/-- Characters by which an engine takes a text for something else than the name of one index:
wildcards, the comma between names, the escape of a URL and what divides a path. -/
def indexNameMarks : List Char := "*?,%/\\".toList

/-- Whether a text is spelled as an engine wants the name of an index to be. -/
structure IsIndexName (name : String) : Prop where
  starts : ∃ c rest, name.toList = c :: rest ∧ c ∈ indexNameStarts
  spelled : ∀ c ∈ name.toList, c ∈ indexNameCharacters
  plain : ∀ c ∈ name.toList, c ∉ indexNameMarks ∧ c.isUpper = false
  ne_dots : name ≠ "." ∧ name ≠ ".."

/-! ### Spelling

The checks go by classes of characters; the alphabets are compared with them code by code. -/

theorem mem_indexNameStarts {c : Char} (h : isNameStart c = true) : c ∈ indexNameStarts :=
  of_isNameChar (p := fun c => isNameStart c = true → c ∈ indexNameStarts) (by decide)
    (isNameChar_of_isNameStart h) h

theorem mem_indexNameCharacters {c : Char} (h : isNameChar c = true) : c ∈ indexNameCharacters :=
  of_isNameChar (p := fun c => c ∈ indexNameCharacters) (by decide) h

theorem not_mem_indexNameMarks {c : Char} (h : c ∈ indexNameCharacters) :
    c ∉ indexNameMarks ∧ c.isUpper = false := by
  have hall : (indexNameCharacters.all fun c => !indexNameMarks.elem c && !c.isUpper) = true := by
    decide
  simpa using List.all_eq_true.mp hall c h

/-- What is spelled like a namespace is the name of an index. -/
theorem IsIndexName.of_isNamespaceText {name : String} (h : isNamespaceText name.toList = true) :
    IsIndexName name := by
  have hspelled : ∀ c ∈ name.toList, c ∈ indexNameCharacters := fun c hc =>
    mem_indexNameCharacters (isNameChar_of_isNamespaceText h hc)
  refine ⟨?_, hspelled, fun c hc => not_mem_indexNameMarks (hspelled c hc), ?_, ?_⟩
  · cases hname : name.toList with
    | nil =>
      rw [hname] at h
      cases h
    | cons c rest =>
      rw [hname] at h
      exact ⟨c, rest, rfl, mem_indexNameStarts (Bool.and_eq_true_iff.mp h).1⟩
  · rintro rfl
    exact absurd h (by decide)
  · rintro rfl
    exact absurd h (by decide)

/-! ### Length -/

namespace Namespace

variable {raw : String} {ns : Namespace}

theorem utf8ByteSize_le_of_parse (h : parse raw = .ok ns) :
    raw.utf8ByteSize ≤ maxNamespaceBytes := by
  rw [parse_eq_ok_iff.mp h, ← Text.byteLength_toList]
  exact ns.short

theorem utf8ByteSize_indexName (h : parse raw = .ok ns) (suffix : String) :
    (ns.indexName suffix).utf8ByteSize = raw.utf8ByteSize + suffix.utf8ByteSize := by
  rw [parse_eq_ok_iff.mp h, indexName, String.utf8ByteSize_append]

/-- A namespace that has as many bytes as a namespace may have. -/
def longest : Namespace where
  text := String.ofList (List.replicate maxNamespaceBytes 'a')
  spelled := by
    rw [String.toList_ofList]
    show (List.replicate 199 'a').all isNameChar = true
    refine List.all_eq_true.mpr fun c hc => ?_
    rw [List.eq_of_mem_replicate hc]
    rfl
  short := by
    rw [String.toList_ofList, Text.byteLength_replicate]
    decide

theorem utf8ByteSize_longest : longest.text.utf8ByteSize = maxNamespaceBytes := by
  rw [← Text.byteLength_toList, longest, String.toList_ofList, Text.byteLength_replicate]
  decide

end Namespace

/-- Standard settings with a suffix of so many underscores. -/
def StoreConfig.underscored (n : Nat) : StoreConfig :=
  {StoreConfig.standard with suffix := String.ofList (List.replicate n '_')}

namespace StoreConfig

theorem validate_underscored {n : Nat} (h : 0 < n) : (underscored n).validate = .ok () := by
  have hsuffix : (underscored n).suffix.toList = List.replicate n '_' := String.toList_ofList
  rw [validate_eq_ok_iff, hsuffix]
  refine ⟨(validate_eq_ok_iff.mp validate_standard).1, ?_, fun c hc => ?_⟩
  · rw [Ne, List.replicate_eq_nil_iff]
    exact Nat.ne_of_gt h
  · rw [List.eq_of_mem_replicate hc]
    rfl

theorem utf8ByteSize_underscored (n : Nat) : (underscored n).suffix.utf8ByteSize = n := by
  rw [← Text.byteLength_toList, underscored, String.toList_ofList, Text.byteLength_replicate]
  exact Nat.mul_one n

end StoreConfig

/-- **Names of indices.** Under usable settings a namespace and the suffix make the name of an
index as an engine wants it to be spelled, and different namespaces make different names. A
name has as many bytes as the two texts together. So no name has more than an engine takes
if the suffix has at most 55, and only then: that is what the longest namespace leaves. -/
theorem index_names_legal {config : StoreConfig} (h : config.validate = .ok ()) :
    (∀ raw ns, Namespace.parse raw = .ok ns →
      IsIndexName (ns.indexName config.suffix) ∧
        (ns.indexName config.suffix).utf8ByteSize =
          raw.utf8ByteSize + config.suffix.utf8ByteSize) ∧
    ((∀ raw ns, Namespace.parse raw = .ok ns →
      (ns.indexName config.suffix).utf8ByteSize ≤ maxIndexNameBytes) ↔
        config.suffix.utf8ByteSize ≤ 55) ∧
    ∀ raw raw' ns ns', Namespace.parse raw = .ok ns → Namespace.parse raw' = .ok ns' →
      (ns.indexName config.suffix = ns'.indexName config.suffix ↔ raw = raw') := by
  obtain ⟨-, -, hsuffix⟩ := StoreConfig.validate_eq_ok_iff.mp h
  refine ⟨fun raw ns hparse => ⟨?_, Namespace.utf8ByteSize_indexName hparse _⟩, ⟨?_, ?_⟩, ?_⟩
  · exact .of_isNamespaceText (ns.isNamespaceText_indexName hsuffix)
  · intro hall
    have hlongest := hall _ _ Namespace.longest.parse_text
    rw [Namespace.utf8ByteSize_indexName Namespace.longest.parse_text,
      Namespace.utf8ByteSize_longest] at hlongest
    exact Nat.le_of_add_le_add_left (c := 55) hlongest
  · intro hshort raw ns hparse
    rw [Namespace.utf8ByteSize_indexName hparse]
    exact Nat.add_le_add (Namespace.utf8ByteSize_le_of_parse hparse) hshort
  · intro raw raw' ns ns' hparse hparse'
    rw [Namespace.indexName_inj, Namespace.parse_eq_ok_iff.mp hparse,
      Namespace.parse_eq_ok_iff.mp hparse', Namespace.text_inj]

/-- With 55 bytes behind it the longest namespace makes a name that is just short enough. -/
theorem index_names_legal_to_the_limit :
    let config := StoreConfig.underscored 55
    config.validate = .ok () ∧ Namespace.parse Namespace.longest.text = .ok Namespace.longest ∧
      IsIndexName (Namespace.longest.indexName config.suffix) ∧
        (Namespace.longest.indexName config.suffix).utf8ByteSize = maxIndexNameBytes := by
  intro config
  have hvalid : config.validate = .ok () := StoreConfig.validate_underscored (by decide)
  have hparse := Namespace.longest.parse_text
  obtain ⟨hname, hsize⟩ := (index_names_legal hvalid).1 _ _ hparse
  rw [Namespace.utf8ByteSize_longest, StoreConfig.utf8ByteSize_underscored] at hsize
  exact ⟨hvalid, hparse, hname, hsize⟩

/-- With 56 bytes behind it the longest namespace makes a name that is too long, although both
texts pass their checks. -/
theorem index_name_too_long :
    let config := StoreConfig.underscored 56
    config.validate = .ok () ∧ Namespace.parse Namespace.longest.text = .ok Namespace.longest ∧
      (Namespace.longest.indexName config.suffix).utf8ByteSize = maxIndexNameBytes + 1 := by
  intro config
  have hparse := Namespace.longest.parse_text
  refine ⟨StoreConfig.validate_underscored (by decide), hparse, ?_⟩
  rw [Namespace.utf8ByteSize_indexName hparse, Namespace.utf8ByteSize_longest,
    StoreConfig.utf8ByteSize_underscored]
  rfl

end VersionStore
