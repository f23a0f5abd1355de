import VersionStore.Error
import VersionStore.Json.Decode
import VersionStore.Text.Affix
import VersionStore.Text.Bytes

/-! Namespaces and the indices behind them.

A namespace is a name over lower-case letters, digits, `.`, `_` and `-` that starts with
a letter or digit, so it never holds a wildcard, an escape or a path separator. Its
records are kept in the index whose name is the namespace followed by a suffix that all
indices of a store share. -/
namespace VersionStore

/-- Whether a character may occur in an index name. -/
def isNameChar (c : Char) : Bool :=
  c.isLower || c.isDigit || c == '.' || c == '_' || c == '-'

/-- Names are in ASCII. -/
theorem val_le_of_isNameChar {c : Char} (h : isNameChar c = true) : c.val ≤ 127 := by
  simp only [isNameChar, Bool.or_eq_true, beq_iff_eq] at h
  rcases h with ((((hlower | hdigit) | rfl) | rfl) | rfl)
  · have hle : c.val ≤ 'z'.val := of_decide_eq_true (Bool.and_eq_true_iff.mp hlower).2
    exact UInt32.le_trans hle (by decide)
  · have hle : c.val ≤ '9'.val := of_decide_eq_true (Bool.and_eq_true_iff.mp hdigit).2
    exact UInt32.le_trans hle (by decide)
  all_goals decide

/-- What holds of every name character among the codes of ASCII holds of every name character. -/
theorem of_isNameChar {p : Char → Prop}
    (h : ∀ n < 128, isNameChar (Char.ofNat n) = true → p (Char.ofNat n)) {c : Char}
    (hc : isNameChar c = true) : p c := by
  have hlt : c.toNat < 128 := Nat.lt_succ_of_le (UInt32.le_iff_toNat_le.mp (val_le_of_isNameChar hc))
  rw [← Char.ofNat_toNat c] at hc ⊢
  exact h c.toNat hlt hc

def isNameStart (c : Char) : Bool := c.isLower || c.isDigit

theorem isNameChar_of_isNameStart {c : Char} (h : isNameStart c = true) : isNameChar c = true := by
  unfold isNameStart at h
  unfold isNameChar
  rw [h]
  rfl

/-- Whether a text is spelled like a namespace. -/
def isNamespaceText : List Char → Bool
  | [] => false
  | c :: rest => isNameStart c && rest.all isNameChar

theorem isNameChar_of_isNamespaceText {cs : List Char} (h : isNamespaceText cs = true) {c : Char}
    (hc : c ∈ cs) : isNameChar c = true := by
  cases cs with
  | nil => cases h
  | cons first rest =>
    obtain ⟨hstart, hrest⟩ := Bool.and_eq_true_iff.mp h
    rcases List.mem_cons.mp hc with rfl | hc
    · exact isNameChar_of_isNameStart hstart
    · exact List.all_eq_true.mp hrest c hc

/-- The most bytes a namespace may have; an index name has room for a suffix beyond it. -/
def maxNamespaceBytes : Nat := 200

structure Namespace where
  text : String
  spelled : isNamespaceText text.toList = true
  short : Text.byteLength text.toList ≤ maxNamespaceBytes
  deriving DecidableEq

namespace Namespace

/-- What is wrong with the spelling of a namespace. -/
def misspelled (raw : String) : Error :=
  Error.invalid "namespace" ("'" ++ raw ++
    "' must be lowercase letters, digits, '.', '_' or '-' starting with a letter or digit")

/-- What is wrong with a long namespace. -/
def tooLong : Error :=
  Error.invalid "namespace" ("longer than " ++ toString maxNamespaceBytes ++ " bytes")

def parse (raw : String) : Result Namespace :=
  if raw.toList.isEmpty then .error (Error.missing "namespace")
  else if short : Text.byteLength raw.toList ≤ maxNamespaceBytes then
    if spelled : isNamespaceText raw.toList = true then .ok ⟨raw, spelled, short⟩
    else .error (misspelled raw)
  else .error tooLong

/-- The index that holds the records of a namespace. -/
def indexName (ns : Namespace) (suffix : String) : String := ns.text ++ suffix

/-- The namespace whose records an index holds. -/
def ofIndexName? (index suffix : String) : Option Namespace :=
  (Text.beforeEnd? suffix.toList index.toList).bind fun stem =>
    (parse (String.ofList stem)).toOption

def ofValue (v : Json.Value) : Json.Decoded Namespace := do
  let raw ← v.asString
  match parse raw with
  | .ok ns => return ns
  | .error e => .error (.rejected e.message)

/-- All characters of a namespace may occur in an index name. -/
theorem isNameChar_of_mem (ns : Namespace) {c : Char} (hc : c ∈ ns.text.toList) :
    isNameChar c = true :=
  isNameChar_of_isNamespaceText ns.spelled hc

/-- The index of a namespace is spelled like a namespace. -/
theorem isNamespaceText_indexName (ns : Namespace) {suffix : String}
    (h : ∀ c ∈ suffix.toList, isNameChar c = true) :
    isNamespaceText (ns.indexName suffix).toList = true := by
  have hspelled := ns.spelled
  rw [indexName, String.toList_append]
  cases htext : ns.text.toList with
  | nil =>
    rw [htext] at hspelled
    cases hspelled
  | cons c rest =>
    rw [htext] at hspelled
    obtain ⟨hstart, hrest⟩ := Bool.and_eq_true_iff.mp hspelled
    refine Bool.and_eq_true_iff.mpr ⟨hstart, ?_⟩
    show (rest ++ suffix.toList).all isNameChar = true
    rw [List.all_append, hrest, List.all_eq_true.mpr h]
    rfl

theorem parse_text (ns : Namespace) : parse ns.text = .ok ns := by
  have hne : ns.text.toList.isEmpty = false := by
    have h := ns.spelled
    cases hl : ns.text.toList with
    | nil => rw [hl] at h; cases h
    | cons c rest => rfl
  simp [parse, hne, ns.short, ns.spelled]

/-- A namespace is its name. -/
theorem text_inj {ns other : Namespace} : ns.text = other.text ↔ ns = other := by
  constructor
  · intro h
    have hparse := ns.parse_text
    rw [h, other.parse_text] at hparse
    exact (Except.ok.inj hparse).symm
  · rintro rfl
    rfl

/-- A namespace is read from its name and from nothing else. -/
theorem parse_eq_ok_iff {raw : String} {ns : Namespace} :
    parse raw = .ok ns ↔ raw = ns.text := by
  constructor
  · intro h
    unfold parse at h
    split at h
    · cases h
    · split at h
      · split at h
        · cases h
          rfl
        · cases h
      · cases h
  · rintro rfl
    exact ns.parse_text

/-- Stripping the suffix undoes naming the index, wherever else the suffix occurs. -/
theorem ofIndexName?_eq_some_iff {index suffix : String} {ns : Namespace} :
    ofIndexName? index suffix = some ns ↔ index = ns.indexName suffix := by
  unfold ofIndexName?
  rw [Option.bind_eq_some_iff]
  constructor
  · rintro ⟨stem, hstem, hparse⟩
    rw [Text.beforeEnd?_eq_some_iff] at hstem
    cases hok : parse (String.ofList stem) with
    | error e => rw [hok] at hparse; cases hparse
    | ok other =>
      rw [hok] at hparse
      cases hparse
      rw [indexName, ← String.toList_inj, String.toList_append, ← parse_eq_ok_iff.mp hok,
        String.toList_ofList, hstem]
  · rintro rfl
    refine ⟨ns.text.toList, Text.beforeEnd?_eq_some_iff.mpr String.toList_append, ?_⟩
    rw [String.ofList_toList, ns.parse_text]
    rfl

end Namespace

end VersionStore
