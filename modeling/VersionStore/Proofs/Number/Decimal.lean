import Mathlib.Data.List.Induction
import VersionStore.Number.Decimal

/-! How numbers may be spelled.

Digits are those of the number that they stand for, possibly behind zeros (`exists_zeros`).
A word is read from its digits, whether or not a sign and zeros stand in front of them
(`word?_eq_some_iff`). -/
namespace VersionStore.Decimal

/-- What may stand in front of the digits of a number. -/
structure Lead where
  plus : Bool := false
  zeros : Nat := 0
  deriving DecidableEq

namespace Lead

def chars (lead : Lead) : List Char :=
  (if lead.plus then ['+'] else []) ++ List.replicate lead.zeros '0'

end Lead

theorem value_append_singleton (digits : List Char) (c : Char) :
    value (digits ++ [c]) = 10 * value digits + (c.toNat - '0'.toNat) := by
  simp [value, List.foldl_append]

theorem value_toDigits (n : Nat) : value (Nat.toDigits 10 n) = n := Nat.ofDigitChars_ten_toDigits

theorem value_zeros_append (zeros : Nat) (digits : List Char) :
    value (List.replicate zeros '0' ++ digits) = value digits := by
  have h : value (List.replicate zeros '0') = 0 :=
    Nat.ofDigitChars_replicate_zero.trans (Nat.mul_zero _)
  unfold value at h ⊢
  rw [List.foldl_append, h]

/-- A digit is what a number below ten is written as. -/
theorem toDigits_of_isDigit {c : Char} (h : c.isDigit = true) :
    c.toNat - '0'.toNat < 10 ∧ Nat.toDigits 10 (c.toNat - '0'.toNat) = [c] := by
  have hbounds : 48 ≤ c.toNat ∧ c.toNat ≤ 57 := by
    simpa [Char.isDigit, UInt32.le_iff_toNat_le] using h
  have hlt : c.toNat - '0'.toNat < 10 := by
    show c.toNat - 48 < 10
    omega
  refine ⟨hlt, ?_⟩
  rw [Nat.toDigits_of_lt_base hlt]
  have hdigits : ∀ n < 10, Nat.digitChar n = Char.ofNat (48 + n) := by decide
  rw [hdigits _ hlt]
  show [Char.ofNat (48 + (c.toNat - 48))] = [c]
  rw [Nat.add_sub_cancel' hbounds.1, Char.ofNat_toNat]

/-- Digits are those of their number, possibly behind zeros. -/
theorem exists_zeros {digits : List Char} (hne : digits ≠ [])
    (hdigits : ∀ c ∈ digits, c.isDigit = true) :
    ∃ zeros, digits = List.replicate zeros '0' ++ Nat.toDigits 10 (value digits) := by
  induction digits using List.reverseRecOn with
  | nil => exact absurd rfl hne
  | append_singleton front c ih =>
    obtain ⟨hlt, hc⟩ := toDigits_of_isDigit (hdigits c (by simp))
    rw [value_append_singleton]
    by_cases hfront : front = []
    · subst hfront
      have hvalue : 10 * value [] + (c.toNat - '0'.toNat) = c.toNat - '0'.toNat := Nat.zero_add _
      exact ⟨0, by rw [hvalue, hc]; rfl⟩
    obtain ⟨zeros, hzeros⟩ := ih hfront fun d hd => hdigits d (List.mem_append_left _ hd)
    rcases Nat.eq_zero_or_pos (value front) with hzero | hpos
    · -- all digits in front are zeros
      refine ⟨zeros + 1, ?_⟩
      rw [hzero, Nat.toDigits_zero] at hzeros
      rw [hzero, Nat.mul_zero, Nat.zero_add, hc, hzeros, List.replicate_succ']
    · refine ⟨zeros, ?_⟩
      rw [← Nat.toDigits_append_toDigits (by omega) hpos hlt, hc, ← List.append_assoc, ← hzeros]

theorem isDigit_of_mem_zeros_append {zeros n : Nat} {c : Char}
    (h : c ∈ List.replicate zeros '0' ++ Nat.toDigits 10 n) : c.isDigit = true := by
  rcases List.mem_append.mp h with h | h
  · rw [List.eq_of_mem_replicate h]
    rfl
  · exact Nat.isDigit_of_mem_toDigits (by omega) (by omega) h

/-- A word is read from its digits, with or without something in front of them. -/
theorem word?_eq_some_iff {cs : List Char} {n : Nat} :
    word? cs = some n ↔
      n < 0x10000000000000000 ∧ ∃ lead : Lead, cs = lead.chars ++ Nat.toDigits 10 n := by
  have hunsigned : ∀ digits : List Char,
      (if !digits.isEmpty && digits.all Char.isDigit && decide (value digits < 0x10000000000000000)
        then some (value digits) else none) = some n ↔
      n < 0x10000000000000000 ∧
        ∃ zeros, digits = List.replicate zeros '0' ++ Nat.toDigits 10 n := by
    intro digits
    constructor
    · intro h
      split at h
      · next hdigits =>
        obtain rfl := Option.some.inj h
        simp only [Bool.and_eq_true, Bool.not_eq_true', List.isEmpty_eq_false_iff,
          List.all_eq_true, decide_eq_true_eq] at hdigits
        exact ⟨hdigits.2, exists_zeros hdigits.1.1 hdigits.1.2⟩
      · cases h
    · rintro ⟨hlt, zeros, rfl⟩
      have hall : (List.replicate zeros '0' ++ Nat.toDigits 10 n).all Char.isDigit = true :=
        List.all_eq_true.mpr fun c hc => isDigit_of_mem_zeros_append hc
      have hne : (List.replicate zeros '0' ++ Nat.toDigits 10 n).isEmpty = false := by
        simp [Nat.toDigits_ne_nil]
      simp only [value_zeros_append, value_toDigits, hne, hall, hlt]
      rfl
  unfold word?
  split
  · next rest =>
    rw [hunsigned]
    refine and_congr_right fun _ => ⟨?_, ?_⟩
    · rintro ⟨zeros, rfl⟩
      exact ⟨⟨true, zeros⟩, rfl⟩
    · rintro ⟨⟨plus, zeros⟩, h⟩
      cases plus with
      | true => exact ⟨zeros, (List.cons.inj h).2⟩
      | false =>
        -- no number begins with a sign
        have hplus : '+' ∈ List.replicate zeros '0' ++ Nat.toDigits 10 n := by
          have h : '+' :: rest = List.replicate zeros '0' ++ Nat.toDigits 10 n := h
          rw [← h]
          exact List.mem_cons_self
        exact absurd (isDigit_of_mem_zeros_append hplus) (by decide)
  · next hplus =>
    rw [hunsigned]
    refine and_congr_right fun _ => ⟨?_, ?_⟩
    · rintro ⟨zeros, rfl⟩
      exact ⟨⟨false, zeros⟩, rfl⟩
    · rintro ⟨⟨plus, zeros⟩, rfl⟩
      cases plus with
      | true => exact absurd rfl (hplus _)
      | false => exact ⟨zeros, rfl⟩

/-- A number and what stands in front of it can be told apart. -/
theorem lead_append_toDigits_inj {a b : Lead} {m n : Nat}
    (h : a.chars ++ Nat.toDigits 10 m = b.chars ++ Nat.toDigits 10 n) : a = b ∧ m = n := by
  obtain ⟨plus, zeros⟩ := a
  obtain ⟨plus', zeros'⟩ := b
  have hplus : plus = plus' := by
    have hdigit : ∀ {k l : Nat} {rest : List Char},
        List.replicate k '0' ++ Nat.toDigits 10 l ≠ '+' :: rest := fun heq =>
      absurd (isDigit_of_mem_zeros_append (heq ▸ List.mem_cons_self)) (by decide)
    cases plus <;> cases plus'
    · rfl
    · exact absurd h hdigit
    · exact absurd h.symm hdigit
    · rfl
  subst hplus
  have hzeros : List.replicate zeros '0' ++ Nat.toDigits 10 m =
      List.replicate zeros' '0' ++ Nat.toDigits 10 n := by
    unfold Lead.chars at h
    rwa [List.append_assoc, List.append_assoc, List.append_cancel_left_eq] at h
  have hvalue := congrArg value hzeros
  rw [value_zeros_append, value_zeros_append, value_toDigits, value_toDigits] at hvalue
  subst hvalue
  rw [List.append_cancel_right_eq, List.replicate_inj] at hzeros
  exact ⟨by rw [hzeros.1], rfl⟩

end VersionStore.Decimal
