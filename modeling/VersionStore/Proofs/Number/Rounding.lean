import Mathlib.Algebra.Group.Nat.Defs
import VersionStore.Number.Double

/-! Rounding keeps the order.

A positive integer whose highest bit is at place `k` is rounded to a significand of 53
bits times a power of two, or to the next power of two above all of these. So the doubles
of integers with different highest bits stay in order because their exponents are, and
those with the same highest bit because rounding to an integer is monotone. Integers that
are in order have doubles that are in order, though they may share one (`rank_ofInt_mono`). -/
namespace VersionStore.Double

/-! ### Rounding to an integer -/

/-- A fraction is rounded to the integer below it or to the next one. -/
theorem roundEven_eq (num den : Nat) :
    roundEven num den = num / den ∨ roundEven num den = num / den + 1 := by
  simp only [roundEven]
  split
  · exact .inr rfl
  · exact .inl rfl

theorem roundEven_mono {m n : Nat} (den : Nat) (h : m ≤ n) :
    roundEven m den ≤ roundEven n den := by
  rcases Nat.lt_or_eq_of_le (Nat.div_le_div_right (c := den) h) with hlt | heq
  · rcases roundEven_eq m den with hm | hm <;> rcases roundEven_eq n den with hn | hn <;> omega
  · -- between the same two integers, what is rounded up depends on the remainder
    have hrest : m % den ≤ n % den := by
      have hm := Nat.div_add_mod m den
      have hn := Nat.div_add_mod n den
      rw [heq] at hm
      omega
    simp only [roundEven, heq, Bool.or_eq_true, Bool.and_eq_true, decide_eq_true_eq, beq_iff_eq]
    split <;> split <;> omega

theorem roundEven_bounds {num den low high : Nat} (hlow : low * den ≤ num)
    (hhigh : num < high * den) : low ≤ roundEven num den ∧ roundEven num den ≤ high := by
  have hden : 0 < den := Nat.pos_of_ne_zero fun h => by simp [h] at hhigh
  have hle := (Nat.le_div_iff_mul_le hden).mpr hlow
  have hlt := (Nat.div_lt_iff_lt_mul hden).mpr hhigh
  rcases roundEven_eq num den with h | h <;> omega

/-! ### The double of a natural number -/

/-- A natural number over the power of two that leaves 53 bits before the point. -/
def normal (n : Nat) : Nat × Nat := shift n 1 (52 - (n.log2 : Int))

/-- A number whose highest bit is at place `k` is multiplied by a power of two up to place 52,
and divided by one above. -/
theorem normal_eq (n : Nat) :
    (n.log2 ≤ 52 ∧ normal n = (n * 2 ^ (52 - n.log2), 1)) ∨
      (52 < n.log2 ∧ normal n = (n, 2 ^ (n.log2 - 52))) := by
  unfold normal shift
  by_cases h : n.log2 ≤ 52
  · have hpower : (52 - (n.log2 : Int)).toNat = 52 - n.log2 := by omega
    rw [if_pos (by omega), hpower]
    exact .inl ⟨h, rfl⟩
  · have hpower : (-(52 - (n.log2 : Int))).toNat = n.log2 - 52 := by omega
    rw [if_neg (by omega), hpower, Nat.one_mul]
    exact .inr ⟨by omega, rfl⟩

theorem normal_bounds {n : Nat} (hn : n ≠ 0) :
    unit * (normal n).2 ≤ (normal n).1 ∧ (normal n).1 < 2 * unit * (normal n).2 := by
  have hlow := Nat.log2_self_le hn
  have hhigh := Nat.lt_log2_self (n := n)
  have hunit : unit = 2 ^ 52 := rfl
  rcases normal_eq n with ⟨hk, h⟩ | ⟨hk, h⟩ <;> rw [h, hunit]
  · have hmul : 2 ^ n.log2 * 2 ^ (52 - n.log2) = 2 ^ 52 := by
      rw [← Nat.pow_add, Nat.add_sub_cancel' hk]
    have hpos : 0 < 2 ^ (52 - n.log2) := Nat.two_pow_pos _
    have hle := Nat.mul_le_mul_right (2 ^ (52 - n.log2)) hlow
    have hlt := Nat.mul_lt_mul_of_pos_right hhigh hpos
    rw [Nat.pow_succ, Nat.mul_right_comm, hmul] at hlt
    rw [hmul] at hle
    omega
  · have hmul : 2 ^ 52 * 2 ^ (n.log2 - 52) = 2 ^ n.log2 := by
      rw [← Nat.pow_add, Nat.add_sub_cancel' (by omega)]
    rw [Nat.mul_assoc, hmul]
    rw [Nat.pow_succ] at hhigh
    omega

/-- The bits below the sign of the double nearest to a natural number, as if there were no
largest one. -/
def naturalBits (n : Nat) : Nat :=
  if n = 0 then 0 else (n.log2 + 1022) * unit + roundEven (normal n).1 (normal n).2

theorem exponentOf_natural {n : Nat} (hn : n ≠ 0) : exponentOf n 1 = (n.log2 : Int) - 52 := by
  have hden : 0 < (normal n).2 := by
    rcases normal_eq n with ⟨_, h⟩ | ⟨_, h⟩ <;> rw [h]
    · exact Nat.one_pos
    · exact Nat.two_pow_pos _
  have hnormal : ¬(normal n).1 / (normal n).2 < unit := by
    rw [Nat.not_lt, Nat.le_div_iff_mul_le hden]
    exact (normal_bounds hn).1
  have hone : (1 : Nat).log2 = 0 := by decide
  have hshift : shift n 1 (-((n.log2 : Int) - (1 : Nat).log2 - 52)) = normal n := by
    unfold normal
    congr 1
    omega
  simp only [exponentOf, hshift, hnormal, if_false]
  omega

/-- The double nearest to a natural number, or the largest there is. -/
theorem getD_nearest (n : Nat) :
    (nearest n 1).getD (infinity - 1) = min (naturalBits n) (infinity - 1) := by
  by_cases hn : n = 0
  · rw [hn]
    rfl
  have hshift : shift n 1 (-exponentOf n 1) = normal n := by
    rw [exponentOf_natural hn, normal]
    congr 1
    omega
  have hbits : (exponentOf n 1 + 1074).toNat * unit + roundEven (normal n).1 (normal n).2 =
      naturalBits n := by
    have hplace : (exponentOf n 1 + 1074).toNat = n.log2 + 1022 := by
      rw [exponentOf_natural hn]
      omega
    rw [naturalBits, if_neg hn, hplace]
  simp only [nearest, if_neg hn, hshift, hbits]
  by_cases h : naturalBits n < infinity
  · rw [if_pos h, Option.getD_some]
    omega
  · rw [if_neg h, Option.getD_none]
    omega

theorem naturalBits_mono {m n : Nat} (h : m ≤ n) : naturalBits m ≤ naturalBits n := by
  by_cases hm : m = 0
  · simp [naturalBits, hm]
  have hn : n ≠ 0 := by omega
  rw [naturalBits, if_neg hm, naturalBits, if_neg hn]
  have hplace : m.log2 ≤ n.log2 := (Nat.le_log2 hn).mpr (Nat.le_trans (Nat.log2_self_le hm) h)
  rcases Nat.lt_or_eq_of_le hplace with hlt | heq
  · -- the greatest significand of a binade reaches no further than the next one starts
    have hmround := (roundEven_bounds (normal_bounds hm).1 (normal_bounds hm).2).2
    have hnround := (roundEven_bounds (normal_bounds hn).1 (normal_bounds hn).2).1
    have hbinade : (m.log2 + 1022 + 1) * unit ≤ (n.log2 + 1022) * unit :=
      Nat.mul_le_mul_right unit (by omega)
    rw [Nat.succ_mul] at hbinade
    omega
  · have hround : roundEven (normal m).1 (normal m).2 ≤ roundEven (normal n).1 (normal n).2 := by
      rcases normal_eq m with ⟨hk, hm⟩ | ⟨hk, hm⟩ <;>
        rcases normal_eq n with ⟨hk', hn⟩ | ⟨hk', hn⟩ <;> first | omega | rw [hm, hn, heq]
      · exact roundEven_mono _ (Nat.mul_le_mul_right _ h)
      · exact roundEven_mono _ h
    rw [heq]
    exact Nat.add_le_add_left hround _

/-! ### The double of an integer -/

theorem rank_ofMagnitude {magnitude : Nat} (negative : Bool) (h : magnitude < signBit) :
    (ofMagnitude negative magnitude).rank =
      if negative then -(magnitude : Int) else (magnitude : Int) := by
  have hsign : signBit = 0x8000000000000000 := rfl
  have hbits : (ofMagnitude negative magnitude).bits.toNat =
      magnitude + if negative then signBit else 0 := by
    rw [ofMagnitude, UInt64.toNat_ofNat', Nat.mod_eq_of_lt h]
    cases negative <;> simp only [Bool.false_eq_true, if_false, if_true] <;> omega
  unfold rank Double.negative Double.magnitude
  rw [hbits]
  cases negative
  · simp [Nat.mod_eq_of_lt h, Nat.not_le.mpr h]
  · simp [Nat.mod_eq_of_lt h]

/-- The rank of the double of an integer has its sign, and the bits of its magnitude. -/
theorem rank_ofInt (n : Int) : (ofInt n).rank =
    if n < 0 then -((min (naturalBits n.natAbs) (infinity - 1) : Nat) : Int)
    else ((min (naturalBits n.natAbs) (infinity - 1) : Nat) : Int) := by
  have hfinite : min (naturalBits n.natAbs) (infinity - 1) < signBit :=
    Nat.lt_of_le_of_lt (Nat.min_le_right _ _) (by decide)
  have hdouble : ofInt n =
      ofMagnitude (n < 0) (min (naturalBits n.natAbs) (infinity - 1)) := by
    rw [← getD_nearest, ofInt, ofFraction, largest]
    cases nearest n.natAbs 1 <;> rfl
  rw [hdouble, rank_ofMagnitude _ hfinite]
  by_cases h : n < 0 <;> simp [h]

/-- Integers in order have doubles in order. -/
theorem rank_ofInt_mono {m n : Int} (h : m ≤ n) : (ofInt m).rank ≤ (ofInt n).rank := by
  rw [rank_ofInt, rank_ofInt]
  by_cases hm : m < 0 <;> by_cases hn : n < 0
  · have := naturalBits_mono (show n.natAbs ≤ m.natAbs by omega)
    rw [if_pos hm, if_pos hn]
    omega
  · rw [if_pos hm, if_neg hn]
    omega
  · omega
  · have := naturalBits_mono (show m.natAbs ≤ n.natAbs by omega)
    rw [if_neg hm, if_neg hn]
    omega

end VersionStore.Double
