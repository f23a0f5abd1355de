/-! Integers that fit in a machine word of sixty-four bits. -/
namespace VersionStore.Word

def isSigned (n : Int) : Bool := decide (-0x8000000000000000 ≤ n ∧ n < 0x8000000000000000)

def isUnsigned (n : Int) : Bool := decide (0 ≤ n ∧ n < 0x10000000000000000)

theorem isSigned_toInt (n : Int64) : isSigned n.toInt = true := by
  have hlow := n.le_toInt
  have hhigh := n.toInt_lt
  simp only [isSigned, decide_eq_true_eq]
  omega

theorem isUnsigned_toNat (n : UInt64) : isUnsigned n.toNat = true := by
  have h := n.toNat_lt
  simp only [isUnsigned, decide_eq_true_eq]
  omega

end VersionStore.Word
