import Tether.Proofs.Number.Rounding

/-! # Numbers that stay finite

A quotient is finite as long as it is not above the largest finite number. So whole numbers of 64 bits
are, and a finite number is so after division by a power of ten. -/

namespace Tether.Binary64

/-- The units of the largest finite number. -/
def maxUnits : Nat :=
  0x1fffffffffffff <<< 2045

theorem quotientBits_maxUnits {den : Nat} (hden : 0 < den) :
    quotientBits (maxUnits * den) den = 0x7fefffffffffffff := by
  have hexcess : excess maxUnits = 2045 := by decide +kernel
  have hnum : maxUnits * den = 0x1fffffffffffff * den <<< 2045 := by
    rw [maxUnits, shiftLeft_eq_mul, shiftLeft_eq_mul den, Nat.mul_assoc, Nat.mul_comm den]
  have hden' := shiftLeft_pos hden 2045
  rw [quotientBits, Nat.mul_div_cancel _ hden, hexcess, hnum, roundHalfEven_mul _ hden']
  rfl

theorem isFinite_iff {x : Binary64} : x.isFinite ↔ x.magnitude.toNat < 0x7ff0000000000000 := by
  rw [isFinite, decide_eq_true_eq, UInt64.lt_iff_toNat_lt]
  rfl

theorem isFinite_ofRatio_iff {num den : Nat} :
    (ofRatio num den).isFinite ↔ nearestBits num den < 0x7ff0000000000000 := by
  rw [isFinite_iff, magnitude_ofRatio, toNat_bits_ofRatio]

theorem isFinite_ofRatio {num den : Nat} (hden : 0 < den) (h : num <<< 1074 ≤ maxUnits * den) :
    (ofRatio num den).isFinite := by
  have hbits := quotientBits_mono hden h
  rw [quotientBits_maxUnits hden] at hbits
  rw [isFinite_ofRatio_iff, nearestBits_eq]
  omega

/-- A rounded quotient is no NaN, so it is finite unless it is infinite. -/
theorem isFinite_of_not_isInfinite {num den : Nat} (h : (ofRatio num den).isInfinite = false) :
    (ofRatio num den).isFinite := by
  have hbits := nearestBits_le num den
  have hne : nearestBits num den ≠ 0x7ff0000000000000 := by
    intro heq
    rw [isInfinite, magnitude_ofRatio, beq_eq_false_iff_ne] at h
    exact h (UInt64.toNat_inj.mp ((toNat_bits_ofRatio num den).trans heq))
  rw [isFinite_ofRatio_iff]
  omega

/-- The sign is no part of the magnitude. -/
theorem magnitude_neg (x : Binary64) : x.neg.magnitude = x.magnitude := by
  apply UInt64.toNat_inj.mp
  rw [magnitude, neg, magnitude, UInt64.toNat_and, UInt64.toNat_xor, Nat.and_xor_distrib_right,
    ← UInt64.toNat_and]
  exact Nat.xor_zero _

theorem isFinite_neg (x : Binary64) : x.neg.isFinite = x.isFinite := by
  rw [isFinite, magnitude_neg, isFinite]

theorem units_le_maxUnits {x : Binary64} (h : x.isFinite) : x.units ≤ maxUnits := by
  have hlast : bitUnits 0x7fefffffffffffff = maxUnits := by decide +kernel
  have hmagnitude := isFinite_iff.mp h
  rw [units_eq, ← hlast]
  exact bitUnits_mono (by omega)

/-! ## Whole numbers and powers of ten -/

theorem isFinite_ofNat {n : Nat} (h : n < 0x10000000000000000) : (ofNat n).isFinite := by
  have hshift : n <<< 1074 ≤ 0x10000000000000000 <<< 1074 :=
    shiftLeft_mono (Nat.le_of_lt h) (Nat.le_refl 1074)
  have hlarge : 0x10000000000000000 <<< 1074 ≤ maxUnits * 1 := by decide +kernel
  exact isFinite_ofRatio Nat.one_pos (Nat.le_trans hshift hlarge)

/-- A power of ten has at least as many units as one. -/
theorem le_units_powerOfTen (n : Nat) : 1 <<< 1074 ≤ (powerOfTen n).units := by
  have hone : (ofNat 1).units = 1 <<< 1074 := by decide +kernel
  rw [← hone]
  exact units_ofRatio_mono Nat.one_pos (Nat.pow_pos (by decide))

theorem isFinite_div_powerOfTen {x : Binary64} (h : x.isFinite) (n : Nat) :
    (x.div (powerOfTen n)).isFinite := by
  have hpower := le_units_powerOfTen n
  have hpos : 0 < (powerOfTen n).units := Nat.lt_of_lt_of_le (shiftLeft_pos Nat.one_pos 1074) hpower
  apply isFinite_ofRatio hpos
  rw [shiftLeft_eq_mul]
  exact Nat.mul_le_mul (units_le_maxUnits h) hpower

end Tether.Binary64
