import Tether.Number.Binary64

/-! # Rounding keeps the order

A quotient that is not greater is not rounded to a greater number. So the quotient of a number and one
that is not less lies between zero and one, rounded as it is. -/

namespace Tether.Binary64

/-! ## Powers of two -/

theorem shiftLeft_eq_mul (n k : Nat) : n <<< k = n * 1 <<< k := by
  rw [Nat.shiftLeft_eq, Nat.shiftLeft_eq, Nat.one_mul]

theorem shiftLeft_mono {m n j k : Nat} (hmn : m ≤ n) (hjk : j ≤ k) : m <<< j ≤ n <<< k := by
  rw [Nat.shiftLeft_eq, Nat.shiftLeft_eq]
  exact Nat.mul_le_mul hmn (Nat.pow_le_pow_right Nat.two_pos hjk)

/-- Shifting by `52` more places, or by `53`, is shifting a greater number. -/
theorem one_shiftLeft_add_52 (k : Nat) : 1 <<< (k + 52) = 0x10000000000000 * 1 <<< k := by
  rw [Nat.add_comm, Nat.shiftLeft_add, shiftLeft_eq_mul]
  rfl

theorem one_shiftLeft_add_53 (k : Nat) : 1 <<< (k + 53) = 0x20000000000000 * 1 <<< k := by
  rw [Nat.add_comm, Nat.shiftLeft_add, shiftLeft_eq_mul]
  rfl

theorem log2_mono {m n : Nat} (h : m ≤ n) : m.log2 ≤ n.log2 := by
  by_cases hm : m = 0
  · rw [hm]
    exact Nat.zero_le _
  · exact (Nat.le_log2 (by omega)).mpr (Nat.le_trans (Nat.log2_self_le hm) h)

theorem excess_mono {m n : Nat} (h : m ≤ n) : excess m ≤ excess n :=
  Nat.sub_le_sub_right (log2_mono h) 52

theorem lt_of_excess (n : Nat) : n < 0x20000000000000 * 1 <<< excess n := by
  have hlog : n.log2 + 1 ≤ excess n + 53 := by
    unfold excess
    omega
  have hn : n < 1 <<< (n.log2 + 1) := by
    rw [Nat.one_shiftLeft]
    exact Nat.lt_log2_self
  rw [← one_shiftLeft_add_53]
  exact Nat.lt_of_lt_of_le hn (shiftLeft_mono (Nat.le_refl 1) hlog)

theorem le_of_excess {n : Nat} (h : 0 < excess n) : 0x10000000000000 * 1 <<< excess n ≤ n := by
  have hlog : excess n + 52 = n.log2 := by
    unfold excess at h ⊢
    omega
  have hn : n ≠ 0 := by
    rintro rfl
    exact absurd h (by decide)
  rw [← one_shiftLeft_add_52, hlog, Nat.one_shiftLeft]
  exact Nat.log2_self_le hn

/-! ## Rounding to a whole number -/

theorem roundHalfEven_eq (num den : Nat) : roundHalfEven num den = num / den +
    if 2 * (num % den) < den then 0 else if den < 2 * (num % den) then 1 else num / den % 2 := by
  rcases Nat.lt_trichotomy (2 * (num % den)) den with hlt | heq | hgt
  · have hcompare : compare (2 * (num % den)) den = .lt := Nat.compare_eq_lt.mpr hlt
    rw [if_pos hlt]
    simp only [roundHalfEven, hcompare, Nat.add_zero]
  · have hcompare : compare (2 * (num % den)) den = .eq := Nat.compare_eq_eq.mpr heq
    rw [if_neg (by omega), if_neg (by omega)]
    simp only [roundHalfEven, hcompare]
  · have hcompare : compare (2 * (num % den)) den = .gt := Nat.compare_eq_gt.mpr hgt
    rw [if_neg (by omega), if_pos hgt]
    simp only [roundHalfEven, hcompare]

theorem roundHalfEven_bounds (num den : Nat) :
    num / den ≤ roundHalfEven num den ∧ roundHalfEven num den ≤ num / den + 1 := by
  rw [roundHalfEven_eq]
  split
  · omega
  · split <;> omega

theorem le_roundHalfEven {n num den : Nat} (hden : 0 < den) (h : n * den ≤ num) :
    n ≤ roundHalfEven num den :=
  Nat.le_trans ((Nat.le_div_iff_mul_le hden).mpr h) (roundHalfEven_bounds num den).1

theorem roundHalfEven_mono {a b : Nat} (h : a ≤ b) (den : Nat) :
    roundHalfEven a den ≤ roundHalfEven b den := by
  have hquotient : a / den ≤ b / den := Nat.div_le_div_right h
  by_cases heq : a / den = b / den
  · have hrem : a % den ≤ b % den := by
      have ha := Nat.div_add_mod a den
      have hb := Nat.div_add_mod b den
      rw [heq] at ha
      omega
    rw [roundHalfEven_eq, roundHalfEven_eq, heq]
    grind
  · have ha := (roundHalfEven_bounds a den).2
    have hb := (roundHalfEven_bounds b den).1
    omega

theorem roundHalfEven_mul (n : Nat) {den : Nat} (hden : 0 < den) :
    roundHalfEven (n * den) den = n := by
  have hquotient : n * den / den = n := Nat.mul_div_cancel n hden
  have hrem : n * den % den = 0 := Nat.mul_mod_left n den
  rw [roundHalfEven_eq, hquotient, hrem, if_pos hden, Nat.add_zero]

theorem roundHalfEven_le {n num den : Nat} (hden : 0 < den) (h : num ≤ n * den) :
    roundHalfEven num den ≤ n := by
  have hmono := roundHalfEven_mono h den
  rwa [roundHalfEven_mul n hden] at hmono

/-! ## Rounding to a number -/

/-- The bits of the number nearest to `num / den` units, out of reach of infinity. -/
def quotientBits (num den : Nat) : Nat :=
  excess (num / den) <<< 52 + roundHalfEven num (den <<< excess (num / den))

theorem nearestBits_eq (num den : Nat) :
    nearestBits num den = min (quotientBits (num <<< 1074) den) 0x7ff0000000000000 := rfl

theorem shiftLeft_pos {n : Nat} (h : 0 < n) (k : Nat) : 0 < n <<< k :=
  Nat.lt_of_lt_of_le h (shiftLeft_mono (Nat.le_refl n) (Nat.zero_le k))

/-- A significand has at most 53 bits, or is `2 ^ 53`. -/
theorem significand_le {den : Nat} (hden : 0 < den) (num : Nat) :
    roundHalfEven num (den <<< excess (num / den)) ≤ 0x20000000000000 := by
  apply roundHalfEven_le (shiftLeft_pos hden _)
  have hquotient : num / den + 1 ≤ 0x20000000000000 * 1 <<< excess (num / den) := lt_of_excess _
  calc num ≤ (num / den + 1) * den := by
        rw [Nat.mul_comm]
        exact Nat.le_of_lt (Nat.lt_mul_div_succ num hden)
    _ ≤ 0x20000000000000 * 1 <<< excess (num / den) * den := Nat.mul_le_mul_right den hquotient
    _ = 0x20000000000000 * den <<< excess (num / den) := by
        rw [shiftLeft_eq_mul den, Nat.mul_comm den, Nat.mul_assoc]

/-- A significand that was shifted has 53 bits. -/
theorem le_significand {num den : Nat} (hden : 0 < den) (h : 0 < excess (num / den)) :
    0x10000000000000 ≤ roundHalfEven num (den <<< excess (num / den)) := by
  apply le_roundHalfEven (shiftLeft_pos hden _)
  calc 0x10000000000000 * den <<< excess (num / den)
      = 0x10000000000000 * 1 <<< excess (num / den) * den := by
        rw [shiftLeft_eq_mul den, Nat.mul_comm den, Nat.mul_assoc]
    _ ≤ num / den * den := Nat.mul_le_mul_right den (le_of_excess h)
    _ ≤ num := Nat.div_mul_le_self num den

theorem quotientBits_mono {a b den : Nat} (hden : 0 < den) (h : a ≤ b) :
    quotientBits a den ≤ quotientBits b den := by
  have hexcess : excess (a / den) ≤ excess (b / den) := excess_mono (Nat.div_le_div_right h)
  unfold quotientBits
  by_cases heq : excess (a / den) = excess (b / den)
  · rw [heq]
    exact Nat.add_le_add_left (roundHalfEven_mono h _) _
  · -- the greater quotient lies in a later binade, whose first number is not reached
    have ha := significand_le hden a
    have hpos : 0 < excess (b / den) := by omega
    have hb := le_significand hden hpos
    have hplace (k : Nat) : k <<< 52 = k * 0x10000000000000 := Nat.shiftLeft_eq k 52
    rw [hplace, hplace]
    omega

theorem nearestBits_mono {a b den : Nat} (hden : 0 < den) (h : a ≤ b) :
    nearestBits a den ≤ nearestBits b den := by
  have hbits := quotientBits_mono hden (shiftLeft_mono h (Nat.le_refl 1074))
  rw [nearestBits_eq, nearestBits_eq]
  omega

theorem nearestBits_le (num den : Nat) : nearestBits num den ≤ 0x7ff0000000000000 :=
  Nat.min_le_right _ _

/-- A number divided by itself is one. -/
theorem nearestBits_self {n : Nat} (h : 0 < n) : nearestBits n n = 0x3ff0000000000000 := by
  have hquotient : n <<< 1074 / n = 1 <<< 1074 := by
    rw [shiftLeft_eq_mul, Nat.mul_div_cancel_left _ h]
  have hexcess : excess (1 <<< 1074) = 1022 := by decide +kernel
  have hnum : n <<< 1074 = 0x10000000000000 * n <<< 1022 := by
    rw [shiftLeft_eq_mul n 1074, shiftLeft_eq_mul n 1022, one_shiftLeft_add_52 1022]
    exact Nat.mul_left_comm _ _ _
  rw [nearestBits_eq, quotientBits, hquotient, hexcess, hnum,
    roundHalfEven_mul _ (shiftLeft_pos h 1022)]
  rfl

/-! ## The number that bits stand for -/

theorem toNat_bits_ofRatio (num den : Nat) : (ofRatio num den).bits.toNat = nearestBits num den := by
  have hbits := nearestBits_le num den
  rw [ofRatio, UInt64.toNat_ofNat']
  exact Nat.mod_eq_of_lt (by omega)

/-- A rounded quotient has no sign. -/
theorem magnitude_ofRatio (num den : Nat) : (ofRatio num den).magnitude = (ofRatio num den).bits := by
  have hbits := nearestBits_le num den
  have hmask : (0x7fffffffffffffff : UInt64).toNat = 2 ^ 63 - 1 := rfl
  apply UInt64.toNat_inj.mp
  rw [magnitude, UInt64.toNat_and, hmask, Nat.and_two_pow_sub_one_eq_mod, toNat_bits_ofRatio]
  exact Nat.mod_eq_of_lt (by omega)

/-- The units of a number, from the bits of its magnitude. -/
def bitUnits (bits : Nat) : Nat :=
  if bits >>> 52 = 0 then bits % 0x10000000000000
  else (0x10000000000000 + bits % 0x10000000000000) <<< (bits >>> 52 - 1)

theorem units_eq (x : Binary64) : x.units = bitUnits x.magnitude.toNat := rfl

theorem bitUnits_le (bits : Nat) : bitUnits bits ≤ 0x10000000000000 <<< (bits >>> 52) := by
  unfold bitUnits
  split
  · rename_i hexponent
    rw [hexponent, Nat.shiftLeft_zero]
    omega
  · rename_i hexponent
    have hnext : bits >>> 52 = (bits >>> 52 - 1) + 1 := by omega
    have hdouble : 0x10000000000000 <<< (bits >>> 52) = 0x20000000000000 <<< (bits >>> 52 - 1) := by
      rw [hnext, Nat.add_sub_cancel, Nat.add_comm, Nat.shiftLeft_add]
      rfl
    rw [hdouble]
    exact shiftLeft_mono (by omega) (Nat.le_refl _)

theorem le_bitUnits {bits : Nat} (h : bits >>> 52 ≠ 0) :
    0x10000000000000 <<< (bits >>> 52 - 1) ≤ bitUnits bits := by
  rw [bitUnits, if_neg h]
  exact shiftLeft_mono (Nat.le_add_right _ _) (Nat.le_refl _)

theorem bitUnits_mono {a b : Nat} (h : a ≤ b) : bitUnits a ≤ bitUnits b := by
  have hexponent : a >>> 52 ≤ b >>> 52 := by
    rw [Nat.shiftRight_eq_div_pow, Nat.shiftRight_eq_div_pow]
    exact Nat.div_le_div_right h
  by_cases heq : a >>> 52 = b >>> 52
  · have hfraction : a % 0x10000000000000 ≤ b % 0x10000000000000 := by omega
    unfold bitUnits
    rw [heq]
    split
    · exact hfraction
    · exact shiftLeft_mono (Nat.add_le_add_left hfraction _) (Nat.le_refl _)
  · have ha := bitUnits_le a
    have hpos : b >>> 52 ≠ 0 := by omega
    have hb := le_bitUnits hpos
    have hshift := shiftLeft_mono (Nat.le_refl 0x10000000000000) (show a >>> 52 ≤ b >>> 52 - 1 by omega)
    exact Nat.le_trans ha (Nat.le_trans hshift hb)

/-! ## Fractions -/

/-- A number from zero to one: no sign, no NaN, and not more units than one has. -/
structure IsFraction (x : Binary64) : Prop where
  unsigned : x.magnitude = x.bits
  number : x.isNaN = false
  units_le : x.units ≤ 1 <<< 1074

theorem isFraction_zero : zero.IsFraction :=
  ⟨rfl, rfl, Nat.zero_le _⟩

theorem units_ofRatio_mono {a b den : Nat} (hden : 0 < den) (h : a ≤ b) :
    (ofRatio a den).units ≤ (ofRatio b den).units := by
  rw [units_eq, units_eq, magnitude_ofRatio, magnitude_ofRatio, toNat_bits_ofRatio, toNat_bits_ofRatio]
  exact bitUnits_mono (nearestBits_mono hden h)

theorem isFraction_ofRatio {num den : Nat} (hden : 0 < den) (h : num ≤ den) :
    (ofRatio num den).IsFraction := by
  have hbits : nearestBits num den ≤ 0x3ff0000000000000 := by
    rw [← nearestBits_self hden]
    exact nearestBits_mono hden h
  refine ⟨magnitude_ofRatio num den, ?_, ?_⟩
  · have hinfinity : (0x7ff0000000000000 : UInt64).toNat = 0x7ff0000000000000 := rfl
    rw [isNaN, magnitude_ofRatio, decide_eq_false_iff_not, UInt64.not_lt, UInt64.le_iff_toNat_le,
      toNat_bits_ofRatio, hinfinity]
    exact nearestBits_le num den
  · have hone : bitUnits 0x3ff0000000000000 = 1 <<< 1074 := by decide +kernel
    rw [units_eq, magnitude_ofRatio, toNat_bits_ofRatio, ← hone]
    exact bitUnits_mono hbits

theorem units_ofNat_pos {n : Nat} (h : 0 < n) : 0 < (ofNat n).units := by
  have hone : 0 < (ofNat 1).units := by decide +kernel
  exact Nat.lt_of_lt_of_le hone (units_ofRatio_mono Nat.one_pos h)

/-- The share that a count has in one that is not less, both rounded to numbers first. -/
theorem isFraction_div_ofNat {m n : Nat} (hn : 0 < n) (h : m ≤ n) :
    ((ofNat m).div (ofNat n)).IsFraction :=
  isFraction_ofRatio (units_ofNat_pos hn) (units_ofRatio_mono Nat.one_pos h)

end Tether.Binary64
