import EventSheet.Suggestion.Ranking
import Mathlib

/-!
The order of scores.

Names are ranked by the bits of their scores, while the threshold is a bound in the order of floats
themselves. Above a bound that is greater than zero the two orders are one: such a score has no sign
and is a number, its bits are its exponent followed by its mantissa, and floats are compared by
exponent first and by mantissa then. So a ranking of scores that reach the threshold is one by
`<` on floats (`orderKey_lt_iff`).
-/

set_option autoImplicit false

namespace EventSheet.Ranking

open Float.Model Float.Model.UnpackedFloat

/-! ## Floats without sign -/

/-- What the bits of a float stand for that has no sign and is a number. The numbers below the first
full exponent have the exponent of those right above it, without the leading bit. -/
inductive IsUnsigned : Nat → UnpackedFloat → Prop where
  | zero : IsUnsigned 0 (.zero .positive)
  | subnormal {m : Nat} (hpos : 0 < m) : m < 2 ^ 52 →
      IsUnsigned m (.finite .positive m (-1074) hpos)
  | normal {e m : Nat} (hpos : 0 < 2 ^ 52 + m) : 0 < e → e < 2047 → m < 2 ^ 52 →
      IsUnsigned (e * 2 ^ 52 + m) (.finite .positive (2 ^ 52 + m) (e - 1075) hpos)
  | infinity : IsUnsigned (2047 * 2 ^ 52) (.infinity .positive)

/-- Finite floats without sign go by their exponents, and then by their mantissas. -/
theorem finite_lt_iff {m m' : Nat} {e e' : Int} (h : 0 < m) (h' : 0 < m') :
    (UnpackedFloat.finite .positive m e h).lt (.finite .positive m' e' h') = true
      ↔ e < e' ∨ e = e' ∧ m < m' := by
  simp [UnpackedFloat.lt, UnpackedFloat.compare, Ordering.then_eq_lt, Int.compare_eq_lt,
    Nat.compare_eq_lt]

/-- Floats without sign are in the order of their bits. -/
theorem IsUnsigned.lt_iff {b b' : Nat} {u u' : UnpackedFloat} (h : IsUnsigned b u)
    (h' : IsUnsigned b' u') : u.lt u' = true ↔ b < b' := by
  -- two finite floats go by exponent and mantissa, zero and infinity are at the ends
  cases h <;> cases h' <;>
    first
    | rw [finite_lt_iff]; omega
    | exact iff_of_true rfl (by omega)
    | exact iff_of_false Bool.false_ne_true (by omega)

/-! ## The parts of a bit pattern -/

theorem toNat_one_append {w : Nat} (v : BitVec w) : (1#1 ++ v).toNat = 2 ^ w + v.toNat := by
  rw [BitVec.toNat_append, ← Nat.shiftLeft_add_eq_or_of_lt v.isLt, Nat.shiftLeft_eq]
  simp

/-- The sign is the first bit. -/
theorem ofBitVec_unpackSign (b : BitVec 64) :
    Sign.ofBitVec (@unpackSign Format.binary64 b)
      = if b.toNat < 2 ^ 63 then .positive else .negative := by
  have hsize : b.toNat < 2 ^ 64 := b.isLt
  have hbit : (@unpackSign Format.binary64 b).toNat = b.toNat / 2 ^ 63 % 2 := by
    rw [unpackSign_def, BitVec.extractLsb'_toNat, Nat.shiftRight_eq_div_pow]
    rfl
  have hzero : @unpackSign Format.binary64 b = 0#1 ↔ b.toNat < 2 ^ 63 := by
    rw [← BitVec.toNat_inj, hbit]
    change _ = 0 ↔ _
    omega
  rw [Sign.ofBitVec]
  simp only [hzero]

/-- Without a sign, the bits are the exponent with the mantissa behind it. -/
theorem toNat_eq_exponent_add_mantissa {b : BitVec 64} (hsign : b.toNat < 2 ^ 63) :
    b.toNat = (@unpackExponent Format.binary64 b).toNat * 2 ^ 52
      + (@unpackMantissa Format.binary64 b).toNat := by
  rw [unpackExponent_def, unpackMantissa_def, BitVec.extractLsb'_toNat, BitVec.extractLsb'_toNat,
    Nat.shiftRight_eq_div_pow, Nat.shiftRight_zero]
  dsimp only
  omega

/-- A bit pattern below the sign bit stands for a float without sign, unless for no number. -/
theorem isUnsigned_unpack {b : BitVec 64} (hsign : b.toNat < 2 ^ 63)
    (hnumber : UnpackedFloat.unpack .binary64 b ≠ .notANumber) :
    IsUnsigned b.toNat (UnpackedFloat.unpack .binary64 b) := by
  have hexponent : (@unpackExponent Format.binary64 b).toNat < 2 ^ 11 := BitVec.isLt _
  have hmantissa : (@unpackMantissa Format.binary64 b).toNat < 2 ^ 52 := BitVec.isLt _
  have hbias : ((Format.binary64.exponentBias : Nat) : Int) = 1023 := rfl
  rw [toNat_eq_exponent_add_mantissa hsign]
  rw [UnpackedFloat.unpack] at hnumber ⊢
  dsimp only at hnumber ⊢
  rw [ofBitVec_unpackSign, if_pos hsign] at hnumber ⊢
  -- the last exponent is that of infinity and of no number
  by_cases hlast : @unpackExponent Format.binary64 b = -1#11
  · rw [if_pos hlast] at hnumber ⊢
    by_cases hzero : @unpackMantissa Format.binary64 b = 0#52
    · rw [if_pos hzero, hlast, hzero]
      exact .infinity
    · exact absurd (if_neg hzero) hnumber
  rw [if_neg hlast]
  -- the first exponent is that of zero and of the numbers without a leading bit
  by_cases hfirst : @unpackExponent Format.binary64 b = 0#11
  · rw [if_pos hfirst]
    by_cases hzero : @unpackMantissa Format.binary64 b = 0#52
    · rw [dif_pos hzero, hfirst, hzero]
      exact .zero
    · have hpos : 0 < (@unpackMantissa Format.binary64 b).toNat :=
        Nat.pos_of_ne_zero fun h => hzero (BitVec.eq_of_toNat_eq h)
      rw [dif_neg hzero, hfirst]
      have h := IsUnsigned.subnormal hpos hmantissa
      simpa [hbias] using h
  · have hlow : (@unpackExponent Format.binary64 b).toNat ≠ 0 :=
      fun h => hfirst (BitVec.eq_of_toNat_eq h)
    have hhigh : (@unpackExponent Format.binary64 b).toNat ≠ 2047 :=
      fun h => hlast (BitVec.eq_of_toNat_eq h)
    have hlead : (1#1 ++ @unpackMantissa Format.binary64 b).toNat
        = 2 ^ 52 + (@unpackMantissa Format.binary64 b).toNat := toNat_one_append _
    have h := IsUnsigned.normal (by omega) (Nat.pos_of_ne_zero hlow) (by omega) hmantissa
    simpa [hfirst, hbias, hlead] using h

/-! ## Scores that reach the threshold -/

theorem unpack_threshold :
    threshold.toModel.unpack = .finite .positive 7205759403792794 (-53) (by decide) := rfl

/-- No float with a sign reaches a bound without one. -/
theorem lt_of_finite_le_unpack {m : Nat} {e : Int} {hpos : 0 < m} {b : BitVec 64}
    (hle : (UnpackedFloat.finite .positive m e hpos).le (UnpackedFloat.unpack .binary64 b) = true) :
    b.toNat < 2 ^ 63 := by
  apply Nat.lt_of_not_le
  intro hsign
  rw [UnpackedFloat.unpack] at hle
  dsimp only at hle
  rw [ofBitVec_unpackSign, if_neg (Nat.not_lt.mpr hsign)] at hle
  -- whatever has a sign, be it zero or infinite, is less than the bound
  split at hle
  · split at hle <;> cases hle
  · split at hle
    · split at hle <;> cases hle
    · cases hle

variable {x y : Float}

/-- A score that reaches the threshold has neither a sign nor a bit pattern of no number. -/
theorem bits_of_threshold_le (h : threshold ≤ x) :
    x.toBits.toNat < 2 ^ 63 ∧ IsUnsigned x.toBits.toNat x.toModel.unpack := by
  have hle : threshold.toModel.unpack.le x.toModel.unpack = true := decide_eq_true_iff.mp h
  rw [unpack_threshold] at hle
  have hsign : x.toBits.toNat < 2 ^ 63 := lt_of_finite_le_unpack hle
  refine ⟨hsign, isUnsigned_unpack hsign ?_⟩
  intro hnan
  have hunpack : x.toModel.unpack = .notANumber := hnan
  rw [hunpack] at hle
  cases hle

/-- The place of such a score in the total order is its bits. -/
theorem orderKey_of_threshold_le (h : threshold ≤ x) : orderKey x = (x.toBits.toNat : Int) :=
  if_pos (bits_of_threshold_le h).1

/-- Scores that reach the threshold are ranked in the order of floats. -/
theorem orderKey_lt_iff (hx : threshold ≤ x) (hy : threshold ≤ y) :
    orderKey x < orderKey y ↔ x < y := by
  have hlt : x < y ↔ x.toModel.unpack.lt y.toModel.unpack = true := decide_eq_true_iff
  rw [hlt, (bits_of_threshold_le hx).2.lt_iff (bits_of_threshold_le hy).2,
    orderKey_of_threshold_le hx, orderKey_of_threshold_le hy, Int.ofNat_lt]

/-- Scores that have one place in the total order are the same. -/
theorem eq_of_orderKey_eq (h : orderKey x = orderKey y) : x = y := by
  apply Float.toBits_inj.mp
  apply UInt64.toNat_inj.mp
  unfold orderKey at h
  dsimp only at h
  have hx := x.toBits.toNat_lt
  have hy := y.toBits.toNat_lt
  -- places with a sign are below zero and all others are not, so both are of one kind
  split at h <;> split at h <;> omega

end EventSheet.Ranking
