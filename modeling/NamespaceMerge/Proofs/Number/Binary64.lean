import Mathlib
import NamespaceMerge.Proofs.Number.Rounding

/-! Doubles from what they stand for. A double is made again from its sign, mantissa and exponent
(`eq_ofParts`), and so from every decimal that is rounded to it (`ofDecimal_of_roundsTo`). -/

namespace NamespaceMerge.Binary64

variable {x : Float} {negative : Bool} {m : Nat} {e : Int}

/-! ### Bits of the kinds of doubles -/

/-- A double is known by its bits. -/
theorem eq_ofBits {n : Nat} (h : x.toBits.toNat = n) : x = Float.ofBits n.toUInt64 := by
  rw [← h, Nat.toUInt64_eq, UInt64.ofNat_toNat, Float.ofBits_toBits]

/-- The sign as a number added to the bits. -/
def signBits (negative : Bool) : Nat := if negative then 2 ^ 63 else 0

/-- The double of a mantissa and exponent, with its sign. -/
def ofParts (negative : Bool) (mantissa : Nat) (exponent : Int) : Float :=
  Float.ofBits (bitsOf mantissa exponent + signBits negative).toUInt64

theorem toNat_toBits_eq (x : Float) :
    x.toBits.toNat = x.toBits.toNat % 2 ^ 52 + x.toBits.toNat / 2 ^ 52 % 2 ^ 11 * 2 ^ 52 +
      signBits (x.toBits.toNat / 2 ^ 63 == 1) := by
  have hlt := x.toBits.toNat_lt
  rw [signBits]
  split
  case isTrue h =>
    rw [beq_iff_eq] at h
    omega
  case isFalse h =>
    rw [beq_iff_eq] at h
    omega

theorem eq_ofParts (h : decode x = .finite negative m e) : x = ofParts negative m e := by
  have hbits := toNat_toBits_eq x
  simp only [decode, pow_eq] at h
  split at h
  case isTrue => split at h <;> cases h
  case isFalse hfinite =>
    split at h
    case isTrue hfield =>
      cases h
      rw [hfield, Nat.zero_mul, Nat.add_zero] at hbits
      rw [ofParts, bitsOf, if_pos (Nat.mod_lt _ (by decide))]
      exact eq_ofBits hbits
    case isFalse hfield =>
      cases h
      rw [ofParts, bitsOf, if_neg (by omega), Nat.add_sub_cancel_left, sub_add_cancel,
        Int.toNat_natCast]
      exact eq_ofBits (hbits.trans (by omega))

/-- A mantissa and an exponent within the range of the doubles, though not always those that the
double of this value is decoded to. -/
structure Fits (mantissa : Nat) (exponent : Int) : Prop where
  bounded : mantissa < 2 ^ 53
  least : -1074 ≤ exponent
  greatest : exponent ≤ 971

theorem fits_of_decode (h : decode x = .finite negative m e) :
    Fits m e ∧ (m < 2 ^ 52 → e = -1074) := by
  have hfraction := Nat.mod_lt x.toBits.toNat (show 0 < 2 ^ 52 by decide)
  have hfield := Nat.mod_lt (x.toBits.toNat / 2 ^ 52) (show 0 < 2 ^ 11 by decide)
  simp only [decode, pow_eq] at h
  split at h
  case isTrue => split at h <;> cases h
  case isFalse hfinite =>
    split at h
    case isTrue =>
      cases h
      exact ⟨⟨by omega, by omega, by omega⟩, by omega⟩
    case isFalse =>
      cases h
      exact ⟨⟨by omega, by omega, by omega⟩, by omega⟩

theorem canonical_of_decode (h : decode x = .finite negative m e) (hm : 0 < m) :
    Canonical m e := by
  obtain ⟨⟨hbounded, hleast, hgreatest⟩, hsubnormal⟩ := fits_of_decode h
  exact ⟨hm, hbounded, hleast, hgreatest, hsubnormal⟩

theorem eq_infinity_of_decode (h : decode x = .infinite negative) :
    x = Float.ofBits (2047 * 2 ^ 52 + signBits negative).toUInt64 := by
  have hbits := toNat_toBits_eq x
  simp only [decode, pow_eq] at h
  split at h
  case isTrue hfield =>
    split at h
    case isTrue hfraction =>
      cases h
      rw [hfield, hfraction, Nat.zero_add] at hbits
      exact eq_ofBits hbits
    case isFalse => cases h
  case isFalse => split at h <;> cases h

/-- There is one double that is no number. -/
theorem eq_nan_of_decode (h : decode x = .nan) : x = Float.ofBits 0x7ff8000000000000 := by
  have hlt := x.toBits.toNat_lt
  simp only [decode, pow_eq] at h
  split at h
  case isFalse => split at h <;> cases h
  case isTrue hfield =>
    split at h
    case isTrue => cases h
    case isFalse hfraction =>
      have hpacked := x.toModel.valid.eq_packedNaN
        (by
          apply BitVec.eq_of_toNat_eq
          simp [Float.Model.UnpackedFloat.unpackExponent, Nat.shiftRight_eq_div_pow]
          exact hfield)
        (by
          intro hzero
          have hmantissa := congrArg BitVec.toNat hzero
          simp [Float.Model.UnpackedFloat.unpackMantissa] at hmantissa
          exact hfraction hmantissa)
      have hbits : x.toBits = 0x7ff8000000000000 :=
        UInt64.toBitVec_inj.mp (hpacked.trans (by decide))
      rw [← hbits, Float.ofBits_toBits]

/-! ### Doubles from decimals -/

theorem ofFraction_of_roundsTo {num den : Nat} (hnum : 0 < num) (hden : 0 < den)
    (h : Canonical m e) (hq : RoundsTo m e (num / den)) (negative : Bool) :
    ofFraction negative num den = ofParts negative m e := by
  rw [ofFraction, bitsOfFraction_of_roundsTo hnum hden h hq]
  rfl

theorem RoundsTo.lt_limit {q : ℚ} (hq : RoundsTo m e q) (h : Canonical m e) :
    q < 2 ^ (1024 : Int) :=
  (hq.lt_zpow h.bounded).trans_le
    (zpow_le_zpow_right₀ one_le_two (by have := h.greatest; omega))

theorem two_pow_le_ten_pow {a b : Nat} (h : a ≤ 3 * b) : (2 : ℚ) ^ a ≤ 10 ^ b := by
  calc (2 : ℚ) ^ a ≤ 2 ^ (3 * b) := pow_le_pow_right₀ one_le_two h
    _ = 8 ^ b := by
      rw [pow_mul]
      norm_num
    _ ≤ 10 ^ b := by
      gcongr
      norm_num

/-- A number of so few digits is small. -/
theorem lt_zpow_log2 (digits : Nat) (power : Int) :
    (digits * 10 ^ power : ℚ) < 10 ^ (power + (digits.log2 / 3 : Nat) + 1) := by
  have hdigits : (digits : ℚ) < 10 ^ (digits.log2 / 3 + 1) := by
    calc (digits : ℚ) < (2 ^ (digits.log2 + 1) : Nat) := by exact_mod_cast Nat.lt_log2_self
      _ ≤ 10 ^ (digits.log2 / 3 + 1) := by
        push_cast
        exact two_pow_le_ten_pow (by omega)
  have hpow : (10 : ℚ) ^ (power + (digits.log2 / 3 : Nat) + 1) =
      10 ^ (digits.log2 / 3 + 1) * 10 ^ power := by
    rw [← zpow_natCast, ← zpow_add₀ (by norm_num)]
    congr 1
    push_cast
    ring
  rw [hpow]
  gcongr

section

variable {digits : Nat} {power : Int} (h : Canonical m e) (hq : RoundsTo m e (digits * 10 ^ power))

include h hq

/-- No decimal that is too small for the doubles is rounded to one. -/
theorem not_small_of_roundsTo : ¬ power + (digits.log2 / 3 : Int) < -400 := by
  intro hlt
  have hpow : (10 : ℚ) ^ (power + (digits.log2 / 3 : Nat) + 1) ≤ 10 ^ (-399 : Int) :=
    zpow_le_zpow_right₀ (by norm_num) (by omega)
  have hunit : (10 : ℚ) ^ (-399 : Int) ≤ 1 / 2 * 2 ^ (-1074 : Int) := by
    rw [zpow_neg, zpow_neg, zpow_ofNat, zpow_ofNat, ← one_div, ← one_div, div_mul_div_comm,
      one_mul, ← pow_succ']
    exact one_div_le_one_div_of_le (by positivity) (two_pow_le_ten_pow (by decide))
  have hless := (lt_zpow_log2 digits power).trans_le (hpow.trans hunit)
  exact ((hq.half_unit_le h).trans_lt hless).false

/-- No decimal that is too large for the doubles is rounded to one. -/
theorem not_large_of_roundsTo : ¬ 400 < power := by
  intro hlt
  have hten : (0 : ℚ) < 10 ^ power := by positivity
  have hone : (1 : ℚ) ≤ digits := by exact_mod_cast hq.digits_pos h
  have hchain : (2 : ℚ) ^ (1024 : Int) ≤ digits * 10 ^ power := by
    calc (2 : ℚ) ^ (1024 : Int) ≤ 10 ^ (401 : Int) := by
          rw [zpow_ofNat, zpow_ofNat]
          exact two_pow_le_ten_pow (by decide)
      _ ≤ 10 ^ power := zpow_le_zpow_right₀ (by norm_num) (by omega)
      _ ≤ digits * 10 ^ power := le_mul_of_one_le_left hten.le hone
  exact (hchain.trans_lt (hq.lt_limit h)).false

/-- Every decimal that is rounded to a double is read as this double. -/
theorem ofDecimal_of_roundsTo (negative : Bool) :
    ofDecimal negative digits power = ofParts negative m e := by
  have hdigits := hq.digits_pos h
  have hsmall := not_small_of_roundsTo h hq
  have hvalue : ((digits * 10 ^ power.toNat : Nat) : ℚ) / (10 ^ (-power).toNat : Nat) =
      digits * 10 ^ power := by
    rw [← pow_toNat_div (by norm_num) power]
    push_cast
    rw [mul_div_assoc]
  simp only [ofDecimal, if_neg (not_or.mpr ⟨hdigits.ne', hsmall⟩),
    if_neg (not_large_of_roundsTo h hq)]
  refine ofFraction_of_roundsTo ?num ?den h ?near negative
  case num => exact Nat.mul_pos hdigits (Nat.pow_pos (by decide))
  case den => exact Nat.pow_pos (by decide)
  case near => exact hvalue ▸ hq

end

end NamespaceMerge.Binary64
