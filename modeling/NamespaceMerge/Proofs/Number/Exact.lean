import NamespaceMerge.Proofs.Number.Binary64

/-! Fractions that doubles stand for. They are rounded to just these doubles, which are read as the
same values (`exists_fraction?_ofFraction`). -/

namespace NamespaceMerge.Binary64

variable {x : Float} {negative : Bool} {m : Nat} {e : Int}

/-! ### Reading a double that was made -/

/-- Bits that are not those of infinity or of no number are kept by the double made of them. -/
theorem toNat_toBits_ofBits {n : Nat} (hlt : n < 2 ^ 64) (hfinite : n / 2 ^ 52 % 2 ^ 11 ≠ 2047) :
    (Float.ofBits n.toUInt64).toBits.toNat = n := by
  have hn : n.toUInt64.toNat = n := by
    rw [Nat.toUInt64_eq, UInt64.toNat_ofNat_of_lt' hlt]
  have hvalid : Float.Model.Format.binary64.Valid n.toUInt64.toBitVec := by
    refine ⟨fun hexponent => ?_⟩
    have h := congrArg BitVec.toNat hexponent
    simp [Float.Model.UnpackedFloat.unpackExponent, Nat.shiftRight_eq_div_pow, hn] at h
    exact absurd h hfinite
  have hmade : Float.ofBits n.toUInt64 = .ofModel ⟨n.toUInt64, hvalid⟩ :=
    Float.ofBits_toBits (.ofModel ⟨n.toUInt64, hvalid⟩)
  rw [hmade]
  exact hn

theorem decode_ofBits_of_lt {n : Nat} (h : n < 2 ^ 52) :
    decode (Float.ofBits n.toUInt64) = .finite false n (-1074) := by
  have hfield : n / 2 ^ 52 % 2 ^ 11 = 0 := by omega
  have hsign : (n / 2 ^ 63 == 1) = false := beq_eq_false_iff_ne.mpr (by omega)
  simp only [decode, pow_eq, toNat_toBits_ofBits (show n < 2 ^ 64 by omega) (by omega), hfield,
    hsign, Nat.mod_eq_of_lt h]
  rfl

theorem decode_ofBits_of_field {field fraction : Nat} (hpos : 0 < field) (hfield : field < 2047)
    (hfraction : fraction < 2 ^ 52) :
    decode (Float.ofBits (field * 2 ^ 52 + fraction).toUInt64) =
      .finite false (2 ^ 52 + fraction) (field - 1075) := by
  generalize hn : field * 2 ^ 52 + fraction = n
  have hfield' : n / 2 ^ 52 % 2 ^ 11 = field := by omega
  have hfraction' : n % 2 ^ 52 = fraction := by omega
  have hsign : (n / 2 ^ 63 == 1) = false := beq_eq_false_iff_ne.mpr (by omega)
  simp only [decode, pow_eq, toNat_toBits_ofBits (show n < 2 ^ 64 by omega) (by omega), hfield',
    hfraction', hsign, if_neg hfield.ne, if_neg hpos.ne']

/-- A double is read as the parts it was made of. -/
theorem decode_ofParts (h : Canonical m e) : decode (ofParts false m e) = .finite false m e := by
  have hleast := h.least
  have hgreatest := h.greatest
  have hbounded := h.bounded
  rw [ofParts, signBits, if_neg Bool.false_ne_true, Nat.add_zero, bitsOf]
  split
  case isTrue hsmall => rw [decode_ofBits_of_lt hsmall, h.subnormal hsmall]
  case isFalse hlarge =>
    have hmantissa : 2 ^ 52 + (m - 2 ^ 52) = m := by omega
    have hexponent : ((e + 1075).toNat : Int) - 1075 = e := by omega
    rw [decode_ofBits_of_field (by omega) (by omega) (by omega), hmantissa, hexponent]

/-! ### Fractions that a double stands for -/

theorem mul_pow_lt {k : Nat} (hk : m.log2 + k ≤ 52) : m * 2 ^ k < 2 ^ 53 := by
  calc m * 2 ^ k < 2 ^ (m.log2 + 1) * 2 ^ k :=
        Nat.mul_lt_mul_of_pos_right Nat.lt_log2_self (by positivity)
    _ = 2 ^ (m.log2 + 1 + k) := (pow_add ..).symm
    _ ≤ 2 ^ 53 := Nat.pow_le_pow_right (by decide) (by omega)

theorem le_mul_pow {k : Nat} (hm : 0 < m) (hk : 52 ≤ m.log2 + k) : 2 ^ 52 ≤ m * 2 ^ k := by
  calc 2 ^ 52 ≤ 2 ^ (m.log2 + k) := Nat.pow_le_pow_right (by decide) hk
    _ = 2 ^ m.log2 * 2 ^ k := pow_add ..
    _ ≤ m * 2 ^ k := Nat.mul_le_mul_right _ (Nat.log2_self_le hm.ne')

/-- A value with few enough digits is that of a double: the mantissa is doubled until it has 53 bits
or the exponent is the least one. -/
theorem Fits.exists_canonical (h : Fits m e) (hm : 0 < m) :
    ∃ m' e', Canonical m' e' ∧ (m' * 2 ^ e' : ℚ) = m * 2 ^ e := by
  obtain ⟨hbounded, hleast, hgreatest⟩ := h
  have hlog : m.log2 < 53 := (Nat.log2_lt hm.ne').mpr hbounded
  obtain ⟨k, hk⟩ : ∃ k : Nat, k = min (52 - m.log2) (e + 1074).toNat := ⟨_, rfl⟩
  refine ⟨m * 2 ^ k, e - k, ⟨by positivity, ?bounded, by omega, by omega, ?subnormal⟩, ?value⟩
  case bounded => exact mul_pow_lt (by omega)
  case subnormal =>
    intro hsmall
    by_contra hne
    exact hsmall.not_ge (le_mul_pow hm (by omega))
  case value =>
    push_cast
    rw [zpow_sub₀ two_ne_zero, zpow_natCast]
    field_simp

theorem RoundsTo.self (m : Nat) (e : Int) : RoundsTo m e (m * 2 ^ e) := by
  have hpow : (0 : ℚ) < 2 ^ e := by positivity
  have hmargin := marginBelow_pos m e
  have hlow : (m - marginBelow m e) * 2 ^ e < m * 2 ^ e := by
    gcongr
    linarith
  have hhigh : (m : ℚ) * 2 ^ e < (m + 1 / 2) * 2 ^ e := by
    gcongr
    linarith
  exact ⟨hlow.le, hhigh.le, fun _ => ⟨hlow, hhigh⟩⟩

theorem scale_den_pos {den : Nat} (hden : 0 < den) (num : Nat) (e : Int) :
    0 < (scale num den e).2 := by
  simp only [scale, pow_eq]
  positivity

theorem scale_neg_div (m : Nat) (e : Int) :
    ((scale m 1 (-e)).1 : ℚ) / (scale m 1 (-e)).2 = m * 2 ^ e := by
  rw [scale_div, Nat.cast_one, div_one, zpow_neg, div_inv_eq_mul]

theorem fraction?_of_decode (h : decode x = .finite negative m e) :
    fraction? x = some (if negative then -((scale m 1 (-e)).1 : Int) else (scale m 1 (-e)).1,
      (scale m 1 (-e)).2) := by
  simp only [fraction?, h]

/-- A fraction that a double stands for is rounded to this double. -/
theorem exists_decode_ofFraction {num den : Nat} (hden : 0 < den) (h : Fits m e)
    (hvalue : (num / den : ℚ) = m * 2 ^ e) :
    ∃ m' e', decode (ofFraction false num den) = .finite false m' e' ∧
      (m' * 2 ^ e' : ℚ) = num / den := by
  rcases Nat.eq_zero_or_pos num with rfl | hnum
  · have hbits : bitsOfFraction 0 den = 0 := if_pos rfl
    refine ⟨0, -1074, ?_, by simp⟩
    rw [ofFraction, hbits]
    exact decode_ofBits_of_lt (n := 0) (by decide)
  · have hm : 0 < m := by
      rcases Nat.eq_zero_or_pos m with rfl | hm
      · have hpos : (0 : ℚ) < num / den := by positivity
        simp [hvalue] at hpos
      · exact hm
    obtain ⟨m', e', hcanonical, hsame⟩ := h.exists_canonical hm
    rw [← hsame] at hvalue
    refine ⟨m', e', ?_, hvalue.symm⟩
    rw [ofFraction_of_roundsTo hnum hden hcanonical (hvalue ▸ .self m' e')]
    exact decode_ofParts hcanonical

theorem exists_fraction?_ofFraction {num den : Nat} (hden : 0 < den) (h : Fits m e)
    (hvalue : (num / den : ℚ) = m * 2 ^ e) :
    ∃ n d : Nat, fraction? (ofFraction false num den) = some ((n : Int), d) ∧ 0 < d ∧
      (n / d : ℚ) = num / den := by
  obtain ⟨m', e', hdecode, hsame⟩ := exists_decode_ofFraction hden h hvalue
  exact ⟨_, _, fraction?_of_decode hdecode, scale_den_pos Nat.one_pos m' (-e'),
    (scale_neg_div m' e').trans hsame⟩

/-- The fraction of a double that is not negative. -/
theorem exists_fits_of_fraction? {num : Int} {den : Nat} (h : fraction? x = some (num, den))
    (hnum : 0 ≤ num) :
    ∃ m e, Fits m e ∧ num = (m * 2 ^ e.toNat : Nat) ∧ den = 2 ^ (-e).toNat := by
  rw [fraction?] at h
  split at h
  case h_2 => cases h
  case h_1 negative m e hdecode =>
    obtain ⟨hfits, -⟩ := fits_of_decode hdecode
    simp only [scale, pow_eq, neg_neg, Nat.one_mul, Option.some.injEq, Prod.mk.injEq] at h
    obtain ⟨rfl, rfl⟩ := h
    refine ⟨m, e, hfits, ?_, rfl⟩
    split
    case isTrue hnegative =>
      rw [if_pos hnegative] at hnum
      omega
    case isFalse => rfl

theorem den_pos_of_fraction? {num : Int} {den : Nat} (h : fraction? x = some (num, den)) :
    0 < den := by
  rw [fraction?] at h
  split at h
  case h_2 => cases h
  case h_1 negative m e hdecode =>
    cases h
    exact scale_den_pos Nat.one_pos m (-e)

end NamespaceMerge.Binary64
