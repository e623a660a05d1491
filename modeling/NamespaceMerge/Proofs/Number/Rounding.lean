import Mathlib.Algebra.Order.Field.Power
import Mathlib.Data.Rat.Cast.Order
import Mathlib.Tactic.FieldSimp
import Mathlib.Tactic.Linarith
import Mathlib.Tactic.NormNum
import Mathlib.Tactic.Positivity
import Mathlib.Tactic.Ring
import NamespaceMerge.Number.Shortest

/-! Rounding a fraction to a double. A double stands in an interval of fractions that are rounded to
it: half a unit to either side, or a quarter below where the doubles start to lie closer. The
interval that digits are searched in is this one (`bitsOfFraction_of_roundsTo`). -/

namespace NamespaceMerge

namespace Binary64

theorem pow_eq (b n : Nat) : Nat.pow b n = b ^ n := rfl

theorem pow_toNat_div {b : ℚ} (hb : b ≠ 0) (e : Int) :
    b ^ e.toNat / b ^ (-e).toNat = b ^ e := by
  rw [← zpow_natCast, ← zpow_natCast, ← zpow_sub₀ hb]
  congr 1
  omega

theorem scale_div (num den : Nat) (e : Int) :
    ((scale num den e).1 : ℚ) / (scale num den e).2 = (num / den : ℚ) / 2 ^ e := by
  rw [← pow_toNat_div two_ne_zero e]
  simp only [scale, pow_eq]
  push_cast
  rw [div_div_eq_mul_div, div_mul_eq_mul_div, div_div]

theorem scale_pos {num den : Nat} (hnum : 0 < num) (hden : 0 < den) (e : Int) :
    0 < (scale num den e).1 ∧ 0 < (scale num den e).2 := by
  simp only [scale, pow_eq]
  exact ⟨by positivity, by positivity⟩

/-- A fraction no further than half a unit from `m` is rounded to it, a tie only if `m` is even. -/
theorem roundQuotient_eq {n d m : Nat} (hd : 0 < d) (hlow : 2 * (m * d) ≤ 2 * n + d)
    (hhigh : 2 * n ≤ 2 * (m * d) + d)
    (htie : m % 2 = 1 → 2 * (m * d) ≠ 2 * n + d ∧ 2 * n ≠ 2 * (m * d) + d) :
    roundQuotient n d = m := by
  have hdiv := Nat.div_add_mod n d
  rcases Nat.lt_or_ge n (m * d) with hlt | hge
  · obtain ⟨k, rfl⟩ : ∃ k, m = k + 1 :=
      Nat.exists_eq_succ_of_ne_zero (by rintro rfl; simp at hlt)
    have hsucc : (k + 1) * d = k * d + d := Nat.succ_mul k d
    have hquotient : n / d = k := by
      rw [Nat.div_eq_iff hd]
      constructor <;> omega
    rw [hquotient, Nat.mul_comm d k] at hdiv
    simp only [roundQuotient, hquotient]
    split
    · omega
    · split <;> omega
  · have hquotient : n / d = m := by
      rw [Nat.div_eq_iff hd]
      constructor <;> omega
    rw [hquotient, Nat.mul_comm d m] at hdiv
    simp only [roundQuotient, hquotient]
    split
    · rfl
    · split <;> omega

theorem roundQuotient_eq_of_near {n d m : Nat} (hd : 0 < d) (hlow : (m : ℚ) - 1 / 2 ≤ n / d)
    (hhigh : (n / d : ℚ) ≤ m + 1 / 2)
    (htie : m % 2 = 1 → (m : ℚ) - 1 / 2 < n / d ∧ (n / d : ℚ) < m + 1 / 2) :
    roundQuotient n d = m := by
  have hd' : (0 : ℚ) < d := Nat.cast_pos.mpr hd
  rw [le_div_iff₀ hd'] at hlow
  rw [div_le_iff₀ hd'] at hhigh
  rw [lt_div_iff₀ hd', div_lt_iff₀ hd'] at htie
  refine roundQuotient_eq hd ?low ?high fun hodd => ?tie
  case low => exact_mod_cast (by linarith : (2 * (m * d) : ℚ) ≤ 2 * n + d)
  case high => exact_mod_cast (by linarith : (2 * n : ℚ) ≤ 2 * (m * d) + d)
  case tie =>
    obtain ⟨hlow, hhigh⟩ := htie hodd
    have hlow' : 2 * (m * d) < 2 * n + d := by
      exact_mod_cast (by linarith : (2 * (m * d) : ℚ) < 2 * n + d)
    have hhigh' : 2 * n < 2 * (m * d) + d := by
      exact_mod_cast (by linarith : (2 * n : ℚ) < 2 * (m * d) + d)
    exact ⟨hlow'.ne, hhigh'.ne⟩

/-! ### The rounded quotient -/

/-- The rounded quotient is no further than half a unit away. -/
theorem roundQuotient_near {d : Nat} (hd : 0 < d) (n : Nat) :
    2 * (roundQuotient n d * d) ≤ 2 * n + d ∧ 2 * n ≤ 2 * (roundQuotient n d * d) + d := by
  have hdiv := Nat.div_add_mod n d
  have hmod := Nat.mod_lt n hd
  have hsucc : (n / d + 1) * d = d * (n / d) + d := by ring
  have hself : n / d * d = d * (n / d) := Nat.mul_comm _ _
  simp only [roundQuotient]
  split
  · omega
  · split
    · omega
    · rcases Nat.mod_two_eq_zero_or_one (n / d) with hparity | hparity
      · rw [hparity, Nat.add_zero]
        omega
      · rw [hparity]
        omega

theorem abs_roundQuotient_sub_le {d : Nat} (hd : 0 < d) (n : Nat) :
    |(roundQuotient n d : ℚ) - n / d| ≤ 1 / 2 := by
  have hd' : (0 : ℚ) < d := Nat.cast_pos.mpr hd
  obtain ⟨hlow, hhigh⟩ := roundQuotient_near hd n
  have hlow' : (2 * (roundQuotient n d * d) : ℚ) ≤ 2 * n + d := by exact_mod_cast hlow
  have hhigh' : (2 * n : ℚ) ≤ 2 * (roundQuotient n d * d) + d := by exact_mod_cast hhigh
  rw [abs_sub_comm, abs_le, le_sub_iff_add_le, sub_le_iff_le_add, div_le_iff₀ hd',
    le_div_iff₀ hd']
  constructor <;> linarith

/-- A fraction is rounded to less than an even number exactly if it is more than half a unit
below: a tie goes to the even number. -/
theorem roundQuotient_lt_iff {d k : Nat} (hd : 0 < d) (hk : k % 2 = 0) (n : Nat) :
    roundQuotient n d < k ↔ (n / d : ℚ) < k - 1 / 2 := by
  have hd' : (0 : ℚ) < d := Nat.cast_pos.mpr hd
  have hcross : (n / d : ℚ) < k - 1 / 2 ↔ 2 * n + d < 2 * (k * d) := by
    rw [div_lt_iff₀ hd', ← Nat.cast_lt (α := ℚ)]
    push_cast
    constructor <;> intro h <;> linarith
  have hdiv := Nat.div_add_mod n d
  have hmod := Nat.mod_lt n hd
  rw [hcross]
  rcases Nat.lt_trichotomy (n / d + 1) k with hless | rfl | hmore
  · obtain ⟨j, rfl⟩ := Nat.exists_eq_add_of_lt hless
    have hproduct : (n / d + 1 + j + 1) * d = d * (n / d) + 2 * d + j * d := by ring
    simp only [roundQuotient]
    split
    · omega
    · split <;> omega
  · have hproduct : (n / d + 1) * d = d * (n / d) + d := by ring
    simp only [roundQuotient]
    split
    · omega
    · split <;> omega
  · obtain ⟨j, hj⟩ := Nat.exists_eq_add_of_le (Nat.le_of_lt_succ hmore)
    have hproduct : d * (n / d) = k * d + j * d := by
      rw [hj]
      ring
    simp only [roundQuotient]
    split
    · omega
    · split <;> omega

theorem roundQuotient_mul_left {k : Nat} (hk : 0 < k) (n d : Nat) :
    roundQuotient (k * n) (k * d) = roundQuotient n d := by
  have hlt (a b : Nat) : 2 * (k * a) < k * b ↔ 2 * a < b := by
    rw [Nat.mul_left_comm, Nat.mul_lt_mul_left hk]
  have hgt (a b : Nat) : k * b < 2 * (k * a) ↔ b < 2 * a := by
    rw [Nat.mul_left_comm, Nat.mul_lt_mul_left hk]
  simp only [roundQuotient, Nat.mul_div_mul_left _ _ hk, Nat.mul_mod_mul_left, hlt, hgt]

/-- Rounding looks at the quotient alone. -/
theorem roundQuotient_congr {n d n' d' : Nat} (hd : 0 < d) (hd' : 0 < d')
    (h : (n / d : ℚ) = n' / d') : roundQuotient n d = roundQuotient n' d' := by
  have hcross : d' * n = d * n' := by
    rw [div_eq_div_iff (Nat.cast_ne_zero.mpr hd.ne') (Nat.cast_ne_zero.mpr hd'.ne')] at h
    rw [Nat.mul_comm d', Nat.mul_comm d]
    exact_mod_cast h
  rw [← roundQuotient_mul_left hd', hcross, Nat.mul_comm d', roundQuotient_mul_left hd]

/-! ### The unit that a fraction is rounded to -/

/-- The exponent at which a fraction has a mantissa of 53 bits. -/
def unitExponent (num den : Nat) : Int :=
  let guess : Int := (num.log2 : Int) - den.log2 - 52
  if (scale num den guess).1 < Nat.pow 2 52 * (scale num den guess).2 then guess - 1 else guess

theorem zpow_le_of_log2 {n : Nat} (hn : 0 < n) :
    (2 : ℚ) ^ (n.log2 : Int) ≤ n ∧ (n : ℚ) < 2 ^ ((n.log2 : Int) + 1) := by
  have hlow := Nat.log2_self_le hn.ne'
  have hhigh := Nat.lt_log2_self (n := n)
  rw [← Nat.cast_succ, zpow_natCast, zpow_natCast]
  exact ⟨by exact_mod_cast hlow, by exact_mod_cast hhigh⟩

theorem unitExponent_spec {num den : Nat} (hnum : 0 < num) (hden : 0 < den) :
    (2 : ℚ) ^ (unitExponent num den + 52) ≤ num / den ∧
      (num / den : ℚ) < 2 ^ (unitExponent num den + 53) := by
  obtain ⟨hnumLow, hnumHigh⟩ := zpow_le_of_log2 hnum
  obtain ⟨hdenLow, hdenHigh⟩ := zpow_le_of_log2 hden
  have hden' : (0 : ℚ) < den := Nat.cast_pos.mpr hden
  rw [unitExponent]
  generalize hguess : (num.log2 : Int) - den.log2 - 52 = guess
  -- the guess is too large by one at most
  have hhigh : (num / den : ℚ) < 2 ^ (guess + 53) := by
    rw [div_lt_iff₀ hden']
    calc (num : ℚ) < 2 ^ ((num.log2 : Int) + 1) := hnumHigh
      _ = 2 ^ (guess + 53) * 2 ^ (den.log2 : Int) := by
        rw [← zpow_add₀ two_ne_zero]
        congr 1
        omega
      _ ≤ 2 ^ (guess + 53) * den := by gcongr
  have hlow : (2 : ℚ) ^ (guess + 51) ≤ num / den := by
    rw [le_div_iff₀ hden']
    calc (2 : ℚ) ^ (guess + 51) * den ≤ 2 ^ (guess + 51) * 2 ^ ((den.log2 : Int) + 1) := by gcongr
      _ = 2 ^ (num.log2 : Int) := by
        rw [← zpow_add₀ two_ne_zero]
        congr 1
        omega
      _ ≤ num := hnumLow
  have hscale := scale_div num den guess
  obtain ⟨-, hpos⟩ := scale_pos hnum hden guess
  have htest : (scale num den guess).1 < Nat.pow 2 52 * (scale num den guess).2 ↔
      (num / den : ℚ) < 2 ^ (guess + 52) := by
    rw [add_comm guess, zpow_add₀ two_ne_zero, ← div_lt_iff₀ (by positivity), ← hscale,
      div_lt_iff₀ (Nat.cast_pos.mpr hpos), pow_eq]
    norm_cast
  simp only [htest]
  split
  case isTrue h =>
    have h51 : guess - 1 + 52 = guess + 51 := by omega
    have h52 : guess - 1 + 53 = guess + 52 := by omega
    rw [h51, h52]
    exact ⟨hlow, h⟩
  case isFalse h => exact ⟨not_lt.mp h, hhigh⟩

theorem unitExponent_le {num den : Nat} (hnum : 0 < num) (hden : 0 < den) {e : Int}
    (h : (num / den : ℚ) < 2 ^ (e + 53)) : unitExponent num den ≤ e := by
  have hspec := (unitExponent_spec hnum hden).1.trans_lt h
  have := (zpow_lt_zpow_iff_right₀ (one_lt_two)).mp hspec
  omega

theorem le_unitExponent {num den : Nat} (hnum : 0 < num) (hden : 0 < den) {e : Int}
    (h : (2 : ℚ) ^ (e + 52) ≤ num / den) : e ≤ unitExponent num den := by
  have hspec := h.trans_lt (unitExponent_spec hnum hden).2
  have := (zpow_lt_zpow_iff_right₀ (one_lt_two)).mp hspec
  omega

/-! ### Bits of a rounded fraction -/

/-- A positive finite double: its mantissa has 53 bits, or fewer on the least exponent. -/
structure Canonical (mantissa : Nat) (exponent : Int) : Prop where
  positive : 0 < mantissa
  bounded : mantissa < 2 ^ 53
  least : -1074 ≤ exponent
  greatest : exponent ≤ 971
  subnormal : mantissa < 2 ^ 52 → exponent = -1074

/-- The bits of a positive finite double. -/
def bitsOf (mantissa : Nat) (exponent : Int) : Nat :=
  if mantissa < 2 ^ 52 then mantissa
  else (exponent + 1075).toNat * 2 ^ 52 + (mantissa - 2 ^ 52)

/-- The bits of `rounded` units of `2 ^ exponent`, where rounding may have gone up to `2 ^ 53`. -/
def roundedBits (rounded : Nat) (exponent : Int) : Nat :=
  let (mantissa, exponent) :=
    if rounded = 2 ^ 53 then (2 ^ 52, exponent + 1) else (rounded, exponent)
  if mantissa < 2 ^ 52 then mantissa
  else if 971 < exponent then 2047 * 2 ^ 52
  else (exponent + 1075).toNat * 2 ^ 52 + (mantissa - 2 ^ 52)

theorem bitsOfFraction_eq {num den : Nat} (hnum : 0 < num) {e : Int}
    (he : max (-1074) (unitExponent num den) = e) :
    bitsOfFraction num den =
      roundedBits (roundQuotient (scale num den e).1 (scale num den e).2) e := by
  subst he
  rw [bitsOfFraction, if_neg hnum.ne']
  rfl

theorem roundedBits_of_canonical {m : Nat} {e : Int} (h : Canonical m e) :
    roundedBits m e = bitsOf m e := by
  have hgreatest := h.greatest
  simp only [roundedBits, if_neg h.bounded.ne, if_neg (by omega : ¬ 971 < e), bitsOf]

theorem roundedBits_carry {e : Int} (h : Canonical (2 ^ 52) e) :
    roundedBits (2 ^ 53) (e - 1) = bitsOf (2 ^ 52) e := by
  have hgreatest := h.greatest
  simp only [roundedBits, if_true, sub_add_cancel, if_neg (by omega : ¬ 971 < e), bitsOf]

/-! ### The fractions that are rounded to a double -/

/-- How far below a mantissa the fractions go that are rounded to it. -/
def marginBelow (mantissa : Nat) (exponent : Int) : ℚ :=
  if mantissa = 2 ^ 52 ∧ -1074 < exponent then 1 / 4 else 1 / 2

/-- The fraction `q` is rounded to the double: it is nearer to no other, and a tie is even. -/
structure RoundsTo (mantissa : Nat) (exponent : Int) (q : ℚ) : Prop where
  low : (mantissa - marginBelow mantissa exponent) * 2 ^ exponent ≤ q
  high : q ≤ (mantissa + 1 / 2) * 2 ^ exponent
  strict : mantissa % 2 = 1 →
    (mantissa - marginBelow mantissa exponent) * 2 ^ exponent < q ∧
      q < (mantissa + 1 / 2) * 2 ^ exponent

variable {m : Nat} {e : Int} {q : ℚ}

theorem marginBelow_le (m : Nat) (e : Int) : marginBelow m e ≤ 1 / 2 := by
  rw [marginBelow]
  split <;> norm_num

theorem marginBelow_pos (m : Nat) (e : Int) : 0 < marginBelow m e := by
  rw [marginBelow]
  split <;> norm_num

theorem RoundsTo.near (h : RoundsTo m e q) :
    (m : ℚ) - 1 / 2 ≤ q / 2 ^ e ∧ q / 2 ^ e ≤ m + 1 / 2 ∧
      (m % 2 = 1 → (m : ℚ) - 1 / 2 < q / 2 ^ e ∧ q / 2 ^ e < m + 1 / 2) := by
  have hpow : (0 : ℚ) < 2 ^ e := by positivity
  have hmargin := marginBelow_le m e
  refine ⟨?_, (div_le_iff₀ hpow).mpr h.high, fun hodd => ⟨?_, ?_⟩⟩
  · have := (le_div_iff₀ hpow).mpr h.low
    linarith
  · have := (lt_div_iff₀ hpow).mpr (h.strict hodd).1
    linarith
  · exact (div_lt_iff₀ hpow).mpr (h.strict hodd).2

theorem RoundsTo.lt_zpow (h : RoundsTo m e q) (hm : m < 2 ^ 53) : q < 2 ^ (e + 53) := by
  have hm' : (m : ℚ) + 1 ≤ 2 ^ 53 := by exact_mod_cast hm
  have hpow : (0 : ℚ) < 2 ^ e := by positivity
  calc q ≤ (m + 1 / 2) * 2 ^ e := h.high
    _ < 2 ^ 53 * 2 ^ e := by
      gcongr
      linarith
    _ = 2 ^ (e + 53) := by
      rw [add_comm, zpow_add₀ two_ne_zero]
      rfl

theorem RoundsTo.half_unit_le {q : ℚ} (hq : RoundsTo m e q) (h : Canonical m e) :
    (1 / 2 : ℚ) * 2 ^ (-1074 : Int) ≤ q := by
  have hm : (1 : ℚ) ≤ m := by exact_mod_cast h.positive
  have hmargin := marginBelow_le m e
  have hpow : (2 : ℚ) ^ (-1074 : Int) ≤ 2 ^ e := zpow_le_zpow_right₀ one_le_two h.least
  calc (1 / 2 : ℚ) * 2 ^ (-1074 : Int) ≤ 1 / 2 * 2 ^ e := by gcongr
    _ ≤ (m - marginBelow m e) * 2 ^ e := by gcongr; linarith
    _ ≤ q := hq.low

/-- A decimal that is rounded to a positive double is positive. -/
theorem RoundsTo.digits_pos {digits : Nat} {power : Int} (hq : RoundsTo m e (digits * 10 ^ power))
    (h : Canonical m e) : 0 < digits := by
  have hleast := hq.half_unit_le h
  rcases Nat.eq_zero_or_pos digits with rfl | hpos
  · rw [Nat.cast_zero, zero_mul] at hleast
    exact absurd hleast (not_le.mpr (by positivity))
  · exact hpos

/-- Below the power of two that is the least mantissa, only the double of that mantissa is near. -/
theorem RoundsTo.eq_of_lt (h : RoundsTo m e q) (hm : 2 ^ 52 ≤ m) (hq : q < 2 ^ (e + 52)) :
    m = 2 ^ 52 := by
  have hpow : (0 : ℚ) < 2 ^ e := by positivity
  have hmargin := marginBelow_le m e
  rw [add_comm, zpow_add₀ two_ne_zero] at hq
  have hlt : (m : ℚ) - marginBelow m e < 2 ^ (52 : Int) :=
    lt_of_mul_lt_mul_right (h.low.trans_lt hq) hpow.le
  have hlt' : (m : ℚ) < 2 ^ 52 + 1 := by
    have : (2 : ℚ) ^ (52 : Int) = 2 ^ 52 := rfl
    linarith
  have : m < 2 ^ 52 + 1 := by exact_mod_cast hlt'
  omega

/-- What is rounded up to a power of two from below lies in the last quarter of a unit. -/
theorem RoundsTo.below (h : RoundsTo (2 ^ 52) e q) (he : -1074 < e) (hq : q < 2 ^ (e + 52)) :
    (2 : ℚ) ^ (e - 1 + 52) ≤ q ∧ 2 ^ 53 - 1 / 2 ≤ q / 2 ^ (e - 1) ∧ q / 2 ^ (e - 1) ≤ 2 ^ 53 := by
  have hpow : (0 : ℚ) < 2 ^ e := by positivity
  have hlow : ((2 : ℚ) ^ 52 - 1 / 4) * 2 ^ e ≤ q := by
    have := h.low
    rw [marginBelow, if_pos ⟨rfl, he⟩] at this
    exact_mod_cast this
  have hhigh : q < 2 ^ 52 * 2 ^ e := by
    rw [add_comm, zpow_add₀ two_ne_zero] at hq
    exact hq
  have hhalf : (2 : ℚ) ^ (e - 1) = 2 ^ e / 2 := zpow_sub_one₀ two_ne_zero e
  rw [add_comm, zpow_add₀ two_ne_zero, hhalf, le_div_iff₀ (by positivity),
    div_le_iff₀ (by positivity)]
  have hpow52 : (2 : ℚ) ^ (52 : Int) = 2 ^ 52 := rfl
  rw [hpow52]
  refine ⟨?_, ?_, ?_⟩ <;> linarith

theorem roundQuotient_scale {num den : Nat} (hnum : 0 < num) (hden : 0 < den)
    (hlow : (m : ℚ) - 1 / 2 ≤ (num / den : ℚ) / 2 ^ e)
    (hhigh : (num / den : ℚ) / 2 ^ e ≤ m + 1 / 2)
    (htie : m % 2 = 1 → (m : ℚ) - 1 / 2 < (num / den : ℚ) / 2 ^ e ∧
      (num / den : ℚ) / 2 ^ e < m + 1 / 2) :
    roundQuotient (scale num den e).1 (scale num den e).2 = m := by
  rw [← scale_div] at hlow hhigh htie
  exact roundQuotient_eq_of_near (scale_pos hnum hden e).2 hlow hhigh htie

/-- A fraction that is nearest to a double is rounded to it. -/
theorem bitsOfFraction_of_roundsTo {num den : Nat} (hnum : 0 < num) (hden : 0 < den)
    (h : Canonical m e) (hq : RoundsTo m e (num / den)) :
    bitsOfFraction num den = bitsOf m e := by
  have hunit : unitExponent num den ≤ e := unitExponent_le hnum hden (hq.lt_zpow h.bounded)
  have hleast := h.least
  by_cases he : max (-1074) (unitExponent num den) = e
  · obtain ⟨hlow, hhigh, htie⟩ := hq.near
    rw [bitsOfFraction_eq hnum he, roundQuotient_scale hnum hden hlow hhigh htie,
      roundedBits_of_canonical h]
  · have hnormal : 2 ^ 52 ≤ m := by
      by_contra hsmall
      have := h.subnormal (by omega)
      omega
    have hlt : (num / den : ℚ) < 2 ^ (e + 52) := by
      by_contra hge
      have := le_unitExponent hnum hden (not_lt.mp hge)
      omega
    obtain rfl := hq.eq_of_lt hnormal hlt
    obtain ⟨hge, hlow, hhigh⟩ := hq.below (by omega) hlt
    have hpred : e - 1 ≤ unitExponent num den := le_unitExponent hnum hden hge
    have he' : max (-1074) (unitExponent num den) = e - 1 := by omega
    have hrounded : roundQuotient (scale num den (e - 1)).1 (scale num den (e - 1)).2 = 2 ^ 53 := by
      refine roundQuotient_scale hnum hden ?_ ?_ (by norm_num)
      · push_cast
        exact hlow
      · push_cast
        linarith
    rw [bitsOfFraction_eq hnum he', hrounded, roundedBits_carry h]

end Binary64

end NamespaceMerge
