import Mathlib.Algebra.Order.Floor.Semifield
import Mathlib.Data.Nat.Cast.Order.Field
import Mathlib.Data.Rat.Floor
import NamespaceMerge.Proofs.Number.Decimal
import NamespaceMerge.Proofs.Number.Rounding

/-! The shortest decimal of a double is rounded back to it (`roundsTo_decimal`). A decimal is taken
only if it lies in the interval of the double, and on the grid of seventeen digits one of the two
neighbours does: the grid is finer than the interval is wide. -/

namespace NamespaceMerge

open Binary64 (Canonical RoundsTo marginBelow pow_eq pow_toNat_div)

namespace Shortest

variable {m : Nat} {e : Int}

/-! ### The interval of a double -/

theorem den_pos (m : Nat) (e : Int) : 0 < (Interval.ofDouble m e).den := by
  simp only [Interval.ofDouble, pow_eq]
  positivity

/-- The value of the double. -/
theorem value_div_den (m : Nat) (e : Int) :
    ((Interval.ofDouble m e).value : ℚ) / (Interval.ofDouble m e).den = m * 2 ^ e := by
  rw [← pow_toNat_div two_ne_zero e]
  simp only [Interval.ofDouble, pow_eq]
  push_cast
  field_simp

theorem low_div_den (hm : 0 < m) (e : Int) :
    ((Interval.ofDouble m e).low : ℚ) / (Interval.ofDouble m e).den =
      (m - marginBelow m e) * 2 ^ e := by
  rw [← pow_toNat_div two_ne_zero e, marginBelow]
  simp only [Interval.ofDouble, pow_eq]
  split
  · have h : 1 ≤ 4 * m := by omega
    push_cast [Nat.cast_sub h]
    field_simp
  · have h : 2 ≤ 4 * m := by omega
    push_cast [Nat.cast_sub h]
    field_simp
    ring

theorem high_div_den (m : Nat) (e : Int) :
    ((Interval.ofDouble m e).high : ℚ) / (Interval.ofDouble m e).den = (m + 1 / 2) * 2 ^ e := by
  rw [← pow_toNat_div two_ne_zero e]
  simp only [Interval.ofDouble, pow_eq]
  push_cast
  field_simp
  ring

/-- The interval holds what is rounded to the double. -/
theorem holds_iff (hm : 0 < m) (digits : Nat) (power : Int) :
    (Interval.ofDouble m e).holds digits power = true ↔
      RoundsTo m e (digits * 10 ^ power) := by
  have hden : (0 : ℚ) < (Interval.ofDouble m e).den := Nat.cast_pos.mpr (den_pos m e)
  have hlow := low_div_den hm e
  have hhigh := high_div_den m e
  have hclosed : (Interval.ofDouble m e).closed = (m % 2 == 0) := rfl
  generalize Interval.ofDouble m e = i at *
  rw [div_eq_iff hden.ne'] at hlow hhigh
  -- both sides of each comparison are taken times `k`
  have hk : (0 : ℚ) < i.den * 10 ^ (-power).toNat := by positivity
  have hpoint : ((digits * 10 ^ power.toNat * i.den : Nat) : ℚ) =
      digits * 10 ^ power * (i.den * 10 ^ (-power).toNat) := by
    rw [← pow_toNat_div (by norm_num) power]
    push_cast
    field_simp
  have hlow' : ((i.low * 10 ^ (-power).toNat : Nat) : ℚ) =
      (m - marginBelow m e) * 2 ^ e * (i.den * 10 ^ (-power).toNat) := by
    push_cast
    rw [hlow]
    ring
  have hhigh' : ((i.high * 10 ^ (-power).toNat : Nat) : ℚ) =
      (m + 1 / 2) * 2 ^ e * (i.den * 10 ^ (-power).toNat) := by
    push_cast
    rw [hhigh]
    ring
  simp only [Interval.holds, hclosed, pow_eq, beq_iff_eq]
  split
  case isTrue heven =>
    rw [Bool.and_eq_true, decide_eq_true_eq, decide_eq_true_eq, ← Nat.cast_le (α := ℚ),
      ← Nat.cast_le (α := ℚ), hpoint, hlow', hhigh', mul_le_mul_iff_of_pos_right hk,
      mul_le_mul_iff_of_pos_right hk]
    exact ⟨fun h => ⟨h.1, h.2, fun hodd => by omega⟩, fun h => ⟨h.low, h.high⟩⟩
  case isFalse hodd =>
    rw [Bool.and_eq_true, decide_eq_true_eq, decide_eq_true_eq, ← Nat.cast_lt (α := ℚ),
      ← Nat.cast_lt (α := ℚ), hpoint, hlow', hhigh', mul_lt_mul_iff_of_pos_right hk,
      mul_lt_mul_iff_of_pos_right hk]
    exact ⟨fun h => ⟨h.1.le, h.2.le, fun _ => h⟩, fun h => h.strict (by omega)⟩

/-! ### The grids that are tried -/

theorem zpow_leadingPower_le {num den : Nat} (hnum : 0 < num) (hden : 0 < den) :
    (10 : ℚ) ^ leadingPower num den ≤ num / den := by
  have hnum' : (0 : ℚ) < num := Nat.cast_pos.mpr hnum
  have hden' : (0 : ℚ) < den := Nat.cast_pos.mpr hden
  rw [leadingPower]
  split
  case isTrue h =>
    have hquotient : 0 < num / den := Nat.div_pos h hden
    have hpow := Decimal.pow_length_digits_le hquotient
    have hpos := Decimal.length_digits_pos (num / den)
    have hpower : ((Decimal.digits (num / den)).length : Int) - 1 =
        ((Decimal.digits (num / den)).length - 1 : Nat) := by omega
    rw [hpower, zpow_natCast]
    calc (10 : ℚ) ^ ((Decimal.digits (num / den)).length - 1) ≤ (num / den : Nat) := by
          exact_mod_cast hpow
      _ ≤ num / den := Nat.cast_div_le
  case isFalse h =>
    generalize hceil : (den + num - 1) / num - 1 = n
    -- `n + 1` is the inverse of the fraction, rounded up
    have hle : den ≤ (n + 1) * num := by
      have hmod := Nat.div_add_mod (den + num - 1) num
      have hlt := Nat.mod_lt (den + num - 1) hnum
      have hone : 1 ≤ (den + num - 1) / num := by
        rw [Nat.le_div_iff_mul_le hnum]
        omega
      obtain ⟨k, hk⟩ := Nat.exists_eq_add_of_le hone
      have hn : n + 1 = (den + num - 1) / num := by omega
      rw [hn, Nat.mul_comm]
      omega
    have hpow : n + 1 ≤ 10 ^ (Decimal.digits n).length := Decimal.lt_pow_length_digits n
    have hmul : (den : ℚ) ≤ 10 ^ (Decimal.digits n).length * num := by
      exact_mod_cast hle.trans (Nat.mul_le_mul_right num hpow)
    rw [zpow_neg, zpow_natCast, le_div_iff₀ hden', inv_mul_le_iff₀ (by positivity)]
    exact hmul

theorem holds_of_neighbour? {i : Interval} {power : Int} {digits : Nat}
    (h : i.neighbour? power = some digits) : i.holds digits power = true := by
  rw [Interval.neighbour?] at h
  split at h
  case h_1 hbelow habove =>
    rw [Option.some.injEq] at h
    rw [← h]
    split
    · exact hbelow
    · split
      · exact habove
      · rcases Nat.mod_two_eq_zero_or_one _ with hparity | hparity
        · rw [hparity]
          exact hbelow
        · rw [hparity]
          exact habove
  case h_2 hbelow _ => exact (Option.some.inj h) ▸ hbelow
  case h_3 _ habove => exact (Option.some.inj h) ▸ habove
  case h_4 => cases h

/-- Of two fractions around a double, close together for its size, one is rounded to it. -/
theorem roundsTo_or_roundsTo (h : Canonical m e) {x y : ℚ} (hx : x ≤ m * 2 ^ e)
    (hy : m * 2 ^ e < y) (hclose : (y - x) * 10 ^ 16 ≤ m * 2 ^ e) :
    RoundsTo m e x ∨ RoundsTo m e y := by
  have hpow : (0 : ℚ) < 2 ^ e := by positivity
  have hm : (m : ℚ) ≤ 2 ^ 53 := by exact_mod_cast h.bounded.le
  have hmargin := Binary64.marginBelow_pos m e
  by_contra hnone
  rw [not_or] at hnone
  have hlow : x ≤ (m - marginBelow m e) * 2 ^ e := by
    by_contra hgt
    rw [not_le] at hgt
    have hhigh : x < (m + 1 / 2) * 2 ^ e := by nlinarith
    exact hnone.1 ⟨hgt.le, hhigh.le, fun _ => ⟨hgt, hhigh⟩⟩
  have hhigh : (m + 1 / 2) * 2 ^ e ≤ y := by
    by_contra hlt
    rw [not_le] at hlt
    have hlow : (m - marginBelow m e) * 2 ^ e < y := by nlinarith
    exact hnone.2 ⟨hlow.le, hlt.le, fun _ => ⟨hlow, hlt⟩⟩
  -- then they are as far apart as the interval is wide
  have hwidth : (1 / 2 + marginBelow m e) * 10 ^ 16 ≤ m := by
    have : (1 / 2 + marginBelow m e) * 10 ^ 16 * 2 ^ e ≤ m * 2 ^ e := by linarith
    exact le_of_mul_le_mul_right this hpow
  rw [marginBelow] at hwidth
  split at hwidth
  case isTrue hpowerOfTwo =>
    rw [hpowerOfTwo.1] at hwidth
    norm_num at hwidth
  case isFalse =>
    have := hwidth.trans hm
    norm_num at this

/-- The last point of a grid up to the value of the interval. -/
def Interval.below (i : Interval) (power : Int) : Nat :=
  i.value * Nat.pow 10 (-power).toNat / (Nat.pow 10 power.toNat * i.den)

theorem below_bounds {i : Interval} (hden : 0 < i.den) (power : Int) :
    (i.below power : ℚ) * 10 ^ power ≤ i.value / i.den ∧
      (i.value / i.den : ℚ) < ((i.below power : ℚ) + 1) * 10 ^ power := by
  have hunit : (0 : ℚ) < 10 ^ power := by positivity
  have hden' : (0 : ℚ) < i.den := Nat.cast_pos.mpr hden
  have hscaled : ((i.value * 10 ^ (-power).toNat : Nat) : ℚ) / (10 ^ power.toNat * i.den : Nat) =
      i.value / i.den / 10 ^ power := by
    rw [← pow_toNat_div (by norm_num) power]
    push_cast
    field_simp
  simp only [Interval.below, pow_eq]
  rw [← le_div_iff₀ hunit, ← div_lt_iff₀ hunit, ← hscaled, ← Nat.floor_div_eq_div (K := ℚ)]
  exact ⟨Nat.floor_le (by positivity), Nat.lt_floor_add_one _⟩

/-- On a fine grid a neighbour of the double lies in its interval. -/
theorem neighbour?_ne_none (h : Canonical m e) {power : Int}
    (hgrid : (10 : ℚ) ^ power * 10 ^ 16 ≤ m * 2 ^ e) :
    (Interval.ofDouble m e).neighbour? power ≠ none := by
  obtain ⟨hlow, hhigh⟩ := below_bounds (den_pos m e) power
  rw [value_div_den] at hlow hhigh
  have hclose : ((((Interval.ofDouble m e).below power : ℚ) + 1) * 10 ^ power -
      (Interval.ofDouble m e).below power * 10 ^ power) * 10 ^ 16 ≤ m * 2 ^ e := by
    linarith
  have hsome : (Interval.ofDouble m e).holds ((Interval.ofDouble m e).below power) power = true ∨
      (Interval.ofDouble m e).holds ((Interval.ofDouble m e).below power + 1) power = true := by
    rw [holds_iff h.positive, holds_iff h.positive]
    push_cast
    exact roundsTo_or_roundsTo h hlow hhigh hclose
  rw [Interval.neighbour?]
  split
  case h_1 | h_2 | h_3 => exact Option.some_ne_none _
  case h_4 hbelow habove =>
    rcases hsome with h | h
    · cases hbelow.symm.trans h
    · cases habove.symm.trans h

theorem holds_search (i : Interval) (power : Int) {left : Nat}
    (h : ∃ tries < left, i.neighbour? (power - tries) ≠ none) :
    i.holds (i.search power left).1 (i.search power left).2 = true := by
  induction left generalizing power with
  | zero =>
    obtain ⟨tries, hlt, -⟩ := h
    cases hlt
  | succ left ih =>
    rw [Interval.search]
    split
    case h_1 digits hsome => exact holds_of_neighbour? hsome
    case h_2 hnone =>
      obtain ⟨tries, hlt, hne⟩ := h
      cases tries with
      | zero =>
        rw [Nat.cast_zero, sub_zero] at hne
        exact absurd hnone hne
      | succ tries =>
        refine ih (power - 1) ⟨tries, Nat.lt_of_succ_lt_succ hlt, ?_⟩
        rwa [sub_sub, add_comm 1, ← Nat.cast_succ]

theorem dropZeros_value (digits : Nat) (power : Int) :
    ((dropZeros digits power).1 : ℚ) * 10 ^ (dropZeros digits power).2 = digits * 10 ^ power := by
  rw [dropZeros]
  split
  case isTrue h =>
    rw [dropZeros_value (digits / 10) (power + 1), zpow_add₀ (by norm_num), zpow_one]
    have hdigits : (digits : ℚ) = (digits / 10 : Nat) * 10 := by
      exact_mod_cast (Nat.div_mul_cancel (Nat.dvd_of_mod_eq_zero h.2)).symm
    rw [hdigits]
    ring
  case isFalse => rfl
termination_by digits
decreasing_by omega

/-- The shortest decimal of a double is rounded to it. -/
theorem roundsTo_decimal (h : Canonical m e) :
    RoundsTo m e ((decimal m e).1 * 10 ^ (decimal m e).2) := by
  have hden := den_pos m e
  have hvalue := value_div_den m e
  have hpositive : 0 < (Interval.ofDouble m e).value := by
    have hm := h.positive
    simp only [Interval.ofDouble, pow_eq]
    positivity
  have hleading := zpow_leadingPower_le hpositive hden
  rw [hvalue] at hleading
  simp only [decimal, dropZeros_value]
  refine (holds_iff h.positive _ _).mp (holds_search _ _ ⟨16, by decide, ?_⟩)
  refine neighbour?_ne_none h (le_of_eq_of_le ?_ hleading)
  rw [← zpow_natCast, ← zpow_add₀ (by norm_num)]
  congr 1
  omega

theorem digits_pos (h : Canonical m e) : 0 < (decimal m e).1 := (roundsTo_decimal h).digits_pos h

end Shortest

end NamespaceMerge
