import Mathlib.Algebra.Ring.Nat
import Mathlib.Data.List.Basic
import Mathlib.Data.List.Induction
import Mathlib.Data.List.TakeDrop
import NamespaceMerge.Number.Decimal

/-! The digits of a number: there is at least one, they are nothing else, the first is no zero
unless it is the only one, and their count bounds the number. -/

namespace NamespaceMerge.Decimal

theorem digits_ne_nil (n : Nat) : digits n ≠ [] := by
  rw [digits]
  split <;> simp

theorem length_digits_pos (n : Nat) : 0 < (digits n).length :=
  List.length_pos_iff.mpr (digits_ne_nil n)

theorem isDigit_digit : ∀ d < 10, (digit d).isDigit = true := by decide

theorem isDigit_of_mem_digits {n : Nat} {c : Char} (h : c ∈ digits n) : c.isDigit := by
  rw [digits] at h
  split at h
  · next hn =>
    rw [List.mem_singleton] at h
    exact h ▸ isDigit_digit n hn
  · next hn =>
    rcases List.mem_append.mp h with h | h
    · exact isDigit_of_mem_digits h
    · rw [List.mem_singleton] at h
      exact h ▸ isDigit_digit _ (Nat.mod_lt _ (by decide))
termination_by n
decreasing_by omega

theorem head?_digits_ne_zero {n : Nat} (hn : 0 < n) : (digits n).head? ≠ some '0' := by
  have hdigit : ∀ d < 10, 0 < d → digit d ≠ '0' := by decide
  rw [digits]
  split
  · next hsmall =>
    rw [List.head?_cons, ne_eq, Option.some.injEq]
    exact hdigit n hsmall hn
  · next hlarge =>
    have ih := head?_digits_ne_zero (n := n / 10) (by omega)
    rwa [List.head?_append_of_ne_nil _ (digits_ne_nil _)]
termination_by n
decreasing_by omega

theorem lt_pow_length_digits (n : Nat) : n < 10 ^ (digits n).length := by
  rw [digits]
  split
  · next h => exact h
  · next h =>
    have ih := lt_pow_length_digits (n / 10)
    rw [List.length_append, List.length_singleton, Nat.pow_succ]
    omega
termination_by n
decreasing_by omega

theorem pow_length_digits_le {n : Nat} (hn : 0 < n) : 10 ^ ((digits n).length - 1) ≤ n := by
  rw [digits]
  split
  · exact hn
  · next h =>
    have ih := pow_length_digits_le (n := n / 10) (by omega)
    have hpos := length_digits_pos (n / 10)
    obtain ⟨k, hk⟩ := Nat.exists_eq_add_of_lt hpos
    rw [List.length_append, List.length_singleton, Nat.add_sub_cancel]
    rw [hk, Nat.zero_add, Nat.add_sub_cancel] at ih
    rw [hk, Nat.zero_add, Nat.pow_succ]
    omega
termination_by n
decreasing_by omega

theorem digits_injective : Function.Injective digits :=
  Function.LeftInverse.injective value_digits

theorem digit_inj {a b : Nat} (ha : a < 10) (hb : b < 10) (h : digit a = digit b) : a = b := by
  rw [← digit_toNat ha, h, digit_toNat hb]

theorem padded_three {n : Nat} (h : n < 1000) : padded 3 n =
    [digit (n / 100), digit (n / 10 % 10), digit (n % 10)] := by
  rcases Nat.lt_or_ge n 10 with hone | hten
  · have hdigits : digits n = [digit n] := by rw [digits, if_pos hone]
    have hhundreds : n / 100 = 0 := by omega
    have htens : n / 10 % 10 = 0 := by omega
    rw [padded, hdigits, hhundreds, htens, Nat.mod_eq_of_lt hone]
    rfl
  · have hdigits : digits n = digits (n / 10) ++ [digit (n % 10)] := by
      rw [digits, if_neg (by omega)]
    rcases Nat.lt_or_ge n 100 with htwo | hhundred
    · have hrest : digits (n / 10) = [digit (n / 10)] := by
        rw [digits, if_pos (by omega)]
      have hhundreds : n / 100 = 0 := by omega
      have htens : n / 10 % 10 = n / 10 := by omega
      rw [padded, hdigits, hrest, hhundreds, htens]
      rfl
    · have hrest : digits (n / 10) =
          [digit (n / 100), digit (n / 10 % 10)] := by
        rw [digits, if_neg (by omega), digits, if_pos (by omega),
          Nat.div_div_eq_div_mul]
        rfl
      rw [padded, hdigits, hrest]
      rfl

/-! ### Reading runs of digits -/

theorem value_append (a b : Text) : value (a ++ b) = value a * 10 ^ b.length + value b := by
  induction b using List.reverseRecOn with
  | nil => simp [value]
  | append_singleton b c ih =>
    rw [← List.append_assoc, value_concat, ih, value_concat, List.length_append,
      List.length_singleton, Nat.pow_succ, Nat.mul_add, Nat.add_assoc]
    congr 1
    rw [← Nat.mul_assoc, Nat.mul_comm 10, Nat.mul_assoc, Nat.mul_comm 10]

theorem value_replicate_zero (n : Nat) : value (List.replicate n '0') = 0 := by
  induction n with
  | zero => rfl
  | succ n ih =>
    rw [List.replicate_succ', value_concat, ih]
    rfl

theorem spanDigits_append {ds rest : Text} (hds : ∀ c ∈ ds, c.isDigit = true)
    (hrest : ∀ c ∈ rest.head?, c.isDigit = false) : spanDigits (ds ++ rest) = (ds, rest) := by
  rw [spanDigits, List.span_eq_takeWhile_dropWhile, List.takeWhile_append_of_pos hds,
    List.dropWhile_append_of_pos hds]
  cases rest with
  | nil => simp
  | cons c rest =>
    have hc : ¬ c.isDigit = true := by
      rw [hrest c rfl]
      exact Bool.false_ne_true
    rw [List.takeWhile_cons_of_neg hc, List.dropWhile_cons_of_neg hc, List.append_nil]

end NamespaceMerge.Decimal
