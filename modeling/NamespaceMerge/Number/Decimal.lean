import NamespaceMerge.Text.Basic

/-! Decimal digits of natural numbers, written and read. `value_digits` says that reading undoes
writing. -/

namespace NamespaceMerge.Decimal

def digit (d : Nat) : Char := Char.ofNat ('0'.toNat + d)

/-- The decimal digits of a number, without leading zeros. -/
def digits (n : Nat) : Text :=
  if n < 10 then [digit n] else digits (n / 10) ++ [digit (n % 10)]
termination_by n

/-- The digits of a number, with leading zeros up to `width` digits. -/
def padded (width n : Nat) : Text :=
  List.replicate (width - (digits n).length) '0' ++ digits n

/-- The value of a run of digits. -/
def value (text : Text) : Nat :=
  text.foldl (fun n c => 10 * n + (c.toNat - '0'.toNat)) 0

def integer (i : Int) : Text :=
  match i with
  | .ofNat n => digits n
  | .negSucc n => '-' :: digits (n + 1)

/-- The digits in front of a text, and what follows them. -/
def spanDigits (text : Text) : Text × Text := text.span Char.isDigit

theorem digit_toNat {d : Nat} (h : d < 10) : (digit d).toNat - '0'.toNat = d := by
  match d, h with
  | 0, _ | 1, _ | 2, _ | 3, _ | 4, _ | 5, _ | 6, _ | 7, _ | 8, _ | 9, _ => rfl

theorem value_concat (text : Text) (c : Char) :
    value (text ++ [c]) = 10 * value text + (c.toNat - '0'.toNat) := by
  simp [value, List.foldl_append]

theorem value_digits (n : Nat) : value (digits n) = n := by
  rw [digits]
  split
  · next h => simpa [value] using digit_toNat h
  · next h =>
    rw [value_concat, value_digits (n / 10), digit_toNat (by omega)]
    omega
termination_by n
decreasing_by omega

end NamespaceMerge.Decimal
