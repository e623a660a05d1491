/-! Double precision numbers as exact fractions: a finite one is a mantissa times a power of two,
and a fraction is rounded to the nearest of them, a tie to the even mantissa. -/

namespace NamespaceMerge.Binary64

/-- What a double stands for. A finite one is `mantissa * 2 ^ exponent`, with its sign apart. -/
inductive Decoded
  | nan
  | infinite (negative : Bool)
  | finite (negative : Bool) (mantissa : Nat) (exponent : Int)

def decode (x : Float) : Decoded :=
  let bits : Nat := x.toBits.toNat
  let negative := bits / Nat.pow 2 63 == 1
  let field : Nat := bits / Nat.pow 2 52 % Nat.pow 2 11
  let fraction : Nat := bits % Nat.pow 2 52
  if field = 2047 then if fraction = 0 then .infinite negative else .nan
  else if field = 0 then .finite negative fraction (-1074)
  else .finite negative (Nat.pow 2 52 + fraction) ((field : Int) - 1075)

/-- The quotient as a natural number, a tie to the even neighbour. -/
def roundQuotient (num den : Nat) : Nat :=
  let quotient := num / den
  let twice := 2 * (num % den)
  if twice < den then quotient
  else if den < twice then quotient + 1
  else quotient + quotient % 2

/-- `num / den / 2 ^ exponent` as numerator and denominator. -/
def scale (num den : Nat) (exponent : Int) : Nat × Nat :=
  (num * Nat.pow 2 (-exponent).toNat, den * Nat.pow 2 exponent.toNat)

/-- The bits of the double nearest to the fraction `num / den`, infinity beyond the largest. -/
def bitsOfFraction (num den : Nat) : Nat :=
  if num = 0 then 0
  else
    let guess : Int := (num.log2 : Int) - den.log2 - 52
    let (n, d) := scale num den guess
    let exponent := max (-1074) (if n < Nat.pow 2 52 * d then guess - 1 else guess)
    let (n, d) := scale num den exponent
    let rounded := roundQuotient n d
    let (mantissa, exponent) :=
      if rounded = Nat.pow 2 53 then (Nat.pow 2 52, exponent + 1) else (rounded, exponent)
    if mantissa < Nat.pow 2 52 then mantissa
    else if 971 < exponent then 2047 * Nat.pow 2 52
    else (exponent + 1075).toNat * Nat.pow 2 52 + (mantissa - Nat.pow 2 52)

/-- The double nearest to `num / den`, with the sign asked for. -/
def ofFraction (negative : Bool) (num den : Nat) : Float :=
  Float.ofBits (bitsOfFraction num den + if negative then Nat.pow 2 63 else 0).toUInt64

/-- The double nearest to `digits * 10 ^ power`. Far outside the range of doubles the power need
not be formed. -/
def ofDecimal (negative : Bool) (digits : Nat) (power : Int) : Float :=
  let size : Int := digits.log2 / 3
  if digits = 0 ∨ power + size < -400 then ofFraction negative 0 1
  else if 400 < power then ofFraction negative (Nat.pow 2 1100) 1
  else ofFraction negative (digits * Nat.pow 10 power.toNat) (Nat.pow 10 (-power).toNat)

def ofInt (i : Int) : Float := ofFraction (i < 0) i.natAbs 1

/-- The exact value of a finite double as a fraction, numerator and denominator. -/
def fraction? (x : Float) : Option (Int × Nat) :=
  match decode x with
  | .finite negative mantissa exponent =>
    let (num, den) := scale mantissa 1 (-exponent)
    some (if negative then -num else num, den)
  | _ => none

end NamespaceMerge.Binary64
