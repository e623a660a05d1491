import NamespaceMerge.Number.Decimal
import NamespaceMerge.Number.Binary64

/-! The shortest decimal that reads back as a given double. On the grid of `n`-digit decimals only
the two neighbours of the value can be nearest to it, so `n = 1, 2, …` are tried until one of them
rounds to the double; of two such neighbours the nearer is taken, of two equally near the even. -/

namespace NamespaceMerge.Shortest

/-- A positive double and the reals that round to it, as numerators over one denominator. The ends
of the interval belong to it when `closed`. -/
structure Interval where
  low : Nat
  value : Nat
  high : Nat
  den : Nat
  closed : Bool

/-- The interval of `mantissa * 2 ^ exponent`. Below a power of two the doubles lie closer. -/
def Interval.ofDouble (mantissa : Nat) (exponent : Int) : Interval :=
  let up := Nat.pow 2 exponent.toNat
  let below := if mantissa = Nat.pow 2 52 ∧ -1074 < exponent then 1 else 2
  { low := (4 * mantissa - below) * up
    value := 4 * mantissa * up
    high := (4 * mantissa + 2) * up
    den := 4 * Nat.pow 2 (-exponent).toNat
    closed := mantissa % 2 == 0 }

/-- The power of ten of the leading digit of `num / den`. -/
def leadingPower (num den : Nat) : Int :=
  if den ≤ num then (Decimal.digits (num / den)).length - 1
  else -((Decimal.digits ((den + num - 1) / num - 1)).length : Int)

/-- Whether `digits * 10 ^ power` lies in the interval. -/
def Interval.holds (i : Interval) (digits : Nat) (power : Int) : Bool :=
  let point := digits * Nat.pow 10 power.toNat * i.den
  let scale := Nat.pow 10 (-power).toNat
  if i.closed then i.low * scale ≤ point && point ≤ i.high * scale
  else i.low * scale < point && point < i.high * scale

/-- Which of `digits` and `digits + 1`, times `10 ^ power`, rounds to the double, if any. -/
def Interval.neighbour? (i : Interval) (power : Int) : Option Nat :=
  let unit := Nat.pow 10 power.toNat * i.den
  let scaled := i.value * Nat.pow 10 (-power).toNat
  let below := scaled / unit
  let above := below + 1
  match i.holds below power, i.holds above power with
  | true, true =>
    let twice := 2 * (scaled - below * unit)
    some (if twice < unit then below else if unit < twice then above else below + below % 2)
  | true, false => some below
  | false, true => some above
  | false, false => none

/-- Tries grids of more and more digits, `left` of them; seventeen digits always suffice. -/
def Interval.search (i : Interval) (power : Int) : Nat → Nat × Int
  | 0 => (i.value * Nat.pow 10 (-power).toNat / (Nat.pow 10 power.toNat * i.den), power)
  | left + 1 =>
    match i.neighbour? power with
    | some digits => (digits, power)
    | none => i.search (power - 1) left

/-- The number without the zeros it ends with; the power of ten grows by as many. -/
def dropZeros (digits : Nat) (power : Int) : Nat × Int :=
  if h : digits ≠ 0 ∧ digits % 10 = 0 then dropZeros (digits / 10) (power + 1) else (digits, power)
termination_by digits
decreasing_by omega

/-- The shortest decimal `digits * 10 ^ power` for a positive double. -/
def decimal (mantissa : Nat) (exponent : Int) : Nat × Int :=
  let i := Interval.ofDouble mantissa exponent
  let (digits, power) := i.search (leadingPower i.value i.den) 17
  dropZeros digits power

end NamespaceMerge.Shortest
