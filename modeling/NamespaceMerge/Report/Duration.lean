import NamespaceMerge.Number.Basic

/-! Durations as text: whole minutes if there are any, and seconds with three decimals. -/

namespace NamespaceMerge

/-- A duration of `minutes` and `num / den` seconds, the seconds less than sixty. -/
structure Duration where
  minutes : Int
  num : Nat
  den : Nat

namespace Duration

/-- The duration of `num / den` seconds. A negative one has negative minutes. -/
def ofFraction (num : Int) (den : Nat) : Duration :=
  { minutes := num / (60 * den), num := (num % (60 * den)).toNat, den }

/-- Thousandths of the seconds, a tie to the even one. -/
def thousandths (d : Duration) : Nat := Binary64.roundQuotient (1000 * d.num) d.den

def text (d : Duration) : Text :=
  let seconds := Decimal.digits (d.thousandths / 1000) ++ '.' ::
    (Decimal.padded 3 (d.thousandths % 1000) ++ ['s'])
  if d.minutes = 0 then seconds else Decimal.integer d.minutes ++ 'm' :: ' ' :: seconds

/-- The duration with both parts rounded to doubles. This changes minutes from `2 ^ 53` on, and
the seconds of negative durations when they need more digits than a double has. -/
def rounded (d : Duration) : Duration :=
  let minutes :=
    if d.minutes.natAbs < Nat.pow 2 53 then d.minutes
    else match Binary64.fraction? (Binary64.ofInt (60 * d.minutes) / 60) with
      | some (num, den) => num / den
      | none => d.minutes
  match Binary64.fraction? (Binary64.ofFraction false d.num d.den) with
  | some (num, den) => { minutes, num := num.toNat, den }
  | none => d

/-- The duration of a number of seconds, if the number is finite. -/
def ofSeconds? : Number → Option Duration
  | .integer i => some (ofFraction i 1)
  | .real x => (Binary64.fraction? x).map fun (num, den) => (ofFraction num den).rounded

end Duration

end NamespaceMerge
