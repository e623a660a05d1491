import NamespaceMerge.Number.Basic

/-! Points in time as text: date and time of the proleptic Gregorian calendar, to the
millisecond. -/

namespace NamespaceMerge

/-- Microseconds since the beginning of 1970. -/
abbrev Timestamp := Int

structure Date where
  year : Int
  month : Nat
  day : Nat

/-- The date so many days after the first of January 1970. Years are counted from March on, in
eras of 400 years, so that the leap day is the last day of its year. -/
def Date.ofDays (days : Int) : Date :=
  let shifted := days + 719468
  let era := shifted / 146097
  let dayOfEra := (shifted % 146097).toNat
  let yearOfEra := (dayOfEra - dayOfEra / 1460 + dayOfEra / 36524 - dayOfEra / 146096) / 365
  let dayOfYear := dayOfEra - (365 * yearOfEra + yearOfEra / 4 - yearOfEra / 100)
  let month := (5 * dayOfYear + 2) / 153
  { year := era * 400 + yearOfEra + if month < 10 then 0 else 1
    month := if month < 10 then month + 3 else month - 9
    day := dayOfYear - (153 * month + 2) / 5 + 1 }

namespace Timestamp

/-- The time so many seconds after the beginning of 1970. Of a double, a million times the
fraction is rounded as a double, and then to a whole number. -/
def ofSeconds : Number → Timestamp
  | .integer i => 1000000 * i
  | .real x =>
    match Binary64.fraction? x with
    | none => 0
    | some (num, den) =>
      let whole := num.tdiv den
      let fraction := 1000000 * (num.tmod den).natAbs
      let micros := match Binary64.fraction? (Binary64.ofFraction false fraction den) with
        | some (num, den) => Binary64.roundQuotient num.toNat den
        | none => 0
      1000000 * whole + if num < 0 then -(micros : Int) else micros

def text (t : Timestamp) : Text :=
  let seconds := t / 1000000
  let date := Date.ofDays (seconds / 86400)
  let second := (seconds % 86400).toNat
  let two := Decimal.padded 2
  Decimal.padded 4 date.year.toNat ++ '-' :: (two date.month ++ '-' :: (two date.day ++ 'T' ::
    (two (second / 3600) ++ ':' :: (two (second / 60 % 60) ++ ':' :: (two (second % 60) ++ '.' ::
      (Decimal.padded 3 (t % 1000000 / 1000).toNat ++ ['Z']))))))

end Timestamp

end NamespaceMerge
