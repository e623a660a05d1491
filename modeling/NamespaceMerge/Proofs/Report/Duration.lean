import Mathlib.Data.Rat.Floor
import NamespaceMerge.Proofs.Number.Decimal
import NamespaceMerge.Proofs.Number.Rounding
import NamespaceMerge.Report.Duration

/-! Durations and their text, over exact numbers of seconds. The text has one reading
(`Fields.text_injective`), and what it tells is the duration, to the nearest thousandth of a second
(`tells_fields`). The minutes are split off before the seconds are rounded, so that seconds may be
rounded up to a whole minute (`thousandths_lt_iff`). -/

namespace NamespaceMerge.Duration

variable {d d' : Duration} {q : ℚ} {num : Int} {den : Nat}

/-! ### Minutes and seconds -/

/-- The seconds beside the minutes. -/
def seconds (d : Duration) : ℚ := d.num / d.den

/-- The duration of a number of seconds, its arithmetic taken as exact. -/
def ofRat (q : ℚ) : Duration := ofFraction q.num q.den

theorem minutes_ofFraction (num : Int) (den : Nat) :
    (ofFraction num den).minutes = ⌊(num / den : ℚ) / 60⌋ := by
  have hminute : (num / den : ℚ) / 60 = num / (60 * den : Nat) := by
    push_cast
    rw [div_div, mul_comm (den : ℚ)]
  rw [hminute, Rat.floor_intCast_div_natCast, ofFraction]
  push_cast
  rfl

theorem seconds_ofFraction (num : Int) (hden : 0 < den) :
    (ofFraction num den).seconds = num / den - 60 * ⌊(num / den : ℚ) / 60⌋ := by
  have hden' : (den : ℚ) ≠ 0 := Nat.cast_ne_zero.mpr hden.ne'
  have hpos : 0 ≤ num % (60 * den) := Int.emod_nonneg _ (by omega)
  have hnum : ((ofFraction num den).num : ℚ) = (num % (60 * den) : Int) := by
    rw [← Int.cast_natCast]
    exact congrArg _ (Int.toNat_of_nonneg hpos)
  rw [seconds, hnum, ← minutes_ofFraction, Int.emod_def, ofFraction]
  push_cast
  field_simp

theorem minutes_ofRat (q : ℚ) : (ofRat q).minutes = ⌊q / 60⌋ := by
  rw [ofRat, minutes_ofFraction, Rat.num_div_den]

theorem minutes_ofRat_nonneg (hq : 0 ≤ q) : 0 ≤ (ofRat q).minutes := by
  rw [minutes_ofRat]
  positivity

theorem seconds_ofRat (q : ℚ) : (ofRat q).seconds = q - 60 * ⌊q / 60⌋ := by
  rw [ofRat, seconds_ofFraction _ q.den_pos, Rat.num_div_den]

theorem seconds_ofRat_lt (q : ℚ) : (ofRat q).seconds < 60 := by
  have := Int.lt_floor_add_one (q / 60)
  rw [seconds_ofRat]
  linarith

/-! ### Rounding the seconds -/

theorem thousand_mul_div (d : Duration) :
    ((1000 * d.num : Nat) : ℚ) / d.den = 1000 * d.seconds := by
  rw [seconds, mul_div_assoc']
  push_cast
  rfl

theorem abs_thousandths_sub_le (hden : 0 < d.den) :
    |(d.thousandths / 1000 : ℚ) - d.seconds| ≤ 1 / 2000 := by
  have hround := Binary64.abs_roundQuotient_sub_le hden (1000 * d.num)
  rw [thousand_mul_div, abs_le] at hround
  rw [thousandths, abs_le]
  constructor <;> linarith

/-- Rounding makes a whole minute of the seconds from `59.9995` on. -/
theorem thousandths_lt_iff (hden : 0 < d.den) : d.thousandths < 60000 ↔ d.seconds < 59.9995 := by
  rw [thousandths, Binary64.roundQuotient_lt_iff hden (by decide), thousand_mul_div,
    Nat.cast_ofNat]
  constructor <;> intro h <;> linarith

theorem thousandths_le (hden : 0 < d.den) (h : d.seconds < 60) : d.thousandths ≤ 60000 := by
  have hround := (abs_le.mp (abs_thousandths_sub_le hden)).2
  have hless : (d.thousandths : ℚ) < (60000 + 1 : Nat) := by
    push_cast
    linarith
  exact Nat.lt_succ_iff.mp (by exact_mod_cast hless)

/-- The text of a duration depends on the value of its seconds, not on how the fraction is
written. -/
theorem text_congr (hden : 0 < d.den) (hden' : 0 < d'.den) (hminutes : d.minutes = d'.minutes)
    (hseconds : d.seconds = d'.seconds) : d.text = d'.text := by
  have hthousandths : d.thousandths = d'.thousandths := by
    refine Binary64.roundQuotient_congr hden hden' ?_
    rw [thousand_mul_div, thousand_mul_div, hseconds]
  rw [text, text, hminutes, hthousandths]

theorem text_ofFraction (num : Int) (hden : 0 < den) :
    (ofFraction num den).text = (ofRat (num / den)).text := by
  refine text_congr hden (Rat.den_pos _) ?_ ?_
  · rw [minutes_ofFraction, minutes_ofRat]
  · rw [seconds_ofFraction _ hden, seconds_ofRat]

/-! ### Fields of the text -/

/-- What stands in the text of a duration: the minutes, if there are any, and thousandths of the
seconds. -/
structure Fields where
  minutes : Option Nat
  thousandths : Nat

namespace Fields

variable {f : Fields}

def seconds (f : Fields) : ℚ := f.thousandths / 1000

/-- The seconds that the fields amount to. -/
def total (f : Fields) : ℚ := 60 * f.minutes.getD 0 + f.seconds

/-- Seconds with three decimals. -/
def secondsText (thousandths : Nat) : Text :=
  Decimal.digits (thousandths / 1000) ++
    ['.', Decimal.digit (thousandths / 100 % 10), Decimal.digit (thousandths / 10 % 10),
      Decimal.digit (thousandths % 10), 's']

def text : Fields → Text
  | ⟨none, thousandths⟩ => secondsText thousandths
  | ⟨some minutes, thousandths⟩ =>
    Decimal.digits minutes ++ 'm' :: ' ' :: secondsText thousandths

theorem spanDigits_secondsText (n : Nat) : Decimal.spanDigits (secondsText n) =
    (Decimal.digits (n / 1000),
      ['.', Decimal.digit (n / 100 % 10), Decimal.digit (n / 10 % 10), Decimal.digit (n % 10),
        's']) :=
  Decimal.spanDigits_append (fun _ h => Decimal.isDigit_of_mem_digits h) (by simp)

theorem spanDigits_minutes (minutes : Nat) (rest : Text) :
    Decimal.spanDigits (Decimal.digits minutes ++ 'm' :: rest) =
      (Decimal.digits minutes, 'm' :: rest) :=
  Decimal.spanDigits_append (fun _ h => Decimal.isDigit_of_mem_digits h) (by simp)

theorem secondsText_injective : Function.Injective secondsText := by
  intro a b h
  have hspan := congrArg Decimal.spanDigits h
  simp only [spanDigits_secondsText, Prod.mk.injEq, List.cons.injEq, true_and, and_true] at hspan
  obtain ⟨hwhole, hfirst, hsecond, hthird⟩ := hspan
  have hwhole := Decimal.digits_injective hwhole
  have hfirst := Decimal.digit_inj (by omega) (by omega) hfirst
  have hsecond := Decimal.digit_inj (by omega) (by omega) hsecond
  have hthird := Decimal.digit_inj (by omega) (by omega) hthird
  omega

/-- A text has one reading. -/
theorem text_injective : Function.Injective text := by
  rintro ⟨_ | m, a⟩ ⟨_ | n, b⟩ h
  · rw [secondsText_injective h]
  · have hspan := congrArg Decimal.spanDigits h
    simp [text, spanDigits_secondsText, spanDigits_minutes] at hspan
  · have hspan := congrArg Decimal.spanDigits h
    simp [text, spanDigits_secondsText, spanDigits_minutes] at hspan
  · have hspan := congrArg Decimal.spanDigits h
    simp only [text, spanDigits_minutes, Prod.mk.injEq, List.cons.injEq, true_and] at hspan
    rw [Decimal.digits_injective hspan.1, secondsText_injective hspan.2]

/-- The fields tell a number of seconds: minutes stand there exactly if there is one at least, and
the total is off by half a thousandth at most. -/
structure Tells (f : Fields) (q : ℚ) : Prop where
  minutes_shown : f.minutes.isSome ↔ 1 ≤ f.minutes.getD 0
  near : |f.total - q| ≤ 1 / 2000

/-- They tell it, and the seconds do not fill a minute. -/
structure Canonical (f : Fields) (q : ℚ) : Prop extends f.Tells q where
  below_minute : f.seconds < 60

theorem seconds_lt_iff : f.seconds < 60 ↔ f.thousandths < 60000 := by
  rw [seconds, div_lt_iff₀ (by norm_num), ← Nat.cast_lt (α := ℚ)]
  norm_num

end Fields

/-- The fields that a duration is written with. -/
def fields (d : Duration) : Fields where
  minutes := if d.minutes = 0 then none else some d.minutes.toNat
  thousandths := d.thousandths

theorem text_fields (h : 0 ≤ d.minutes) : d.fields.text = d.text := by
  obtain ⟨m, hm⟩ := Int.eq_ofNat_of_zero_le h
  have hdecimals : Decimal.padded 3 (d.thousandths % 1000) =
      [Decimal.digit (d.thousandths / 100 % 10), Decimal.digit (d.thousandths / 10 % 10),
        Decimal.digit (d.thousandths % 10)] := by
    have hhundreds : d.thousandths % 1000 / 100 = d.thousandths / 100 % 10 := by omega
    have htens : d.thousandths % 1000 / 10 % 10 = d.thousandths / 10 % 10 := by omega
    have hones : d.thousandths % 1000 % 10 = d.thousandths % 10 := by omega
    rw [Decimal.padded_three (Nat.mod_lt _ (by decide)), hhundreds, htens, hones]
  simp only [fields, text, hdecimals]
  split
  · rfl
  · rw [hm]
    rfl

theorem getD_minutes_fields (h : 0 ≤ d.minutes) :
    ((d.fields.minutes.getD 0 : Nat) : Int) = d.minutes := by
  rw [fields]
  split
  case isTrue hnone => exact hnone.symm
  case isFalse => exact Int.toNat_of_nonneg h

theorem isSome_minutes_fields (h : 0 ≤ d.minutes) :
    d.fields.minutes.isSome ↔ 1 ≤ d.fields.minutes.getD 0 := by
  rw [fields]
  split
  case isTrue => exact ⟨nofun, nofun⟩
  case isFalse hsome => exact ⟨fun _ => show 1 ≤ d.minutes.toNat by omega, fun _ => rfl⟩

theorem total_fields (hq : 0 ≤ q) : (ofRat q).fields.total - q =
    (ofRat q).thousandths / 1000 - (ofRat q).seconds := by
  have hminutes : ((ofRat q).fields.minutes.getD 0 : ℚ) = (⌊q / 60⌋ : Int) := by
    rw [← minutes_ofRat, ← getD_minutes_fields (minutes_ofRat_nonneg hq), Int.cast_natCast]
  rw [Fields.total, hminutes, seconds_ofRat, Fields.seconds, fields]
  ring

/-- The minutes that are written and the seconds beside them make up the duration, to the nearest
thousandth. -/
theorem tells_fields (hq : 0 ≤ q) : (ofRat q).fields.Tells q where
  minutes_shown := isSome_minutes_fields (minutes_ofRat_nonneg hq)
  near := by
    rw [total_fields hq]
    exact abs_thousandths_sub_le q.den_pos

end NamespaceMerge.Duration
