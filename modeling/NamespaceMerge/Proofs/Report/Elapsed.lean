import NamespaceMerge.Proofs.Number.Exact
import NamespaceMerge.Proofs.Report.Duration
import NamespaceMerge.Report.Basic

/-! The duration that a report writes. Of a number that is not negative and not too large it is the
text of the exact value: the seconds beside the minutes of a double are again a double
(`exists_fits_seconds`), so nothing is rounded before the thousandths are. -/

namespace NamespaceMerge

/-- The exact value of a number, if it is finite. -/
def Number.value? : Number → Option ℚ
  | .integer i => some i
  | .real x => (Binary64.fraction? x).map fun (num, den) => num / den

namespace Duration

variable {d : Duration} {q : ℚ} {num : Int} {den m : Nat} {e : Int}

/-! ### Seconds as doubles -/

theorem text_rounded (hden : 0 < d.den) (hminutes : d.minutes.natAbs < 2 ^ 53)
    (hfits : Binary64.Fits m e) (hseconds : d.seconds = m * 2 ^ e) : d.rounded.text = d.text := by
  obtain ⟨n, den, hfraction, hpos, hvalue⟩ :=
    Binary64.exists_fraction?_ofFraction hden hfits hseconds
  simp only [rounded, Binary64.pow_eq, if_pos hminutes, hfraction, Int.toNat_natCast]
  exact text_congr hpos hden rfl hvalue

theorem seconds_ofFraction_natCast (n den : Nat) :
    (ofFraction n den).seconds = (n % (60 * den) : Nat) / den := rfl

/-- The seconds beside the minutes of a double are those of a double. -/
theorem exists_fits_seconds {x : Float} (h : Binary64.fraction? x = some (num, den))
    (hnum : 0 ≤ num) :
    ∃ m e, Binary64.Fits m e ∧ (ofFraction num den).seconds = m * 2 ^ e := by
  obtain ⟨m, e, hfits, rfl, rfl⟩ := Binary64.exists_fits_of_fraction? h hnum
  rw [seconds_ofFraction_natCast]
  rcases Int.le_total 0 e with he | he
  · have hwhole : (-e).toNat = 0 := by omega
    refine ⟨m * 2 ^ e.toNat % 60, 0, ⟨by omega, by decide, by decide⟩, ?_⟩
    rw [hwhole, pow_zero, Nat.mul_one, Nat.cast_one, div_one, zpow_zero, mul_one]
  · have hpart : e.toNat = 0 := by omega
    have hpow := Binary64.pow_toNat_div (b := 2) two_ne_zero e
    refine ⟨m % (60 * 2 ^ (-e).toNat), e,
      ⟨(Nat.mod_le _ _).trans_lt hfits.bounded, hfits.least, hfits.greatest⟩, ?_⟩
    rw [hpart, pow_zero] at hpow
    rw [hpart, pow_zero, Nat.mul_one, ← hpow, mul_one_div, Nat.cast_pow, Nat.cast_ofNat]

/-- The text of a number of seconds is that of its exact value, as long as the minutes have no more
digits than a double. -/
theorem text_ofSeconds? {s : Number} (hs : s.value? = some q) (hq : 0 ≤ q)
    (hlt : q < 60 * 2 ^ 53) : (ofSeconds? s).map text = some (ofRat q).text := by
  cases s with
  | integer i =>
    obtain rfl : (i : ℚ) = q := Option.some.inj hs
    rfl
  | real x =>
    obtain ⟨⟨num, den⟩, hfraction, rfl⟩ := Option.map_eq_some_iff.mp hs
    have hden := Binary64.den_pos_of_fraction? hfraction
    have hnum : 0 ≤ num := by
      rw [le_div_iff₀ (Nat.cast_pos.mpr hden), zero_mul] at hq
      exact_mod_cast hq
    have hminutes : (ofFraction num den).minutes.natAbs < 2 ^ 53 := by
      have hpos : 0 ≤ ⌊(num / den : ℚ) / 60⌋ := Int.floor_nonneg.mpr (by positivity)
      have hfloor : ⌊(num / den : ℚ) / 60⌋ < 2 ^ 53 := by
        rw [Int.floor_lt]
        push_cast
        linarith
      rw [minutes_ofFraction]
      omega
    obtain ⟨m, e, hfits, hseconds⟩ := exists_fits_seconds hfraction hnum
    rw [ofSeconds?, hfraction, Option.map_some, Option.map_some,
      text_rounded hden hminutes hfits hseconds, text_ofFraction _ hden]

/-! ### Statement -/

/-- A text tells a number of seconds in the canonical way. -/
def IsCanonical (text : Text) (q : ℚ) : Prop := ∃ f : Fields, text = f.text ∧ f.Canonical q

theorem isCanonical_text_iff (hq : 0 ≤ q) :
    IsCanonical (ofRat q).text q ↔ q - 60 * ⌊q / 60⌋ < 59.9995 := by
  have hbelow : (ofRat q).fields.seconds < 60 ↔ q - 60 * ⌊q / 60⌋ < 59.9995 := by
    rw [Fields.seconds_lt_iff, ← seconds_ofRat, ← thousandths_lt_iff q.den_pos]
    rfl
  rw [← hbelow]
  constructor
  · rintro ⟨f, htext, hcanonical⟩
    obtain rfl := Fields.text_injective ((text_fields (minutes_ofRat_nonneg hq)).trans htext)
    exact hcanonical.below_minute
  · intro h
    exact ⟨_, (text_fields (minutes_ofRat_nonneg hq)).symm, tells_fields hq, h⟩

end Duration

namespace Report

open Duration (IsCanonical ofRat)

/-- The seconds that a run took, or those up to now if it goes on. -/
def seconds (r : Report) (now : Number) : Number := r.duration.getD (now.sub r.startedAt)

/-- What is written of a duration tells it to the nearest thousandth of a second, with minutes if
there are any. The seconds stay below a minute, as they should, exactly if they are below `59.9995`
before they are rounded. A report writes just this text, whether it holds the duration as an integer
or as a double, up to where the minutes have more digits than a double. -/
theorem isCanonical_elapsed?_iff {q : ℚ} (hq : 0 ≤ q) :
    (∃ f : Duration.Fields, (ofRat q).text = f.text ∧ f.Tells q ∧ f.seconds ≤ 60) ∧
      (IsCanonical (ofRat q).text q ↔ q - 60 * ⌊q / 60⌋ < 59.9995) ∧
      ∀ (r : Report) (now : Number), (r.seconds now).value? = some q → q < 60 * 2 ^ 53 →
        r.elapsed? now = some (ofRat q).text := by
  refine ⟨⟨(ofRat q).fields, ?text, Duration.tells_fields hq, ?seconds⟩,
    Duration.isCanonical_text_iff hq, fun r now hvalue hlt => ?elapsed⟩
  case text => exact (Duration.text_fields (Duration.minutes_ofRat_nonneg hq)).symm
  case seconds =>
    have hle := Duration.thousandths_le q.den_pos (Duration.seconds_ofRat_lt q)
    rw [Duration.Fields.seconds, div_le_iff₀ (by norm_num)]
    exact_mod_cast hle
  case elapsed => exact Duration.text_ofSeconds? hvalue hq hlt

/-- A run timed by a clock that reads `100` when it begins and `163.25` when it ends. -/
theorem isCanonical_elapsed?_iff_timed :
    let r := ({ startedAt := .integer 100 } : Report).finish (.real 163.25)
    (0 : ℚ) ≤ 63.25 ∧ (r.seconds (.integer 0)).value? = some 63.25 ∧
      (63.25 : ℚ) < 60 * 2 ^ 53 ∧ IsCanonical (ofRat 63.25).text 63.25 ∧
      r.elapsed? (.integer 0) = some (ofRat 63.25).text ∧
      (ofRat 63.25).text = "1m 3.250s".toList := by
  intro r
  have hvalue : (r.seconds (.integer 0)).value? = some 63.25 := by decide +kernel
  have hlt : (63.25 : ℚ) < 60 * 2 ^ 53 := by norm_num
  obtain ⟨-, hcanonical, helapsed⟩ := isCanonical_elapsed?_iff (show (0 : ℚ) ≤ 63.25 by norm_num)
  exact ⟨by norm_num, hvalue, hlt, hcanonical.mpr (by norm_num),
    helapsed r (.integer 0) hvalue hlt, by decide +kernel⟩

/-- A report of a run that took so many seconds. -/
def lasting (seconds : Float) : Report :=
  { startedAt := .integer 0, duration := some (.real seconds) }

/-- A hair below a full minute, the seconds are written as `60.000` and no minute is carried,
although there is a canonical text. -/
theorem not_isCanonical_elapsed? :
    ¬ (∀ q : ℚ, 0 ≤ q → IsCanonical (ofRat q).text q) ∧
      (lasting 59.9996).elapsed? (.integer 0) = some "60.000s".toList ∧
      IsCanonical "1m 0.000s".toList 59.9996 ∧
      (lasting 119.9996).elapsed? (.integer 0) = some "1m 60.000s".toList ∧
      IsCanonical "2m 0.000s".toList 119.9996 := by
  refine ⟨fun h => ?_, by decide +kernel, ⟨⟨some 1, 0⟩, by decide +kernel, ?_⟩, by decide +kernel,
    ⟨⟨some 2, 0⟩, by decide +kernel, ?_⟩⟩
  · have hless := (Duration.isCanonical_text_iff (by norm_num)).mp (h 119.9996 (by norm_num))
    norm_num at hless
  · refine ⟨⟨by decide, ?_⟩, ?_⟩ <;> norm_num [Duration.Fields.total, Duration.Fields.seconds]
  · refine ⟨⟨by decide, ?_⟩, ?_⟩ <;> norm_num [Duration.Fields.total, Duration.Fields.seconds]

end Report

end NamespaceMerge
