import NamespaceMerge.Json.Reader
import NamespaceMerge.Proofs.Number.Binary64
import NamespaceMerge.Proofs.Number.Shortest

/-! Numbers of a document are read back as they were written (`read_writeNumber`). What is written
has a whole part, and for a double also decimals or an exponent; reading finds these parts, and the
decimal that they stand for is rounded to the double again. -/

namespace NamespaceMerge.Json

/-! ### The parts of a number -/

/-- The parts of a number without its sign. -/
structure NumberParts where
  whole : Text
  decimals : Text
  /-- The sign and the digits of the exponent. -/
  exponent : Option (Bool × Text)

namespace NumberParts

/-- Every part has digits only, and a whole part of several digits starts with no zero. -/
structure Valid (p : NumberParts) : Prop where
  whole_ne_nil : p.whole ≠ []
  whole_digits : ∀ c ∈ p.whole, c.isDigit = true
  whole_zero : p.whole.head? = some '0' → p.whole = ['0']
  decimals_digits : ∀ c ∈ p.decimals, c.isDigit = true
  exponent_digits : ∀ e ∈ p.exponent, e.2 ≠ [] ∧ ∀ c ∈ e.2, c.isDigit = true

def exponentText : Option (Bool × Text) → Text
  | none => []
  | some (negative, digits) => 'e' :: (if negative then '-' else '+') :: digits

def fractionText (decimals : Text) : Text := if decimals = [] then [] else '.' :: decimals

def text (p : NumberParts) : Text :=
  p.whole ++ (fractionText p.decimals ++ exponentText p.exponent)

/-- What the exponent says. -/
def exponentValue : Option (Bool × Text) → Int
  | none => 0
  | some (negative, digits) =>
    if negative then -(Decimal.value digits : Int) else Decimal.value digits

/-- The power of ten of the last decimal. -/
def power (p : NumberParts) : Int := exponentValue p.exponent - p.decimals.length

/-- All digits, without the point. -/
def digits (p : NumberParts) : Nat := Decimal.value (p.whole ++ p.decimals)

/-- A number without decimals and exponent is an integer. -/
def number (p : NumberParts) (negative : Bool) : Number :=
  if p.decimals = [] ∧ p.exponent = none then
    .integer (if negative then -(Decimal.value p.whole : Int) else Decimal.value p.whole)
  else .real (Binary64.ofDecimal negative p.digits p.power)

end NumberParts

/-- The text behind a number: it goes on with nothing that a number may hold. -/
def EndsNumber (rest : Text) : Prop :=
  ∀ c ∈ rest.head?, c.isDigit = false ∧ c ≠ '.' ∧ c ≠ 'e' ∧ c ≠ 'E'

def signed (negative : Bool) (text : Text) : Text := if negative then '-' :: text else text

theorem signed_append (negative : Bool) (a b : Text) :
    signed negative a ++ b = signed negative (a ++ b) := by
  cases negative <;> rfl

open NumberParts

theorem readFraction_of_ne {text : Text} (h : ∀ c ∈ text.head?, c ≠ '.') :
    readFraction text = none := by
  match text with
  | [] => rfl
  | c :: text =>
    have hc : c ≠ '.' := h c rfl
    rw [readFraction]
    rintro rest ⟨⟩
    exact hc rfl

theorem readExponent_of_ne {text : Text} (h : ∀ c ∈ text.head?, c ≠ 'e' ∧ c ≠ 'E') :
    readExponent text = none := by
  match text with
  | [] => rfl
  | c :: text =>
    obtain ⟨he, hE⟩ := h c rfl
    simp [readExponent, he, hE]

/-- Behind the decimals there is neither a digit nor a point. -/
theorem head?_exponentText (exponent : Option (Bool × Text)) {rest : Text} (h : EndsNumber rest) :
    ∀ c ∈ (exponentText exponent ++ rest).head?, c.isDigit = false ∧ c ≠ '.' := by
  cases exponent with
  | none => exact fun c hc => ⟨(h c hc).1, (h c hc).2.1⟩
  | some e =>
    rintro c ⟨⟩
    decide

theorem readExponent_exponentText {exponent : Option (Bool × Text)} {rest : Text}
    (h : ∀ e ∈ exponent, e.2 ≠ [] ∧ ∀ c ∈ e.2, c.isDigit = true) (hrest : EndsNumber rest) :
    readExponent (exponentText exponent ++ rest) =
      exponent.map fun e => (exponentValue (some e), rest) := by
  cases exponent with
  | none =>
    rw [exponentText, List.nil_append, Option.map_none]
    exact readExponent_of_ne fun c hc => (hrest c hc).2.2
  | some e =>
    obtain ⟨negative, digits⟩ := e
    obtain ⟨hne, hdigits⟩ := h _ rfl
    have hspan := Decimal.spanDigits_append hdigits fun c hc => (hrest c hc).1
    cases negative <;>
      simp [exponentText, readExponent, hspan, hne, exponentValue]

theorem readFraction_fractionText {decimals rest : Text} (h : ∀ c ∈ decimals, c.isDigit = true)
    (hrest : ∀ c ∈ rest.head?, c.isDigit = false ∧ c ≠ '.') :
    readFraction (fractionText decimals ++ rest) =
      if decimals = [] then none else some (decimals, rest) := by
  rw [fractionText]
  split
  case isTrue => exact readFraction_of_ne fun c hc => (hrest c hc).2
  case isFalse hne =>
    have hspan := Decimal.spanDigits_append h fun c hc => (hrest c hc).1
    simp [readFraction, hspan, hne]

/-- The whole part of a number, as reading takes it. -/
def readWhole (text : Text) : Text × Text :=
  match text with
  | '0' :: rest => (['0'], rest)
  | text => Decimal.spanDigits text

theorem readWhole_append {whole rest : Text} (hdigits : ∀ c ∈ whole, c.isDigit = true)
    (hzero : whole.head? = some '0' → whole = ['0'])
    (hrest : ∀ c ∈ rest.head?, c.isDigit = false) : readWhole (whole ++ rest) = (whole, rest) := by
  rw [readWhole.eq_def]
  split
  case h_1 tail htext =>
    cases whole with
    | nil =>
      rw [List.nil_append] at htext
      rw [htext] at hrest
      exact absurd (hrest '0' rfl) (by decide)
    | cons c whole =>
      rw [List.cons_append, List.cons.injEq] at htext
      have hwhole : c :: whole = ['0'] := hzero (by rw [htext.1]; rfl)
      rw [List.cons.injEq] at hwhole
      rw [hwhole.1, hwhole.2, ← htext.2, hwhole.2, List.nil_append]
  case h_2 => exact Decimal.spanDigits_append hdigits hrest

/-- A number behind its sign. -/
def readUnsigned? (negative : Bool) (text : Text) : Option (Number × Text) :=
  let (whole, rest) := readWhole text
  if whole.isEmpty then none
  else
    let fraction := readFraction rest
    let rest := (fraction.map (·.2)).getD rest
    let exponent := readExponent rest
    let rest := (exponent.map (·.2)).getD rest
    match fraction, exponent with
    | none, none =>
      let size : Int := Decimal.value whole
      some (.integer (if negative then -size else size), rest)
    | _, _ =>
      let decimals := (fraction.map (·.1)).getD []
      let power := (exponent.map (·.1)).getD 0
      let digits := Decimal.value (whole ++ decimals)
      some (.real (Binary64.ofDecimal negative digits (power - decimals.length)), rest)

theorem readNumber?_signed {text : Text} (h : ∀ c ∈ text.head?, c ≠ '-') (negative : Bool) :
    readNumber? (signed negative text) = readUnsigned? negative text := by
  cases negative with
  | true => rfl
  | false =>
    match text with
    | [] => rfl
    | c :: text =>
      have hc : c ≠ '-' := h c rfl
      rw [signed, if_neg Bool.false_ne_true, readNumber?.eq_def]
      split
      case h_1 heq =>
        split at heq
        case h_1 htext => cases htext; exact absurd rfl hc
        case h_2 => cases heq; rfl

/-- Reading finds the parts of a number. -/
theorem readNumber?_text {p : NumberParts} (hp : p.Valid) (negative : Bool) {rest : Text}
    (hrest : EndsNumber rest) :
    readNumber? (signed negative (p.text ++ rest)) = some (p.number negative, rest) := by
  obtain ⟨c, whole, hwhole⟩ := List.exists_cons_of_ne_nil hp.whole_ne_nil
  have hsign : ∀ c ∈ (p.text ++ rest).head?, c ≠ '-' := by
    rw [text, hwhole]
    rintro _ ⟨⟩ rfl
    exact absurd (hp.whole_digits '-' (hwhole ▸ List.mem_cons_self)) (by decide)
  have hbehind := head?_exponentText p.exponent hrest
  have hpoint : ∀ c ∈ (fractionText p.decimals ++ (exponentText p.exponent ++ rest)).head?,
      c.isDigit = false := by
    rw [fractionText]
    split
    · exact fun c hc => (hbehind c hc).1
    · rintro c ⟨⟩
      rfl
  have hread := readWhole_append hp.whole_digits hp.whole_zero hpoint
  have hfraction := readFraction_fractionText hp.decimals_digits hbehind
  have hexponent := readExponent_exponentText hp.exponent_digits hrest
  have hempty : p.whole.isEmpty = false := by rw [hwhole]; rfl
  rw [readNumber?_signed hsign, readUnsigned?, text, List.append_assoc, List.append_assoc, hread]
  obtain ⟨whole, decimals, exponent⟩ := p
  simp only [hempty, Bool.false_eq_true, if_false, hfraction, NumberParts.number]
  cases decimals with
  | nil =>
    simp only [if_true, Option.map_none, Option.getD_none, fractionText, List.nil_append,
      hexponent, true_and]
    cases exponent with
    | none => rfl
    | some e => simp [NumberParts.digits, NumberParts.power]
  | cons c decimals =>
    simp only [List.cons_ne_nil, if_false, Option.map_some, Option.getD_some, hexponent, false_and]
    cases exponent with
    | none => rfl
    | some e => rfl

/-! ### The parts of what is written -/

/-- An integer has a whole part only. -/
def wholeParts (n : Nat) : NumberParts := ⟨Decimal.digits n, [], none⟩

theorem valid_wholeParts (n : Nat) : (wholeParts n).Valid where
  whole_ne_nil := Decimal.digits_ne_nil n
  whole_digits _ := Decimal.isDigit_of_mem_digits
  whole_zero hzero := by
    rcases Nat.eq_zero_or_pos n with rfl | hn
    · rw [wholeParts, Decimal.digits, if_pos (by decide)]
      rfl
    · exact absurd hzero (Decimal.head?_digits_ne_zero hn)
  decimals_digits := nofun
  exponent_digits := nofun

theorem isDigit_of_mem_replicate {n : Nat} {c : Char} (h : c ∈ List.replicate n '0') :
    c.isDigit = true := by
  rw [List.eq_of_mem_replicate h]
  rfl

theorem isDigit_of_mem_padded {width n : Nat} {c : Char} (h : c ∈ Decimal.padded width n) :
    c.isDigit = true := by
  rw [Decimal.padded, List.mem_append] at h
  exact h.elim isDigit_of_mem_replicate Decimal.isDigit_of_mem_digits

theorem value_padded (width n : Nat) : Decimal.value (Decimal.padded width n) = n := by
  rw [Decimal.padded, Decimal.value_append, Decimal.value_replicate_zero, Decimal.value_digits,
    Nat.zero_mul, Nat.zero_add]

theorem exponentValue_padded (width : Nat) (leading : Int) :
    exponentValue (some (decide (leading < 0), Decimal.padded width leading.natAbs)) = leading := by
  simp only [exponentValue, value_padded, decide_eq_true_eq]
  split <;> omega

variable {digits : Nat}

/-- A number is written as all its digits, zeros and `.0`. -/
theorem parts_whole (hdigits : 0 < digits) {power : Int} (hpower : 0 ≤ power) :
    let p : NumberParts :=
      ⟨Decimal.digits digits ++ List.replicate power.toNat '0', ['0'], none⟩
    p.Valid ∧ (p.digits : ℚ) * 10 ^ p.power = digits * 10 ^ power := by
  have hne := Decimal.digits_ne_nil digits
  refine ⟨⟨?_, ?_, ?_, ?_, nofun⟩, ?_⟩
  · simp [hne]
  · intro c hc
    exact (List.mem_append.mp hc).elim Decimal.isDigit_of_mem_digits isDigit_of_mem_replicate
  · intro hzero
    rw [List.head?_append_of_ne_nil _ hne] at hzero
    exact absurd hzero (Decimal.head?_digits_ne_zero hdigits)
  · intro c hc
    rw [List.mem_singleton.mp hc]
    rfl
  · obtain ⟨n, rfl⟩ := Int.eq_ofNat_of_zero_le hpower
    have hvalue : Decimal.value ['0'] = 0 := rfl
    simp only [NumberParts.digits, NumberParts.power, exponentValue, Int.toNat_natCast,
      Decimal.value_append, Decimal.value_digits, Decimal.value_replicate_zero, hvalue,
      List.length_replicate, List.length_singleton, zpow_natCast]
    push_cast
    field_simp
    ring

/-- A number is written with its point between two digits. -/
theorem parts_split {k : Nat} (hdigits : 0 < digits) (hk : 0 < k)
    (exponent : Option (Bool × Text))
    (hexponent : ∀ e ∈ exponent, e.2 ≠ [] ∧ ∀ c ∈ e.2, c.isDigit = true) {power : Int}
    (hpower : exponentValue exponent - ((Decimal.digits digits).length - k : Nat) = power) :
    let p : NumberParts :=
      ⟨(Decimal.digits digits).take k, (Decimal.digits digits).drop k, exponent⟩
    p.Valid ∧ (p.digits : ℚ) * 10 ^ p.power = digits * 10 ^ power := by
  obtain ⟨c, ds, hds⟩ := List.exists_cons_of_ne_nil (Decimal.digits_ne_nil digits)
  obtain ⟨k, rfl⟩ := Nat.exists_eq_add_one_of_ne_zero hk.ne'
  refine ⟨⟨?_, ?_, ?_, ?_, hexponent⟩, ?_⟩
  · rw [hds]
    exact List.cons_ne_nil _ _
  · exact fun c hc => Decimal.isDigit_of_mem_digits (List.mem_of_mem_take hc)
  · intro hzero
    have hhead := Decimal.head?_digits_ne_zero hdigits
    rw [hds] at hzero hhead
    exact absurd hzero hhead
  · exact fun c hc => Decimal.isDigit_of_mem_digits (List.mem_of_mem_drop hc)
  · simp only [NumberParts.digits, NumberParts.power, List.take_append_drop, Decimal.value_digits,
      List.length_drop, hpower]

/-- A number below one is written with zeros behind the point. -/
theorem parts_zeros (digits zeros : Nat) :
    let p : NumberParts := ⟨['0'], List.replicate zeros '0' ++ Decimal.digits digits, none⟩
    p.Valid ∧ p.digits = digits ∧
      p.power = -((zeros + (Decimal.digits digits).length : Nat) : Int) := by
  refine ⟨⟨List.cons_ne_nil _ _, ?_, fun _ => rfl, ?_, nofun⟩, ?_, ?_⟩
  · intro c hc
    rw [List.mem_singleton.mp hc]
    rfl
  · intro c hc
    exact (List.mem_append.mp hc).elim isDigit_of_mem_replicate Decimal.isDigit_of_mem_digits
  · have hvalue : Decimal.value ['0'] = 0 := rfl
    simp only [NumberParts.digits, Decimal.value_append, Decimal.value_digits,
      Decimal.value_replicate_zero, hvalue, Nat.zero_mul, Nat.zero_add]
  · simp [NumberParts.power, exponentValue]

/-- The layout of a positive decimal has parts, and they stand for the same number. -/
theorem exists_parts_decimal (n : Number.Format) (hdigits : 0 < digits) (power : Int) :
    ∃ p : NumberParts, p.Valid ∧ (p.decimals ≠ [] ∨ p.exponent ≠ none) ∧
      n.decimal digits power = p.text ∧ (p.digits : ℚ) * 10 ^ p.power = digits * 10 ^ power := by
  have hlength := Decimal.length_digits_pos digits
  rw [Number.Format.decimal]
  simp only
  generalize hleading : power + (Decimal.digits digits).length - 1 = leading
  split
  case isTrue =>
    split
    case isTrue hpower =>
      obtain ⟨hvalid, hvalue⟩ := parts_whole hdigits hpower
      exact ⟨_, hvalid, .inl (List.cons_ne_nil _ _), by simp [text, fractionText, exponentText],
        hvalue⟩
    case isFalse hpower =>
      split
      case isTrue hlarge =>
        have hdrop : (Decimal.digits digits).drop (leading + 1).toNat ≠ [] := by
          rw [ne_eq, List.drop_eq_nil_iff]
          omega
        have hpower' : exponentValue none -
            (((Decimal.digits digits).length - (leading + 1).toNat : Nat) : Int) = power := by
          rw [exponentValue]
          omega
        obtain ⟨hvalid, hvalue⟩ := parts_split hdigits (by omega) none nofun hpower'
        exact ⟨_, hvalid, .inl hdrop, by simp [text, fractionText, exponentText, hdrop], hvalue⟩
      case isFalse hsmall =>
        obtain ⟨hvalid, hdigits', hpower'⟩ := parts_zeros digits (-leading - 1).toNat
        refine ⟨_, hvalid, .inl ?_, ?_, ?_⟩
        · simp [Decimal.digits_ne_nil]
        · simp [text, fractionText, exponentText, Decimal.digits_ne_nil]
        · rw [hdigits', hpower']
          congr 2
          omega
  case isFalse =>
    have hpower' : exponentValue
        (some (decide (leading < 0), Decimal.padded n.exponentDigits leading.natAbs)) -
          (((Decimal.digits digits).length - 1 : Nat) : Int) = power := by
      rw [exponentValue_padded]
      omega
    obtain ⟨hvalid, hvalue⟩ := parts_split hdigits Nat.one_pos _
      (by
        rintro e ⟨⟩
        refine ⟨?_, fun c => isDigit_of_mem_padded⟩
        simp [Decimal.padded, Decimal.digits_ne_nil]) hpower'
    refine ⟨_, hvalid, .inr (Option.some_ne_none _), ?_, hvalue⟩
    obtain ⟨c, ds, hds⟩ := List.exists_cons_of_ne_nil (Decimal.digits_ne_nil digits)
    simp only [text, fractionText, exponentText, hds, List.take_succ_cons, List.take_zero,
      List.drop_succ_cons, List.drop_zero, List.length_cons, decide_eq_true_eq]
    cases ds <;> simp

/-! ### Whole numbers and doubles -/

theorem integer_eq (i : Int) :
    Decimal.integer i = signed (decide (i < 0)) (wholeParts i.natAbs).text := by
  cases i with
  | ofNat n => simp [Decimal.integer, signed, wholeParts, text, fractionText, exponentText]
  | negSucc n =>
    have hneg : Int.negSucc n < 0 := Int.negSucc_lt_zero n
    simp [Decimal.integer, signed, wholeParts, text, fractionText, exponentText, hneg]

theorem readNumber?_integer (i : Int) {rest : Text} (hrest : EndsNumber rest) :
    readNumber? (Decimal.integer i ++ rest) = some (.integer i, rest) := by
  rw [integer_eq, signed_append, readNumber?_text (valid_wholeParts i.natAbs) _ hrest]
  simp only [NumberParts.number, wholeParts, and_self, if_true, Decimal.value_digits,
    decide_eq_true_eq]
  split
  · congr
    omega
  · congr
    omega

/-- Zero is written with a decimal, so that it stays a double. -/
def zeroParts : NumberParts := ⟨['0'], ['0'], none⟩

theorem valid_zeroParts : zeroParts.Valid where
  whole_ne_nil := List.cons_ne_nil _ _
  whole_digits _ := isDigit_of_mem_replicate (n := 1)
  whole_zero _ := rfl
  decimals_digits _ := isDigit_of_mem_replicate (n := 1)
  exponent_digits := nofun

/-- A finite double has parts, and reading them gives it back. -/
theorem exists_parts_real (n : Number.Format) {x : Float} {negative : Bool} {m : Nat} {e : Int}
    (h : Binary64.decode x = .finite negative m e) :
    ∃ p : NumberParts, p.Valid ∧ n.real x = signed negative p.text ∧
      p.number negative = .real x := by
  rcases Nat.eq_zero_or_pos m with rfl | hm
  · refine ⟨zeroParts, valid_zeroParts, ?_, ?_⟩
    · simp only [Number.Format.real, h]
      rfl
    · have hx := Binary64.eq_ofParts h
      rw [hx]
      rfl
  · obtain ⟨p, hvalid, hreal, htext, hvalue⟩ :=
      exists_parts_decimal n (Shortest.digits_pos (Binary64.canonical_of_decode h hm))
        (Shortest.decimal m e).2
    have hrounds := Shortest.roundsTo_decimal (Binary64.canonical_of_decode h hm)
    rw [← hvalue] at hrounds
    refine ⟨p, hvalid, ?_, ?_⟩
    · obtain ⟨k, rfl⟩ := Nat.exists_eq_add_one_of_ne_zero hm.ne'
      rw [← htext, Number.Format.real, h]
      rfl
    · rw [NumberParts.number, if_neg (by tauto),
        Binary64.ofDecimal_of_roundsTo (Binary64.canonical_of_decode h hm) hrounds,
        ← Binary64.eq_ofParts h]

/-! ### Numbers among the values -/

/-- What no value but a number, a word or nothing at all starts with. -/
def StartsScalar (text : Text) : Prop := ∃ c rest, text = c :: rest ∧ (c.isAlphanum ∨ c = '-')

theorem NumberParts.Valid.exists_digit {p : NumberParts} (hp : p.Valid) :
    ∃ c rest, p.text = c :: rest ∧ c.isDigit = true := by
  obtain ⟨c, whole, hwhole⟩ := List.exists_cons_of_ne_nil hp.whole_ne_nil
  refine ⟨c, whole ++ (fractionText p.decimals ++ exponentText p.exponent), ?_, ?_⟩
  · rw [text, hwhole, List.cons_append]
  · exact hp.whole_digits c (hwhole ▸ List.mem_cons_self)

theorem startsScalar_signed {p : NumberParts} (hp : p.Valid) (negative : Bool) :
    StartsScalar (signed negative p.text) := by
  obtain ⟨c, rest, htext, hc⟩ := hp.exists_digit
  cases negative with
  | false => exact ⟨c, rest, htext, .inl (by simp [Char.isAlphanum, hc])⟩
  | true => exact ⟨'-', p.text, rfl, .inr rfl⟩

/-- No word starts as a number does. -/
theorem readWord?_signed {p : NumberParts} (hp : p.Valid) (negative : Bool) (rest : Text) :
    readWord? (signed negative (p.text ++ rest)) = none := by
  obtain ⟨c, tail, htext, hc⟩ := hp.exists_digit
  have hne : ∀ d, d.isDigit = false → d ≠ c := by
    rintro d hd rfl
    rw [hc] at hd
    cases hd
  rw [htext, List.cons_append]
  cases negative <;>
    simp [readWord?, words, signed, Text.dropStart?, hne 'n' rfl, hne 't' rfl, hne 'f' rfl,
      hne 'N' rfl, hne 'I' rfl, hne '-' rfl]

/-- A number is read back, as a word if it is none with digits. -/
theorem read_writeNumber (n : Number) {rest : Text} (hrest : EndsNumber rest) :
    readWord? (n.write Number.document ++ rest) = some (.number n, rest) ∨
      readWord? (n.write Number.document ++ rest) = none ∧
        readNumber? (n.write Number.document ++ rest) = some (n, rest) := by
  cases n with
  | integer i =>
    rw [Number.write, integer_eq, signed_append, readWord?_signed (valid_wholeParts _),
      ← signed_append, ← integer_eq, readNumber?_integer i hrest]
    exact .inr ⟨rfl, rfl⟩
  | real x =>
    rw [Number.write]
    cases hx : Binary64.decode x with
    | nan =>
      rw [Number.Format.real, hx, Binary64.eq_nan_of_decode hx]
      exact .inl rfl
    | infinite negative =>
      rw [Number.Format.real, hx, Binary64.eq_infinity_of_decode hx]
      cases negative <;> exact .inl rfl
    | finite negative m e =>
      obtain ⟨p, hvalid, htext, hnumber⟩ := exists_parts_real Number.document hx
      rw [htext, signed_append, readWord?_signed hvalid, readNumber?_text hvalid _ hrest, hnumber]
      exact .inr ⟨rfl, rfl⟩

theorem startsScalar_writeNumber (n : Number) : StartsScalar (n.write Number.document) := by
  cases n with
  | integer i =>
    rw [Number.write, integer_eq]
    exact startsScalar_signed (valid_wholeParts _) _
  | real x =>
    rw [Number.write]
    cases hx : Binary64.decode x with
    | nan =>
      rw [Number.Format.real, hx]
      exact ⟨'N', _, rfl, .inl rfl⟩
    | infinite negative =>
      rw [Number.Format.real, hx]
      cases negative with
      | false => exact ⟨'I', _, rfl, .inl rfl⟩
      | true => exact ⟨'-', _, rfl, .inr rfl⟩
    | finite negative m e =>
      obtain ⟨p, hvalid, htext, -⟩ := exists_parts_real Number.document hx
      rw [htext]
      exact startsScalar_signed hvalid negative

end NamespaceMerge.Json
