import NamespaceMerge.Json.Reader
import NamespaceMerge.Json.Writer
import NamespaceMerge.Proofs.Text.Utf16

/-! Strings of a document are read back as they were written, whichever characters are escaped
(`readUnits_writeString`). A unit is written in one of three ways: with a short escape, as itself,
or as the four digits of its code. -/

namespace NamespaceMerge.Json

/-! ### What reading makes of one character or escape -/

/-- Adds units to the front of what is read. -/
def prepend (units : Utf16) (result : Except Refusal (Utf16 × Text)) :
    Except Refusal (Utf16 × Text) :=
  result.map fun (more, after) => (units ++ more, after)

theorem readUnits_quote (opening rest : Text) :
    readUnits opening ('"' :: rest) = .ok ([], rest) := by
  rw [readUnits]

theorem readUnits_simpleEscape {c : Char} {unit : UInt16} (h : simpleEscape? c = some unit)
    (opening rest : Text) :
    readUnits opening ('\\' :: c :: rest) = prepend [unit] (readUnits opening rest) := by
  have hu : c ≠ 'u' := by
    rintro rfl
    cases h
  rw [readUnits, h]
  · rfl
  · exact hu

theorem readUnits_unicodeEscape {text rest : Text} {unit : UInt16}
    (h : unitOfHex? text = some (unit, rest)) (opening : Text) :
    readUnits opening ('\\' :: 'u' :: text) = prepend [unit] (readUnits opening rest) := by
  rw [readUnits]
  split
  case h_1 hnone => rw [h] at hnone; cases hnone
  case h_2 hsome =>
    rw [h] at hsome
    cases hsome
    rfl

theorem readUnits_char {c : Char} (hquote : c ≠ '"') (hescape : c ≠ '\\') (hc : 0x20 ≤ c.toNat)
    (opening rest : Text) :
    readUnits opening (c :: rest) = prepend (Utf16.ofChar c) (readUnits opening rest) := by
  rw [readUnits, if_neg (Nat.not_lt.mpr hc)]
  · rfl
  all_goals grind

/-! ### What is written for one unit -/

theorem unitOfHex?_digits (unit : UInt16) {rest : Text} (hrest : rest ≠ []) :
    unitOfHex? (Hex.digits 4 unit.toNat ++ rest) = some (unit, rest) := by
  obtain ⟨e, rest, rfl⟩ := List.exists_cons_of_ne_nil hrest
  have hlt := unit.toNat_lt
  simp only [Hex.digits, List.nil_append, List.cons_append, unitOfHex?, Hex.read?,
    List.foldlM_cons, List.foldlM_nil, Hex.value?_digit _ (Nat.mod_lt _ (by decide)),
    Option.map_some, Option.bind_eq_bind, Option.bind_some, Option.pure_def]
  rw [Utf16.toUInt16_eq (u := unit) (by omega)]

theorem readUnits_unitEscape (unit : UInt16) (opening : Text) {rest : Text} (hrest : rest ≠ []) :
    readUnits opening (unitEscape unit ++ rest) = prepend [unit] (readUnits opening rest) :=
  readUnits_unicodeEscape (unitOfHex?_digits unit hrest) opening

theorem exists_of_shortEscape?_eq_some {unit : UInt16} {escape : Text}
    (h : shortEscape? unit = some escape) :
    ∃ c, escape = ['\\', c] ∧ simpleEscape? c = some unit := by
  rw [shortEscape?] at h
  split at h
  case h_8 => cases h
  all_goals
    next hunit =>
      cases h
      rw [← UInt16.ofNat_toNat (x := unit), hunit]
      exact ⟨_, rfl, rfl⟩

theorem readUnits_shortEscape {unit : UInt16} {escape : Text} (h : shortEscape? unit = some escape)
    (opening rest : Text) :
    readUnits opening (escape ++ rest) = prepend [unit] (readUnits opening rest) := by
  obtain ⟨c, rfl, hc⟩ := exists_of_shortEscape?_eq_some h
  exact readUnits_simpleEscape hc opening rest

/-- A unit without a short escape is neither a quote nor a backslash. -/
theorem ne_of_shortEscape?_eq_none {unit : UInt16} (h : shortEscape? unit = none) :
    unit.toNat ≠ 0x22 ∧ unit.toNat ≠ 0x5c := by
  constructor
  all_goals
    intro hunit
    rw [shortEscape?, hunit] at h
    cases h

theorem readUnits_itself {c : Char} {unit : UInt16} (hunit : c.toNat = unit.toNat)
    (h : shortEscape? unit = none) (hc : 0x20 ≤ c.toNat) (opening rest : Text) :
    readUnits opening (c :: rest) = prepend [unit] (readUnits opening rest) := by
  have hlt := unit.toNat_lt
  have hne := ne_of_shortEscape?_eq_none h
  have hunits : Utf16.ofChar c = [unit] := by
    rw [Utf16.ofChar, if_pos (by omega), Utf16.toUInt16_eq hunit]
  rw [← hunits]
  refine readUnits_char ?_ ?_ hc opening rest
  · rintro rfl
    exact hne.1 hunit.symm
  · rintro rfl
    exact hne.2 hunit.symm

theorem readUnits_asciiUnit (unit : UInt16) (opening : Text) {rest : Text} (hrest : rest ≠ []) :
    readUnits opening (asciiUnit unit ++ rest) = prepend [unit] (readUnits opening rest) := by
  rw [asciiUnit]
  split
  case h_1 escape h => exact readUnits_shortEscape h opening rest
  case h_2 h =>
    split
    case isTrue hprintable =>
      have hchar : (Char.ofNat unit.toNat).toNat = unit.toNat :=
        Utf16.toNat_ofNat_of_valid (by omega)
      exact readUnits_itself hchar h (by omega) opening rest
    case isFalse => exact readUnits_unitEscape unit opening hrest

theorem readUnits_unicodePiece (piece : Utf16.Piece) (opening : Text) {rest : Text}
    (hrest : rest ≠ []) :
    readUnits opening (unicodePiece piece ++ rest) =
      prepend piece.units (readUnits opening rest) := by
  match piece with
  | .inr unit => exact readUnits_unitEscape unit opening hrest
  | .inl c =>
    rw [unicodePiece, Utf16.Piece.units]
    split
    case isTrue hascii =>
      have hunit : c.toNat.toUInt16.toNat = c.toNat := by
        rw [Nat.toUInt16_eq, UInt16.toNat_ofNat', Nat.mod_eq_of_lt (by omega)]
      have hunits : Utf16.ofChar c = [c.toNat.toUInt16] := by
        rw [Utf16.ofChar, if_pos (by omega)]
      rw [hunits]
      split
      case h_1 escape h => exact readUnits_shortEscape h opening rest
      case h_2 h =>
        split
        case isTrue hprintable => exact readUnits_itself hunit.symm h hprintable opening rest
        case isFalse => exact readUnits_unitEscape _ opening hrest
    case isFalse hascii =>
      refine readUnits_char ?_ ?_ (by omega) opening rest
      · rintro rfl
        exact hascii (by decide)
      · rintro rfl
        exact hascii (by decide)

/-! ### Whole strings -/

/-- If each piece is read back in front of any text, all of them are, up to the closing quote. -/
theorem readUnits_flatMap {α : Type} {piece : α → Text} {units : α → Utf16} {opening : Text}
    (h : ∀ a rest, rest ≠ [] → readUnits opening (piece a ++ rest) =
      prepend (units a) (readUnits opening rest)) (pieces : List α) (rest : Text) :
    readUnits opening (pieces.flatMap piece ++ '"' :: rest) =
      .ok (pieces.flatMap units, rest) := by
  induction pieces with
  | nil => exact readUnits_quote opening rest
  | cons a pieces ih =>
    rw [List.flatMap_cons, List.append_assoc, h a _ (by simp), ih, List.flatMap_cons]
    rfl

/-- Reading undoes writing for strings. -/
theorem readUnits_writeString (charset : Charset) (units : Utf16) (rest : Text) :
    ∃ body, writeString charset units ++ rest = '"' :: body ∧
      ∀ opening, readUnits opening body = .ok (units, rest) := by
  cases charset with
  | ascii =>
    refine ⟨units.flatMap asciiUnit ++ '"' :: rest, by simp [writeString], fun opening => ?_⟩
    rw [readUnits_flatMap (fun unit _ => readUnits_asciiUnit unit opening), List.flatMap_singleton']
  | unicode =>
    refine ⟨(Utf16.pieces units).flatMap unicodePiece ++ '"' :: rest, by simp [writeString],
      fun opening => ?_⟩
    rw [readUnits_flatMap (fun piece _ => readUnits_unicodePiece piece opening),
      Utf16.flatMap_pieces]

end NamespaceMerge.Json
