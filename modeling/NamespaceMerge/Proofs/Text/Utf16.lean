import NamespaceMerge.Text.Utf16

/-! The pieces of a sequence of code units lose nothing: written out again, they are the sequence
(`flatMap_pieces`). -/

namespace NamespaceMerge.Utf16

/-- The units of a piece. -/
def Piece.units : Piece → Utf16
  | .inl c => ofChar c
  | .inr unit => [unit]

theorem toNat_ofNat_of_valid {n : Nat} (h : n < 0xd800 ∨ 0xdfff < n ∧ n < 0x110000) :
    (Char.ofNat n).toNat = n := by
  have hvalid : n.isValidChar := h
  rw [Char.ofNat, dif_pos hvalid]
  rfl

theorem toUInt16_eq {n : Nat} {u : UInt16} (h : n = u.toNat) : n.toUInt16 = u := by
  rw [h, Nat.toUInt16_eq, UInt16.ofNat_toNat]

theorem units_pieceOfUnit (unit : UInt16) : (pieceOfUnit unit).units = [unit] := by
  rw [pieceOfUnit]
  split
  case isTrue => rfl
  case isFalse h =>
    have hlt := unit.toNat_lt
    simp only [isHighSurrogate, isLowSurrogate, Bool.or_eq_true, Bool.and_eq_true,
      decide_eq_true_eq] at h
    have hchar : (Char.ofNat unit.toNat).toNat = unit.toNat :=
      toNat_ofNat_of_valid (by omega)
    rw [Piece.units, ofChar, hchar, if_pos (by omega), toUInt16_eq rfl]

theorem ofChar_joinSurrogates {high low : UInt16} (hhigh : isHighSurrogate high = true)
    (hlow : isLowSurrogate low = true) : ofChar (joinSurrogates high low) = [high, low] := by
  simp only [isHighSurrogate, Bool.and_eq_true, decide_eq_true_eq] at hhigh
  simp only [isLowSurrogate, Bool.and_eq_true, decide_eq_true_eq] at hlow
  have hchar : (joinSurrogates high low).toNat =
      0x10000 + (high.toNat - 0xd800) * 0x400 + (low.toNat - 0xdc00) :=
    toNat_ofNat_of_valid (by omega)
  rw [ofChar, hchar, if_neg (by omega)]
  simp only [List.cons.injEq, and_true]
  exact ⟨toUInt16_eq (by omega), toUInt16_eq (by omega)⟩

theorem flatMap_pieces (units : Utf16) : (pieces units).flatMap Piece.units = units := by
  induction units using pieces.induct with
  | case1 high low rest h ih =>
    rw [Bool.and_eq_true] at h
    rw [pieces, if_pos (by rw [h.1, h.2]; rfl), List.flatMap_cons, ih]
    exact congrArg (· ++ rest) (ofChar_joinSurrogates h.1 h.2)
  | case2 high low rest h ih =>
    rw [pieces, if_neg h, List.flatMap_cons, ih, units_pieceOfUnit]
    rfl
  | case3 unit => rw [pieces, List.flatMap_cons, List.flatMap_nil, units_pieceOfUnit]; rfl
  | case4 => rfl

end NamespaceMerge.Utf16
