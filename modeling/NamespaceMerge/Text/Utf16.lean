import NamespaceMerge.Text.Basic

/-! Text as UTF-16 code units, which is what a string is in a JSON document: an escape names one
unit, and a surrogate without its partner is a unit that no character has. `toText_ofText` says
that no character is lost on the way. -/

namespace NamespaceMerge

abbrev Utf16 := List UInt16

namespace Utf16

def ofChar (c : Char) : Utf16 :=
  if c.toNat < 0x10000 then [c.toNat.toUInt16]
  else
    let offset := c.toNat - 0x10000
    [(0xd800 + offset / 0x400).toUInt16, (0xdc00 + offset % 0x400).toUInt16]

def ofText (text : Text) : Utf16 := text.flatMap ofChar

def ofString (s : String) : Utf16 := ofText s.toList

def isHighSurrogate (unit : UInt16) : Bool := 0xd800 ≤ unit.toNat && unit.toNat ≤ 0xdbff

def isLowSurrogate (unit : UInt16) : Bool := 0xdc00 ≤ unit.toNat && unit.toNat ≤ 0xdfff

/-- The character that a high and a low surrogate stand for together. -/
def joinSurrogates (high low : UInt16) : Char :=
  Char.ofNat (0x10000 + (high.toNat - 0xd800) * 0x400 + (low.toNat - 0xdc00))

/-- A character, or a surrogate that stands alone. -/
abbrev Piece := Char ⊕ UInt16

def pieceOfUnit (unit : UInt16) : Piece :=
  if isHighSurrogate unit || isLowSurrogate unit then .inr unit else .inl (Char.ofNat unit.toNat)

/-- The characters of the sequence; a surrogate without its partner is kept as it is. -/
def pieces : Utf16 → List Piece
  | high :: low :: rest =>
    if isHighSurrogate high && isLowSurrogate low then
      .inl (joinSurrogates high low) :: pieces rest
    else pieceOfUnit high :: pieces (low :: rest)
  | [unit] => [pieceOfUnit unit]
  | [] => []

/-- The text of the sequence, with U+FFFD for a surrogate that stands alone. -/
def toText (units : Utf16) : Text := (pieces units).map (Sum.elim id fun _ => '\ufffd')

def toString (units : Utf16) : String := String.ofList (toText units)

private theorem toNat_valid (c : Char) :
    c.toNat < 0xd800 ∨ 0xdfff < c.toNat ∧ c.toNat < 0x110000 := c.valid

private theorem not_isSurrogate {c : Char} (h : c.toNat < 0x10000) :
    isHighSurrogate c.toNat.toUInt16 = false ∧ isLowSurrogate c.toNat.toUInt16 = false := by
  have := toNat_valid c
  have hmod : c.toNat.toUInt16.toNat = c.toNat := by
    rw [Nat.toUInt16, UInt16.toNat_ofNat']; omega
  simp only [isHighSurrogate, isLowSurrogate, hmod, Bool.and_eq_false_iff, decide_eq_false_iff_not]
  omega

private theorem pieceOfUnit_toUInt16 {c : Char} (h : c.toNat < 0x10000) :
    pieceOfUnit c.toNat.toUInt16 = .inl c := by
  have hmod : c.toNat.toUInt16.toNat = c.toNat := by
    rw [Nat.toUInt16, UInt16.toNat_ofNat']; omega
  simp [pieceOfUnit, not_isSurrogate h, hmod]

theorem pieces_ofChar_append (c : Char) (rest : Utf16) :
    pieces (ofChar c ++ rest) = .inl c :: pieces rest := by
  have hvalid := toNat_valid c
  by_cases h : c.toNat < 0x10000
  · simp only [ofChar, h, if_true, List.singleton_append]
    cases rest with
    | nil => simp [pieces, pieceOfUnit_toUInt16 h]
    | cons low rest => simp [pieces, pieceOfUnit_toUInt16 h, (not_isSurrogate h).1]
  · have hhigh : ((0xd800 + (c.toNat - 0x10000) / 0x400).toUInt16).toNat
        = 0xd800 + (c.toNat - 0x10000) / 0x400 := by
      rw [Nat.toUInt16, UInt16.toNat_ofNat']; omega
    have hlow : ((0xdc00 + (c.toNat - 0x10000) % 0x400).toUInt16).toNat
        = 0xdc00 + (c.toNat - 0x10000) % 0x400 := by
      rw [Nat.toUInt16, UInt16.toNat_ofNat']; omega
    have hoffset : 0x10000 + (c.toNat - 0x10000) / 0x400 * 0x400 + (c.toNat - 0x10000) % 0x400
        = c.toNat := by omega
    have hhs : isHighSurrogate (0xd800 + (c.toNat - 0x10000) / 0x400).toUInt16 := by
      simp only [isHighSurrogate, hhigh, Bool.and_eq_true, decide_eq_true_eq]; omega
    have hls : isLowSurrogate (0xdc00 + (c.toNat - 0x10000) % 0x400).toUInt16 := by
      simp only [isLowSurrogate, hlow, Bool.and_eq_true, decide_eq_true_eq]; omega
    simp only [ofChar, h, if_false, List.cons_append, List.nil_append, pieces, hhs, hls,
      Bool.and_self, if_true, joinSurrogates, hhigh, hlow, Nat.add_sub_cancel_left, hoffset,
      Char.ofNat_toNat]

theorem pieces_ofText (text : Text) : pieces (ofText text) = text.map .inl := by
  induction text with
  | nil => rfl
  | cons c rest ih =>
    simp only [ofText, List.flatMap_cons, List.map_cons] at *
    rw [pieces_ofChar_append, ih]

theorem toText_ofText (text : Text) : toText (ofText text) = text := by
  simp [toText, pieces_ofText]

end Utf16

end NamespaceMerge
