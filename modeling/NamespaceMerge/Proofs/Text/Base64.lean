import NamespaceMerge.Text.Base64

/-! Base64 text decodes to the bytes it was made from (`decode_encode`): three bytes go through
four symbols, and one or two that are left over through a group that padding finishes. What is
written is printable ASCII without a space. -/

namespace NamespaceMerge.Base64

open Utf8 (Bytes)

/-- The progress behind the symbols `group` of a group, before any padding. -/
def Progress.within (group : List Nat) (count : Nat) : Progress := { group, count }

theorem symbol_ne_pad : ∀ n < 64, symbol n ≠ '=' := by decide

theorem symbol_graphic : ∀ n < 64, 0x21 ≤ (symbol n).toNat ∧ (symbol n).toNat < 0x7f := by decide

/-! ### Reading symbols -/

theorem decodeFrom_symbol {group : List Nat} {n : Nat} (hn : n < 64) (hgroup : group.length < 3)
    (count : Nat) (rest : Text) :
    decodeFrom (.within group count) (symbol n :: rest) =
      decodeFrom (.within (group ++ [n]) (count + 1)) rest := by
  have hshort : (group ++ [n]).length ≠ 4 := by
    rw [List.length_append, List.length_singleton]
    omega
  rw [decodeFrom, if_neg (symbol_ne_pad n hn), alphabetIndex?_symbol n hn]
  simp only [Progress.within, Bool.false_eq_true, if_false, hshort]

theorem decodeFrom_lastSymbol {group : List Nat} {n : Nat} (hn : n < 64)
    (hgroup : group.length = 3) (count : Nat) (rest : Text) :
    decodeFrom (.within group count) (symbol n :: rest) =
      (decodeFrom (.within [] (count + 1)) rest).map (groupBytes (group ++ [n]) ++ ·) := by
  have hwhole : (group ++ [n]).length = 4 := by
    rw [List.length_append, List.length_singleton, hgroup]
  rw [decodeFrom, if_neg (symbol_ne_pad n hn), alphabetIndex?_symbol n hn]
  simp only [Progress.within, Bool.false_eq_true, if_false, hwhole, if_true]

theorem decodeFrom_group {a b c d : Nat} (ha : a < 64) (hb : b < 64) (hc : c < 64) (hd : d < 64)
    (count : Nat) (rest : Text) :
    decodeFrom (.within [] count) (symbol a :: symbol b :: symbol c :: symbol d :: rest) =
      (decodeFrom (.within [] (count + 4)) rest).map (groupBytes [a, b, c, d] ++ ·) := by
  rw [decodeFrom_symbol ha (by simp), decodeFrom_symbol hb (by simp),
    decodeFrom_symbol hc (by simp), decodeFrom_lastSymbol hd rfl]
  rfl

theorem decodeFrom_onePad {a b c : Nat} (ha : a < 64) (hb : b < 64) (hc : c < 64) (count : Nat) :
    decodeFrom (.within [] count) [symbol a, symbol b, symbol c, '='] =
      .ok (groupBytes [a, b, c]) := by
  rw [decodeFrom_symbol ha (by simp), decodeFrom_symbol hb (by simp),
    decodeFrom_symbol hc (by simp)]
  rfl

theorem decodeFrom_twoPads {a b : Nat} (ha : a < 64) (hb : b < 64) (count : Nat) :
    decodeFrom (.within [] count) [symbol a, symbol b, '=', '='] = .ok (groupBytes [a, b]) := by
  rw [decodeFrom_symbol ha (by simp), decodeFrom_symbol hb (by simp)]
  rfl

/-! ### Bytes back from the groups they were written as -/

theorem toUInt8_eq {n : Nat} {a : UInt8} (h : n = a.toNat) : n.toUInt8 = a := by
  rw [h, Nat.toUInt8_eq, UInt8.ofNat_toNat]

theorem groupBytes_three (a b c : UInt8) :
    groupBytes [a.toNat / 4, a.toNat % 4 * 16 + b.toNat / 16, b.toNat % 16 * 4 + c.toNat / 64,
      c.toNat % 64] = [a, b, c] := by
  have hb := b.toNat_lt
  have hc := c.toNat_lt
  rw [groupBytes, toUInt8_eq (a := a) (by omega), toUInt8_eq (a := b) (by omega),
    toUInt8_eq (a := c) (by omega)]

theorem groupBytes_two (a b : UInt8) :
    groupBytes [a.toNat / 4, a.toNat % 4 * 16 + b.toNat / 16, b.toNat % 16 * 4] = [a, b] := by
  have hb := b.toNat_lt
  rw [groupBytes, toUInt8_eq (a := a) (by omega), toUInt8_eq (a := b) (by omega)]

theorem groupBytes_one (a : UInt8) : groupBytes [a.toNat / 4, a.toNat % 4 * 16] = [a] := by
  rw [groupBytes, toUInt8_eq (a := a) (by omega)]

theorem decodeFrom_encode (bytes : Bytes) (count : Nat) :
    decodeFrom (.within [] count) (encode bytes) = .ok bytes := by
  induction bytes using encode.induct generalizing count with
  | case1 => rfl
  | case2 a =>
    have ha := a.toNat_lt
    rw [encode, decodeFrom_twoPads (by omega) (by omega), groupBytes_one]
  | case3 a b =>
    have ha := a.toNat_lt
    have hb := b.toNat_lt
    rw [encode, decodeFrom_onePad (by omega) (by omega) (by omega), groupBytes_two]
  | case4 a b c rest ih =>
    have ha := a.toNat_lt
    have hb := b.toNat_lt
    have hc := c.toNat_lt
    rw [encode, decodeFrom_group (by omega) (by omega) (by omega) (by omega), ih,
      groupBytes_three]
    rfl

/-- What is written is made of symbols and padding. -/
theorem graphic_of_mem_encode {bytes : Bytes} {c : Char} (h : c ∈ encode bytes) :
    0x21 ≤ c.toNat ∧ c.toNat < 0x7f := by
  have hpad : 0x21 ≤ '='.toNat ∧ '='.toNat < 0x7f := by decide
  induction bytes using encode.induct with
  | case1 => cases h
  | case2 a =>
    have ha := a.toNat_lt
    simp only [encode, List.mem_cons, List.not_mem_nil, or_false] at h
    rcases h with rfl | rfl | rfl | rfl
    · exact symbol_graphic _ (by omega)
    · exact symbol_graphic _ (by omega)
    · exact hpad
    · exact hpad
  | case3 a b =>
    have ha := a.toNat_lt
    have hb := b.toNat_lt
    simp only [encode, List.mem_cons, List.not_mem_nil, or_false] at h
    rcases h with rfl | rfl | rfl | rfl
    · exact symbol_graphic _ (by omega)
    · exact symbol_graphic _ (by omega)
    · exact symbol_graphic _ (by omega)
    · exact hpad
  | case4 a b c rest ih =>
    have ha := a.toNat_lt
    have hb := b.toNat_lt
    have hc := c.toNat_lt
    simp only [encode, List.mem_cons] at h
    rcases h with rfl | rfl | rfl | rfl | h
    · exact symbol_graphic _ (by omega)
    · exact symbol_graphic _ (by omega)
    · exact symbol_graphic _ (by omega)
    · exact symbol_graphic _ (by omega)
    · exact ih h

theorem head?_encode_ne_pad (bytes : Bytes) : (encode bytes).head? ≠ some '=' := by
  match bytes with
  | [] => exact nofun
  | [a] | [a, b] | a :: b :: c :: rest =>
    have ha := a.toNat_lt
    rw [encode, List.head?_cons, ne_eq, Option.some.injEq]
    exact symbol_ne_pad _ (by omega)

/-- Decoding undoes encoding. -/
theorem decode_encode (bytes : Bytes) : decode (encode bytes) = .ok bytes := by
  rw [decode, if_neg (head?_encode_ne_pad bytes)]
  exact decodeFrom_encode bytes 0

end NamespaceMerge.Base64
