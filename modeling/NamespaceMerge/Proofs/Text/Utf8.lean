import NamespaceMerge.Text.Utf8

/-! Every text is read back from its UTF-8 bytes (`decode_encode`): the first byte of a character
tells how many follow, and no sequence that is written is overlong, a surrogate or too large. -/

namespace NamespaceMerge.Utf8

theorem toNat_toUInt8 {n : Nat} (h : n < 256) : n.toUInt8.toNat = n := by
  rw [Nat.toUInt8_eq, UInt8.toNat_ofNat']
  exact Nat.mod_eq_of_lt h

/-- The continuation byte with the six bits that `n` ends with. -/
def continuation (n : Nat) : UInt8 := (0x80 + n % 64).toUInt8

theorem toNat_continuation (n : Nat) : (continuation n).toNat = 0x80 + n % 64 :=
  toNat_toUInt8 (by omega)

theorem isContinuation_continuation (n : Nat) : isContinuation (continuation n) = true := by
  rw [isContinuation, toNat_continuation, Bool.and_eq_true, decide_eq_true_eq, decide_eq_true_eq]
  omega

theorem bits_continuation (n : Nat) : bits (continuation n) = n % 64 := by
  rw [bits, toNat_continuation]
  omega

/-- The first byte of a long sequence may be followed by any continuation byte but those that
leave the code point out of its range. -/
theorem maySecond_continuation {first : UInt8} {n : Nat} (he0 : first.toNat = 0xe0 → 32 ≤ n % 64)
    (hed : first.toNat = 0xed → n % 64 < 32) (hf0 : first.toNat = 0xf0 → 16 ≤ n % 64)
    (hf4 : first.toNat = 0xf4 → n % 64 < 16) : maySecond first (continuation n) = true := by
  rw [maySecond, isContinuation_continuation, Bool.true_and, toNat_continuation]
  split
  case h_1 h => exact decide_eq_true (by have := he0 h; omega)
  case h_2 h => exact decide_eq_true (by have := hed h; omega)
  case h_3 h => exact decide_eq_true (by have := hf0 h; omega)
  case h_4 h => exact decide_eq_true (by have := hf4 h; omega)
  case h_5 => rfl

/-! ### One character, by the length of its sequence -/

section

variable {n : Nat}

theorem sequence_one (hn : n < 0x80) (rest : Bytes) :
    sequence n.toUInt8 rest = .ok (Char.ofNat n, 0) := by
  have hfirst := toNat_toUInt8 (n := n) (by omega)
  simp only [sequence, hfirst, hn, if_true]

theorem sequence_two (hn : 0x80 ≤ n) (hn' : n < 0x800) (rest : Bytes) :
    sequence (0xc0 + n / 64).toUInt8 (continuation n :: rest) = .ok (Char.ofNat n, 1) := by
  have hfirst := toNat_toUInt8 (n := 0xc0 + n / 64) (by omega)
  have hvalue : (0xc0 + n / 64 - 0xc0) * 64 + n % 64 = n := by omega
  simp only [sequence, hfirst, isContinuation_continuation, bits_continuation, if_true]
  rw [if_neg (by omega), if_neg (by omega), if_pos (by omega), hvalue]

theorem sequence_three (hn : 0x800 ≤ n) (hn' : n < 0x10000) (hvalid : n < 0xd800 ∨ 0xdfff < n)
    (rest : Bytes) :
    sequence (0xe0 + n / 4096).toUInt8 (continuation (n / 64) :: continuation n :: rest) =
      .ok (Char.ofNat n, 2) := by
  have hfirst := toNat_toUInt8 (n := 0xe0 + n / 4096) (by omega)
  have hsecond : maySecond (0xe0 + n / 4096).toUInt8 (continuation (n / 64)) = true := by
    apply maySecond_continuation <;> rw [hfirst] <;> omega
  have hvalue : ((0xe0 + n / 4096 - 0xe0) * 64 + n / 64 % 64) * 64 + n % 64 = n := by omega
  simp only [sequence, hfirst, hsecond, isContinuation_continuation, bits_continuation,
    Bool.not_true, Bool.false_eq_true, if_false]
  rw [if_neg (by omega), if_neg (by omega), if_neg (by omega), if_pos (by omega), hvalue]

theorem sequence_four (hn : 0x10000 ≤ n) (hn' : n < 0x110000) (rest : Bytes) :
    sequence (0xf0 + n / 262144).toUInt8
        (continuation (n / 4096) :: continuation (n / 64) :: continuation n :: rest) =
      .ok (Char.ofNat n, 3) := by
  have hfirst := toNat_toUInt8 (n := 0xf0 + n / 262144) (by omega)
  have hsecond : maySecond (0xf0 + n / 262144).toUInt8 (continuation (n / 4096)) = true := by
    apply maySecond_continuation <;> rw [hfirst] <;> omega
  have hvalue : (((0xf0 + n / 262144 - 0xf0) * 64 + n / 4096 % 64) * 64 + n / 64 % 64) * 64 +
      n % 64 = n := by omega
  simp only [sequence, hfirst, hsecond, isContinuation_continuation, bits_continuation,
    Bool.not_true, Bool.false_eq_true, if_false]
  rw [if_neg (by omega), if_neg (by omega), if_neg (by omega), if_neg (by omega),
    if_pos (by omega), hvalue]

end

theorem encodeChar_eq (c : Char) :
    encodeChar c =
      if c.toNat < 0x80 then [c.toNat.toUInt8]
      else if c.toNat < 0x800 then [(0xc0 + c.toNat / 64).toUInt8, continuation c.toNat]
      else if c.toNat < 0x10000 then
        [(0xe0 + c.toNat / 4096).toUInt8, continuation (c.toNat / 64), continuation c.toNat]
      else
        [(0xf0 + c.toNat / 262144).toUInt8, continuation (c.toNat / 4096),
          continuation (c.toNat / 64), continuation c.toNat] := by
  simp [encodeChar, continuation]

/-- The bytes of a character are one sequence, whatever follows them. -/
theorem sequence_encodeChar (c : Char) :
    ∃ first more, encodeChar c = first :: more ∧
      ∀ rest, sequence first (more ++ rest) = .ok (c, more.length) := by
  have hvalid : c.toNat < 0xd800 ∨ 0xdfff < c.toNat ∧ c.toNat < 0x110000 := c.valid
  rw [encodeChar_eq]
  split
  case isTrue h =>
    exact ⟨_, _, rfl, fun rest => by rw [sequence_one h, Char.ofNat_toNat]; rfl⟩
  case isFalse h1 =>
    split
    case isTrue h =>
      refine ⟨_, _, rfl, fun rest => ?_⟩
      exact (sequence_two (by omega) h rest).trans (by rw [Char.ofNat_toNat]; rfl)
    case isFalse h2 =>
      split
      case isTrue h =>
        refine ⟨_, _, rfl, fun rest => ?_⟩
        exact (sequence_three (by omega) h (by omega) rest).trans (by rw [Char.ofNat_toNat]; rfl)
      case isFalse h3 =>
        refine ⟨_, _, rfl, fun rest => ?_⟩
        exact (sequence_four (by omega) (by omega) rest).trans (by rw [Char.ofNat_toNat]; rfl)

theorem decodeFrom_encode (offset : Nat) (text : Text) :
    decodeFrom offset (encode text) = .ok text := by
  induction text generalizing offset with
  | nil => rw [encode, List.flatMap_nil, decodeFrom]
  | cons c text ih =>
    obtain ⟨first, more, hbytes, hsequence⟩ := sequence_encodeChar c
    have hencode : encode (c :: text) = first :: (more ++ encode text) := by
      rw [encode, List.flatMap_cons, hbytes]
      rfl
    rw [hencode, decodeFrom, hsequence]
    simp only [List.drop_left, ih]
    rfl

/-- Decoding undoes encoding. -/
theorem decode_encode (text : Text) : decode (encode text) = .ok text :=
  decodeFrom_encode 0 text

end NamespaceMerge.Utf8
