import NamespaceMerge.Proofs.Json.NumberText
import NamespaceMerge.Proofs.Json.Quoting

/-! A document on one line holds no controls, and so no line end of any kind
(`noControls_writeUnicode`); written in ASCII, it is printable ASCII (`printable_write`). What
stands outside of strings is the same either way (`Covers.forall_mem_writeAt`). -/

namespace NamespaceMerge.Json

/-- Printable ASCII, the space among it. -/
def Printable (text : Text) : Prop := ∀ c ∈ text, 0x20 ≤ c.toNat ∧ c.toNat < 0x7f

theorem printable_iff {text : Text} :
    Printable text ↔ text.all (fun c => 0x20 ≤ c.toNat && c.toNat < 0x7f) = true := by
  simp only [Printable, List.all_eq_true, Bool.and_eq_true, decide_eq_true_eq]

instance (text : Text) : Decidable (Printable text) := decidable_of_iff' _ printable_iff

namespace Printable

variable {a b : Text}

theorem nil : Printable [] := nofun

theorem cons {c : Char} (hc : 0x20 ≤ c.toNat ∧ c.toNat < 0x7f) (h : Printable a) :
    Printable (c :: a) :=
  List.forall_mem_cons.mpr ⟨hc, h⟩

theorem append (h : Printable a) (h' : Printable b) : Printable (a ++ b) :=
  List.forall_mem_append.mpr ⟨h, h'⟩

theorem flatMap {α : Type} {items : List α} {f : α → Text}
    (h : ∀ item ∈ items, Printable (f item)) : Printable (items.flatMap f) := by
  intro c hc
  obtain ⟨item, hitem, hc⟩ := List.mem_flatMap.mp hc
  exact h item hitem c hc

theorem of_digits (h : ∀ c ∈ a, c.isDigit = true) : Printable a := by
  intro c hc
  have hdigit := h c hc
  simp only [Char.isDigit, ge_iff_le, Bool.and_eq_true, decide_eq_true_eq, UInt32.le_iff_toNat_le]
    at hdigit
  have hlow : 48 ≤ c.toNat := hdigit.1
  have hhigh : c.toNat ≤ 57 := hdigit.2
  omega

end Printable

/-! ### Strings -/

theorem printable_hexDigit : ∀ d < 16, Printable [Hex.digit d] := by decide

theorem printable_hexDigits (width n : Nat) : Printable (Hex.digits width n) := by
  induction width generalizing n with
  | zero => exact .nil
  | succ width ih => exact (ih _).append (printable_hexDigit _ (Nat.mod_lt _ (by decide)))

theorem printable_shortEscape {unit : UInt16} {escape : Text}
    (h : shortEscape? unit = some escape) : Printable escape := by
  rw [shortEscape?] at h
  split at h
  case h_8 => cases h
  all_goals
    cases h
    decide

theorem printable_unitEscape (unit : UInt16) : Printable (unitEscape unit) :=
  .cons (by decide) (.cons (by decide) (printable_hexDigits 4 _))

theorem printable_asciiUnit (unit : UInt16) : Printable (asciiUnit unit) := by
  rw [asciiUnit]
  split
  · next escape h => exact printable_shortEscape h
  · split
    · next hprintable =>
      refine .cons ?_ .nil
      rw [Utf16.toNat_ofNat_of_valid (by omega)]
      exact hprintable
    · exact printable_unitEscape unit

theorem printable_writeString (units : Utf16) : Printable (writeString .ascii units) :=
  .cons (by decide) ((Printable.flatMap fun unit _ => printable_asciiUnit unit).append (by decide))

/-! ### Numbers -/

theorem NumberParts.Valid.printable {p : NumberParts} (hp : p.Valid) : Printable p.text := by
  have hfraction : Printable (fractionText p.decimals) := by
    rw [fractionText]
    split
    · exact .nil
    · exact .cons (by decide) (.of_digits hp.decimals_digits)
  have hexponent : Printable (exponentText p.exponent) := by
    cases hexponent : p.exponent with
    | none => exact .nil
    | some e =>
      refine .cons (by decide) (.cons ?_ (.of_digits (hp.exponent_digits e hexponent).2))
      split <;> decide
  exact (Printable.of_digits hp.whole_digits).append (hfraction.append hexponent)

theorem printable_signed {text : Text} (h : Printable text) (negative : Bool) :
    Printable (signed negative text) := by
  cases negative with
  | false => exact h
  | true => exact .cons (by decide) h

theorem printable_writeNumber (n : Number) : Printable (n.write Number.document) := by
  cases n with
  | integer i =>
    rw [Number.write, integer_eq]
    exact printable_signed (valid_wholeParts _).printable _
  | real x =>
    rw [Number.write]
    cases hx : Binary64.decode x with
    | nan =>
      rw [Number.Format.real, hx]
      decide
    | infinite negative =>
      rw [Number.Format.real, hx]
      cases negative <;> decide
    | finite negative m e =>
      obtain ⟨p, hvalid, htext, -⟩ := exists_parts_real Number.document hx
      rw [htext]
      exact printable_signed hvalid.printable _

/-! ### Values -/

/-- A property of printable ASCII and of all that strings are written with. -/
structure Covers (charset : Charset) (P : Char → Prop) : Prop where
  printable : ∀ {text}, Printable text → ∀ c ∈ text, P c
  string : ∀ units, ∀ c ∈ writeString charset units, P c

section

variable {charset : Charset} {P : Char → Prop}

theorem Covers.char (h : Covers charset P) {c : Char} (hc : Printable [c]) : P c :=
  h.printable hc c (List.mem_singleton_self c)

theorem Covers.colon (h : Covers charset P) : ∀ c ∈ [':', ' '], P c := h.printable (by decide)

theorem Covers.separator (h : Covers charset P) (level : Nat) :
    ∀ c ∈ Style.separator ⟨charset, none⟩ level, P c := by
  have hseparator : Printable [',', ' '] := by decide
  exact h.printable hseparator

mutual

/-- What stands outside of strings is printable ASCII. -/
theorem Covers.forall_mem_writeAt (h : Covers charset P) (level : Nat) (value : Json) :
    ∀ c ∈ writeAt ⟨charset, none⟩ level value, P c := by
  match value with
  | .null | .bool true | .bool false | .array [] | .object [] =>
    rw [writeAt]
    exact h.printable (by decide)
  | .number n =>
    rw [writeAt]
    exact h.printable (printable_writeNumber n)
  | .string units =>
    rw [writeAt]
    exact h.string units
  | .array (item :: items) =>
    rw [writeAt, List.forall_mem_cons]
    simp only [Style.itemStart, List.nil_append, List.append_nil, List.forall_mem_append,
      List.forall_mem_singleton]
    exact ⟨h.char (by decide), ⟨h.forall_mem_writeAt _ item, h.forall_mem_writeItems _ items⟩,
      h.char (by decide)⟩
  | .object ((key, value) :: members) =>
    rw [writeAt, List.forall_mem_cons]
    simp only [Style.itemStart, List.nil_append, List.append_nil, List.forall_mem_append,
      List.forall_mem_singleton]
    exact ⟨h.char (by decide), ⟨⟨⟨h.string key, h.colon⟩, h.forall_mem_writeAt _ value⟩,
      h.forall_mem_writeMembers _ members⟩, h.char (by decide)⟩

theorem Covers.forall_mem_writeItems (h : Covers charset P) (level : Nat) (items : List Json) :
    ∀ c ∈ writeItems ⟨charset, none⟩ level items, P c := by
  match items with
  | [] => exact nofun
  | item :: items =>
    rw [writeItems]
    simp only [List.forall_mem_append]
    exact ⟨⟨h.separator level, h.forall_mem_writeAt _ item⟩, h.forall_mem_writeItems _ items⟩

theorem Covers.forall_mem_writeMembers (h : Covers charset P) (level : Nat)
    (members : List (Utf16 × Json)) :
    ∀ c ∈ writeMembers ⟨charset, none⟩ level members, P c := by
  match members with
  | [] => exact nofun
  | (key, value) :: members =>
    rw [writeMembers]
    simp only [List.forall_mem_append]
    exact ⟨⟨⟨⟨h.separator level, h.string key⟩, h.colon⟩, h.forall_mem_writeAt _ value⟩,
      h.forall_mem_writeMembers _ members⟩

end

end

theorem printable_write (value : Json) : Printable value.write :=
  Covers.forall_mem_writeAt ⟨id, printable_writeString⟩ 0 value

/-! ### Documents beyond ASCII -/

/-- Text without controls: all that stands below the space. -/
def NoControls (text : Text) : Prop := ∀ c ∈ text, 0x20 ≤ c.toNat

theorem Printable.noControls {text : Text} (h : Printable text) : NoControls text :=
  fun c hc => (h c hc).1

theorem noControls_unicodePiece (piece : Utf16.Piece) : NoControls (unicodePiece piece) := by
  have hself {c : Char} (hc : 0x20 ≤ c.toNat) : NoControls [c] := by
    intro d hd
    rwa [List.mem_singleton.mp hd]
  match piece with
  | .inr unit => exact (printable_unitEscape unit).noControls
  | .inl c =>
    rw [unicodePiece]
    split
    · split
      · next escape h => exact (printable_shortEscape h).noControls
      · split
        · next hc => exact hself hc
        · exact (printable_unitEscape _).noControls
    · exact hself (by omega)

theorem noControls_writeString (units : Utf16) : NoControls (writeString .unicode units) := by
  rw [NoControls, writeString]
  simp only [List.forall_mem_cons, List.forall_mem_append, List.forall_mem_flatMap]
  have hquote : 0x20 ≤ '"'.toNat := by decide
  exact ⟨hquote, fun piece _ => noControls_unicodePiece piece, hquote, List.forall_mem_nil _⟩

theorem noControls_writeUnicode (value : Json) : NoControls value.writeUnicode :=
  Covers.forall_mem_writeAt ⟨Printable.noControls, noControls_writeString⟩ 0 value

end NamespaceMerge.Json
