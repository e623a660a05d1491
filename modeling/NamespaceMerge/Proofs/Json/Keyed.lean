import NamespaceMerge.Json.Reader
import NamespaceMerge.Proofs.Json.Members

/-! Values in which no object repeats a key, and which are nested no deeper than so many levels. A
value that is read is both, since reading keeps one member for each key and stops where the levels
are used up (`readable_of_read`). -/

namespace NamespaceMerge

/-! ### Outcomes that are right -/

theorem map_eq_ok_iff {ε α β : Type} {x : Except ε α} {f : α → β} {b : β} :
    x.map f = .ok b ↔ ∃ a, x = .ok a ∧ f a = b := by
  cases x with
  | error e => simp [Except.map]
  | ok a => simp [Except.map]

theorem bind_eq_ok_iff {ε α β : Type} {x : Except ε α} {f : α → Except ε β} {b : β} :
    (x >>= f) = .ok b ↔ ∃ a, x = .ok a ∧ f a = .ok b := by
  cases x with
  | error e => simp [bind, Except.bind]
  | ok a => simp [bind, Except.bind]

theorem mapError_eq_ok_iff {ε ε' α : Type} {x : Except ε α} {f : ε → ε'} {a : α} :
    x.mapError f = .ok a ↔ x = .ok a := by
  cases x with
  | error e => simp [Except.mapError]
  | ok a => simp [Except.mapError]

theorem eq_ok_of_mem_toOption {ε α : Type} {x : Except ε α} {a : α} (h : a ∈ x.toOption) :
    x = .ok a := by
  cases x with
  | error e => cases h
  | ok a => exact congrArg _ (Option.some.inj h)

namespace Json

/-- At most `levels` arrays and objects of the value lie within each other, if there is a limit. -/
inductive FitsIn : Option Nat → Json → Prop
  | null {levels : Option Nat} : FitsIn levels null
  | bool {levels : Option Nat} (b : Bool) : FitsIn levels (bool b)
  | number {levels : Option Nat} (n : Number) : FitsIn levels (number n)
  | string {levels : Option Nat} (units : Utf16) : FitsIn levels (string units)
  | array {levels : Option Nat} {items : List Json} (hlevels : levels ≠ some 0)
      (h : ∀ item ∈ items, FitsIn (levels.map (· - 1)) item) : FitsIn levels (array items)
  | object {levels : Option Nat} {members : Members} (hlevels : levels ≠ some 0)
      (h : ∀ member ∈ members, FitsIn (levels.map (· - 1)) member.2) :
      FitsIn levels (object members)

/-- What a reader gives that goes down to `levels` levels. -/
structure Readable (levels : Option Nat) (value : Json) : Prop where
  keyed : Keyed value
  fits : FitsIn levels value

/-- Without a limit there is room for every value. -/
theorem fitsIn_none : (value : Json) → FitsIn none value
  | .null => .null
  | .bool b => .bool b
  | .number n => .number n
  | .string units => .string units
  | .array _ => .array nofun fun item _ => fitsIn_none item
  | .object members => .object nofun fun (key, value) hmember =>
    have : sizeOf value < sizeOf members := by
      have := List.sizeOf_lt_of_mem hmember
      rw [Prod.mk.sizeOf_spec] at this
      omega
    fitsIn_none value

namespace Readable

variable {levels : Option Nat}

theorem array {items : List Json} (hlevels : levels ≠ some 0)
    (h : ∀ item ∈ items, Readable (levels.map (· - 1)) item) : Readable levels (.array items) :=
  ⟨.array fun item hitem => (h item hitem).keyed,
    .array hlevels fun item hitem => (h item hitem).fits⟩

theorem object {members : Members} (hlevels : levels ≠ some 0) (hkeys : members.keys.Nodup)
    (h : ∀ member ∈ members, Readable (levels.map (· - 1)) member.2) :
    Readable levels (.object members) :=
  ⟨.object hkeys fun member hmember => (h member hmember).keyed,
    .object hlevels fun member hmember => (h member hmember).fits⟩

theorem number (n : Number) : Readable levels (.number n) := ⟨.number n, .number n⟩

theorem string (units : Utf16) : Readable levels (.string units) := ⟨.string units, .string units⟩

section

variable {members : Members} (h : Readable levels (.object members))

include h

theorem ne_zero : levels ≠ some 0 := by
  cases h.fits
  assumption

theorem nodup_keys : members.keys.Nodup := by
  cases h.keyed
  assumption

theorem member {member : Utf16 × Json} (hmember : member ∈ members) :
    Readable (levels.map (· - 1)) member.2 := by
  cases h.keyed with
  | object _ hkeyed =>
    cases h.fits with
    | object _ hfits => exact ⟨hkeyed _ hmember, hfits _ hmember⟩

theorem get? {key : Utf16} {value : Json} (hget : members.get? key = some value) :
    Readable (levels.map (· - 1)) value :=
  h.member (Members.mem_of_get?_eq_some hget)

end

end Readable

theorem readable_of_readWord? {levels : Option Nat} {text rest : Text} {value : Json}
    (h : readWord? text = some (value, rest)) : Readable levels value := by
  obtain ⟨⟨word, value'⟩, hmem, hword⟩ := List.exists_of_findSome?_eq_some h
  obtain ⟨rest', -, heq⟩ := Option.map_eq_some_iff.mp hword
  cases heq
  simp only [words, List.mem_cons, Prod.mk.injEq, List.not_mem_nil, or_false] at hmem
  rcases hmem with ⟨-, rfl⟩ | ⟨-, rfl⟩ | ⟨-, rfl⟩ | ⟨-, rfl⟩ | ⟨-, rfl⟩ | ⟨-, rfl⟩ <;>
  · constructor <;> constructor

/-! ### One step of reading, from the steps below it -/

section

variable {depth : Nat}
  (hvalue : ∀ {levels text value rest}, readValue levels depth text = .ok (value, rest) →
    Readable levels value)
  (hitems : ∀ {levels text items rest}, readItems levels depth text = .ok (items, rest) →
    ∀ item ∈ items, Readable levels item)
  (hmembers : ∀ {levels text members rest}, readMembers levels depth text = .ok (members, rest) →
    ∀ member ∈ members, Readable levels member.2)

include hitems hmembers in
theorem readable_of_readValue_succ {levels : Option Nat} {text rest : Text} {value : Json}
    (h : readValue levels (depth + 1) text = .ok (value, rest)) : Readable levels value := by
  rw [readValue.eq_def] at h
  simp only at h
  split at h
  case h_1 =>
    obtain ⟨⟨units, rest'⟩, -, heq⟩ := map_eq_ok_iff.mp h
    cases heq
    exact ⟨.string units, .string units⟩
  case h_2 =>
    split at h
    · cases h
    · next hlevels =>
      split at h
      · cases h
        exact .array hlevels nofun
      · obtain ⟨⟨items, rest'⟩, hread, heq⟩ := map_eq_ok_iff.mp h
        cases heq
        exact .array hlevels (hitems hread)
  case h_3 =>
    split at h
    · cases h
    · next hlevels =>
      split at h
      · cases h
        exact .object hlevels List.nodup_nil nofun
      · obtain ⟨⟨members, rest'⟩, hread, heq⟩ := map_eq_ok_iff.mp h
        cases heq
        refine .object hlevels (Members.nodup_keys_ofList members) fun member hmember => ?_
        obtain ⟨pair, hpair, heq⟩ := Members.exists_of_mem_ofList hmember
        exact heq ▸ hmembers hread pair hpair
  case h_4 =>
    split at h
    · next hword =>
      cases h
      exact readable_of_readWord? hword
    · split at h
      · cases h
        exact ⟨.number _, .number _⟩
      · cases h

include hvalue hitems in
theorem readable_of_readItems_succ {levels : Option Nat} {text rest : Text} {items : List Json}
    (h : readItems levels (depth + 1) text = .ok (items, rest)) :
    ∀ item ∈ items, Readable levels item := by
  rw [readItems] at h
  obtain ⟨⟨item, rest'⟩, hread, h⟩ := bind_eq_ok_iff.mp h
  simp only at h
  split at h
  · cases h
    rw [List.forall_mem_singleton]
    exact hvalue hread
  · obtain ⟨⟨more, rest''⟩, hmore, heq⟩ := map_eq_ok_iff.mp h
    cases heq
    rw [List.forall_mem_cons]
    exact ⟨hvalue hread, hitems hmore⟩
  · cases h

include hvalue hmembers in
theorem readable_of_readMembers_succ {levels : Option Nat} {text rest : Text} {members : Members}
    (h : readMembers levels (depth + 1) text = .ok (members, rest)) :
    ∀ member ∈ members, Readable levels member.2 := by
  rw [readMembers.eq_def] at h
  simp only at h
  split at h
  case h_2 => cases h
  case h_1 =>
    obtain ⟨⟨key, rest'⟩, -, h⟩ := bind_eq_ok_iff.mp h
    simp only at h
    split at h
    · obtain ⟨⟨value, rest''⟩, hread, h⟩ := bind_eq_ok_iff.mp h
      simp only at h
      split at h
      · cases h
        rw [List.forall_mem_singleton]
        exact hvalue hread
      · obtain ⟨⟨more, rest''⟩, hmore, heq⟩ := map_eq_ok_iff.mp h
        cases heq
        rw [List.forall_mem_cons]
        exact ⟨hvalue hread, hmembers hmore⟩
      · cases h
    · cases h

end

theorem readable_of_readValue (depth : Nat) :
    (∀ {levels text value rest}, readValue levels depth text = .ok (value, rest) →
      Readable levels value) ∧
    (∀ {levels text items rest}, readItems levels depth text = .ok (items, rest) →
      ∀ item ∈ items, Readable levels item) ∧
    (∀ {levels text members rest}, readMembers levels depth text = .ok (members, rest) →
      ∀ member ∈ members, Readable levels member.2) := by
  induction depth with
  | zero =>
    refine ⟨fun h => ?_, fun h => ?_, fun h => ?_⟩
    · rw [readValue] at h
      cases h
    · rw [readItems] at h
      cases h
    · rw [readMembers] at h
      cases h
  | succ depth ih =>
    obtain ⟨hvalue, hitems, hmembers⟩ := ih
    exact ⟨readable_of_readValue_succ hitems hmembers, readable_of_readItems_succ hvalue hitems,
      readable_of_readMembers_succ hvalue hmembers⟩

/-- Every value that is read has distinct keys in its objects, and is nested no deeper than the
reader goes. -/
theorem readable_of_read {document : Text} {levels : Option Nat} {value : Json}
    (h : read document levels = .ok value) : Readable levels value := by
  rw [read, mapError_eq_ok_iff, readDocument] at h
  split at h
  · cases h
  · obtain ⟨⟨found, rest⟩, hread, h⟩ := bind_eq_ok_iff.mp h
    simp only at h
    split at h
    · cases h
      exact (readable_of_readValue _).1 hread
    · cases h

end Json

end NamespaceMerge
