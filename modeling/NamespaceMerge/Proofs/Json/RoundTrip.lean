import NamespaceMerge.Proofs.Json.Keyed
import NamespaceMerge.Proofs.Json.NumberText
import NamespaceMerge.Proofs.Json.Quoting

/-! A document is read back as the value it was written from, in every style (`read_writeAt`), if no
object in the value repeats a key and the reader goes as deep as the value is nested. The proof goes
along the value: each part is read back in front of whatever ends a value. -/

namespace NamespaceMerge.Json

/-! ### Blanks between the parts of a value -/

/-- Blanks that a style puts between parts: none, or a line break first. -/
structure IsGap (gap : Text) : Prop where
  blank : ∀ c ∈ gap, isSpace c = true
  head : ∀ c ∈ gap.head?, c = '\n'

theorem isGap_itemStart (style : Style) (level : Nat) : IsGap (style.itemStart level) := by
  rw [Style.itemStart]
  split
  · constructor <;> rintro _ ⟨⟩
  · refine ⟨fun c hc => ?_, fun c hc => (Option.some.inj hc).symm⟩
    rcases List.mem_cons.mp hc with rfl | hc
    · rfl
    · rw [List.eq_of_mem_replicate hc]
      rfl

theorem exists_separator (style : Style) (level : Nat) :
    ∃ gap, style.separator level = ',' :: gap ∧ ∀ c ∈ gap, isSpace c = true := by
  rw [Style.separator]
  split
  · exact ⟨[' '], rfl, by simp [isSpace]⟩
  · exact ⟨_, rfl, (isGap_itemStart style level).blank⟩

theorem skipSpace_append {gap : Text} (hgap : ∀ c ∈ gap, isSpace c = true) (text : Text)
    (htext : ∀ c ∈ text.head?, isSpace c = false) : skipSpace (gap ++ text) = text := by
  rw [skipSpace, List.dropWhile_append_of_pos hgap]
  cases text with
  | nil => rfl
  | cons c text =>
    have hc : ¬ isSpace c = true := by
      rw [htext c rfl]
      exact Bool.false_ne_true
    exact List.dropWhile_cons_of_neg hc

/-- The text behind a value: the end of the document, or of the value that it is part of, or the
next part. -/
def EndsValue (rest : Text) : Prop :=
  ∀ c ∈ rest.head?, c = ',' ∨ c = ']' ∨ c = '\x7d' ∨ c = '\n'

theorem EndsValue.endsNumber {rest : Text} (h : EndsValue rest) : EndsNumber rest := by
  intro c hc
  rcases h c hc with rfl | rfl | rfl | rfl <;> decide

theorem IsGap.endsValue {gap rest : Text} (h : IsGap gap) (hrest : EndsValue rest) :
    EndsValue (gap ++ rest) := by
  cases gap with
  | nil => exact hrest
  | cons c gap =>
    rintro _ ⟨⟩
    exact .inr (.inr (.inr (h.head c rfl)))

/-! ### What a value starts with -/

theorem plain_ne {c : Char} (h : c.isAlphanum ∨ c = '-') :
    c ≠ '"' ∧ c ≠ '[' ∧ c ≠ '\x7b' ∧ c ≠ ']' ∧ c ≠ '\ufeff' ∧ isSpace c = false := by
  have hne : ∀ d : Char, ¬ (d.isAlphanum ∨ d = '-') → c ≠ d := by
    rintro d hd rfl
    exact hd h
  refine ⟨hne _ (by decide), hne _ (by decide), hne _ (by decide), hne _ (by decide),
    hne _ (by decide), ?_⟩
  rw [Bool.eq_false_iff]
  intro hspace
  simp only [isSpace, Bool.or_eq_true, beq_iff_eq] at hspace
  rcases hspace with ((hc | hc) | hc) | hc <;> exact hne _ (by decide) hc

/-- A value starts with neither a blank, the end of an array nor a byte order mark. -/
theorem exists_writeAt_cons (style : Style) (level : Nat) (value : Json) :
    ∃ c rest, writeAt style level value = c :: rest ∧
      isSpace c = false ∧ c ≠ ']' ∧ c ≠ '\ufeff' := by
  match value with
  | null => exact ⟨_, _, rfl, rfl, by decide, by decide⟩
  | bool true => exact ⟨_, _, rfl, rfl, by decide, by decide⟩
  | bool false => exact ⟨_, _, rfl, rfl, by decide, by decide⟩
  | string units => exact ⟨_, _, rfl, rfl, by decide, by decide⟩
  | array [] => exact ⟨_, _, rfl, rfl, by decide, by decide⟩
  | array (item :: items) => exact ⟨_, _, rfl, rfl, by decide, by decide⟩
  | object [] => exact ⟨_, _, rfl, rfl, by decide, by decide⟩
  | object ((key, value) :: members) => exact ⟨_, _, rfl, rfl, by decide, by decide⟩
  | number n =>
    obtain ⟨c, rest, htext, hc⟩ := startsScalar_writeNumber n
    obtain ⟨-, -, -, hbracket, hmark, hspace⟩ := plain_ne hc
    exact ⟨c, rest, by rw [writeAt, htext], hspace, hbracket, hmark⟩

theorem length_writeAt_pos (style : Style) (level : Nat) (value : Json) :
    0 < (writeAt style level value).length := by
  obtain ⟨c, rest, h, -⟩ := exists_writeAt_cons style level value
  rw [h]
  exact Nat.succ_pos _

/-! ### Reading the parts of a value -/

section

variable {style : Style}

/-- Wherever the value is written, it is read back by all who go as deep, and the text behind it is
left. -/
def ReadsBack (style : Style) (value : Json) : Prop :=
  ∀ levels level depth rest, value.FitsIn levels → EndsValue rest →
    2 * (writeAt style level value).length ≤ depth →
    readValue levels depth (writeAt style level value ++ rest) = .ok (value, rest)

/-- Reads a value that is a word or a number. -/
def readScalar (text : Text) : Except Refusal (Json × Text) :=
  match readWord? text with
  | some found => .ok found
  | none =>
    match readNumber? text with
    | some (n, rest) => .ok (.number n, rest)
    | none => .error ⟨.value, text⟩

theorem readValue_scalar {text : Text} (h : StartsScalar text) (levels : Option Nat)
    (depth : Nat) : readValue levels (depth + 1) text = readScalar text := by
  obtain ⟨c, rest, rfl, hc⟩ := h
  obtain ⟨hquote, hbracket, hbrace, -⟩ := plain_ne hc
  rw [readValue]
  · rfl
  · rintro rest ⟨⟩
    exact hquote rfl
  · rintro rest ⟨⟩
    exact hbracket rfl
  · rintro rest ⟨⟩
    exact hbrace rfl

/-- Every value takes a step to read. -/
theorem exists_depth {level depth : Nat} {value : Json}
    (h : 2 * (writeAt style level value).length ≤ depth) : ∃ d, depth = d + 1 :=
  Nat.exists_eq_add_one_of_ne_zero (by have := length_writeAt_pos style level value; omega)

theorem readsBack_number (n : Number) : ReadsBack style (number n) := by
  intro levels level depth rest hfits hrest hdepth
  obtain ⟨depth, rfl⟩ := exists_depth hdepth
  have hstart : StartsScalar (n.write Number.document ++ rest) := by
    obtain ⟨c, tail, htext, hc⟩ := startsScalar_writeNumber n
    exact ⟨c, tail ++ rest, by rw [htext, List.cons_append], hc⟩
  rw [writeAt, readValue_scalar hstart, readScalar]
  rcases read_writeNumber n hrest.endsNumber with hword | ⟨hword, hnumber⟩
  · rw [hword]
  · rw [hword, hnumber]

theorem readsBack_string (units : Utf16) : ReadsBack style (string units) := by
  intro levels level depth rest hfits hrest hdepth
  obtain ⟨depth, rfl⟩ := exists_depth hdepth
  obtain ⟨body, htext, hbody⟩ := readUnits_writeString style.charset units rest
  rw [writeAt, htext, readValue, hbody]
  rfl

/-- The items of an array, from the first on, are read back up to the closing bracket. -/
theorem readItems_writeItems {levels : Option Nat} {level : Nat} {gap : Text} (hgap : IsGap gap)
    {item : Json} {items : List Json} (hitem : ReadsBack style item)
    (hitems : ∀ i ∈ items, ReadsBack style i) (hfit : item.FitsIn levels)
    (hfits : ∀ i ∈ items, i.FitsIn levels) {depth : Nat}
    (hdepth : 2 * (writeAt style level item ++ writeItems style level items).length < depth)
    (rest : Text) :
    readItems levels depth (writeAt style level item ++ (writeItems style level items ++
      (gap ++ ']' :: rest))) = .ok (item :: items, rest) := by
  obtain ⟨depth, rfl⟩ := Nat.exists_eq_add_one_of_ne_zero (Nat.ne_of_gt (Nat.zero_lt_of_lt hdepth))
  rw [List.length_append] at hdepth
  induction items generalizing item depth with
  | nil =>
    have hread := hitem levels level depth (gap ++ ']' :: rest) hfit
      (hgap.endsValue (by rintro _ ⟨⟩; simp)) (by omega)
    have hskip := skipSpace_append hgap.blank (']' :: rest) (by rintro _ ⟨⟩; rfl)
    rw [writeItems, List.nil_append, readItems, hread]
    simp only [bind, Except.bind, hskip]
  | cons next items ih =>
    obtain ⟨sep, hsep, hblank⟩ := exists_separator style level
    obtain ⟨c, tail, hnext, hspace, -⟩ := exists_writeAt_cons style level next
    rw [List.forall_mem_cons] at hitems hfits
    rw [writeItems, hsep] at hdepth ⊢
    simp only [List.length_append, List.length_cons] at hdepth
    obtain ⟨depth, rfl⟩ := Nat.exists_eq_add_one_of_ne_zero (show depth ≠ 0 by omega)
    have hread := hitem levels level (depth + 1) ((',' :: sep ++ writeAt style level next ++
      writeItems style level items) ++ (gap ++ ']' :: rest)) hfit (by rintro _ ⟨⟩; simp) (by omega)
    have hskip := skipSpace_append hblank (writeAt style level next ++
      (writeItems style level items ++ (gap ++ ']' :: rest)))
      (by rw [hnext]; rintro _ ⟨⟩; exact hspace)
    have hmore := ih hitems.1 hitems.2 hfits.1 hfits.2 depth (by omega)
    rw [readItems, hread]
    simp only [bind, Except.bind, List.cons_append, List.append_assoc]
    rw [skipSpace, List.dropWhile_cons_of_neg (by decide)]
    simp only [hskip, hmore]
    rfl

/-- Reads what follows a member. -/
def readFurther (levels : Option Nat) (depth : Nat) (member : Utf16 × Json) (text : Text) :
    Except Refusal (List (Utf16 × Json) × Text) :=
  match skipSpace text with
  | '\x7d' :: rest => .ok ([member], rest)
  | ',' :: rest =>
    (readMembers levels depth (skipSpace rest)).map fun (members, rest) =>
      (member :: members, rest)
  | rest => .error ⟨.comma, rest⟩

/-- Reading members goes on behind the first of them. -/
theorem readMembers_first {levels : Option Nat} {level depth : Nat} {value : Json} {after : Text}
    (key : Utf16)
    (hread : readValue levels depth (writeAt style level value ++ after) = .ok (value, after)) :
    readMembers levels (depth + 1) (writeString style.charset key ++ ':' :: ' ' ::
        (writeAt style level value ++ after)) = readFurther levels depth (key, value) after := by
  obtain ⟨c, tail, hvalue, hspace, -⟩ := exists_writeAt_cons style level value
  have hskip : skipSpace (' ' :: (writeAt style level value ++ after)) =
      writeAt style level value ++ after :=
    skipSpace_append (show ∀ c ∈ [' '], isSpace c = true by simp [isSpace]) _
      (by rw [hvalue]; rintro _ ⟨⟩; exact hspace)
  obtain ⟨body, htext, hbody⟩ := readUnits_writeString style.charset key
    (':' :: ' ' :: (writeAt style level value ++ after))
  rw [htext, readMembers, hbody]
  simp only [bind, Except.bind]
  rw [skipSpace, List.dropWhile_cons_of_neg (by decide)]
  simp only [hskip, hread]
  rfl

/-- The members of an object, from the first on, are read back up to the closing brace. -/
theorem readMembers_writeMembers {levels : Option Nat} {level : Nat} {gap : Text}
    (hgap : IsGap gap) (key : Utf16) {value : Json} {members : Members}
    (hvalue : ReadsBack style value) (hmembers : ∀ m ∈ members, ReadsBack style m.2)
    (hfit : value.FitsIn levels) (hfits : ∀ m ∈ members, m.2.FitsIn levels) {depth : Nat}
    (hdepth : 2 * (writeAt style level value ++ writeMembers style level members).length < depth)
    (rest : Text) :
    readMembers levels depth (writeString style.charset key ++ ':' :: ' ' ::
      (writeAt style level value ++ (writeMembers style level members ++
        (gap ++ '\x7d' :: rest)))) =
        .ok ((key, value) :: members, rest) := by
  obtain ⟨depth, rfl⟩ :=
    Nat.exists_eq_add_one_of_ne_zero (Nat.ne_of_gt (Nat.zero_lt_of_lt hdepth))
  rw [List.length_append] at hdepth
  induction members generalizing key value depth with
  | nil =>
    have hread := hvalue levels level depth (gap ++ '\x7d' :: rest) hfit
      (hgap.endsValue (by rintro _ ⟨⟩; simp)) (by omega)
    have hskip := skipSpace_append hgap.blank ('\x7d' :: rest) (by rintro _ ⟨⟩; rfl)
    rw [writeMembers, List.nil_append, readMembers_first key hread, readFurther, hskip]
    rfl
  | cons next members ih =>
    obtain ⟨nextKey, nextValue⟩ := next
    obtain ⟨sep, hsep, hblank⟩ := exists_separator style level
    rw [List.forall_mem_cons] at hmembers hfits
    have hnext : ReadsBack style nextValue := hmembers.1
    rw [writeMembers, hsep] at hdepth ⊢
    simp only [List.length_append, List.length_cons] at hdepth
    obtain ⟨depth, rfl⟩ := Nat.exists_eq_add_one_of_ne_zero (show depth ≠ 0 by omega)
    have hread := hvalue levels level (depth + 1) ((',' :: sep ++
      writeString style.charset nextKey ++ [':', ' '] ++ writeAt style level nextValue ++
        writeMembers style level members) ++ (gap ++ '\x7d' :: rest)) hfit
          (by rintro _ ⟨⟩; simp) (by omega)
    have hskip := skipSpace_append hblank (writeString style.charset nextKey ++ ':' :: ' ' ::
      (writeAt style level nextValue ++ (writeMembers style level members ++
        (gap ++ '\x7d' :: rest)))) (by rintro _ ⟨⟩; rfl)
    have hmore := ih nextKey hnext hmembers.2 hfits.1 hfits.2 depth (by omega)
    rw [readMembers_first key hread, readFurther]
    simp only [List.cons_append, List.append_assoc, List.nil_append]
    rw [skipSpace, List.dropWhile_cons_of_neg (by decide)]
    simp only [hskip, hmore]
    rfl

theorem readsBack_array {items : List Json} (h : ∀ item ∈ items, ReadsBack style item) :
    ReadsBack style (array items) := by
  intro levels level depth rest hfits hrest hdepth
  obtain ⟨depth, rfl⟩ := exists_depth hdepth
  cases hfits with | array hlevels hfits =>
  cases items with
  | nil =>
    rw [writeAt, List.cons_append, readValue, if_neg hlevels]
    rfl
  | cons item items =>
    rw [List.forall_mem_cons] at h hfits
    obtain ⟨c, tail, hitem, hspace, hbracket, -⟩ := exists_writeAt_cons style (level + 1) item
    rw [writeAt] at hdepth ⊢
    simp only [List.length_append, List.length_cons] at hdepth
    have hdepth' : 2 * (writeAt style (level + 1) item ++
        writeItems style (level + 1) items).length < depth := by
      rw [List.length_append]
      omega
    have hread := readItems_writeItems (isGap_itemStart style level) h.1 h.2 hfits.1 hfits.2
      hdepth' rest
    have hskip := skipSpace_append (isGap_itemStart style (level + 1)).blank
      (writeAt style (level + 1) item ++ (writeItems style (level + 1) items ++
        (style.itemStart level ++ ']' :: rest))) (by rw [hitem]; rintro _ ⟨⟩; exact hspace)
    rw [hitem] at hread hskip ⊢
    simp only [List.cons_append, List.append_assoc, List.nil_append] at hread hskip ⊢
    rw [readValue, if_neg hlevels, hskip]
    split
    case h_1 heq =>
      cases heq
      exact absurd rfl hbracket
    case h_2 =>
      rw [hread]
      rfl

theorem readsBack_object {members : Members} (hkeys : members.keys.Nodup)
    (h : ∀ member ∈ members, ReadsBack style member.2) : ReadsBack style (object members) := by
  intro levels level depth rest hfits hrest hdepth
  obtain ⟨depth, rfl⟩ := exists_depth hdepth
  cases hfits with | object hlevels hfits =>
  cases members with
  | nil =>
    rw [writeAt, List.cons_append, readValue, if_neg hlevels]
    rfl
  | cons member members =>
    obtain ⟨key, value⟩ := member
    rw [List.forall_mem_cons] at h hfits
    have hvalue : ReadsBack style value := h.1
    rw [writeAt] at hdepth ⊢
    simp only [List.length_append, List.length_cons] at hdepth
    have hdepth' : 2 * (writeAt style (level + 1) value ++
        writeMembers style (level + 1) members).length < depth := by
      rw [List.length_append]
      omega
    have hread := readMembers_writeMembers (isGap_itemStart style level) key hvalue h.2 hfits.1
      hfits.2 hdepth' rest
    have hskip := skipSpace_append (isGap_itemStart style (level + 1)).blank
      (writeString style.charset key ++ ':' :: ' ' :: (writeAt style (level + 1) value ++
        (writeMembers style (level + 1) members ++ (style.itemStart level ++ '\x7d' :: rest))))
      (by rintro _ ⟨⟩; rfl)
    simp only [List.cons_append, List.append_assoc, List.nil_append]
    rw [readValue, if_neg hlevels, hskip]
    split
    case h_1 heq => cases heq
    case h_2 =>
      rw [hread]
      simp only [Except.map, Members.ofList_of_nodup hkeys]

/-- Every value whose objects have distinct keys is read back. -/
theorem Keyed.readsBack (style : Style) {value : Json} (h : Keyed value) :
    ReadsBack style value := by
  induction h with
  | null =>
    intro levels level depth rest hfits hrest hdepth
    obtain ⟨depth, rfl⟩ := exists_depth hdepth
    rfl
  | bool b =>
    intro levels level depth rest hfits hrest hdepth
    obtain ⟨depth, rfl⟩ := exists_depth hdepth
    cases b <;> rfl
  | number n => exact readsBack_number n
  | string units => exact readsBack_string units
  | array _ ih => exact readsBack_array ih
  | object hkeys _ ih => exact readsBack_object hkeys ih

end

/-- Reading undoes writing, in every style, if the reader goes as deep as the value is nested. -/
theorem read_writeAt_within (style : Style) {levels : Option Nat} {value : Json}
    (h : Readable levels value) : read (writeAt style 0 value) levels = .ok value := by
  obtain ⟨c, tail, htext, hspace, -, hmark⟩ := exists_writeAt_cons style 0 value
  have hskip : skipSpace (writeAt style 0 value) = writeAt style 0 value :=
    skipSpace_append (show ∀ c ∈ ([] : Text), isSpace c = true from nofun) _
      (by rw [htext]; rintro _ ⟨⟩; exact hspace)
  have hhead : (writeAt style 0 value).head? ≠ some '\ufeff' := by
    rw [htext, List.head?_cons, ne_eq, Option.some.injEq]
    exact hmark
  have hread := h.keyed.readsBack style levels 0 (2 * (writeAt style 0 value).length + 2) [] h.fits
    nofun (Nat.le_add_right _ _)
  rw [List.append_nil] at hread
  rw [read, readDocument, if_neg hhead, hskip, hread]
  rfl

/-- Without a limit, reading undoes writing, in every style. -/
theorem read_writeAt (style : Style) {value : Json} (h : Keyed value) :
    read (writeAt style 0 value) = .ok value :=
  read_writeAt_within style ⟨h, fitsIn_none value⟩

end NamespaceMerge.Json
