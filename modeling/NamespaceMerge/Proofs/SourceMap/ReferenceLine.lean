import NamespaceMerge.Proofs.SourceMap.Returns

/-! Reference lines by their grammar: spaces, the opening of a comment, a lead up to the value, the
value, and spaces, with the closing of the comment among them in a block comment
(`ReferenceLine`). The values that are read are those of the grammar
(`referenceValue?_eq_some_iff`). -/

namespace NamespaceMerge.SourceMap

def Spaces (text : Text) : Prop := ∀ c ∈ text, isSpaceOrTab c = true

/-- What stands between the opening of a comment and the value. -/
inductive IsLead : Text → Prop
  | mk {mark : Char} {spaces : Text} (isMark : mark = '#' ∨ mark = '@') (isSpaces : Spaces spaces) :
    IsLead (mark :: (spaces ++ "sourceMappingURL=".toList))

/-- A line that is a reference, and its value. -/
inductive ReferenceLine : Text → Text → Prop
  | line {indent lead value after : Text} (hindent : Spaces indent) (hlead : IsLead lead)
      (hvalue : IsValue value) (hafter : Spaces after) :
    ReferenceLine (indent ++ '/' :: '/' :: (lead ++ (value ++ after))) value
  | block {indent lead value inside after : Text} (hindent : Spaces indent) (hlead : IsLead lead)
      (hvalue : IsValue value) (hstar : '*' ∉ value) (hinside : Spaces inside)
      (hafter : Spaces after) :
    ReferenceLine (indent ++ '/' :: '*' :: (lead ++ (value ++ (inside ++ '*' :: '/' :: after))))
      value

/-! ### Reading the parts of a line -/

section Span

variable {p : Char → Bool} {a b : Text}

theorem takeWhile_append_of_head? (ha : ∀ c ∈ a, p c = true) (hb : ∀ c ∈ b.head?, p c = false) :
    (a ++ b).takeWhile p = a := by
  rw [List.takeWhile_append_of_pos ha]
  cases b with
  | nil => exact List.append_nil a
  | cons c b => simp [hb c rfl]

theorem dropWhile_append_of_head? (ha : ∀ c ∈ a, p c = true) (hb : ∀ c ∈ b.head?, p c = false) :
    (a ++ b).dropWhile p = b := by
  rw [List.dropWhile_append_of_pos ha]
  cases b with
  | nil => rfl
  | cons c b => simp [hb c rfl]

end Span

theorem spaces_takeWhile (text : Text) : Spaces (text.takeWhile isSpaceOrTab) :=
  fun _ => List.mem_takeWhile_imp

theorem skipSpaces_eq_nil_iff {text : Text} : skipSpaces text = [] ↔ Spaces text :=
  List.dropWhile_eq_nil_iff

theorem isBlank_of_isSpaceOrTab {c : Char} (h : isSpaceOrTab c = true) : isBlank c = true := by
  rcases (by simpa [isSpaceOrTab] using h : c = ' ' ∨ c = '\t') with rfl | rfl <;> rfl

theorem afterKeyword?_eq_some_iff {text rest : Text} :
    afterKeyword? text = some rest ↔ ∃ lead, IsLead lead ∧ text = lead ++ rest := by
  constructor
  · intro h
    cases text with
    | nil => cases h
    | cons mark text =>
      rw [afterKeyword?] at h
      split at h
      · next hmark =>
        have hkeyword : skipSpaces text = "sourceMappingURL=".toList ++ rest :=
          Text.dropStart?_eq_some_iff.mp h
        refine ⟨_, .mk hmark (spaces_takeWhile text), ?_⟩
        rw [List.cons_append, List.append_assoc, ← hkeyword, skipSpaces,
          List.takeWhile_append_dropWhile]
      · cases h
  · rintro ⟨lead, ⟨hmark, hspaces⟩, rfl⟩
    rw [List.cons_append, List.append_assoc, afterKeyword?, if_pos hmark, skipSpaces,
      dropWhile_append_of_head? hspaces]
    · exact Text.dropStart?_eq_some_iff.mpr rfl
    · rintro c ⟨⟩
      rfl

theorem lineValue?_eq_some_iff {text value : Text} :
    lineValue? text = some value ↔
      IsValue value ∧ ∃ after, Spaces after ∧ text = value ++ after := by
  simp only [lineValue?, List.span_eq_takeWhile_dropWhile, Option.ite_none_right_eq_some,
    Bool.and_eq_true, Bool.not_eq_true', List.isEmpty_eq_false_iff, List.isEmpty_iff,
    skipSpaces_eq_nil_iff, Option.some.injEq]
  constructor
  · rintro ⟨⟨hne, hafter⟩, rfl⟩
    refine ⟨⟨hne, fun c hc => ?_⟩, _, hafter, List.takeWhile_append_dropWhile.symm⟩
    simpa using List.mem_takeWhile_imp hc
  · rintro ⟨hvalue, after, hafter, rfl⟩
    have hall : ∀ c ∈ value, (!isBlank c) = true := fun c hc => by rw [hvalue.noBlank c hc]; rfl
    have hhead : ∀ c ∈ after.head?, (!isBlank c) = false := fun c hc => by
      rw [isBlank_of_isSpaceOrTab (hafter c (List.mem_of_mem_head? hc))]
      rfl
    rw [takeWhile_append_of_head? hall hhead, dropWhile_append_of_head? hall hhead]
    exact ⟨⟨hvalue.ne_nil, hafter⟩, rfl⟩

theorem blockValue?_eq_some_iff {text value : Text} :
    blockValue? text = some value ↔ IsValue value ∧ '*' ∉ value ∧
      ∃ inside after, Spaces inside ∧ Spaces after ∧
        text = value ++ (inside ++ '*' :: '/' :: after) := by
  simp only [blockValue?, List.span_eq_takeWhile_dropWhile]
  constructor
  · intro h
    split at h
    · next rest hclosed =>
      simp only [Option.ite_none_right_eq_some, Bool.and_eq_true, Bool.not_eq_true',
        List.isEmpty_eq_false_iff, List.isEmpty_iff, skipSpaces_eq_nil_iff,
        Option.some.injEq] at h
      obtain ⟨⟨hne, hafter⟩, rfl⟩ := h
      have hall : ∀ c ∈ text.takeWhile (fun c => !isBlank c && c != '*'),
          isBlank c = false ∧ c ≠ '*' := fun c hc => by simpa using List.mem_takeWhile_imp hc
      have hspaces := spaces_takeWhile (text.dropWhile fun c => !isBlank c && c != '*')
      refine ⟨⟨hne, fun c hc => (hall c hc).1⟩, fun hstar => (hall _ hstar).2 rfl, _, rest,
        hspaces, hafter, ?_⟩
      rw [← hclosed, skipSpaces, List.takeWhile_append_dropWhile,
        List.takeWhile_append_dropWhile]
    · cases h
  · rintro ⟨hvalue, hstar, inside, after, hinside, hafter, rfl⟩
    have hall : ∀ c ∈ value, (!isBlank c && c != '*') = true := fun c hc => by
      rw [hvalue.noBlank c hc, Bool.not_false, Bool.true_and, bne_iff_ne]
      rintro rfl
      exact hstar hc
    have hhead : ∀ c ∈ (inside ++ '*' :: '/' :: after).head?, (!isBlank c && c != '*') = false := by
      intro c hc
      cases inside with
      | nil =>
        cases hc
        rfl
      | cons d inside =>
        cases hc
        rw [isBlank_of_isSpaceOrTab (hinside c List.mem_cons_self)]
        rfl
    have hclosed : skipSpaces (inside ++ '*' :: '/' :: after) = '*' :: '/' :: after :=
      dropWhile_append_of_head? hinside (by rintro c ⟨⟩; rfl)
    rw [takeWhile_append_of_head? hall hhead, dropWhile_append_of_head? hall hhead, hclosed]
    simp [hvalue.ne_nil, skipSpaces_eq_nil_iff.mpr hafter]

/-- The value of a line is read off exactly if it is a reference line for that value. -/
theorem referenceValue?_eq_some_iff {line value : Text} :
    referenceValue? line = some value ↔ ReferenceLine line value := by
  constructor
  · intro h
    have hindent := spaces_takeWhile line
    have hline : line.takeWhile isSpaceOrTab ++ skipSpaces line = line :=
      List.takeWhile_append_dropWhile
    rw [referenceValue?] at h
    split at h
    · next rest hopen =>
      obtain ⟨text, hkeyword, hread⟩ := Option.bind_eq_some_iff.mp h
      obtain ⟨lead, hlead, rfl⟩ := afterKeyword?_eq_some_iff.mp hkeyword
      obtain ⟨hvalue, after, hafter, rfl⟩ := lineValue?_eq_some_iff.mp hread
      rw [← hline, hopen]
      exact .line hindent hlead hvalue hafter
    · next rest hopen =>
      obtain ⟨text, hkeyword, hread⟩ := Option.bind_eq_some_iff.mp h
      obtain ⟨lead, hlead, rfl⟩ := afterKeyword?_eq_some_iff.mp hkeyword
      obtain ⟨hvalue, hstar, inside, after, hinside, hafter, rfl⟩ :=
        blockValue?_eq_some_iff.mp hread
      rw [← hline, hopen]
      exact .block hindent hlead hvalue hstar hinside hafter
    · cases h
  · have hskip : ∀ {indent rest : Text}, Spaces indent →
        skipSpaces (indent ++ '/' :: rest) = '/' :: rest := fun hindent =>
      dropWhile_append_of_head? hindent (by rintro c ⟨⟩; rfl)
    intro h
    cases h with
    | @line indent lead value after hindent hlead hvalue hafter =>
      rw [referenceValue?, hskip hindent]
      exact Option.bind_eq_some_iff.mpr ⟨_, afterKeyword?_eq_some_iff.mpr ⟨lead, hlead, rfl⟩,
        lineValue?_eq_some_iff.mpr ⟨hvalue, after, hafter, rfl⟩⟩
    | @block indent lead value inside after hindent hlead hvalue hstar hinside hafter =>
      rw [referenceValue?, hskip hindent]
      exact Option.bind_eq_some_iff.mpr ⟨_, afterKeyword?_eq_some_iff.mpr ⟨lead, hlead, rfl⟩,
        blockValue?_eq_some_iff.mpr ⟨hvalue, hstar, inside, after, hinside, hafter, rfl⟩⟩

/-! ### Reference lines -/

theorem ReferenceLine.value_unique {line a b : Text} (ha : ReferenceLine line a)
    (hb : ReferenceLine line b) : a = b := by
  rw [← referenceValue?_eq_some_iff] at ha hb
  exact Option.some.inj (ha.symm.trans hb)

def IsReferenceLine (line : Text) : Prop := ∃ value, ReferenceLine line value

theorem isReference_iff {line : Text} : isReference line = true ↔ IsReferenceLine line := by
  simp only [isReference, Option.isSome_iff_exists, referenceValue?_eq_some_iff, IsReferenceLine]

instance : DecidablePred IsReferenceLine := fun _ => decidable_of_iff _ isReference_iff

theorem isReference_eq_false_iff {line : Text} :
    isReference line = false ↔ ¬ IsReferenceLine line := by
  rw [← Bool.not_eq_true, isReference_iff]

theorem referenceValue?_eq_none_iff {line : Text} :
    referenceValue? line = none ↔ ¬ IsReferenceLine line := by
  rw [← isReference_eq_false_iff, isReference, Option.isSome_eq_false_iff,
    Option.isNone_iff_eq_none]

theorem ReferenceLine.ne_nil {line value : Text} (h : ReferenceLine line value) : line ≠ [] := by
  rintro rfl
  rw [← referenceValue?_eq_some_iff] at h
  cases h

theorem Spaces.newline_notMem {text : Text} (h : Spaces text) : '\n' ∉ text := fun hmem =>
  absurd (h _ hmem) (by decide)

theorem IsLead.newline_notMem {lead : Text} (h : IsLead lead) : '\n' ∉ lead := by
  obtain ⟨hmark, hspaces⟩ := h
  have hword : '\n' ∉ "sourceMappingURL=".toList := by decide +kernel
  rw [List.mem_cons, List.mem_append, not_or, not_or]
  exact ⟨by rintro rfl; simp at hmark, hspaces.newline_notMem, hword⟩

theorem IsValue.newline_notMem {value : Text} (h : IsValue value) : '\n' ∉ value := fun hmem =>
  absurd (h.noBlank _ hmem) (by decide)

/-- A reference line is one line. -/
theorem ReferenceLine.newline_notMem {line value : Text} (h : ReferenceLine line value) :
    '\n' ∉ line := by
  cases h with
  | line hindent hlead hvalue hafter =>
    simp [hindent.newline_notMem, hlead.newline_notMem, hvalue.newline_notMem,
      hafter.newline_notMem]
  | block hindent hlead hvalue hstar hinside hafter =>
    simp [hindent.newline_notMem, hlead.newline_notMem, hvalue.newline_notMem,
      hinside.newline_notMem, hafter.newline_notMem]

end NamespaceMerge.SourceMap
