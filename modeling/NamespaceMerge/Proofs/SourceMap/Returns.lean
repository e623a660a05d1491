import NamespaceMerge.Proofs.SourceMap.Reference
import NamespaceMerge.Proofs.Text.Returns
import NamespaceMerge.SourceMap.Recovery

/-! References in a text whose lines end with a carriage return and a newline. No reference line
holds a carriage return (`return_notMem_of_referenceValue?`), so only the last line of such a text
can be one (`not_isReference_withReturns`). A text keeps its references under this change of line
ends exactly if none stands in front of its last line (`keepsReferences_iff`). -/

namespace NamespaceMerge.SourceMap

/-! ### A reference line holds no carriage return -/

theorem return_mem_skipSpaces {text : Text} : '\r' ∈ skipSpaces text ↔ '\r' ∈ text := by
  have hspaces : '\r' ∉ text.takeWhile isSpaceOrTab := fun h =>
    absurd (List.mem_takeWhile_imp h) (by decide)
  conv_rhs => rw [← List.takeWhile_append_dropWhile (p := isSpaceOrTab) (l := text)]
  rw [List.mem_append, or_iff_right hspaces, skipSpaces]

theorem return_mem_afterKeyword? {text rest : Text} (h : afterKeyword? text = some rest) :
    '\r' ∈ rest ↔ '\r' ∈ text := by
  cases text with
  | nil => cases h
  | cons c text =>
    rw [afterKeyword?] at h
    split at h
    · next hc =>
      have htext : skipSpaces text = "sourceMappingURL=".toList ++ rest :=
        Text.dropStart?_eq_some_iff.mp h
      have hmem : '\r' ∈ text ↔ '\r' ∈ rest := by
        rw [← return_mem_skipSpaces, htext, List.mem_append, or_iff_right (by decide)]
      have hne : '\r' ≠ c := by rcases hc with rfl | rfl <;> decide
      rw [List.mem_cons, or_iff_right hne, hmem]
    · cases h

/-- What is read up to a place, and nothing but spaces from there on. -/
theorem return_notMem_of_span {p : Char → Bool} (hp : p '\r' = false) {text : Text}
    (h : '\r' ∉ skipSpaces (text.dropWhile p)) : '\r' ∉ text := by
  have hfront : '\r' ∉ text.takeWhile p := fun hmem => by
    rw [List.mem_takeWhile_imp hmem] at hp
    cases hp
  rw [return_mem_skipSpaces] at h
  rw [← List.takeWhile_append_dropWhile (p := p) (l := text), List.mem_append, not_or]
  exact ⟨hfront, h⟩

theorem return_notMem_of_lineValue? {text value : Text} (h : lineValue? text = some value) :
    '\r' ∉ text := by
  simp only [lineValue?, List.span_eq_takeWhile_dropWhile] at h
  split at h
  · next hends =>
    have hrest : skipSpaces (text.dropWhile (!isBlank ·)) = [] := by
      simpa using (Bool.and_eq_true_iff.mp hends).2
    refine return_notMem_of_span (p := (!isBlank ·)) (by decide) ?_
    rw [hrest]
    exact List.not_mem_nil
  · cases h

theorem return_notMem_of_blockValue? {text value : Text} (h : blockValue? text = some value) :
    '\r' ∉ text := by
  simp only [blockValue?, List.span_eq_takeWhile_dropWhile] at h
  split at h
  · next rest hclosed =>
    split at h
    · next hends =>
      have hrest : '\r' ∉ rest := by
        rw [← return_mem_skipSpaces, List.isEmpty_iff.mp (Bool.and_eq_true_iff.mp hends).2]
        exact List.not_mem_nil
      refine return_notMem_of_span (p := fun c => !isBlank c && c != '*') (by decide) ?_
      simp [hclosed, hrest]
    · cases h
  · cases h

theorem return_notMem_of_referenceValue? {line value : Text}
    (h : referenceValue? line = some value) : '\r' ∉ line := by
  rw [← return_mem_skipSpaces]
  rw [referenceValue?] at h
  split at h
  · next rest hopen =>
    obtain ⟨text, hkeyword, hvalue⟩ := Option.bind_eq_some_iff.mp h
    have hrest := (return_mem_afterKeyword? hkeyword).not.mp (return_notMem_of_lineValue? hvalue)
    simp [hopen, hrest]
  · next rest hopen =>
    obtain ⟨text, hkeyword, hvalue⟩ := Option.bind_eq_some_iff.mp h
    have hrest := (return_mem_afterKeyword? hkeyword).not.mp (return_notMem_of_blockValue? hvalue)
    simp [hopen, hrest]
  · cases h

theorem referenceValue?_append_return (line : Text) : referenceValue? (line ++ ['\r']) = none := by
  rw [Option.eq_none_iff_forall_ne_some]
  intro value h
  exact return_notMem_of_referenceValue? h (by simp)

theorem isReference_append_return (line : Text) : isReference (line ++ ['\r']) = false := by
  rw [isReference, referenceValue?_append_return, Option.isSome_none]

/-! ### What is found and what is stripped -/

/-- If no other line is a reference, the last one decides. -/
theorem findReference_of_dropLast {text : Text}
    (h : ∀ line ∈ text.lines.dropLast, isReference line = false) :
    findReference text = text.lines.getLast?.bind referenceValue? := by
  obtain ⟨front, last, hlines⟩ : ∃ front last, text.lines = front ++ [last] :=
    ⟨_, _, (List.dropLast_concat_getLast (Text.splitAll_ne_nil _ _)).symm⟩
  rw [hlines, List.dropLast_concat] at h
  have hfront : front.filterMap referenceValue? = [] := by
    rw [List.filterMap_eq_nil_iff]
    intro line hline
    simpa [isReference] using h line hline
  rw [findReference, hlines, List.filterMap_append, hfront, List.getLast?_concat,
    List.nil_append, Option.bind_some]
  cases hlast : referenceValue? last <;> simp [hlast]

/-- With carriage returns no line but the last is a reference. -/
theorem not_isReference_withReturns (text : Text) :
    ∀ line ∈ (Text.withReturns text).lines.dropLast, isReference line = false := by
  intro line hline
  rw [Text.lines_withReturns, Text.dropLast_returned] at hline
  obtain ⟨part, -, rfl⟩ := List.mem_map.mp hline
  exact isReference_append_return part

theorem findReference_withReturns (text : Text) :
    findReference (Text.withReturns text) = text.lines.getLast?.bind referenceValue? := by
  rw [findReference_of_dropLast (not_isReference_withReturns text), Text.lines_withReturns,
    Text.getLast?_returned]

theorem joinOthers_cons (line : Text) {rest : List Text} (h : rest ≠ []) :
    joinOthers (line :: rest) =
      (if isReference line then [] else line ++ ['\n']) ++ joinOthers rest := by
  rw [joinOthers]
  exact h

/-- A newline is left for each line that is no reference and has one. -/
theorem count_joinOthers {lines : List Text} (h : ∀ line ∈ lines, '\n' ∉ line) :
    (joinOthers lines).count '\n' = lines.dropLast.countP (!isReference ·) := by
  induction lines with
  | nil => rfl
  | cons line rest ih =>
    rw [List.forall_mem_cons] at h
    have hline : line.count '\n' = 0 := List.count_eq_zero.mpr h.1
    cases rest with
    | nil =>
      rw [joinOthers]
      cases isReference line with
      | true => rfl
      | false => exact hline
    | cons next rest =>
      rw [joinOthers_cons _ (List.cons_ne_nil _ _), List.count_append, ih h.2,
        List.dropLast_cons_cons, List.countP_cons]
      cases isReference line with
      | true => simp
      | false => simp [hline, Nat.add_comm]

theorem count_stripReferences (text : Text) :
    (stripReferences text).count '\n' = text.lines.dropLast.countP (!isReference ·) :=
  count_joinOthers fun _ => newline_notMem_of_mem_lines

/-- With carriage returns all newlines are left. -/
theorem count_stripReferences_withReturns (text : Text) :
    (stripReferences (Text.withReturns text)).count '\n' = text.lines.dropLast.length := by
  rw [count_stripReferences, List.countP_eq_length.mpr, Text.lines_withReturns,
    Text.dropLast_returned, List.length_map]
  intro line hline
  rw [not_isReference_withReturns text line hline, Bool.not_false]

theorem joinOthers_concat {front : List Text} (h : ∀ line ∈ front, isReference line = false)
    (last : Text) :
    joinOthers (front ++ [last]) =
      Text.join ['\n'] (front ++ [if isReference last then [] else last]) := by
  induction front with
  | nil => rw [List.nil_append, List.nil_append, joinOthers, Text.join_singleton]
  | cons line front ih =>
    rw [List.forall_mem_cons] at h
    rw [List.cons_append, joinOthers_cons _ (by simp), h.1, if_neg Bool.false_ne_true, ih h.2,
      List.cons_append, Text.join_cons _ _ (by simp), List.append_assoc]

/-- If no other line is a reference, the last one is stripped with and without carriage returns. -/
theorem stripReferences_withReturns {text : Text}
    (h : ∀ line ∈ text.lines.dropLast, isReference line = false) :
    stripReferences (Text.withReturns text) = Text.withReturns (stripReferences text) := by
  have hne : text.lines ≠ [] := Text.splitAll_ne_nil _ _
  obtain ⟨front, last, hlines⟩ : ∃ front last, text.lines = front ++ [last] :=
    ⟨_, _, (List.dropLast_concat_getLast hne).symm⟩
  have hnewline : ∀ line ∈ front ++ [last], '\n' ∉ line := fun line hline =>
    newline_notMem_of_mem_lines (hlines ▸ hline)
  rw [hlines, List.dropLast_concat] at h
  have hreturns := not_isReference_withReturns text
  rw [Text.lines_withReturns, hlines, Text.returned_concat, List.dropLast_concat] at hreturns
  have hkept : ∀ line ∈ front ++ [if isReference last then [] else last], '\n' ∉ line := by
    rw [List.forall_mem_append] at hnewline ⊢
    refine ⟨hnewline.1, ?_⟩
    intro line hline
    rw [List.mem_singleton.mp hline]
    split
    · exact List.not_mem_nil
    · exact hnewline.2 last List.mem_cons_self
  rw [stripReferences, Text.lines_withReturns, hlines, Text.returned_concat,
    joinOthers_concat hreturns, stripReferences, hlines, joinOthers_concat h,
    Text.withReturns_join hkept, Text.returned_concat]

/-! ### The texts whose references do not depend on the line ends -/

/-- With a carriage return in front of every newline the same reference is found and read, and
the same text is left without the references. -/
structure KeepsReferences (text : Text) : Prop where
  found : findReference (Text.withReturns text) = findReference text
  classified : Reference.ofText (Text.withReturns text) = Reference.ofText text
  stripped : stripReferences (Text.withReturns text) = Text.withReturns (stripReferences text)

/-- References in front of the last line are lost with carriage returns, and no others. -/
theorem keepsReferences_iff (text : Text) :
    KeepsReferences text ↔ ∀ line ∈ text.lines.dropLast, isReference line = false := by
  constructor
  · intro h
    have hcount := congrArg (List.count '\n') h.stripped
    rw [count_stripReferences_withReturns, Text.count_withReturns (by decide),
      count_stripReferences] at hcount
    intro line hline
    simpa using List.countP_eq_length.mp hcount.symm line hline
  · intro h
    have hfound : findReference (Text.withReturns text) = findReference text := by
      rw [findReference_withReturns, findReference_of_dropLast h]
    exact {
      found := hfound
      classified := by rw [Reference.ofText, hfound, Reference.ofText]
      stripped := stripReferences_withReturns h }

/-- A script of two lines, the second of them a reference that ends with a newline. -/
def referring : Text := "var a;\n//# sourceMappingURL=a.js.map\n".toList

/-- Its reference is lost with carriage returns. -/
theorem not_keepsReferences_referring : '\r' ∉ referring ∧ ¬ KeepsReferences referring := by
  refine ⟨by decide, fun h => ?_⟩
  have hlost : findReference (Text.withReturns referring) ≠ findReference referring := by
    decide +kernel
  exact hlost h.found

end NamespaceMerge.SourceMap
