import Mathlib.Data.List.TakeDrop
import Mathlib.Data.List.TakeWhile
import NamespaceMerge.Proofs.Text.Basic
import NamespaceMerge.SourceMap.Reference

/-! The lines of a text and its references. Without its references a text has the lines that are
none, and a last empty one where the text ended with a reference (`lines_stripReferences`); so
stripping leaves no reference, and leaves a text without any as it is. A reference line behind a
text is the one that counts (`findReference_append`). -/

namespace NamespaceMerge.SourceMap

theorem isReference_nil : isReference [] = false := rfl

/-! ### Lines without references -/

theorem lines_append_newline (a b : Text) : Text.lines (a ++ '\n' :: b) = a.lines ++ b.lines :=
  Text.splitAll_append_mark '\n' a b

theorem lines_of_notMem {text : Text} (h : '\n' ∉ text) : text.lines = [text] :=
  Text.splitAll_of_notMem h

theorem newline_notMem_of_mem_lines {text line : Text} (h : line ∈ text.lines) : '\n' ∉ line :=
  Text.notMem_of_mem_splitAll h

/-- What stands behind the last line that is kept: nothing, or an empty line. -/
def tailLines (lines : List Text) : List Text :=
  if lines.getLast?.any isReference then [[]] else []

theorem lines_joinOthers {lines : List Text} (hne : lines ≠ []) (h : ∀ line ∈ lines, '\n' ∉ line) :
    (joinOthers lines).lines = lines.filter (!isReference ·) ++ tailLines lines := by
  induction lines with
  | nil => exact (hne rfl).elim
  | cons line rest ih =>
    rw [List.forall_mem_cons] at h
    cases rest with
    | nil =>
      rw [joinOthers, tailLines]
      cases hline : isReference line with
      | true => simp [hline, Text.lines, Text.splitAll]
      | false => simp [hline, lines_of_notMem h.1]
    | cons next rest =>
      have hlast : tailLines (line :: next :: rest) = tailLines (next :: rest) := by
        rw [tailLines, tailLines, List.getLast?_cons_cons]
      rw [joinOthers, hlast]
      · cases hline : isReference line with
        | true =>
          rw [if_pos rfl, List.nil_append, ih (List.cons_ne_nil _ _) h.2,
            List.filter_cons_of_neg (a := line) (by simp [hline])]
        | false =>
          rw [if_neg Bool.false_ne_true, List.append_assoc, List.singleton_append,
            lines_append_newline, lines_of_notMem h.1, ih (List.cons_ne_nil _ _) h.2,
            List.filter_cons_of_pos (a := line) (by simp [hline])]
          rfl
      · rintro ⟨⟩

/-- Stripping leaves the lines that are no references. -/
theorem lines_stripReferences (text : Text) :
    (stripReferences text).lines = text.lines.filter (!isReference ·) ++ tailLines text.lines :=
  lines_joinOthers (Text.splitAll_ne_nil '\n' text) fun _ => newline_notMem_of_mem_lines

theorem not_isReference_of_mem_lines {text line : Text} (h : line ∈ (stripReferences text).lines) :
    isReference line = false := by
  rw [lines_stripReferences, List.mem_append] at h
  rcases h with h | h
  · simpa using (List.mem_filter.mp h).2
  · rw [tailLines] at h
    split at h
    · rw [List.mem_singleton.mp h]
      exact isReference_nil
    · cases h

theorem joinOthers_of_none {lines : List Text} (h : ∀ line ∈ lines, isReference line = false) :
    joinOthers lines = Text.join ['\n'] lines := by
  induction lines with
  | nil => rfl
  | cons line rest ih =>
    rw [List.forall_mem_cons] at h
    cases rest with
    | nil => rw [joinOthers, h.1, if_neg Bool.false_ne_true, Text.join_singleton]
    | cons next rest =>
      rw [joinOthers, h.1, if_neg Bool.false_ne_true, ih h.2,
        Text.join_cons _ _ (List.cons_ne_nil _ _), List.append_assoc]
      exact nofun

/-- A text without references stays as it is. -/
theorem stripReferences_of_none {text : Text} (h : ∀ line ∈ text.lines, isReference line = false) :
    stripReferences text = text := by
  rw [stripReferences, joinOthers_of_none h, Text.lines, Text.join_splitAll]

/-- Stripping once is enough. -/
theorem stripReferences_stripReferences (text : Text) :
    stripReferences (stripReferences text) = stripReferences text :=
  stripReferences_of_none fun _ => not_isReference_of_mem_lines

/-! ### The last reference -/

theorem findReference_eq_none {text : Text} (h : ∀ line ∈ text.lines, isReference line = false) :
    findReference text = none := by
  have hnone : text.lines.filterMap referenceValue? = [] := by
    rw [List.filterMap_eq_nil_iff]
    intro line hline
    simpa [isReference] using h line hline
  rw [findReference, hnone, List.getLast?_nil]

/-- A value that a line comment can hold. -/
structure IsValue (value : Text) : Prop where
  ne_nil : value ≠ []
  noBlank : ∀ c ∈ value, isBlank c = false

/-- The reference line for a value. -/
def lineFor (value : Text) : Text := "//# sourceMappingURL=".toList ++ value

theorem lineValue?_of_isValue {value : Text} (h : IsValue value) :
    lineValue? value = some value := by
  have hall : ∀ c ∈ value, (!isBlank c) = true := fun c hc => by rw [h.noBlank c hc]; rfl
  have hspan : value.span (!isBlank ·) = (value, []) := by
    rw [List.span_eq_takeWhile_dropWhile, List.takeWhile_eq_self_iff.mpr hall,
      List.dropWhile_eq_nil_iff.mpr hall]
  rw [lineValue?, hspan]
  simp [h.ne_nil, skipSpaces]

theorem referenceValue?_lineFor {value : Text} (h : IsValue value) :
    referenceValue? (lineFor value) = some value := by
  have hkeyword : afterKeyword? ("# sourceMappingURL=".toList ++ value) = some value :=
    Text.dropStart?_eq_some_iff.mpr rfl
  have hline : lineFor value = '/' :: '/' :: ("# sourceMappingURL=".toList ++ value) := rfl
  rw [hline, referenceValue?]
  simp only [skipSpaces, List.dropWhile_cons_of_neg (show ¬ isSpaceOrTab '/' = true by decide),
    hkeyword, Option.bind_some, lineValue?_of_isValue h]

/-- A reference line that is put behind a text is its reference. -/
theorem findReference_append {text value : Text} (htext : text = [] ∨ text.getLast? = some '\n')
    (h : IsValue value) : findReference (text ++ (lineFor value ++ ['\n'])) = some value := by
  have hnewline : '\n' ∉ lineFor value := by
    intro hmem
    rcases List.mem_append.mp hmem with hmem | hmem
    · revert hmem
      decide +kernel
    · exact absurd (h.noBlank _ hmem) (by decide)
  have hline : Text.lines (lineFor value ++ ['\n']) = [lineFor value, []] := by
    rw [lines_append_newline, lines_of_notMem hnewline]
    rfl
  have hlines : ∃ before, Text.lines (text ++ (lineFor value ++ ['\n'])) =
      before ++ [lineFor value, []] := by
    rcases htext with rfl | hlast
    · exact ⟨[], hline⟩
    · obtain ⟨front, rfl⟩ := List.getLast?_eq_some_iff.mp hlast
      refine ⟨Text.lines front, ?_⟩
      rw [List.append_assoc, List.singleton_append, lines_append_newline, hline]
  obtain ⟨before, hbefore⟩ := hlines
  rw [findReference, hbefore, List.filterMap_append]
  simp [referenceValue?_lineFor h, show referenceValue? [] = none from rfl]

end NamespaceMerge.SourceMap
