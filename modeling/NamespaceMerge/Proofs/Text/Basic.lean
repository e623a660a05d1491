import NamespaceMerge.Text.Basic

/-! Splitting a text at a mark, and joining the parts again. The parts of a text that is put
together at a mark are the parts of both sides (`splitAll_append_mark`); otherwise the last part of
the one and the first of the other become one. At the end, what stands around the last occurrence
of a mark. -/

namespace NamespaceMerge.Text

variable {mark : Char}

theorem splitAll_cons_mark (mark : Char) (text : Text) :
    splitAll mark (mark :: text) = [] :: splitAll mark text := by
  rw [splitAll, if_pos rfl]

theorem splitAll_cons_of_ne {c : Char} {text part : Text} {parts : List Text} (hc : c ≠ mark)
    (h : splitAll mark text = part :: parts) :
    splitAll mark (c :: text) = (c :: part) :: parts := by
  rw [splitAll, if_neg hc, h]

/-- Text without the mark goes to the first part of what follows. -/
theorem splitAll_append_of_notMem {a text part : Text} {parts : List Text} (ha : mark ∉ a)
    (h : splitAll mark text = part :: parts) :
    splitAll mark (a ++ text) = (a ++ part) :: parts := by
  induction a with
  | nil => exact h
  | cons c a ih =>
    rw [List.mem_cons, not_or] at ha
    exact splitAll_cons_of_ne (Ne.symm ha.1) (ih ha.2)

theorem splitAll_append_mark (mark : Char) (a b : Text) :
    splitAll mark (a ++ mark :: b) = splitAll mark a ++ splitAll mark b := by
  induction a with
  | nil => exact splitAll_cons_mark mark b
  | cons c a ih =>
    by_cases hc : c = mark
    · subst hc
      rw [List.cons_append, splitAll_cons_mark, splitAll_cons_mark, ih, List.cons_append]
    · obtain ⟨part, parts, h⟩ := List.exists_cons_of_ne_nil (splitAll_ne_nil mark a)
      rw [h, List.cons_append] at ih
      rw [List.cons_append, splitAll_cons_of_ne hc ih, splitAll_cons_of_ne hc h, List.cons_append]

theorem join_cons (separator part : Text) {parts : List Text} (h : parts ≠ []) :
    join separator (part :: parts) = part ++ (separator ++ join separator parts) := by
  obtain ⟨next, rest, rfl⟩ := List.exists_cons_of_ne_nil h
  simp [join, List.intercalate]

theorem join_nil (parts : List Text) : join [] parts = parts.flatten := by
  induction parts with
  | nil => rfl
  | cons part parts ih =>
    by_cases hparts : parts = []
    · rw [hparts, join_singleton, List.flatten_singleton]
    · rw [join_cons _ _ hparts, ih, List.nil_append, List.flatten_cons]

theorem length_flatten_le_length_join (separator : Text) (parts : List Text) :
    parts.flatten.length ≤ (join separator parts).length := by
  induction parts with
  | nil => exact Nat.le_refl _
  | cons part parts ih =>
    by_cases hparts : parts = []
    · exact Nat.le_of_eq (by rw [hparts, join_singleton, List.flatten_singleton])
    · simp only [join_cons _ _ hparts, List.flatten_cons, List.length_append]
      omega

theorem infix_join (separator : Text) {part : Text} {parts : List Text} (h : part ∈ parts) :
    part <:+: join separator parts := by
  induction parts with
  | nil => cases h
  | cons first parts ih =>
    by_cases hparts : parts = []
    · rw [hparts, List.mem_singleton] at h
      simp only [hparts, h, join_singleton, List.infix_refl]
    · rw [join_cons separator first hparts]
      rcases List.mem_cons.mp h with rfl | h
      · exact (List.prefix_append _ _).isInfix
      · exact (ih h).trans
          ((List.suffix_append _ _).trans (List.suffix_append _ _)).isInfix

theorem suffix_join_concat (separator : Text) (parts : List Text) (last : Text) :
    last <:+ join separator (parts ++ [last]) := by
  induction parts with
  | nil => exact (join_singleton separator last).symm ▸ List.suffix_rfl
  | cons first rest ih =>
    rw [List.cons_append, join_cons _ _ (by simp)]
    exact ih.trans ((List.suffix_append _ _).trans (List.suffix_append _ _))

theorem exists_of_mem_join {c : Char} {separator : Text} {parts : List Text}
    (h : c ∈ join separator parts) : c ∈ separator ∨ ∃ part ∈ parts, c ∈ part := by
  induction parts with
  | nil => cases h
  | cons first parts ih =>
    by_cases hparts : parts = []
    · rw [hparts, join_singleton] at h
      exact .inr ⟨first, List.mem_cons_self, h⟩
    · rw [join_cons _ _ hparts, List.mem_append, List.mem_append] at h
      rcases h with h | h | h
      · exact .inr ⟨first, List.mem_cons_self, h⟩
      · exact .inl h
      · refine (ih h).imp_right fun ⟨part, hpart, hc⟩ => ?_
        exact ⟨part, List.mem_cons_of_mem _ hpart, hc⟩

theorem infix_of_mem_splitAll {text part : Text} (h : part ∈ splitAll mark text) :
    part <:+: text := by
  have := infix_join [mark] h
  rwa [join_splitAll] at this

/-- No part holds the mark that the text was split at. -/
theorem notMem_of_mem_splitAll {text part : Text} (h : part ∈ splitAll mark text) :
    mark ∉ part := by
  induction text generalizing part with
  | nil =>
    rw [splitAll, List.mem_singleton] at h
    exact h ▸ List.not_mem_nil
  | cons c text ih =>
    by_cases hc : c = mark
    · subst hc
      rw [splitAll_cons_mark, List.mem_cons] at h
      rcases h with rfl | h
      · exact List.not_mem_nil
      · exact ih h
    · obtain ⟨first, parts, hsplit⟩ := List.exists_cons_of_ne_nil (splitAll_ne_nil mark text)
      rw [splitAll_cons_of_ne hc hsplit, List.mem_cons] at h
      rw [hsplit] at ih
      rcases h with rfl | h
      · rw [List.mem_cons, not_or]
        exact ⟨Ne.symm hc, ih List.mem_cons_self⟩
      · exact ih (List.mem_cons_of_mem _ h)

theorem splitAll_of_notMem {text : Text} (h : mark ∉ text) : splitAll mark text = [text] := by
  have hsplit := splitAll_append_of_notMem h (show splitAll mark [] = [[]] from rfl)
  rwa [List.append_nil] at hsplit

/-- Splitting undoes joining, for parts without the mark. -/
theorem splitAll_join {parts : List Text} (h : ∀ part ∈ parts, mark ∉ part) (hne : parts ≠ []) :
    splitAll mark (join [mark] parts) = parts := by
  induction parts with
  | nil => exact (hne rfl).elim
  | cons first rest ih =>
    rw [List.forall_mem_cons] at h
    by_cases hrest : rest = []
    · rw [hrest, join_singleton, splitAll_of_notMem h.1]
    · rw [join_cons _ _ hrest, List.singleton_append, splitAll_append_mark,
        splitAll_of_notMem h.1, ih h.2 hrest, List.singleton_append]

/-- The last part of what was joined stands at the end of the last part that was put in. -/
theorem getLast?_splitAll_join (parts : List Text) (last : Text) :
    (splitAll mark (join [mark] (parts ++ [last]))).getLast? = (splitAll mark last).getLast? := by
  induction parts with
  | nil => rw [List.nil_append, join_singleton]
  | cons first rest ih =>
    rw [List.cons_append, join_cons _ _ (by simp), List.singleton_append, splitAll_append_mark,
      List.getLast?_append, ih,
      Option.or_of_isSome (List.getLast?_isSome.mpr (splitAll_ne_nil _ _))]

theorem suffix_of_getLast?_splitAll {text part : Text}
    (h : (splitAll mark text).getLast? = some part) : part <:+ text := by
  obtain ⟨front, hsplit⟩ := List.getLast?_eq_some_iff.mp h
  have hsuffix := suffix_join_concat [mark] front part
  rwa [← hsplit, join_splitAll] at hsuffix

/-! ### The last occurrence of a mark -/

theorem lastIndexOf_append_cons {mark : Char} (a : Text) {b : Text} (hb : mark ∉ b) :
    lastIndexOf mark (a ++ mark :: b) = some a.length := by
  have hfind : b.reverse.findIdx? (· == mark) = none := by
    rw [List.findIdx?_eq_none_iff]
    intro c hc
    rw [beq_eq_false_iff_ne]
    rintro rfl
    exact hb (List.mem_reverse.mp hc)
  simp [lastIndexOf, List.findIdx?_append, List.findIdx?_cons, hfind]

theorem lastIndexOf_eq_none_iff {mark : Char} {text : Text} :
    lastIndexOf mark text = none ↔ mark ∉ text := by
  rw [lastIndexOf, Option.map_eq_none_iff, List.findIdx?_eq_none_iff]
  constructor
  · intro h hmark
    simpa using h mark (List.mem_reverse.mpr hmark)
  · intro h c hc
    rw [beq_eq_false_iff_ne]
    rintro rfl
    exact h (List.mem_reverse.mp hc)

/-- A text that holds the mark is cut in one way at the last of them. -/
theorem exists_eq_append_cons_of_mem {mark : Char} {text : Text} (h : mark ∈ text) :
    ∃ a b, text = a ++ mark :: b ∧ mark ∉ b := by
  obtain ⟨b, a, hsplit, hb⟩ := List.eq_append_cons_of_mem (List.mem_reverse.mpr h)
  refine ⟨a.reverse, b.reverse, ?_, fun hmem => hb (List.mem_reverse.mp hmem)⟩
  rw [← List.reverse_reverse text, hsplit]
  simp

theorem lastIndexOf_concat {mark c : Char} (h : c ≠ mark) (text : Text) :
    lastIndexOf mark (text ++ [c]) = lastIndexOf mark text := by
  by_cases hmark : mark ∈ text
  · obtain ⟨a, b, rfl, hb⟩ := exists_eq_append_cons_of_mem hmark
    have hb' : mark ∉ b ++ [c] := by simp [hb, Ne.symm h]
    rw [lastIndexOf_append_cons a hb, List.append_assoc, List.cons_append,
      lastIndexOf_append_cons a hb']
  · have hmark' : mark ∉ text ++ [c] := by simp [hmark, Ne.symm h]
    rw [lastIndexOf_eq_none_iff.mpr hmark, lastIndexOf_eq_none_iff.mpr hmark']

/-! ### The first occurrence of a mark -/

theorem splitOnce_append_cons {mark : Char} {a : Text} (h : mark ∉ a) (b : Text) :
    splitOnce mark (a ++ mark :: b) = some (a, b) := by
  induction a with
  | nil => simp [splitOnce]
  | cons c a ih =>
    rw [List.mem_cons, not_or] at h
    simp [splitOnce, Ne.symm h.1, ih h.2]

theorem splitOnce_eq_some_iff {mark : Char} {text a b : Text} :
    splitOnce mark text = some (a, b) ↔ text = a ++ mark :: b ∧ mark ∉ a := by
  constructor
  · intro h
    induction text generalizing a with
    | nil => cases h
    | cons c text ih =>
      rw [splitOnce] at h
      split at h
      · next hc =>
        cases h
        exact ⟨by rw [hc, List.nil_append], List.not_mem_nil⟩
      · next hc =>
        obtain ⟨⟨a', b'⟩, hsplit, heq⟩ := Option.map_eq_some_iff.mp h
        cases heq
        obtain ⟨rfl, ha⟩ := ih hsplit
        refine ⟨rfl, ?_⟩
        rw [List.mem_cons, not_or]
        exact ⟨Ne.symm hc, ha⟩
  · rintro ⟨rfl, ha⟩
    exact splitOnce_append_cons ha b

theorem splitOnce_eq_none_iff {mark : Char} {text : Text} :
    splitOnce mark text = none ↔ mark ∉ text := by
  induction text with
  | nil => simp [splitOnce]
  | cons c text ih =>
    rw [splitOnce]
    split
    · next hc => simp [hc]
    · next hc => simp [ih, Ne.symm hc]

/-! ### What stands in a text -/

theorem includes_iff_infix {part text : Text} : includes part text = true ↔ part <:+: text := by
  induction text with
  | nil => simp [includes]
  | cons c text ih => rw [includes, Bool.or_eq_true, List.isPrefixOf_iff_prefix, ih,
      List.infix_cons_iff]

end NamespaceMerge.Text
