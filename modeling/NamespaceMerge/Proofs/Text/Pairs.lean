import NamespaceMerge.Text.Basic

/-! What becomes of a text when two characters that stand side by side are replaced. A text without
the pair stays as it is (`replacePair_of_not_infix`), any other character parts the text
(`replacePair_append_cons`), and if the pair is replaced by a newline, what stands between newlines
afterwards stood there before (`infix_of_infix_replacePair`). -/

namespace NamespaceMerge.Text

variable {first second : Char}

-- The induction that the proofs below share: along a text, by whether a pair is replaced.
attribute [elab_as_elim] replacePair.induct_unfolding

theorem replacePair_cons_of_ne {a : Char} (h : a ≠ first) (by' text : Text) :
    replacePair first second by' (a :: text) = a :: replacePair first second by' text := by
  cases text with
  | nil => rfl
  | cons b rest => rw [replacePair, if_neg fun hpair => h hpair.1]

theorem replacePair_cons_of_head? {rest : Text} (h : rest.head? ≠ some second) (a : Char)
    (by' : Text) :
    replacePair first second by' (a :: rest) = a :: replacePair first second by' rest := by
  cases rest with
  | nil => rfl
  | cons b rest => rw [replacePair, if_neg fun hpair => h (congrArg some hpair.2)]

theorem pair_infix_cons_cons {a b : Char} {rest : Text} :
    [first, second] <:+: a :: b :: rest ↔
      (a = first ∧ b = second) ∨ [first, second] <:+: b :: rest := by
  rw [List.infix_cons_iff, List.cons_prefix_cons, List.cons_prefix_cons]
  simp [eq_comm]

/-- A text in which the two do not stand side by side stays as it is. -/
theorem replacePair_of_not_infix {text : Text} (h : ¬ [first, second] <:+: text) (by' : Text) :
    replacePair first second by' text = text := by
  fun_induction replacePair first second by' text with
  | case1 a b rest hpair => exact (h (pair_infix_cons_cons.mpr (.inl hpair))).elim
  | case2 a b rest _ ih => rw [ih fun hrest => h (pair_infix_cons_cons.mpr (.inr hrest))]
  | case3 => rfl

theorem replacePair_eq_self {text : Text} (h : first ∉ text ∨ second ∉ text) (by' : Text) :
    replacePair first second by' text = text := by
  refine replacePair_of_not_infix (fun hpair => ?_) by'
  exact h.elim (· (hpair.mem List.mem_cons_self)) (· (hpair.mem (by simp)))

theorem length_replacePair_le {by' : Text} (hby : by'.length ≤ 2) (text : Text) :
    (replacePair first second by' text).length ≤ text.length := by
  fun_induction replacePair first second by' text with
  | case1 a b rest _ ih =>
    simp only [List.length_append, List.length_cons]
    omega
  | case2 a b rest _ ih => exact Nat.succ_le_succ ih
  | case3 => exact Nat.le_refl _

/-- Where the two stand side by side, putting one character in makes the text shorter. -/
theorem length_replacePair_lt {text : Text} (h : [first, second] <:+: text) (by' : Char) :
    (replacePair first second [by'] text).length < text.length := by
  fun_induction replacePair first second [by'] text with
  | case1 a b rest _ =>
    have hrest : (replacePair first second [by'] rest).length ≤ rest.length :=
      length_replacePair_le (by simp) rest
    simp only [List.length_append, List.length_cons, List.length_nil]
    omega
  | case2 a b rest hpair ih =>
    exact Nat.succ_lt_succ (ih ((pair_infix_cons_cons.mp h).resolve_left hpair))
  | case3 short hshort =>
    match short, h with
    | [], h => simpa using h.length_le
    | [_], h => simpa using h.length_le
    | x :: y :: rest, _ => exact (hshort x y rest rfl).elim

/-- A text loses half its length at most. -/
theorem length_le_two_mul_replacePair (first second by' : Char) (text : Text) :
    text.length ≤ 2 * (replacePair first second [by'] text).length := by
  fun_induction replacePair first second [by'] text with
  | case1 a b rest _ ih =>
    simp only [List.length_append, List.length_cons, List.length_nil]
    omega
  | case2 a b rest _ ih =>
    simp only [List.length_cons] at ih ⊢
    omega
  | case3 => omega

/-- A character of neither kind parts a text. -/
theorem replacePair_append_cons {c : Char} (hfirst : c ≠ first) (hsecond : c ≠ second)
    (by' a b : Text) :
    replacePair first second by' (a ++ c :: b) =
      replacePair first second by' a ++ c :: replacePair first second by' b := by
  fun_induction replacePair first second by' a with
  | case1 x y rest hpair ih =>
    rw [List.cons_append, List.cons_append, replacePair, if_pos hpair, ih, List.append_assoc]
  | case2 x y rest hpair ih =>
    rw [List.cons_append, List.cons_append, replacePair, if_neg hpair, ← List.cons_append, ih,
      List.cons_append]
  | case3 short hshort =>
    match short with
    | [] => exact replacePair_cons_of_ne hfirst by' b
    | [x] =>
      rw [List.singleton_append, replacePair, if_neg fun hpair => hsecond hpair.2,
        replacePair_cons_of_ne hfirst]
      rfl
    | x :: y :: rest => exact (hshort x y rest rfl).elim

/-- Nothing appears but what is put in. -/
theorem mem_replacePair {c : Char} {by' text : Text} (h : c ∈ replacePair first second by' text) :
    c ∈ by' ∨ c ∈ text := by
  fun_induction replacePair first second by' text with
  | case1 a b rest hpair ih =>
    rcases List.mem_append.mp h with h | h
    · exact .inl h
    · exact (ih h).imp_right fun h => List.mem_cons_of_mem _ (List.mem_cons_of_mem _ h)
  | case2 a b rest hpair ih =>
    rcases List.mem_cons.mp h with rfl | h
    · exact .inr List.mem_cons_self
    · exact (ih h).imp_right (List.mem_cons_of_mem _)
  | case3 short hshort => exact .inr h

/-- No character of another kind is lost. -/
theorem mem_replacePair_of_ne {c : Char} {text : Text} (hfirst : c ≠ first) (hsecond : c ≠ second)
    (by' : Text) (h : c ∈ text) : c ∈ replacePair first second by' text := by
  obtain ⟨a, b, rfl⟩ := List.append_of_mem h
  rw [replacePair_append_cons hfirst hsecond]
  exact List.mem_append_right _ List.mem_cons_self

theorem filter_replacePair {p : Char → Bool} (hfirst : p first = false)
    (hsecond : p second = false) (hline : p '\n' = false) (text : Text) :
    (replacePair first second ['\n'] text).filter p = text.filter p := by
  fun_induction replacePair first second ['\n'] text with
  | case1 a b rest hpair ih => simp [hpair.1, hpair.2, hfirst, hsecond, hline, ih]
  | case2 a b rest _ ih => rw [List.filter_cons, ih, ← List.filter_cons]
  | case3 => rfl

theorem getLast?_replacePair {text : Text} (h : text.getLast? = some '\n') :
    (replacePair first second ['\n'] text).getLast? = some '\n' := by
  fun_induction replacePair first second ['\n'] text with
  | case1 a b rest _ ih =>
    cases rest with
    | nil => rfl
    | cons c rest =>
      rw [List.getLast?_cons_cons, List.getLast?_cons_cons] at h
      rw [List.singleton_append, List.getLast?_cons, ih h, Option.getD_some]
  | case2 a b rest _ ih =>
    rw [List.getLast?_cons_cons] at h
    rw [List.getLast?_cons, ih h, Option.getD_some]
  | case3 => exact h

private theorem prefix_of_prefix_replacePair {text part : Text} (hline : '\n' ∉ part)
    (h : part <+: replacePair first second ['\n'] text) : part <+: text := by
  fun_induction replacePair first second ['\n'] text generalizing part with
  | case1 a b rest _ ih =>
    cases part with
    | nil => exact List.nil_prefix
    | cons c part =>
      rw [List.singleton_append, List.cons_prefix_cons] at h
      simp [h.1] at hline
  | case2 a b rest _ ih =>
    cases part with
    | nil => exact List.nil_prefix
    | cons c part =>
      rw [List.cons_prefix_cons] at h ⊢
      rw [List.mem_cons, not_or] at hline
      exact ⟨h.1, ih hline.2 h.2⟩
  | case3 => exact h

/-- What stands between newlines afterwards stood there before. -/
theorem infix_of_infix_replacePair {text part : Text} (hline : '\n' ∉ part)
    (h : part <:+: replacePair first second ['\n'] text) : part <:+: text := by
  fun_induction replacePair first second ['\n'] text with
  | case1 a b rest hpair ih =>
    rw [List.singleton_append, List.infix_cons_iff] at h
    rcases h with h | h
    · cases part with
      | nil => exact List.nil_infix
      | cons c part =>
        rw [List.cons_prefix_cons] at h
        simp [h.1] at hline
    · exact (ih h).trans ((List.suffix_cons _ _).trans (List.suffix_cons _ _)).isInfix
  | case2 a b rest hpair ih =>
    rw [List.infix_cons_iff] at h ⊢
    refine h.imp (fun h => ?_) ih
    cases part with
    | nil => exact List.nil_prefix
    | cons c part =>
      rw [List.cons_prefix_cons] at h ⊢
      rw [List.mem_cons, not_or] at hline
      exact ⟨h.1, prefix_of_prefix_replacePair hline.2 h.2⟩
  | case3 => exact h

end NamespaceMerge.Text
