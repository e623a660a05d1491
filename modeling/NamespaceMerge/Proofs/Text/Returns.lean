import NamespaceMerge.Proofs.Text.Basic

/-! Texts with a carriage return in front of every newline. Each line but the last then ends with a
carriage return (`lines_withReturns`), and no other character comes or goes. -/

namespace NamespaceMerge.Text

/-- The text with a carriage return in front of every newline. -/
def withReturns (text : Text) : Text := text.flatMap fun c => if c = '\n' then ['\r', '\n'] else [c]

/-- Lines with a carriage return at the end of each but the last. -/
def returned : List Text → List Text
  | [] => []
  | [line] => [line]
  | line :: next :: rest => (line ++ ['\r']) :: returned (next :: rest)

theorem withReturns_append (a b : Text) : withReturns (a ++ b) = withReturns a ++ withReturns b :=
  List.flatMap_append

theorem withReturns_cons_newline (text : Text) :
    withReturns ('\n' :: text) = '\r' :: '\n' :: withReturns text := rfl

theorem withReturns_cons_of_ne {c : Char} (h : c ≠ '\n') (text : Text) :
    withReturns (c :: text) = c :: withReturns text := by
  rw [withReturns, List.flatMap_cons, if_neg h, List.singleton_append, withReturns]

theorem withReturns_of_notMem {text : Text} (h : '\n' ∉ text) : withReturns text = text := by
  induction text with
  | nil => rfl
  | cons c text ih =>
    rw [List.mem_cons, not_or] at h
    rw [withReturns_cons_of_ne (Ne.symm h.1), ih h.2]

theorem count_withReturns {c : Char} (h : c ≠ '\r') (text : Text) :
    (withReturns text).count c = text.count c := by
  induction text with
  | nil => rfl
  | cons d text ih =>
    by_cases hd : d = '\n'
    · rw [hd, withReturns_cons_newline, List.count_cons_of_ne (Ne.symm h), List.count_cons, ih,
        List.count_cons]
    · rw [withReturns_cons_of_ne hd, List.count_cons, ih, List.count_cons]

theorem mem_withReturns {c : Char} (h : c ≠ '\r') {text : Text} :
    c ∈ withReturns text ↔ c ∈ text := by
  rw [← List.count_pos_iff, count_withReturns h, List.count_pos_iff]

theorem length_le_withReturns (text : Text) : text.length ≤ (withReturns text).length := by
  induction text with
  | nil => exact Nat.le_refl _
  | cons c text ih =>
    by_cases hc : c = '\n'
    · rw [hc, withReturns_cons_newline]
      exact Nat.le_succ_of_le (Nat.succ_le_succ ih)
    · rw [withReturns_cons_of_ne hc]
      exact Nat.succ_le_succ ih

/-! ### Lines -/

theorem returned_cons {rest : List Text} (h : rest ≠ []) (line : Text) :
    returned (line :: rest) = (line ++ ['\r']) :: returned rest := by
  obtain ⟨next, rest, rfl⟩ := List.exists_cons_of_ne_nil h
  rfl

theorem returned_ne_nil {lines : List Text} (h : lines ≠ []) : returned lines ≠ [] := by
  fun_cases returned lines with
  | case1 => exact (h rfl).elim
  | case2 => exact List.cons_ne_nil _ _
  | case3 => exact List.cons_ne_nil _ _

/-- All lines but the last end with a carriage return. -/
theorem returned_concat (front : List Text) (last : Text) :
    returned (front ++ [last]) = front.map (· ++ ['\r']) ++ [last] := by
  induction front with
  | nil => rfl
  | cons line front ih =>
    rw [List.cons_append, returned_cons (by simp), ih, List.map_cons, List.cons_append]

theorem returned_eq {lines : List Text} (h : lines ≠ []) :
    returned lines = lines.dropLast.map (· ++ ['\r']) ++ [lines.getLast h] := by
  rw [← returned_concat, List.dropLast_concat_getLast h]

theorem dropLast_returned (lines : List Text) :
    (returned lines).dropLast = lines.dropLast.map (· ++ ['\r']) := by
  by_cases h : lines = []
  · rw [h]
    rfl
  · rw [returned_eq h, List.dropLast_concat]

theorem getLast?_returned (lines : List Text) : (returned lines).getLast? = lines.getLast? := by
  by_cases h : lines = []
  · rw [h]
    rfl
  · rw [returned_eq h, List.getLast?_concat, List.getLast?_eq_some_getLast h]

theorem newline_notMem_returned {lines : List Text} (h : ∀ line ∈ lines, '\n' ∉ line) :
    ∀ line ∈ returned lines, '\n' ∉ line := by
  intro line hline
  by_cases hne : lines = []
  · rw [hne] at hline
    cases hline
  · rw [returned_eq hne, List.mem_append, List.mem_map, List.mem_singleton] at hline
    rcases hline with ⟨part, hpart, rfl⟩ | rfl
    · simpa using h part (List.dropLast_subset _ hpart)
    · exact h _ (List.getLast_mem hne)

theorem withReturns_join {lines : List Text} (h : ∀ line ∈ lines, '\n' ∉ line) :
    withReturns (join ['\n'] lines) = join ['\n'] (returned lines) := by
  fun_induction returned lines with
  | case1 => rfl
  | case2 line =>
    rw [join_singleton, withReturns_of_notMem (h line List.mem_cons_self)]
  | case3 line next rest ih =>
    rw [List.forall_mem_cons] at h
    rw [join_cons _ _ (List.cons_ne_nil _ _),
      join_cons _ _ (returned_ne_nil (List.cons_ne_nil _ _)), withReturns_append,
      withReturns_of_notMem h.1, List.singleton_append, withReturns_cons_newline, ih h.2]
    simp

theorem lines_withReturns (text : Text) : (withReturns text).lines = returned text.lines := by
  have hlines : ∀ line ∈ text.lines, '\n' ∉ line := fun _ => notMem_of_mem_splitAll
  have htext : withReturns text = join ['\n'] (returned text.lines) := by
    rw [← withReturns_join hlines, lines, join_splitAll]
  rw [htext]
  exact splitAll_join (newline_notMem_returned hlines) (returned_ne_nil (splitAll_ne_nil _ _))

end NamespaceMerge.Text
