import Mathlib.Algebra.BigOperators.Group.Multiset.Basic
import Mathlib.Algebra.Order.Group.Multiset
import NamespaceMerge.Proofs.Text.Basic
import NamespaceMerge.Proofs.Text.Blank

/-! The ink of a text: its characters that are no blanks, each as often as it occurs, in no order.
Where texts are cut, moved and put together again, their ink is added up. -/

namespace NamespaceMerge.Text

def ink (text : Text) : Multiset Char := (withoutBlanks text : List Char)

theorem ink_eq_zero_iff {text : Text} : ink text = 0 ↔ withoutBlanks text = [] :=
  Multiset.coe_eq_zero _

theorem ink_nil : ink [] = 0 := rfl

theorem ink_append (a b : Text) : ink (a ++ b) = ink a + ink b := by
  rw [ink, withoutBlanks_append, ← Multiset.coe_add]
  rfl

theorem ink_take_add_drop (n : Nat) (text : Text) :
    ink (text.take n) + ink (text.drop n) = ink text := by
  rw [← ink_append, List.take_append_drop]

theorem ink_join {separator : Text} (h : withoutBlanks separator = []) (parts : List Text) :
    ink (join separator parts) = (parts.map ink).sum := by
  induction parts with
  | nil => rfl
  | cons part parts ih =>
    by_cases hparts : parts = []
    · rw [hparts, join_singleton, List.map_singleton, List.sum_singleton]
    · rw [join_cons _ _ hparts, ink_append, ink_append, ink_eq_zero_iff.mpr h, zero_add, ih,
        List.map_cons, List.sum_cons]

/-- Parts without ink may be left out. -/
theorem sum_ink_filter {parts : List Text} {p : Text → Bool}
    (h : ∀ part ∈ parts, p part = false → withoutBlanks part = []) :
    ((parts.filter p).map ink).sum = (parts.map ink).sum := by
  induction parts with
  | nil => rfl
  | cons part parts ih =>
    rw [List.forall_mem_cons] at h
    rw [List.map_cons, List.sum_cons, ← ih h.2]
    cases hpart : p part with
    | true => rw [List.filter_cons_of_pos hpart, List.map_cons, List.sum_cons]
    | false =>
      rw [List.filter_cons_of_neg (by simp [hpart]), ink_eq_zero_iff.mpr (h.1 hpart), zero_add]

end NamespaceMerge.Text
