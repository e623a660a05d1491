import NamespaceMerge.Module.Merge

/-! The outline of a script: which of its statements are module blocks, and what the blocks hold. -/

namespace NamespaceMerge.Script

inductive Outline
  | module (name : String) (body : List Outline)
  | other (statement : Statement)

/-- The outline of a list of statements, where two statements that are a module block count as
one. -/
def outline : List Statement → List Outline
  | [] => []
  | [s] => [.other s]
  | s :: wrapper :: rest =>
    match s.moduleName? with
    | none => .other s :: outline (wrapper :: rest)
    | some name =>
      match h : wrapper.moduleBody? name with
      | some body =>
        have := weight_body_lt h
        .module name (outline body) :: outline rest
      | none => .other s :: outline (wrapper :: rest)
termination_by statements => (weight statements, statements.length)
decreasing_by
  · simp only [weight, List.length_cons]
    rcases Nat.eq_zero_or_pos (sizeOf s) with hs | hs
    · rw [hs, Nat.zero_add]; exact .right _ (Nat.lt_succ_self _)
    · exact .left _ _ (by omega)
  · refine .left _ _ ?_
    simp only [weight] at *
    omega
  · simp only [weight, List.length_cons]
    rcases Nat.eq_zero_or_pos (sizeOf s + sizeOf wrapper) with hs | hs
    · rw [← Nat.add_assoc, hs, Nat.zero_add]; exact .right _ (by omega)
    · exact .left _ _ (by omega)
  · simp only [weight, List.length_cons]
    rcases Nat.eq_zero_or_pos (sizeOf s) with hs | hs
    · rw [hs, Nat.zero_add]; exact .right _ (Nat.lt_succ_self _)
    · exact .left _ _ (by omega)

end NamespaceMerge.Script
