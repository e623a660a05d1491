import NamespaceMerge.Proofs.Module.Flattening

/-! The number of statements of a list, those in the bodies of its modules included. Each block
that is joined to an earlier one takes a declaration and a wrapper away and nothing else
(`size_mergeFrom`), so the count of joined blocks can be read off the sizes, and it is zero exactly
if nothing was merged. -/

namespace NamespaceMerge.Script

/-- The number of statements of a list, and of the bodies of the wrappers in it. -/
def size : List Statement → Nat
  | [] => 0
  | s :: rest =>
    match h : s.ownModule? with
    | some (_, body) =>
      have := Statement.sizeOf_ownModule?_lt h
      1 + size body + size rest
    | none => 1 + size rest
termination_by statements => sizeOf statements
decreasing_by
  all_goals
    simp only [List.cons.sizeOf_spec]
    omega

theorem size_cons_of_moduleBody? {s : Statement} {name : String} {body : List Statement}
    (h : s.moduleBody? name = some body) (rest : List Statement) :
    size (s :: rest) = 1 + size body + size rest := by
  have hown := Statement.ownModule?_eq_some_iff.mpr h
  rw [size]
  split
  · next h' =>
    rw [hown] at h'
    cases h'
    rfl
  · next h' =>
    rw [hown] at h'
    cases h'

theorem size_cons_of_moduleName? {s : Statement} {name : String} (h : s.moduleName? = some name)
    (rest : List Statement) : size (s :: rest) = 1 + size rest := by
  rw [size]
  split
  · next h' =>
    rw [Statement.moduleName?_of_moduleBody? (Statement.ownModule?_eq_some_iff.mp h')] at h
    cases h
  · rfl

theorem size_cons (s : Statement) (rest : List Statement) :
    size (s :: rest) = size [s] + size rest := by
  rw [size, size]
  split <;> simp [size]

theorem size_append (a b : List Statement) : size (a ++ b) = size a + size b := by
  induction a with
  | nil => simp [size]
  | cons s a ih => rw [List.cons_append, size_cons, ih, size_cons s a, Nat.add_assoc]

/-! ### Joined blocks -/

/-- Taking blocks of a module off a list takes two statements for each of them. -/
theorem size_takeBlocks (name : String) (statements : List Statement) :
    size (takeBlocks name statements).1.flatten + 2 * (takeBlocks name statements).1.length +
      size (takeBlocks name statements).2 = size statements := by
  fun_induction takeBlocks name statements with
  | case1 declaration wrapper rest hname body hbody bodies after heq ih =>
    rw [heq] at ih
    simp only [size_cons_of_moduleName? hname, size_cons_of_moduleBody? hbody, List.flatten_cons,
      size_append, List.length_cons] at ih ⊢
    omega
  | case2 | case3 | case4 => simp [size]

theorem Run.size_eq {statements : List Statement} {r : Run}
    (h : Run.ofList? statements = some r) :
    size statements = size r.joined + 2 * (r.further.length + 1) + size r.rest := by
  obtain ⟨rest, rfl, hname, hbody, htake⟩ := Run.ofList?_eq_some_iff.mp h
  have hrest := size_takeBlocks r.name rest
  rw [htake] at hrest
  simp only [size_cons_of_moduleName? hname, size_cons_of_moduleBody? hbody, Run.joined,
    size_append] at hrest ⊢
  omega

/-- Each joined block leaves two statements less. -/
theorem size_mergeFrom (index : Nat) (statements : List Statement) :
    size (mergeFrom index statements).statements + 2 * (mergeFrom index statements).joins =
      size statements := by
  fun_induction mergeFrom index statements with
  | case1 index statements r h _ inner more ihInner ihMore =>
    obtain ⟨rest, -, hname, hbody, -⟩ := Run.ofList?_eq_some_iff.mp h
    have hsize := Run.size_eq h
    simp only [size_cons_of_moduleName? hname,
      size_cons_of_moduleBody? (Statement.moduleBody?_withBody hbody _)]
    simp only [inner, more] at ihInner ihMore ⊢
    omega
  | case2 => simp [size]
  | case3 index s rest h more ih =>
    rw [size_cons, size_cons s rest, ← ih, Nat.add_assoc]

theorem takeBlocks_of_fst_eq_nil {name : String} {statements : List Statement}
    (h : (takeBlocks name statements).1 = []) : (takeBlocks name statements).2 = statements := by
  fun_cases takeBlocks name statements with
  | case1 declaration wrapper rest hname body hbody bodies after heq =>
    rw [takeBlocks, if_pos hname, hbody, heq] at h
    cases h
  | case2 | case3 | case4 => rfl

/-- Where no block is joined, nothing changes. -/
theorem mergeFrom_of_joins_eq_zero {index : Nat} {statements : List Statement}
    (h : (mergeFrom index statements).joins = 0) :
    (mergeFrom index statements).statements = statements := by
  fun_induction mergeFrom index statements with
  | case1 index statements r hrun _ inner more ihInner ihMore =>
    obtain ⟨rest, rfl, -, hbody, htake⟩ := Run.ofList?_eq_some_iff.mp hrun
    obtain ⟨⟨hfurther, hinner⟩, hmore⟩ :
        (r.further.length = 0 ∧ inner.joins = 0) ∧ more.joins = 0 := by
      rw [← Nat.add_eq_zero_iff, ← Nat.add_eq_zero_iff]
      exact h
    rw [List.length_eq_zero_iff] at hfurther
    have hjoined : r.joined = r.body := by
      rw [Run.joined, hfurther, List.flatten_nil, List.append_nil]
    have hrest : r.rest = rest := by
      have htaken : (takeBlocks r.name rest).1 = [] := by rw [htake, hfurther]
      rw [← takeBlocks_of_fst_eq_nil htaken, htake]
    have hwrapper : r.wrapper.withBody inner.statements = r.wrapper := by
      rw [ihInner hinner, hjoined, Statement.withBody_moduleBody hbody]
    have hmoreSame : more.statements = rest := (ihMore hmore).trans hrest
    rw [hwrapper, hmoreSame]
  | case2 => rfl
  | case3 index s rest hrun more ih => exact congrArg (s :: ·) (ih h)

/-- The count grows by half of what the statements get fewer, at all depths together, and stays
exactly if they do. -/
theorem size_optimize (m : ScriptMerger) (statements : List Statement) :
    ∃ joins, (m.optimize statements).1.joins = m.joins + joins ∧
      size (m.optimize statements).2 + 2 * joins = size statements ∧
      (joins = 0 ↔ (m.optimize statements).2 = statements) := by
  have hsize := size_mergeFrom 0 statements
  refine ⟨(merge statements).joins, rfl, hsize, mergeFrom_of_joins_eq_zero, fun h => ?_⟩
  have hsame : (mergeFrom 0 statements).statements = statements := h
  rw [hsame] at hsize
  exact (Nat.mul_eq_zero.mp (Nat.left_eq_add.mp hsize.symm)).resolve_left (by decide)

end NamespaceMerge.Script
