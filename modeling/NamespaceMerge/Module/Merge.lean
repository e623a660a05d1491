import NamespaceMerge.Module.Block

/-! Merging of module blocks. Blocks of one module that follow each other directly become one: the
first keeps its declaration and its wrapper and takes the bodies of all, and the modules in the
joined body are merged in turn. Any other statement between two blocks keeps them apart, since it
may depend on the one and the other on it. -/

namespace NamespaceMerge.Script

/-- The sum of the sizes of statements; it bounds the nesting of merges. -/
noncomputable def weight : List Statement → Nat
  | [] => 0
  | s :: rest => sizeOf s + weight rest

theorem weight_append (a b : List Statement) : weight (a ++ b) = weight a + weight b := by
  induction a with
  | nil => simp [weight]
  | cons s rest ih => simp only [List.cons_append, weight, ih, Nat.add_assoc]

theorem weight_lt_sizeOf (statements : List Statement) : weight statements < sizeOf statements := by
  induction statements with
  | nil => simp [weight]
  | cons s rest ih =>
    simp only [weight, List.cons.sizeOf_spec]
    omega

/-- The bodies of the blocks of module `name` at the start of a list, and what follows them. -/
def takeBlocks (name : String) : List Statement → List (List Statement) × List Statement
  | declaration :: wrapper :: rest =>
    if declaration.moduleName? = some name then
      match wrapper.moduleBody? name with
      | some body =>
        let (bodies, after) := takeBlocks name rest
        (body :: bodies, after)
      | none => ([], declaration :: wrapper :: rest)
    else ([], declaration :: wrapper :: rest)
  | statements => ([], statements)

theorem weight_body_lt {name : String} {s : Statement} {body : List Statement}
    (h : s.moduleBody? name = some body) : weight body < sizeOf s := by
  obtain ⟨w, hw, rfl⟩ := Statement.wrapper?_of_moduleBody? h
  exact Nat.lt_trans (weight_lt_sizeOf _) (Statement.sizeOf_body_lt hw)

theorem weight_takeBlocks_le (name : String) (statements : List Statement) :
    weight (takeBlocks name statements).1.flatten + weight (takeBlocks name statements).2
      ≤ weight statements := by
  fun_induction takeBlocks name statements with
  | case1 declaration wrapper rest hname body hbody bodies after heq ih =>
    have := weight_body_lt hbody
    simp only [List.flatten_cons, weight_append]
    rw [heq] at ih
    simp only [weight] at *
    omega
  | case2 | case3 | case4 => simp [weight]

/-- The module block at the start of a list: its name, its declaration and wrapper, its body, the
bodies of the blocks of the same module right after it, and what follows them. -/
structure Run where
  name : String
  declaration : Statement
  wrapper : Statement
  body : List Statement
  further : List (List Statement)
  rest : List Statement

def Run.joined (r : Run) : List Statement := r.body ++ r.further.flatten

/-- The number of statements of the run. -/
def Run.length (r : Run) : Nat := 2 * (r.further.length + 1)

def Run.ofList? : List Statement → Option Run
  | declaration :: wrapper :: rest => do
    let name ← declaration.moduleName?
    let body ← wrapper.moduleBody? name
    let (further, rest) := takeBlocks name rest
    return { name, declaration, wrapper, body, further, rest }
  | _ => none

theorem Run.weight_lt {statements : List Statement} {r : Run}
    (h : Run.ofList? statements = some r) :
    weight r.joined < weight statements ∧ weight r.rest < weight statements := by
  unfold Run.ofList? at h
  split at h
  · next declaration wrapper rest =>
    simp only [Option.bind_eq_bind, Option.bind_eq_some_iff, Option.pure_def,
      Option.some.injEq] at h
    obtain ⟨name, _, body, hbody, rfl⟩ := h
    have hb := weight_body_lt hbody
    have ht := weight_takeBlocks_le name rest
    simp only [Run.joined, weight_append]
    simp only [weight] at *
    omega
  · simp at h

/-- The outcome of merging a list of statements. -/
structure Merged where
  statements : List Statement := []
  /-- How many blocks were joined to an earlier one, at all depths. -/
  joins : Nat := 0
  /-- The modules that were found, each with the index of its first statement in its list. -/
  found : List (String × Nat) := []

/-- Merges the statements from index `index` of their list on. -/
def mergeFrom (index : Nat) (statements : List Statement) : Merged :=
  match h : Run.ofList? statements with
  | some r =>
    have := Run.weight_lt h
    let inner := mergeFrom 0 r.joined
    let more := mergeFrom (index + r.length) r.rest
    { statements := r.declaration :: r.wrapper.withBody inner.statements :: more.statements
      joins := r.further.length + inner.joins + more.joins
      found := (r.name, index) :: inner.found ++ more.found }
  | none =>
    match statements with
    | [] => {}
    | s :: rest =>
      let more := mergeFrom (index + 1) rest
      { more with statements := s :: more.statements }
termination_by (weight statements, statements.length)
decreasing_by
  · exact .left _ _ this.1
  · exact .left _ _ this.2
  · simp only [weight, List.length_cons]
    rcases Nat.eq_zero_or_pos (sizeOf s) with hs | hs
    · rw [hs, Nat.zero_add]; exact .right _ (Nat.lt_succ_self _)
    · exact .left _ _ (by omega)

def merge (statements : List Statement) : Merged := mergeFrom 0 statements

end NamespaceMerge.Script
