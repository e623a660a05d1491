import NamespaceMerge.Merging.ScriptMerger
import NamespaceMerge.Proofs.Module.Wrapper

/-! Merging modules keeps every statement, in order and in its module. The statements of a script
are laid out with the modules they stand in (`placed`). Merging drops repeated declarations of a
module from that layout and nothing else (`alike_placed_mergeFrom`). -/

namespace NamespaceMerge.Script

/-- The module that a statement wraps by the name of its own parameter, and the body of it. -/
def Statement.ownModule? (s : Statement) : Option (String × List Statement) := do
  let w ← s.wrapper?
  let body ← s.moduleBody? w.parameter
  return (w.parameter, body)

/-- A statement with the names of the modules it stands in, the outermost first. -/
abbrev Placed := List String × Statement

theorem Statement.ownModule?_eq_some_iff {s : Statement} {name : String} {body : List Statement} :
    s.ownModule? = some (name, body) ↔ s.moduleBody? name = some body := by
  simp only [ownModule?, Option.bind_eq_bind, Option.bind_eq_some_iff, Option.pure_def,
    Option.some.injEq, Prod.mk.injEq]
  constructor
  · rintro ⟨w, -, _, hbody, rfl, rfl⟩
    exact hbody
  · intro h
    obtain ⟨w, hw, ⟨-, hname, -⟩, -⟩ := moduleBody?_eq_some_iff.mp h
    exact ⟨w, hw, body, hname ▸ h, hname, rfl⟩

theorem Statement.sizeOf_ownModule?_lt {s : Statement} {name : String} {body : List Statement}
    (h : s.ownModule? = some (name, body)) : sizeOf body < sizeOf s := by
  obtain ⟨w, hw, rfl⟩ := wrapper?_of_moduleBody? (ownModule?_eq_some_iff.mp h)
  exact sizeOf_body_lt hw

/-- The statements of a list with their modules. A wrapper stands for what is in its body. -/
def placed : List Statement → List Placed
  | [] => []
  | s :: rest =>
    match h : s.ownModule? with
    | some (name, body) =>
      have := Statement.sizeOf_ownModule?_lt h
      (placed body).map (fun p => (name :: p.1, p.2)) ++ placed rest
    | none => ([], s) :: placed rest
termination_by statements => sizeOf statements
decreasing_by
  all_goals
    simp only [List.cons.sizeOf_spec]
    omega

/-- The layout without the declarations of modules. -/
def keptOf (layout : List Placed) : List Placed :=
  layout.filter fun p => p.2.moduleName?.isNone

/-- The modules that are declared in a layout, each with the modules around it. -/
def declaredOf (layout : List Placed) : List (List String × String) :=
  layout.filterMap fun p => p.2.moduleName?.map (p.1, ·)

/-- The statements of a list with their modules, without the declarations of modules. -/
def flattening (statements : List Statement) : List Placed := keptOf (placed statements)

/-- The modules that are declared in a list, each with the modules around it. -/
def declaredModules (statements : List Statement) : List (List String × String) :=
  declaredOf (placed statements)

/-! ### Layouts -/

theorem placed_cons_of_moduleBody? {s : Statement} {name : String} {body : List Statement}
    (h : s.moduleBody? name = some body) (rest : List Statement) :
    placed (s :: rest) = (placed body).map (fun p => (name :: p.1, p.2)) ++ placed rest := by
  have hown := Statement.ownModule?_eq_some_iff.mpr h
  rw [placed]
  split
  · next h' =>
    rw [hown] at h'
    cases h'
    rfl
  · next h' =>
    rw [hown] at h'
    cases h'

theorem placed_cons_of_moduleName? {s : Statement} {name : String}
    (h : s.moduleName? = some name) (rest : List Statement) :
    placed (s :: rest) = ([], s) :: placed rest := by
  rw [placed]
  split
  · next h' =>
    rw [Statement.moduleName?_of_moduleBody? (Statement.ownModule?_eq_some_iff.mp h')] at h
    cases h
  · rfl

theorem placed_cons (s : Statement) (rest : List Statement) :
    placed (s :: rest) = placed [s] ++ placed rest := by
  rw [placed, placed]
  split <;> simp [placed]

theorem placed_append (a b : List Statement) : placed (a ++ b) = placed a ++ placed b := by
  induction a with
  | nil => simp [placed]
  | cons s a ih => rw [List.cons_append, placed_cons, ih, placed_cons s a, List.append_assoc]

@[simp] theorem keptOf_append (a b : List Placed) : keptOf (a ++ b) = keptOf a ++ keptOf b :=
  List.filter_append ..

@[simp] theorem declaredOf_append (a b : List Placed) :
    declaredOf (a ++ b) = declaredOf a ++ declaredOf b := List.filterMap_append

@[simp] theorem keptOf_map (name : String) (layout : List Placed) :
    keptOf (layout.map fun p => (name :: p.1, p.2))
      = (keptOf layout).map fun p => (name :: p.1, p.2) := by
  simp [keptOf, List.filter_map, Function.comp_def]

@[simp] theorem declaredOf_map (name : String) (layout : List Placed) :
    declaredOf (layout.map fun p => (name :: p.1, p.2))
      = (declaredOf layout).map fun p => (name :: p.1, p.2) := by
  simp [declaredOf, List.filterMap_map, List.map_filterMap, Function.comp_def]

theorem keptOf_cons {s : Statement} {name : String} (h : s.moduleName? = some name)
    (path : List String) (layout : List Placed) : keptOf ((path, s) :: layout) = keptOf layout := by
  simp [keptOf, h]

theorem declaredOf_cons {s : Statement} {name : String} (h : s.moduleName? = some name)
    (path : List String) (layout : List Placed) :
    declaredOf ((path, s) :: layout) = (path, name) :: declaredOf layout := by
  simp [declaredOf, h]

/-! ### Merging -/

/-- Layouts that differ in repeated declarations of modules only. -/
structure Alike (a b : List Placed) : Prop where
  kept : keptOf a = keptOf b
  declared : ∀ p, p ∈ declaredOf a ↔ p ∈ declaredOf b

namespace Alike

theorem refl (a : List Placed) : Alike a a := ⟨rfl, fun _ => .rfl⟩

theorem trans {a b c : List Placed} (h : Alike a b) (h' : Alike b c) : Alike a c :=
  ⟨h.kept.trans h'.kept, fun p => (h.declared p).trans (h'.declared p)⟩

theorem symm {a b : List Placed} (h : Alike a b) : Alike b a :=
  ⟨h.kept.symm, fun p => (h.declared p).symm⟩

theorem append {a a' b b' : List Placed} (ha : Alike a a') (hb : Alike b b') :
    Alike (a ++ b) (a' ++ b') := by
  refine ⟨by simp only [keptOf_append, ha.kept, hb.kept], fun p => ?_⟩
  simp only [declaredOf_append, List.mem_append, ha.declared, hb.declared]

theorem map {a b : List Placed} (h : Alike a b) (name : String) :
    Alike (a.map fun p => (name :: p.1, p.2)) (b.map fun p => (name :: p.1, p.2)) := by
  refine ⟨by simp only [keptOf_map, h.kept], fun p => ?_⟩
  simp only [declaredOf_map, List.mem_map, h.declared]

/-- What is alike after `front` is so with more in between. -/
theorem insert {front a b : List Placed} (h : Alike (front ++ a) (front ++ b))
    (layout : List Placed) : Alike (front ++ (layout ++ a)) (front ++ (layout ++ b)) := by
  constructor
  · have hkept := h.kept
    rw [keptOf_append, keptOf_append, List.append_cancel_left_eq] at hkept
    simp only [keptOf_append, hkept]
  · intro p
    have hdeclared := h.declared p
    simp only [declaredOf_append, List.mem_append] at hdeclared ⊢
    rw [or_left_comm, hdeclared, or_left_comm]

/-- A second declaration of a module adds nothing. -/
theorem again {s t : Statement} {name : String} (hs : s.moduleName? = some name)
    (ht : t.moduleName? = some name) (path : List String) (layout : List Placed) :
    Alike ((path, s) :: (path, t) :: layout) ((path, s) :: layout) := by
  constructor
  · rw [keptOf_cons hs, keptOf_cons ht, keptOf_cons hs]
  · intro p
    simp only [declaredOf_cons hs, declaredOf_cons ht, List.mem_cons, or_self_left]

end Alike

/-- After a declaration of module `name`, the blocks of that module may be taken together. -/
theorem alike_takeBlocks {declaration : Statement} {name : String}
    (h : declaration.moduleName? = some name) (statements : List Statement) :
    Alike ([([], declaration)] ++ placed statements)
      ([([], declaration)] ++ ((placed (takeBlocks name statements).1.flatten).map
        (fun p => (name :: p.1, p.2)) ++ placed (takeBlocks name statements).2)) := by
  fun_induction takeBlocks name statements with
  | case1 again wrapper rest hname body hbody bodies after heq ih =>
    rw [heq] at ih
    rw [placed_cons_of_moduleName? hname, placed_cons_of_moduleBody? hbody, List.flatten_cons,
      placed_append, List.map_append, List.append_assoc]
    exact (Alike.again h hname [] _).trans (ih.insert _)
  | case2 | case3 | case4 => simpa [placed] using Alike.refl _

/-- The layout of a list that starts with a run, up to repeated declarations. -/
theorem Run.alike_placed {statements : List Statement} {r : Run}
    (h : Run.ofList? statements = some r) :
    Alike (placed statements) ([([], r.declaration)] ++
      ((placed r.joined).map (fun p => (r.name :: p.1, p.2)) ++ placed r.rest)) := by
  obtain ⟨rest, rfl, hname, hbody, htake⟩ := Run.ofList?_eq_some_iff.mp h
  have hrest := alike_takeBlocks hname rest
  rw [htake] at hrest
  rw [placed_cons_of_moduleName? hname, placed_cons_of_moduleBody? hbody, Run.joined,
    placed_append, List.map_append, List.append_assoc]
  exact hrest.insert _

/-- Merging drops repeated declarations of modules from the layout, and nothing else. -/
theorem alike_placed_mergeFrom (index : Nat) (statements : List Statement) :
    Alike (placed (mergeFrom index statements).statements) (placed statements) := by
  fun_induction mergeFrom index statements with
  | case1 index statements r h _ inner more ihInner ihMore =>
    obtain ⟨rest, -, hname, hbody, -⟩ := Run.ofList?_eq_some_iff.mp h
    refine Alike.trans ?_ (Run.alike_placed h).symm
    rw [placed_cons_of_moduleName? hname,
      placed_cons_of_moduleBody? (Statement.moduleBody?_withBody hbody _)]
    exact (Alike.refl [([], r.declaration)]).append ((ihInner.map r.name).append ihMore)
  | case2 => exact .refl _
  | case3 index s rest h more ih =>
    rw [placed_cons, placed_cons s rest]
    exact (Alike.refl _).append ih

/-- Merging keeps every statement, in order and in its module, and every module that is declared
stays declared where it was. -/
theorem flattening_optimize (m : ScriptMerger) (statements : List Statement) :
    flattening (m.optimize statements).2 = flattening statements ∧
      ∀ path name, (path, name) ∈ declaredModules (m.optimize statements).2 ↔
        (path, name) ∈ declaredModules statements := by
  have h := alike_placed_mergeFrom 0 statements
  exact ⟨h.kept, fun path name => h.declared (path, name)⟩

end NamespaceMerge.Script
