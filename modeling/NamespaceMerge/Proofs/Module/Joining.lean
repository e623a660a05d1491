import NamespaceMerge.Proofs.Module.Flattening
import NamespaceMerge.Proofs.Module.NormalForm

/-! Which blocks of a script end up in one. Every block of a merged script is a joined block
(`blocksOf_merge`): a wrapper of the input that was kept, and the wrappers whose bodies were put
behind its own. All of them are wrappers of one module of the input, in this order
(`JoinedBlock.sublist_wrappersAt`), so what holds of any two wrappers of a module holds of any two
that are joined. -/

namespace NamespaceMerge.Script

/-- The statements that a wrapper wraps. -/
def Statement.body (s : Statement) : List Statement := (s.wrapper?.map (·.body)).getD []

theorem Statement.body_of_moduleBody? {s : Statement} {name : String} {body : List Statement}
    (h : s.moduleBody? name = some body) : s.body = body := by
  obtain ⟨w, hw, -, rfl⟩ := moduleBody?_eq_some_iff.mp h
  simp only [Statement.body, hw, Option.map_some, Option.getD_some]

/-- A block of a merged script. -/
structure JoinedBlock where
  /-- The modules that the block stands in, with its own module at the end. -/
  path : List String
  /-- The wrapper of the first block of the run, around the bodies of all. -/
  kept : Statement
  /-- The wrappers of the other blocks, which are gone. -/
  dropped : List Statement

namespace JoinedBlock

def wrappers (j : JoinedBlock) : List Statement := j.kept :: j.dropped

/-- The bodies that were put into one. -/
def bodies (j : JoinedBlock) : List (List Statement) := j.wrappers.map Statement.body

def within (name : String) (j : JoinedBlock) : JoinedBlock := { j with path := name :: j.path }

/-- The block as the merged script has it. -/
def merged (j : JoinedBlock) : Placed :=
  (j.path, j.kept.withBody (merge j.bodies.flatten).statements)

end JoinedBlock

/-- The wrappers of the blocks of module `name` at the start of a list. -/
def takeWrappers (name : String) : List Statement → List Statement
  | declaration :: wrapper :: rest =>
    if declaration.moduleName? = some name then
      match wrapper.moduleBody? name with
      | some _ => wrapper :: takeWrappers name rest
      | none => []
    else []
  | _ => []

theorem map_body_takeWrappers (name : String) (statements : List Statement) :
    (takeWrappers name statements).map Statement.body = (takeBlocks name statements).1 := by
  fun_induction takeBlocks name statements with
  | case1 declaration wrapper rest hname body hbody bodies after heq ih =>
    rw [heq] at ih
    simp only [takeWrappers, hname, hbody, if_true, List.map_cons,
      Statement.body_of_moduleBody? hbody, ih]
  | case2 declaration wrapper rest hname hbody => simp [takeWrappers, hname, hbody]
  | case3 declaration wrapper rest hname => simp [takeWrappers, hname]
  | case4 statements h =>
    rcases statements with _ | ⟨a, _ | ⟨b, rest⟩⟩
    · rfl
    · rfl
    · exact (h a b rest rfl).elim

theorem mem_takeWrappers {name : String} {w : Statement} {statements : List Statement}
    (h : w ∈ takeWrappers name statements) : ∃ body, w.moduleBody? name = some body := by
  fun_induction takeWrappers name statements with
  | case1 declaration wrapper rest hname body hbody ih =>
    rcases List.mem_cons.mp h with rfl | h
    · exact ⟨body, hbody⟩
    · exact ih h
  | case2 | case3 | case4 => cases h

/-- The first block of a list after the blocks of its run are joined to it. -/
def Run.joinedBlock (r : Run) (statements : List Statement) : JoinedBlock :=
  { path := [r.name], kept := r.wrapper, dropped := takeWrappers r.name (statements.drop 2) }

theorem Run.bodies_joinedBlock {statements : List Statement} {r : Run}
    (h : Run.ofList? statements = some r) :
    (r.joinedBlock statements).bodies = r.body :: r.further := by
  obtain ⟨rest, rfl, -, hbody, htake⟩ := Run.ofList?_eq_some_iff.mp h
  have hfurther := map_body_takeWrappers r.name rest
  rw [htake] at hfurther
  simp only [joinedBlock, JoinedBlock.bodies, JoinedBlock.wrappers, List.drop_succ_cons,
    List.drop_zero, List.map_cons, Statement.body_of_moduleBody? hbody, hfurther]

theorem Run.flatten_bodies_joinedBlock {statements : List Statement} {r : Run}
    (h : Run.ofList? statements = some r) :
    (r.joinedBlock statements).bodies.flatten = r.joined := by
  rw [bodies_joinedBlock h, List.flatten_cons, joined]

/-- A list weighs less, or is shorter, without its first statement. -/
theorem weight_tail_lex (s : Statement) (rest : List Statement) :
    Prod.Lex (· < ·) (· < ·) (weight rest, rest.length)
      (weight (s :: rest), (s :: rest).length) := by
  simp only [weight, List.length_cons]
  rcases Nat.eq_zero_or_pos (sizeOf s) with hs | hs
  · rw [hs, Nat.zero_add]
    exact .right _ (Nat.lt_succ_self _)
  · exact .left _ _ (by omega)

/-- The blocks of a list after merging, in order, each before the ones inside it. -/
def joinedBlocks (statements : List Statement) : List JoinedBlock :=
  match h : Run.ofList? statements with
  | some r =>
    have := Run.weight_lt h
    r.joinedBlock statements ::
      ((joinedBlocks r.joined).map (JoinedBlock.within r.name) ++ joinedBlocks r.rest)
  | none =>
    match statements with
    | [] => []
    | _ :: rest => joinedBlocks rest
termination_by (weight statements, statements.length)
decreasing_by
  · exact .left _ _ this.1
  · exact .left _ _ this.2
  · exact weight_tail_lex _ _

theorem joinedBlocks_run {statements : List Statement} {r : Run}
    (h : Run.ofList? statements = some r) :
    joinedBlocks statements = r.joinedBlock statements ::
      ((joinedBlocks r.joined).map (JoinedBlock.within r.name) ++ joinedBlocks r.rest) := by
  rw [joinedBlocks]
  split
  · next r' h' =>
    rw [h] at h'
    cases h'
    rfl
  · next h' =>
    rw [h] at h'
    cases h'

theorem joinedBlocks_cons {s : Statement} {rest : List Statement}
    (h : Run.ofList? (s :: rest) = none) : joinedBlocks (s :: rest) = joinedBlocks rest := by
  rw [joinedBlocks]
  split
  · next r h' =>
    rw [h] at h'
    cases h'
  · rfl

@[simp] theorem joinedBlocks_nil : joinedBlocks [] = [] := by
  rw [joinedBlocks]
  rfl

/-- What holds of the first block of every list that has one, and for the outer list if it holds
inside a module, holds of all joined blocks. -/
theorem JoinedBlock.induction {P : List Statement → JoinedBlock → Prop}
    (first : ∀ statements r, Run.ofList? statements = some r →
      P statements (r.joinedBlock statements))
    (inner : ∀ statements r j, Run.ofList? statements = some r → P r.joined j →
      P statements (j.within r.name))
    (more : ∀ statements r j, Run.ofList? statements = some r → P r.rest j → P statements j)
    (skip : ∀ s rest j, P rest j → P (s :: rest) j) {statements : List Statement} {j : JoinedBlock}
    (h : j ∈ joinedBlocks statements) : P statements j := by
  fun_induction joinedBlocks statements generalizing j with
  | case1 statements r hr _ ihInner ihMore =>
    rcases List.mem_cons.mp h with rfl | h
    · exact first statements r hr
    rcases List.mem_append.mp h with h | h
    · obtain ⟨j, hj, rfl⟩ := List.mem_map.mp h
      exact inner statements r j hr (ihInner hj)
    · exact more statements r j hr (ihMore h)
  | case2 => cases h
  | case3 s rest _ ih => exact skip s rest j (ih h)

/-! ### The blocks of a merged script -/

/-- The wrappers of the blocks of a list, in order, each with its path of modules and before the
ones inside it. -/
def blocksOf (statements : List Statement) : List Placed :=
  match statements with
  | [] => []
  | [_] => []
  | s :: wrapper :: rest =>
    match s.moduleName? with
    | none => blocksOf (wrapper :: rest)
    | some name =>
      match h : wrapper.moduleBody? name with
      | some body =>
        have := weight_body_lt h
        ([name], wrapper) :: ((blocksOf body).map fun p => (name :: p.1, p.2)) ++ blocksOf rest
      | none => blocksOf (wrapper :: rest)
termination_by (weight statements, statements.length)
decreasing_by
  · exact weight_tail_lex _ _
  · refine .left _ _ ?_
    simp only [weight] at *
    omega
  · exact IsTrans.trans _ _ _ (weight_tail_lex _ _) (weight_tail_lex _ _)
  · exact weight_tail_lex _ _

theorem blocksOf_block {declaration wrapper : Statement} {name : String} {body : List Statement}
    (hname : declaration.moduleName? = some name) (hbody : wrapper.moduleBody? name = some body)
    (rest : List Statement) :
    blocksOf (declaration :: wrapper :: rest) =
      ([name], wrapper) :: ((blocksOf body).map fun p => (name :: p.1, p.2)) ++ blocksOf rest := by
  rw [blocksOf]
  split
  · next h =>
    rw [hname] at h
    cases h
  · next name' h =>
    rw [hname] at h
    cases h
    split
    · next body' h' =>
      rw [hbody] at h'
      cases h'
      rfl
    · next h' =>
      rw [hbody] at h'
      cases h'

theorem blocksOf_cons {s : Statement} {rest : List Statement}
    (h : Run.ofList? (s :: rest) = none) : blocksOf (s :: rest) = blocksOf rest := by
  rw [Run.ofList?_cons_eq_none_iff] at h
  cases rest with
  | nil => simp [blocksOf]
  | cons wrapper rest =>
    rw [blocksOf]
    split
    · rfl
    · next name hname =>
      split
      · next body hbody =>
        rw [h name wrapper hname rfl] at hbody
        cases hbody
      · rfl

theorem blocksOf_mergeFrom (index : Nat) (statements : List Statement) :
    blocksOf (mergeFrom index statements).statements =
      (joinedBlocks statements).map JoinedBlock.merged := by
  fun_induction mergeFrom index statements with
  | case1 index statements r h _ inner more ihInner ihMore =>
    obtain ⟨rest, -, hname, hbody, -⟩ := Run.ofList?_eq_some_iff.mp h
    have hfirst : (r.joinedBlock statements).merged =
        ([r.name], r.wrapper.withBody inner.statements) := by
      rw [JoinedBlock.merged, Run.flatten_bodies_joinedBlock h]
      rfl
    rw [blocksOf_block hname (Statement.moduleBody?_withBody hbody _), joinedBlocks_run h,
      List.map_cons, List.map_append, List.map_map, hfirst, ihInner, ihMore, List.map_map]
    rfl
  | case2 => simp [blocksOf]
  | case3 index s rest h more ih =>
    rw [blocksOf_cons (Run.ofList?_cons_mergeFrom (index + 1) h), joinedBlocks_cons h, ih]

/-- The blocks of a merged script are the joined ones. -/
theorem blocksOf_merge (statements : List Statement) :
    blocksOf (merge statements).statements = (joinedBlocks statements).map JoinedBlock.merged :=
  blocksOf_mergeFrom 0 statements

/-- The blocks that are gone are the ones that the merge counts. -/
theorem joins_mergeFrom (index : Nat) (statements : List Statement) :
    (mergeFrom index statements).joins =
      ((joinedBlocks statements).flatMap (·.dropped)).length := by
  fun_induction mergeFrom index statements with
  | case1 index statements r h _ inner more ihInner ihMore =>
    have hlength : (r.joinedBlock statements).dropped.length = r.further.length := by
      have hbodies := congrArg List.length (Run.bodies_joinedBlock h)
      simpa [JoinedBlock.bodies, JoinedBlock.wrappers] using hbodies
    rw [joinedBlocks_run h, List.flatMap_cons, List.flatMap_append, List.flatMap_map,
      List.length_append, List.length_append, hlength, ← Nat.add_assoc, ← ihMore]
    exact congrArg (r.further.length + · + more.joins) ihInner
  | case2 => simp
  | case3 index s rest h more ih => rw [joinedBlocks_cons h, ih]

/-! ### Where the joined wrappers come from -/

/-- The wrappers of a list, at all depths, each with its path of modules. -/
def wrappersIn : List Statement → List Placed
  | [] => []
  | s :: rest =>
    match h : s.ownModule? with
    | some (name, body) =>
      have := Statement.sizeOf_ownModule?_lt h
      ([name], s) :: ((wrappersIn body).map fun p => (name :: p.1, p.2)) ++ wrappersIn rest
    | none => wrappersIn rest
termination_by statements => sizeOf statements
decreasing_by
  all_goals
    simp only [List.cons.sizeOf_spec]
    omega

@[simp] theorem wrappersIn_nil : wrappersIn [] = [] := by rw [wrappersIn]

theorem wrappersIn_cons_of_moduleBody? {s : Statement} {name : String} {body : List Statement}
    (h : s.moduleBody? name = some body) (rest : List Statement) :
    wrappersIn (s :: rest) =
      ([name], s) :: ((wrappersIn body).map fun p => (name :: p.1, p.2)) ++ wrappersIn rest := by
  have hown := Statement.ownModule?_eq_some_iff.mpr h
  rw [wrappersIn]
  split
  · next h' =>
    rw [hown] at h'
    cases h'
    rfl
  · next h' =>
    rw [hown] at h'
    cases h'

theorem wrappersIn_cons_of_ownModule? {s : Statement} (h : s.ownModule? = none)
    (rest : List Statement) : wrappersIn (s :: rest) = wrappersIn rest := by
  rw [wrappersIn]
  split
  · next h' =>
    rw [h] at h'
    cases h'
  · rfl

theorem Statement.ownModule?_of_moduleName? {s : Statement} {name : String}
    (h : s.moduleName? = some name) : s.ownModule? = none := by
  cases hown : s.ownModule? with
  | none => rfl
  | some own =>
    rw [moduleName?_of_moduleBody? (ownModule?_eq_some_iff.mp hown)] at h
    cases h

theorem wrappersIn_cons (s : Statement) (rest : List Statement) :
    wrappersIn (s :: rest) = wrappersIn [s] ++ wrappersIn rest := by
  rw [wrappersIn, wrappersIn]
  split <;> simp

theorem wrappersIn_append (a b : List Statement) :
    wrappersIn (a ++ b) = wrappersIn a ++ wrappersIn b := by
  induction a with
  | nil => simp
  | cons s a ih =>
    rw [List.cons_append, wrappersIn_cons, ih, wrappersIn_cons s a, List.append_assoc]

/-- The wrappers of a list that stand in one module, in order. -/
def wrappersAt (path : List String) (statements : List Statement) : List Statement :=
  ((wrappersIn statements).filter fun p => p.1 = path).map (·.2)

/-- The blocks that are taken from the start of a list: their wrappers, what stands inside them, and
what follows them all stand in the list. -/
theorem sublist_wrappersIn_takeBlocks (name : String) (statements : List Statement) :
    ((takeWrappers name statements).map (([name], ·))).Sublist (wrappersIn statements) ∧
      (((wrappersIn (takeBlocks name statements).1.flatten).map fun p => (name :: p.1, p.2)) ++
        wrappersIn (takeBlocks name statements).2).Sublist (wrappersIn statements) := by
  fun_induction takeBlocks name statements with
  | case1 declaration wrapper rest hname body hbody bodies after heq ih =>
    rw [heq] at ih
    obtain ⟨ihWrappers, ihRest⟩ := ih
    rw [wrappersIn_cons_of_ownModule? (Statement.ownModule?_of_moduleName? hname),
      wrappersIn_cons_of_moduleBody? hbody]
    constructor
    · simp only [takeWrappers, hname, hbody, if_true, List.map_cons, List.cons_append]
      exact (ihWrappers.trans (List.sublist_append_right _ _)).cons_cons _
    · rw [List.flatten_cons, wrappersIn_append, List.map_append, List.append_assoc,
        List.cons_append]
      exact ((List.Sublist.refl _).append ihRest).cons _
  | case2 declaration wrapper rest hname hbody => simp [takeWrappers, hname, hbody]
  | case3 declaration wrapper rest hname => simp [takeWrappers, hname]
  | case4 statements h =>
    refine ⟨?_, by simp⟩
    rcases statements with _ | ⟨a, _ | ⟨b, rest⟩⟩
    · simp [takeWrappers]
    · simp [takeWrappers]
    · exact (h a b rest rfl).elim

namespace Run

variable {statements : List Statement} {r : Run}

theorem sublist_wrappersIn_joinedBlock (h : Run.ofList? statements = some r) :
    ((r.joinedBlock statements).wrappers.map (([r.name], ·))).Sublist (wrappersIn statements) := by
  obtain ⟨rest, rfl, hname, hbody, -⟩ := ofList?_eq_some_iff.mp h
  rw [wrappersIn_cons_of_ownModule? (Statement.ownModule?_of_moduleName? hname),
    wrappersIn_cons_of_moduleBody? hbody]
  have hrest := (sublist_wrappersIn_takeBlocks r.name rest).1
  exact (hrest.trans (List.sublist_append_right _ _)).cons_cons _

theorem sublist_wrappersIn_joined (h : Run.ofList? statements = some r) :
    (((wrappersIn r.joined).map fun p => (r.name :: p.1, p.2)) ++ wrappersIn r.rest).Sublist
      (wrappersIn statements) := by
  obtain ⟨rest, rfl, hname, hbody, htake⟩ := ofList?_eq_some_iff.mp h
  have hrest := (sublist_wrappersIn_takeBlocks r.name rest).2
  rw [htake] at hrest
  rw [wrappersIn_cons_of_ownModule? (Statement.ownModule?_of_moduleName? hname),
    wrappersIn_cons_of_moduleBody? hbody, joined, wrappersIn_append, List.map_append,
    List.append_assoc, List.cons_append]
  exact ((List.Sublist.refl _).append hrest).cons _

end Run

namespace JoinedBlock

variable {statements : List Statement} {j : JoinedBlock}

theorem sublist_wrappersIn (h : j ∈ joinedBlocks statements) :
    (j.wrappers.map ((j.path, ·))).Sublist (wrappersIn statements) := by
  refine JoinedBlock.induction (P := fun statements j =>
    (j.wrappers.map ((j.path, ·))).Sublist (wrappersIn statements)) ?first ?inner ?more ?skip h
  case first => exact fun statements r hr => Run.sublist_wrappersIn_joinedBlock hr
  case inner =>
    intro statements r j hr ih
    have hinner := ih.map fun p : Placed => (r.name :: p.1, p.2)
    rw [List.map_map] at hinner
    exact hinner.trans ((List.sublist_append_left _ _).trans (Run.sublist_wrappersIn_joined hr))
  case more =>
    intro statements r j hr ih
    exact ih.trans ((List.sublist_append_right _ _).trans (Run.sublist_wrappersIn_joined hr))
  case skip =>
    intro s rest j ih
    rw [wrappersIn_cons]
    exact ih.trans (List.sublist_append_right _ _)

/-- The wrappers of a joined block are wrappers of one module of the list, in this order. -/
theorem sublist_wrappersAt (h : j ∈ joinedBlocks statements) :
    j.wrappers.Sublist (wrappersAt j.path statements) := by
  have hsub := ((sublist_wrappersIn h).filter fun p => p.1 = j.path).map Prod.snd
  have hall : (j.wrappers.map ((j.path, ·))).filter (fun p => p.1 = j.path) =
      j.wrappers.map ((j.path, ·)) := by
    rw [List.filter_eq_self]
    intro p hp
    obtain ⟨w, -, rfl⟩ := List.mem_map.mp hp
    exact decide_eq_true rfl
  rwa [hall, List.map_map, Function.comp_def, List.map_id'] at hsub

/-- The wrappers of a joined block are wrappers of its own module. -/
theorem serves (h : j ∈ joinedBlocks statements) :
    ∃ name, j.path.getLast? = some name ∧
      ∀ s ∈ j.wrappers, ∃ w, s.wrapper? = some w ∧ w.Serves name := by
  refine JoinedBlock.induction (P := fun _ j => ∃ name, j.path.getLast? = some name ∧
    ∀ s ∈ j.wrappers, ∃ w, s.wrapper? = some w ∧ w.Serves name) ?first ?inner ?more ?skip h
  case first =>
    intro statements r hr
    obtain ⟨rest, rfl, -, hbody, -⟩ := Run.ofList?_eq_some_iff.mp hr
    refine ⟨r.name, rfl, fun s hs => ?_⟩
    have hserved : ∃ body, s.moduleBody? r.name = some body := by
      rcases List.mem_cons.mp hs with rfl | hs
      · exact ⟨r.body, hbody⟩
      · exact mem_takeWrappers hs
    obtain ⟨body, hserved⟩ := hserved
    obtain ⟨w, hw, hserves, -⟩ := Statement.moduleBody?_eq_some_iff.mp hserved
    exact ⟨w, hw, hserves⟩
  case inner =>
    rintro statements r j - ⟨name, hname, hserves⟩
    refine ⟨name, ?_, hserves⟩
    rw [within, List.getLast?_cons, hname]
    rfl
  case more => exact fun _ _ _ _ ih => ih
  case skip => exact fun _ _ _ ih => ih

end JoinedBlock

/-! ### Blocks as they are usually written -/

/-- The object, or a new one in its place: `object || (object = \x7b\x7d)`. -/
def Expression.orNew (object : Expression) : Expression :=
  .binary {} "||" object (.group {} (.assign {} "=" object (.object {} [])))

def Name.plain (text : String) : Name := { origin := {}, text }

/-- The call of a function of module `name` on an object. -/
def moduleWrapper (name : String) (object : Expression) (body : List Statement) : Statement :=
  .expression {} (.call {} (.group {} (.function {} none [.plain name] body)) {} [object.orNew])

def moduleBlock (name : String) (object : Expression) (body : List Statement) : List Statement :=
  [.variables {} [.bare {} (.plain name)], moduleWrapper name object body]

theorem wrapper?_moduleWrapper {name spelled : String} {object : Expression}
    (hspelled : object.dottedName? = some spelled) (body : List Statement) :
    (moduleWrapper name object body).wrapper? =
      some { parameter := name, argument := object.orNew, left := spelled, body } :=
  Statement.wrapper?_eq_some_iff.mpr
    ⟨_, _, _, _, _, _, .plain name, object, rfl, rfl, rfl, rfl, hspelled, rfl⟩

theorem moduleBody?_moduleWrapper {name spelled : String} {object : Expression}
    (hname : name ≠ "") (hspelled : object.dottedName? = some spelled)
    (hpart : Text.includes name.toList spelled.toList = true) (body : List Statement) :
    (moduleWrapper name object body).moduleBody? name = some body :=
  Statement.moduleBody?_eq_some_iff.mpr
    ⟨_, wrapper?_moduleWrapper hspelled body, ⟨hname, rfl, hpart⟩, rfl⟩

/-- The object of module `shop`. -/
def shop : Expression := .identifier (.plain "shop")

theorem moduleBody?_shop (body : List Statement) :
    (moduleWrapper "shop" shop body).moduleBody? "shop" = some body :=
  moduleBody?_moduleWrapper (by decide) rfl (by decide) body

section

variable {name : String} {object : Expression} {body : List Statement}

theorem wrappersIn_moduleBlock (h : (moduleWrapper name object body).moduleBody? name = some body)
    (rest : List Statement) :
    wrappersIn (moduleBlock name object body ++ rest) =
      ([name], moduleWrapper name object body) ::
        ((wrappersIn body).map fun p => (name :: p.1, p.2)) ++ wrappersIn rest := by
  rw [moduleBlock, List.cons_append, wrappersIn_cons_of_ownModule? rfl, List.singleton_append,
    wrappersIn_cons_of_moduleBody? h]

/-- Two blocks of one module in a row become one. -/
theorem joinedBlocks_twoBlocks {again : Expression} {more : List Statement}
    (h : (moduleWrapper name object body).moduleBody? name = some body)
    (hagain : (moduleWrapper name again more).moduleBody? name = some more) :
    joinedBlocks (moduleBlock name object body ++ moduleBlock name again more) =
      { path := [name], kept := moduleWrapper name object body
        dropped := [moduleWrapper name again more] } ::
        (joinedBlocks (body ++ more)).map (JoinedBlock.within name) := by
  have htaken : takeBlocks name (moduleBlock name again more) = ([more], []) := by
    simp [moduleBlock, takeBlocks, Statement.moduleName?, Name.plain, hagain]
  have hwrappers : takeWrappers name (moduleBlock name again more) =
      [moduleWrapper name again more] := by
    simp [moduleBlock, takeWrappers, Statement.moduleName?, Name.plain, hagain]
  have hrun : Run.ofList? (moduleBlock name object body ++ moduleBlock name again more) =
      some { name, declaration := .variables {} [.bare {} (.plain name)]
             wrapper := moduleWrapper name object body, body, further := [more], rest := [] } :=
    Run.ofList?_eq_some_iff.mpr ⟨_, rfl, rfl, h, htaken⟩
  rw [joinedBlocks_run hrun, joinedBlocks_nil, List.append_nil]
  simp only [Run.joinedBlock, Run.joined, List.flatten_cons, List.flatten_nil, List.append_nil]
  rw [← hwrappers]
  rfl

end

end NamespaceMerge.Script
