import NamespaceMerge.Proofs.Module.Joining
import NamespaceMerge.Toolkit.Standard

/-! The names that the bodies of modules declare, each in the function around it. Merging does not
look at them: it renames none, and the function of a joined block declares what the joined bodies
declare, no more and no less (`JoinedBlock.mem_declaredNames_merged`). So bodies that declare a name
in common share it once they are joined (`not_separate_sold`), and bodies that have none in
common keep what is theirs. -/

namespace NamespaceMerge.Script

def Declarator.name : Declarator → Name
  | .bare _ name => name
  | .initialized _ name _ => name

/-- The names that a statement declares, as a statement of a function body. -/
def Statement.declared : Statement → List String
  | .variables _ declarators => declarators.map (·.name.text)
  | .function _ name _ _ => [name.text]
  | _ => []

/-- The names that a body declares at its top level. -/
def declaredNames (body : List Statement) : List String := body.flatMap Statement.declared

/-- The names that a part of a body declares for itself. The name of a module block is shared with
the other blocks of the module. -/
def Outline.privateNames : Outline → List String
  | .module _ _ => []
  | .other s => s.declared

/-- The names that a body declares at its top level, but for the names of its module blocks. -/
def privateNames (body : List Statement) : List String :=
  (outline body).flatMap Outline.privateNames

/-- Two bodies neither of which declares a private name of the other. -/
structure Separate (a b : List Statement) : Prop where
  left : ∀ name ∈ privateNames a, name ∉ declaredNames b
  right : ∀ name ∈ privateNames b, name ∉ declaredNames a

/-! ### What merging does to the declared names -/

theorem declaredNames_cons (s : Statement) (rest : List Statement) :
    declaredNames (s :: rest) = s.declared ++ declaredNames rest := List.flatMap_cons

theorem mem_declaredNames_cons {name : String} {s : Statement} {rest : List Statement} :
    name ∈ declaredNames (s :: rest) ↔ name ∈ s.declared ∨ name ∈ declaredNames rest := by
  rw [declaredNames_cons, List.mem_append]

theorem mem_declaredNames_flatten {name : String} {bodies : List (List Statement)} :
    name ∈ declaredNames bodies.flatten ↔ ∃ body ∈ bodies, name ∈ declaredNames body := by
  simp only [declaredNames, List.mem_flatMap, List.mem_flatten]
  constructor
  · rintro ⟨s, ⟨body, hbody, hs⟩, hname⟩
    exact ⟨body, hbody, s, hs, hname⟩
  · rintro ⟨body, hbody, s, hs, hname⟩
    exact ⟨s, ⟨body, hbody, hs⟩, hname⟩

theorem Statement.declared_of_moduleName? {s : Statement} {name : String}
    (h : s.moduleName? = some name) : s.declared = [name] := by
  unfold moduleName? at h
  split at h
  · simpa [declared, Declarator.name] using h
  · cases h

theorem Statement.declared_of_moduleBody? {s : Statement} {name : String} {body : List Statement}
    (h : s.moduleBody? name = some body) : s.declared = [] := by
  obtain ⟨w, hw, -⟩ := moduleBody?_eq_some_iff.mp h
  obtain ⟨origin, e, _, _, _, _, _, _, rfl, -⟩ := wrapper?_eq_some_iff.mp hw
  rfl

/-- The blocks of module `name` at the start of a list declare that name only. -/
theorem mem_declaredNames_takeBlocks (name declared : String) (statements : List Statement) :
    declared = name ∨ declared ∈ declaredNames statements ↔
      declared = name ∨ declared ∈ declaredNames (takeBlocks name statements).2 := by
  fun_induction takeBlocks name statements with
  | case1 declaration wrapper rest hname body hbody bodies after heq ih =>
    rw [heq] at ih
    rw [mem_declaredNames_cons, mem_declaredNames_cons,
      Statement.declared_of_moduleName? hname, Statement.declared_of_moduleBody? hbody,
      List.mem_singleton, ← ih]
    simp only [List.not_mem_nil, false_or, or_self_left]
  | case2 | case3 | case4 => rfl

theorem mem_declaredNames_mergeFrom {name : String} (index : Nat) (statements : List Statement) :
    name ∈ declaredNames (mergeFrom index statements).statements ↔
      name ∈ declaredNames statements := by
  fun_induction mergeFrom index statements with
  | case1 index statements r h _ inner more ihInner ihMore =>
    obtain ⟨rest, rfl, hname, hbody, htake⟩ := Run.ofList?_eq_some_iff.mp h
    have hrest := mem_declaredNames_takeBlocks r.name name rest
    rw [htake] at hrest
    have hwrapper := Statement.declared_of_moduleBody?
      (Statement.moduleBody?_withBody hbody inner.statements)
    simp only [mem_declaredNames_cons, Statement.declared_of_moduleName? hname, hwrapper,
      Statement.declared_of_moduleBody? hbody, List.mem_singleton, List.not_mem_nil, false_or]
    rw [hrest, ihMore]
  | case2 => rfl
  | case3 index s rest h more ih => rw [mem_declaredNames_cons, mem_declaredNames_cons, ih]

namespace JoinedBlock

variable {statements : List Statement} {j : JoinedBlock}

theorem body_merged (h : j ∈ joinedBlocks statements) :
    j.merged.2.body = (merge j.bodies.flatten).statements := by
  obtain ⟨name, -, hserves⟩ := serves h
  obtain ⟨w, hw, -⟩ := hserves j.kept List.mem_cons_self
  simp only [merged, Statement.body, Statement.wrapper?_withBody hw, Option.map_some,
    Option.getD_some]

/-- The function of a joined block declares exactly the names that the joined bodies declare. -/
theorem mem_declaredNames_merged (h : j ∈ joinedBlocks statements) {name : String} :
    name ∈ declaredNames j.merged.2.body ↔ ∃ body ∈ j.bodies, name ∈ declaredNames body := by
  rw [body_merged h, merge, mem_declaredNames_mergeFrom, mem_declaredNames_flatten]

end JoinedBlock

/-! ### Blocks that count -/

theorem privateNames_nil : privateNames [] = [] := by simp [privateNames, outline]

theorem privateNames_cons {s : Statement} {rest : List Statement}
    (h : Run.ofList? (s :: rest) = none) :
    privateNames (s :: rest) = s.declared ++ privateNames rest := by
  rw [privateNames, outline_cons h, List.flatMap_cons, privateNames, Outline.privateNames]

theorem privateNames_moduleBlock {name : String} {object : Expression} {body : List Statement}
    (h : (moduleWrapper name object body).moduleBody? name = some body) (rest : List Statement) :
    privateNames (moduleBlock name object body ++ rest) = privateNames rest := by
  rw [moduleBlock, List.cons_append, List.singleton_append, privateNames, outline_block rfl h,
    List.flatMap_cons, privateNames, Outline.privateNames, List.nil_append]

def counter (name : String) : Statement :=
  .variables {} [.initialized {} (.plain name) (.constant {} "0")]

theorem declared_counter (name : String) : (counter name).declared = [name] := rfl

theorem privateNames_counter (name : String) (rest : List Statement) :
    privateNames (counter name :: rest) = name :: privateNames rest := by
  rw [privateNames_cons, declared_counter, List.singleton_append]
  rw [Run.ofList?_cons_eq_none_iff]
  rintro _ _ ⟨⟩

def till : Expression := .identifier (.plain "till")

/-- The body of a block of module `shop`: a counter, and a block of module `till` with another. -/
def shopBody (sold paid : String) : List Statement :=
  counter sold :: moduleBlock "till" till [counter paid]

/-- Two blocks of module `shop`. -/
def twoShops (first second : List Statement) : List Statement :=
  moduleBlock "shop" shop first ++ moduleBlock "shop" shop second

theorem moduleBody?_till (body : List Statement) :
    (moduleWrapper "till" till body).moduleBody? "till" = some body :=
  moduleBody?_moduleWrapper (by decide) rfl (by decide) body

theorem privateNames_shopBody (sold paid : String) :
    privateNames (shopBody sold paid) = [sold] := by
  have hblock := privateNames_moduleBlock (moduleBody?_till [counter paid]) []
  rw [List.append_nil] at hblock
  rw [shopBody, privateNames_counter, hblock, privateNames_nil]

theorem declaredNames_shopBody (sold paid : String) :
    declaredNames (shopBody sold paid) = [sold, "till"] := rfl

theorem wrappersIn_shopBody (sold paid : String) :
    wrappersIn (shopBody sold paid) =
      [(["till"], moduleWrapper "till" till [counter paid])] := by
  have htill := wrappersIn_moduleBlock (moduleBody?_till [counter paid]) []
  rw [shopBody, wrappersIn_cons_of_ownModule? rfl, ← List.append_nil (moduleBlock ..), htill,
    wrappersIn_cons_of_ownModule? rfl, wrappersIn_nil]
  rfl

theorem mem_joinedBlocks_twoShops (first second : List Statement) :
    ∃ j ∈ joinedBlocks (twoShops first second), j.path = ["shop"] ∧ j.bodies = [first, second] := by
  rw [twoShops, joinedBlocks_twoBlocks (moduleBody?_shop _) (moduleBody?_shop _)]
  refine ⟨_, List.mem_cons_self, rfl, ?_⟩
  simp only [JoinedBlock.bodies, JoinedBlock.wrappers, List.map_cons, List.map_nil,
    Statement.body_of_moduleBody? (moduleBody?_shop _)]

theorem map_body_wrappersAt_twoShops (sold paid bought owed : String) :
    (wrappersAt ["shop"] (twoShops (shopBody sold paid) (shopBody bought owed))).map
      Statement.body = [shopBody sold paid, shopBody bought owed] := by
  have hsecond := wrappersIn_moduleBlock (moduleBody?_shop (shopBody bought owed)) []
  rw [List.append_nil] at hsecond
  rw [wrappersAt, twoShops, wrappersIn_moduleBlock (moduleBody?_shop _), hsecond,
    wrappersIn_shopBody, wrappersIn_shopBody]
  simp [Statement.body_of_moduleBody? (moduleBody?_shop _)]

/-! ### The names of merged modules -/

/-- Every block of a merged script is made of wrappers of one module of the script, in their order,
and its function declares what their bodies declare. Where no two wrappers of a module have bodies
that declare a private name in common, no two bodies that are put into a function of that module
have. -/
theorem separate_optimize (m : ScriptMerger) (statements : List Statement) :
    blocksOf (m.optimize statements).2 = (joinedBlocks statements).map JoinedBlock.merged ∧
      ∀ j ∈ joinedBlocks statements,
        j.wrappers.Sublist (wrappersAt j.path statements) ∧
        (∀ name, name ∈ declaredNames j.merged.2.body ↔
          ∃ body ∈ j.bodies, name ∈ declaredNames body) ∧
        (((wrappersAt j.path statements).map Statement.body).Pairwise Separate →
          j.bodies.Pairwise Separate) := by
  refine ⟨blocksOf_merge statements, fun j hj => ?_⟩
  have hsub := JoinedBlock.sublist_wrappersAt hj
  refine ⟨hsub, fun name => JoinedBlock.mem_declaredNames_merged hj, fun h => ?_⟩
  exact h.sublist (hsub.map Statement.body)

theorem separate_optimize_twoShops :
    let script := twoShops (shopBody "sold" "paid") (shopBody "bought" "owed")
    ((wrappersAt ["shop"] script).map Statement.body).Pairwise Separate ∧
      ∃ j ∈ joinedBlocks script, j.bodies = [shopBody "sold" "paid", shopBody "bought" "owed"] ∧
        j.bodies.Pairwise Separate := by
  intro script
  have hapart : ((wrappersAt ["shop"] script).map Statement.body).Pairwise Separate := by
    rw [map_body_wrappersAt_twoShops, List.pairwise_pair]
    constructor
    · rw [privateNames_shopBody, declaredNames_shopBody]
      decide
    · rw [privateNames_shopBody, declaredNames_shopBody]
      decide
  obtain ⟨j, hj, hpath, hbodies⟩ := mem_joinedBlocks_twoShops _ _
  let merger : ScriptMerger :=
    { settings := .standard, file := { contents := "", name := "shop.js" } }
  obtain ⟨-, hjoined⟩ := separate_optimize merger script
  exact ⟨hapart, j, hj, hbodies, (hjoined j hj).2.2 (hpath ▸ hapart)⟩

/-- Two blocks that count under one name are joined all the same. -/
theorem not_separate_sold :
    ¬ ∀ j ∈ joinedBlocks (twoShops [counter "sold"] [counter "sold"]),
      j.bodies.Pairwise Separate := by
  intro h
  obtain ⟨j, hj, -, hbodies⟩ := mem_joinedBlocks_twoShops [counter "sold"] [counter "sold"]
  have hpair := h j hj
  rw [hbodies, List.pairwise_pair] at hpair
  refine hpair.left "sold" ?_ ?_
  · rw [privateNames_counter]
    exact List.mem_cons_self
  · exact List.mem_cons_self

end NamespaceMerge.Script
