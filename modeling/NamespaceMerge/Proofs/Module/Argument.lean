import NamespaceMerge.Proofs.Module.Joining
import NamespaceMerge.Toolkit.Standard

/-! The objects that modules are called on. A wrapper is taken for one of a module by its parameter
and by the left side of its argument, which has to spell a name with the name of the module
somewhere in it (`Expression.Spells`). So the code of a dropped wrapper runs on the argument of the
kept one, which may be another object (`not_sameArgument_mall`); where all wrappers of a module have
the same argument, it is the same. -/

namespace NamespaceMerge.Script

/-! ### Expressions up to positions, comments and grouping parentheses -/

def Name.stripped (name : Name) : Name := { origin := {}, text := name.text }

mutual

/-- The expression without positions, comments and grouping parentheses. -/
def Expression.stripped : Expression → Expression
  | .identifier name => .identifier name.stripped
  | .constant _ text => .constant {} text
  | .array _ items => .array {} (strippedExpressions items)
  | .elision _ count => .elision {} count
  | .object _ properties => .object {} (strippedProperties properties)
  | .group _ inner => inner.stripped
  | .function _ name parameters body =>
    .function {} (name.map Name.stripped) (parameters.map Name.stripped) (strippedStatements body)
  | .member _ owner name => .member {} owner.stripped name.stripped
  | .index _ owner index => .index {} owner.stripped index.stripped
  | .create _ callee => .create {} callee.stripped
  | .construct _ callee _ arguments =>
    .construct {} callee.stripped {} (strippedExpressions arguments)
  | .call _ callee _ arguments => .call {} callee.stripped {} (strippedExpressions arguments)
  | .unary _ operator operand => .unary {} operator operand.stripped
  | .increment _ operand operator => .increment {} operand.stripped operator
  | .binary _ operator left right => .binary {} operator left.stripped right.stripped
  | .conditional _ test yes no => .conditional {} test.stripped yes.stripped no.stripped
  | .assign _ operator target value => .assign {} operator target.stripped value.stripped
  | .comma _ left right => .comma {} left.stripped right.stripped

def strippedExpressions : List Expression → List Expression
  | [] => []
  | e :: rest => e.stripped :: strippedExpressions rest

def strippedOption : Option Expression → Option Expression
  | none => none
  | some e => some e.stripped

def Property.stripped : Property → Property
  | .value _ name value => .value {} name.stripped value.stripped
  | .getter _ name body => .getter {} name.stripped (strippedStatements body)
  | .setter _ name parameter body =>
    .setter {} name.stripped parameter.stripped (strippedStatements body)

def strippedProperties : List Property → List Property
  | [] => []
  | p :: rest => p.stripped :: strippedProperties rest

def Declarator.stripped : Declarator → Declarator
  | .bare _ name => .bare {} name.stripped
  | .initialized _ name value => .initialized {} name.stripped value.stripped

def strippedDeclarators : List Declarator → List Declarator
  | [] => []
  | d :: rest => d.stripped :: strippedDeclarators rest

def Statement.stripped : Statement → Statement
  | .block _ body => .block {} (strippedStatements body)
  | .variables _ declarators => .variables {} (strippedDeclarators declarators)
  | .empty _ => .empty {}
  | .expression _ e => .expression {} e.stripped
  | .ifThen _ test yes => .ifThen {} test.stripped yes.stripped
  | .ifElse _ test yes no => .ifElse {} test.stripped yes.stripped no.stripped
  | .doWhile _ body test => .doWhile {} body.stripped test.stripped
  | .whileLoop _ test body => .whileLoop {} test.stripped body.stripped
  | .forLoop _ start test step body =>
    .forLoop {} start.stripped test.stripped (strippedOption step) body.stripped
  | .forIn _ item iterable body => .forIn {} item.stripped iterable.stripped body.stripped
  | .forVariableIn _ _ name value iterable body =>
    .forVariableIn {} {} name.stripped (strippedOption value) iterable.stripped body.stripped
  | .continueTo _ label => .continueTo {} (label.map Name.stripped)
  | .breakOut _ label => .breakOut {} (label.map Name.stripped)
  | .returnFrom _ value => .returnFrom {} (strippedOption value)
  | .withScope _ subject body => .withScope {} subject.stripped body.stripped
  | .switchOn _ subject _ clauses => .switchOn {} subject.stripped {} (strippedClauses clauses)
  | .labelled _ label body => .labelled {} label.stripped body.stripped
  | .throwing _ value => .throwing {} value.stripped
  | .tryBlock _ body handlers => .tryBlock {} body.stripped (strippedHandlers handlers)
  | .debugger _ => .debugger {}
  | .function _ name parameters body =>
    .function {} name.stripped (parameters.map Name.stripped) (strippedStatements body)

def strippedStatements : List Statement → List Statement
  | [] => []
  | s :: rest => s.stripped :: strippedStatements rest

def Clause.stripped : Clause → Clause
  | .caseOf _ test body => .caseOf {} test.stripped (strippedStatements body)
  | .defaultCase _ body => .defaultCase {} (strippedStatements body)

def strippedClauses : List Clause → List Clause
  | [] => []
  | c :: rest => c.stripped :: strippedClauses rest

def Handler.stripped : Handler → Handler
  | .catching _ name body => .catching {} name.stripped body.stripped
  | .finishing _ body => .finishing {} body.stripped

def strippedHandlers : List Handler → List Handler
  | [] => []
  | h :: rest => h.stripped :: strippedHandlers rest

end

namespace Expression

theorem stripped_ungroup : ∀ e : Expression, e.ungroup.stripped = e.stripped
  | .group _ inner => by
    simp only [ungroup, stripped]
    exact stripped_ungroup inner
  | .identifier .. | .constant .. | .array .. | .elision .. | .object .. | .function ..
  | .member .. | .index .. | .create .. | .construct .. | .call .. | .unary .. | .increment ..
  | .binary .. | .conditional .. | .assign .. | .comma .. => by simp only [ungroup]

/-- Positions, comments and parentheses do not matter for the name that an expression spells. -/
theorem dottedName?_stripped : ∀ e : Expression, e.stripped.dottedName? = e.dottedName?
  | .group _ inner => by
    simp only [stripped, dottedName?]
    exact dottedName?_stripped inner
  | .member _ owner name => by
    simp only [stripped, dottedName?, Name.stripped, dottedName?_stripped owner]
  | .identifier .. | .constant .. | .array .. | .elision .. | .object .. | .function ..
  | .index .. | .create .. | .construct .. | .call .. | .unary .. | .increment ..
  | .binary .. | .conditional .. | .assign .. | .comma .. => by
    simp only [stripped, dottedName?, Name.stripped]

theorem leftSide?_stripped {e left : Expression} (h : e.leftSide? = some left) :
    e.stripped.leftSide? = some left.stripped := by
  unfold leftSide? at h
  split at h
  · split at h
    · next hoperator =>
      cases h
      simp only [stripped, leftSide?, hoperator, if_true]
    · cases h
  · cases h
    simp only [stripped, leftSide?]
  · cases h

/-- An argument that wrappers of module `name` may have: a disjunction or an assignment whose left
side spells a name with that name in it. -/
def Spells (argument : Expression) (name : String) : Prop :=
  ∃ left spelled, argument.ungroup.leftSide? = some left ∧ left.dottedName? = some spelled ∧
    Text.includes name.toList spelled.toList = true

/-- Arguments that are the same but for positions, comments and parentheses spell the same. -/
theorem dottedName?_left_of_stripped {a b left left' : Expression}
    (h : a.stripped = b.stripped) (ha : a.ungroup.leftSide? = some left)
    (hb : b.ungroup.leftSide? = some left') : left.dottedName? = left'.dottedName? := by
  have hleft := leftSide?_stripped ha
  have hleft' := leftSide?_stripped hb
  rw [stripped_ungroup, h, ← stripped_ungroup, hleft', Option.some.injEq] at hleft
  rw [← dottedName?_stripped left, ← dottedName?_stripped left', hleft]

end Expression

/-! ### The arguments of wrappers -/

def Statement.argument? (s : Statement) : Option Expression := s.wrapper?.map (·.argument)

theorem Statement.left_of_wrapper? {s : Statement} {w : Wrapper} (h : s.wrapper? = some w) :
    ∃ left, w.argument.ungroup.leftSide? = some left ∧ left.dottedName? = some w.left := by
  obtain ⟨_, _, _, _, _, _, _, left, -, -, -, hleft, hspelled, -⟩ := wrapper?_eq_some_iff.mp h
  exact ⟨left, hleft, hspelled⟩

/-- Two wrappers with the same argument, whatever parentheses are around its parts. -/
def SameArgument (v w : Statement) : Prop :=
  v.argument?.map Expression.stripped = w.argument?.map Expression.stripped

/-- Wrappers with the same argument have the same name on its left side. -/
theorem SameArgument.left_eq {v w : Statement} {x y : Wrapper} (h : SameArgument v w)
    (hv : v.wrapper? = some x) (hw : w.wrapper? = some y) : x.left = y.left := by
  rw [SameArgument, Statement.argument?, Statement.argument?, hv, hw] at h
  simp only [Option.map_some, Option.some.injEq] at h
  obtain ⟨left, hleft, hspelled⟩ := Statement.left_of_wrapper? hv
  obtain ⟨left', hleft', hspelled'⟩ := Statement.left_of_wrapper? hw
  have hsame := Expression.dottedName?_left_of_stripped h hleft hleft'
  rw [hspelled, hspelled', Option.some.injEq] at hsame
  exact hsame

namespace JoinedBlock

variable {statements : List Statement} {j : JoinedBlock}

theorem argument?_merged (h : j ∈ joinedBlocks statements) :
    j.merged.2.argument? = j.kept.argument? := by
  obtain ⟨name, -, hserves⟩ := serves h
  obtain ⟨w, hw, -⟩ := hserves j.kept List.mem_cons_self
  simp only [merged, Statement.argument?, Statement.wrapper?_withBody hw, hw, Option.map_some]

/-- The arguments of joined wrappers all spell the name of the module. -/
theorem spells (h : j ∈ joinedBlocks statements) :
    ∃ name, j.path.getLast? = some name ∧
      ∀ s ∈ j.wrappers, ∃ argument, s.argument? = some argument ∧ argument.Spells name := by
  obtain ⟨name, hname, hserves⟩ := serves h
  refine ⟨name, hname, fun s hs => ?_⟩
  obtain ⟨w, hw, -, -, hpart⟩ := hserves s hs
  obtain ⟨left, hleft, hspelled⟩ := Statement.left_of_wrapper? hw
  refine ⟨w.argument, ?_, left, w.left, hleft, hspelled, hpart⟩
  simp only [Statement.argument?, hw, Option.map_some]

end JoinedBlock

/-! ### Blocks on one object and on two -/

def mention (name : String) : Statement := .expression {} (.identifier (.plain name))

/-- Two blocks of module `shop`, each called on an object of its own. -/
def shopsOn (first second : Expression) : List Statement :=
  moduleBlock "shop" first [mention "first"] ++ moduleBlock "shop" second [mention "second"]

section

variable {first second : Expression} {spelled spelled' : String}

theorem argument?_moduleWrapper {name : String} (h : first.dottedName? = some spelled)
    (body : List Statement) : (moduleWrapper name first body).argument? = some first.orNew := by
  rw [Statement.argument?, wrapper?_moduleWrapper h, Option.map_some]

theorem sameArgument_moduleWrapper {name : String} {body body' : List Statement}
    (h : first.dottedName? = some spelled) (h' : second.dottedName? = some spelled') :
    SameArgument (moduleWrapper name first body) (moduleWrapper name second body') ↔
      first.stripped = second.stripped := by
  rw [SameArgument, argument?_moduleWrapper h, argument?_moduleWrapper h']
  simp only [Option.map_some, Option.some.injEq, Expression.orNew, Expression.stripped,
    Expression.binary.injEq, Expression.assign.injEq, true_and, and_true, and_self]

theorem mem_joinedBlocks_shopsOn
    (h : ∀ body, (moduleWrapper "shop" first body).moduleBody? "shop" = some body)
    (h' : ∀ body, (moduleWrapper "shop" second body).moduleBody? "shop" = some body) :
    { path := ["shop"], kept := moduleWrapper "shop" first [mention "first"]
      dropped := [moduleWrapper "shop" second [mention "second"]] : JoinedBlock } ∈
      joinedBlocks (shopsOn first second) := by
  rw [shopsOn, joinedBlocks_twoBlocks (h _) (h' _)]
  exact List.mem_cons_self

theorem wrappersAt_shopsOn
    (h : ∀ body, (moduleWrapper "shop" first body).moduleBody? "shop" = some body)
    (h' : ∀ body, (moduleWrapper "shop" second body).moduleBody? "shop" = some body) :
    wrappersAt ["shop"] (shopsOn first second) =
      [moduleWrapper "shop" first [mention "first"],
        moduleWrapper "shop" second [mention "second"]] := by
  have hsecond := wrappersIn_moduleBlock (h' [mention "second"]) []
  have hmention (name : String) : wrappersIn [mention name] = [] := by
    rw [wrappersIn_cons_of_ownModule? rfl, wrappersIn_nil]
  rw [List.append_nil, hmention, wrappersIn_nil] at hsecond
  rw [wrappersAt, shopsOn, wrappersIn_moduleBlock (h _), hsecond, hmention]
  rfl

end

def shopOfMall : Expression := .member {} (.identifier (.plain "mall")) (.plain "shop")

theorem moduleBody?_shopOfMall (body : List Statement) :
    (moduleWrapper "shop" shopOfMall body).moduleBody? "shop" = some body :=
  moduleBody?_moduleWrapper (by decide) rfl (by decide) body

theorem moduleBody?_groupedShop (body : List Statement) :
    (moduleWrapper "shop" (.group {} shop) body).moduleBody? "shop" = some body :=
  moduleBody?_moduleWrapper (by decide) rfl (by decide) body

/-! ### The arguments of merged modules -/

/-- Every block of a merged script is made of wrappers of one module of the script, in their order,
and its code runs on the argument of the wrapper that was kept. That one and the wrappers that are
gone spell the name of the module in their arguments; where all wrappers of a module have the same
argument, it is the argument of those that are gone. -/
theorem sameArgument_optimize (m : ScriptMerger) (statements : List Statement) :
    blocksOf (m.optimize statements).2 = (joinedBlocks statements).map JoinedBlock.merged ∧
      ∀ j ∈ joinedBlocks statements,
        j.wrappers.Sublist (wrappersAt j.path statements) ∧
        j.merged.2.argument? = j.kept.argument? ∧
        (∃ name, j.path.getLast? = some name ∧
          ∀ s ∈ j.wrappers, ∃ argument, s.argument? = some argument ∧ argument.Spells name) ∧
        ((wrappersAt j.path statements).Pairwise SameArgument →
          ∀ w ∈ j.dropped, SameArgument j.kept w) := by
  refine ⟨blocksOf_merge statements, fun j hj => ?_⟩
  have hsub := JoinedBlock.sublist_wrappersAt hj
  refine ⟨hsub, JoinedBlock.argument?_merged hj, JoinedBlock.spells hj, fun h => ?_⟩
  exact (List.pairwise_cons.mp (h.sublist hsub)).1

theorem sameArgument_optimize_grouped :
    let script := shopsOn shop (.group {} shop)
    (wrappersAt ["shop"] script).Pairwise SameArgument ∧
      ∃ j ∈ joinedBlocks script, j.dropped ≠ [] ∧ ∀ w ∈ j.dropped, SameArgument j.kept w := by
  intro script
  have hsame : (wrappersAt ["shop"] script).Pairwise SameArgument := by
    rw [wrappersAt_shopsOn moduleBody?_shop moduleBody?_groupedShop, List.pairwise_pair,
      sameArgument_moduleWrapper rfl rfl]
    rfl
  have hj := mem_joinedBlocks_shopsOn moduleBody?_shop moduleBody?_groupedShop
  let merger : ScriptMerger :=
    { settings := .standard, file := { contents := "", name := "shop.js" } }
  obtain ⟨-, hjoined⟩ := sameArgument_optimize merger script
  exact ⟨hsame, _, hj, List.cons_ne_nil _ _, (hjoined _ hj).2.2.2 hsame⟩

/-- A block on `mall.shop` is joined to one on `shop`. -/
theorem not_sameArgument_mall :
    ¬ ∀ j ∈ joinedBlocks (shopsOn shop shopOfMall), ∀ w ∈ j.dropped, SameArgument j.kept w := by
  intro h
  have hj := mem_joinedBlocks_shopsOn moduleBody?_shop moduleBody?_shopOfMall
  have hsame := h _ hj _ List.mem_cons_self
  have hleft := hsame.left_eq (wrapper?_moduleWrapper rfl _) (wrapper?_moduleWrapper rfl _)
  exact absurd hleft (by decide)

end NamespaceMerge.Script
