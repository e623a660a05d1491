import Mathlib.Data.List.Chain
import NamespaceMerge.Merging.ScriptMerger
import NamespaceMerge.Module.Outline
import NamespaceMerge.Proofs.Module.Wrapper

/-! Merging modules reaches a normal form: no two blocks that follow each other are of one module,
at any depth (`settled_outline_mergeFrom`). A list in normal form stays as it is
(`mergeFrom_of_settled`), so merging a second time changes nothing. -/

namespace NamespaceMerge.Script

/-- The module that an item of an outline is a block of. -/
def Outline.moduleName? : Outline → Option String
  | .module name _ => some name
  | .other _ => none

/-- Two items that are not blocks of one module. -/
def Outline.Apart (a b : Outline) : Prop := ∀ name, a.moduleName? = some name →
  b.moduleName? ≠ some name

/-- An outline in which no two blocks that follow each other are of one module, at any depth. -/
inductive Settled : List Outline → Prop
  | intro {items : List Outline} (apart : items.IsChain Outline.Apart)
      (inner : ∀ name body, .module name body ∈ items → Settled body) : Settled items

namespace Settled

theorem nil : Settled [] := .intro .nil fun _ _ h => by cases h

theorem cons_iff {item : Outline} {items : List Outline} :
    Settled (item :: items) ↔ (∀ next ∈ items.head?, item.Apart next) ∧
      (∀ name body, item = .module name body → Settled body) ∧ Settled items := by
  constructor
  · rintro ⟨apart, inner⟩
    rw [List.isChain_cons] at apart
    refine ⟨apart.1, fun name body h => ?_, .intro apart.2 fun name body h => ?_⟩
    · exact inner name body (h ▸ List.mem_cons_self)
    · exact inner name body (List.mem_cons_of_mem _ h)
  · rintro ⟨apart, inner, ⟨chain, rest⟩⟩
    refine .intro (List.isChain_cons.mpr ⟨apart, chain⟩) fun name body h => ?_
    rcases List.mem_cons.mp h with rfl | h
    · exact inner name body rfl
    · exact rest name body h

theorem module_cons_iff {name : String} {body items : List Outline} :
    Settled (.module name body :: items) ↔
      items.head?.bind Outline.moduleName? ≠ some name ∧ Settled body ∧ Settled items := by
  rw [cons_iff]
  refine and_congr ?_ (and_congr_left fun _ => ?_)
  · cases items <;> simp [Outline.Apart, Outline.moduleName?, eq_comm]
  · refine ⟨fun h => h name body rfl, fun h _ _ heq => ?_⟩
    cases heq
    exact h

theorem other_cons_iff {s : Statement} {items : List Outline} :
    Settled (.other s :: items) ↔ Settled items := by
  simp [cons_iff, Outline.Apart, Outline.moduleName?]

end Settled

/-! ### Outlines of lists that start with a run, or with none -/

theorem outline_block {declaration wrapper : Statement} {name : String} {body : List Statement}
    (hname : declaration.moduleName? = some name) (hbody : wrapper.moduleBody? name = some body)
    (rest : List Statement) :
    outline (declaration :: wrapper :: rest) = .module name (outline body) :: outline rest := by
  rw [outline]
  split
  · next h =>
    rw [hname] at h
    cases h
  · next name' h =>
    rw [hname] at h
    cases h
    split
    · next body' h' =>
      rw [hbody] at h'
      cases h'
      rfl
    · next h' =>
      rw [hbody] at h'
      cases h'

theorem outline_cons {s : Statement} {rest : List Statement}
    (h : Run.ofList? (s :: rest) = none) : outline (s :: rest) = .other s :: outline rest := by
  rw [Run.ofList?_cons_eq_none_iff] at h
  cases rest with
  | nil => simp [outline]
  | cons wrapper rest =>
    rw [outline]
    split
    · rfl
    · next name hname =>
      split
      · next body hbody =>
        rw [h name wrapper hname rfl] at hbody
        cases hbody
      · rfl

/-- The first block of an outline is the one of the run at the start of the list. -/
theorem head?_outline (statements : List Statement) :
    (outline statements).head?.bind Outline.moduleName? =
      (Run.ofList? statements).map (·.name) := by
  cases h : Run.ofList? statements with
  | some r =>
    obtain ⟨rest, rfl, hname, hbody, -⟩ := Run.ofList?_eq_some_iff.mp h
    rw [outline_block hname hbody]
    rfl
  | none =>
    cases statements with
    | nil => simp [outline]
    | cons s rest =>
      rw [outline_cons h]
      rfl

/-! ### The blocks that a run takes -/

/-- No block of the module is left at the start of what follows. -/
theorem takeBlocks_maximal (name : String) (statements : List Statement) :
    (Run.ofList? (takeBlocks name statements).2).map (·.name) ≠ some name := by
  fun_induction takeBlocks name statements with
  | case1 _ _ _ _ _ _ bodies after heq ih =>
    rw [heq] at ih
    exact ih
  | case2 declaration wrapper rest hname hbody =>
    rw [Run.ofList?_cons_eq_none_iff.mpr]
    · simp
    · rintro _ _ hname' ⟨⟩
      rw [hname] at hname'
      cases hname'
      exact hbody
  | case3 declaration wrapper rest hname =>
    intro h
    obtain ⟨_, _, _, _, heq, hname', -⟩ := Run.name_ofList?_eq_some_iff.mp h
    cases heq
    exact hname hname'
  | case4 statements h =>
    intro h'
    obtain ⟨_, _, _, _, rfl, -⟩ := Run.name_ofList?_eq_some_iff.mp h'
    exact h _ _ _ rfl

theorem takeBlocks_eq_nil {name : String} {statements : List Statement}
    (h : (Run.ofList? statements).map (·.name) ≠ some name) :
    takeBlocks name statements = ([], statements) := by
  fun_cases takeBlocks name statements with
  | case1 declaration wrapper rest hname body hbody bodies after heq =>
    exact (h (Run.name_ofList?_eq_some_iff.mpr ⟨_, _, _, _, rfl, hname, hbody⟩)).elim
  | case2 | case3 | case4 => rfl

/-! ### Merging -/

theorem mergeFrom_run (index : Nat) {statements : List Statement} {r : Run}
    (h : Run.ofList? statements = some r) :
    (mergeFrom index statements).statements =
      r.declaration :: r.wrapper.withBody (mergeFrom 0 r.joined).statements ::
        (mergeFrom (index + r.length) r.rest).statements := by
  rw [mergeFrom]
  split
  · next r' h' =>
    rw [h] at h'
    cases h'
    rfl
  · next h' =>
    rw [h] at h'
    cases h'

theorem mergeFrom_cons (index : Nat) {s : Statement} {rest : List Statement}
    (h : Run.ofList? (s :: rest) = none) :
    (mergeFrom index (s :: rest)).statements = s :: (mergeFrom (index + 1) rest).statements := by
  rw [mergeFrom]
  split
  · next r h' =>
    rw [h] at h'
    cases h'
  · rfl

theorem mergeFrom_nil (index : Nat) : (mergeFrom index []).statements = [] := by
  rw [mergeFrom]
  rfl

theorem head?_mergeFrom (index : Nat) (statements : List Statement) :
    (mergeFrom index statements).statements.head? = statements.head? := by
  cases h : Run.ofList? statements with
  | some r =>
    obtain ⟨rest, rfl, -⟩ := Run.ofList?_eq_some_iff.mp h
    rw [mergeFrom_run index h]
    rfl
  | none =>
    cases statements with
    | nil => rw [mergeFrom_nil]
    | cons s rest =>
      rw [mergeFrom_cons index h]
      rfl

/-- Where no run starts, none starts after what follows is merged. -/
theorem Run.ofList?_cons_mergeFrom (index : Nat) {s : Statement} {rest : List Statement}
    (h : Run.ofList? (s :: rest) = none) :
    Run.ofList? (s :: (mergeFrom index rest).statements) = none := by
  rw [ofList?_cons_eq_none_iff] at h ⊢
  intro name wrapper hname hwrapper
  exact h name wrapper hname (head?_mergeFrom index rest ▸ hwrapper)

/-- A list starts with a run of a module exactly if the merged list does. -/
theorem Run.name_ofList?_mergeFrom (index : Nat) (statements : List Statement) :
    (Run.ofList? (mergeFrom index statements).statements).map (·.name) =
      (Run.ofList? statements).map (·.name) := by
  cases h : Run.ofList? statements with
  | some r =>
    obtain ⟨rest, rfl, hname, hbody, -⟩ := ofList?_eq_some_iff.mp h
    rw [mergeFrom_run index h]
    exact name_ofList?_eq_some_iff.mpr
      ⟨_, _, _, _, rfl, hname, Statement.moduleBody?_withBody hbody _⟩
  | none =>
    cases statements with
    | nil => rw [mergeFrom_nil, h]
    | cons s rest => rw [mergeFrom_cons index h, ofList?_cons_mergeFrom _ h]

/-- Merging leaves no two blocks of one module next to each other, at any depth. -/
theorem settled_outline_mergeFrom (index : Nat) (statements : List Statement) :
    Settled (outline (mergeFrom index statements).statements) := by
  fun_induction mergeFrom index statements with
  | case1 index statements r h _ inner more ihInner ihMore =>
    obtain ⟨rest, -, hname, hbody, htake⟩ := Run.ofList?_eq_some_iff.mp h
    rw [outline_block hname (Statement.moduleBody?_withBody hbody _), Settled.module_cons_iff]
    refine ⟨?_, ihInner, ihMore⟩
    have hmaximal := takeBlocks_maximal r.name rest
    rw [head?_outline, Run.name_ofList?_mergeFrom]
    rwa [htake] at hmaximal
  | case2 =>
    rw [outline]
    exact .nil
  | case3 index s rest h more ih =>
    have hnone := Run.ofList?_cons_mergeFrom (index + 1) h
    rw [outline_cons hnone, Settled.other_cons_iff]
    exact ih

/-- A list in normal form stays as it is. -/
theorem mergeFrom_of_settled (index : Nat) {statements : List Statement}
    (h : Settled (outline statements)) :
    (mergeFrom index statements).statements = statements ∧
      (mergeFrom index statements).joins = 0 := by
  fun_induction mergeFrom index statements with
  | case1 index statements r hr _ inner more ihInner ihMore =>
    obtain ⟨rest, rfl, hname, hbody, htake⟩ := Run.ofList?_eq_some_iff.mp hr
    rw [outline_block hname hbody, Settled.module_cons_iff, head?_outline] at h
    obtain ⟨hapart, hinner, hrest⟩ := h
    rw [takeBlocks_eq_nil hapart, Prod.mk.injEq] at htake
    obtain ⟨hfurther, rfl⟩ := htake
    have hjoined : r.joined = r.body := by simp [Run.joined, ← hfurther]
    obtain ⟨hinner, hinnerJoins⟩ := ihInner (hjoined ▸ hinner)
    obtain ⟨hmore, hmoreJoins⟩ := ihMore hrest
    have hwrapper : r.wrapper.withBody inner.statements = r.wrapper := by
      rw [hinner, hjoined, Statement.withBody_moduleBody hbody]
    constructor
    · simp only [more, hwrapper, hmore]
    · simp only [inner, more, hinnerJoins, hmoreJoins, ← hfurther, List.length_nil]
  | case2 => exact ⟨rfl, rfl⟩
  | case3 index s rest hnone more ih =>
    rw [outline_cons hnone, Settled.other_cons_iff] at h
    obtain ⟨hmore, hjoins⟩ := ih h
    exact ⟨by simp only [more, hmore], hjoins⟩

/-- Merging reaches a normal form, and merging again changes neither the statements nor the count
of joined blocks. -/
theorem settled_optimize (m : ScriptMerger) (statements : List Statement) :
    let first := m.optimize statements
    let second := first.1.optimize first.2
    Settled (outline first.2) ∧ second.2 = first.2 ∧ second.1.joins = first.1.joins := by
  have hsettled := settled_outline_mergeFrom 0 statements
  obtain ⟨hsame, hjoins⟩ := mergeFrom_of_settled 0 hsettled
  refine ⟨hsettled, hsame, ?_⟩
  simp only [ScriptMerger.optimize, merge, hjoins, Nat.add_zero]

end NamespaceMerge.Script
