import NamespaceMerge.Module.Merge

/-! Wrappers of module blocks, and the runs of blocks that are merged. A wrapper with another body
is a wrapper of the same modules (`Statement.moduleBody?_withBody`), and with its own body it is
the same statement (`Statement.withBody_moduleBody`). -/

namespace NamespaceMerge.Script

namespace Expression

theorem ungroup_mapUngrouped (f : Expression → Expression) :
    ∀ e : Expression, (e.mapUngrouped f).ungroup = (f e.ungroup).ungroup
  | .group _ inner => by
    simp only [mapUngrouped, ungroup]
    exact ungroup_mapUngrouped f inner
  | .identifier .. | .constant .. | .array .. | .elision .. | .object .. | .function ..
  | .member .. | .index .. | .create .. | .construct .. | .call .. | .unary .. | .increment ..
  | .binary .. | .conditional .. | .assign .. | .comma .. => by simp only [mapUngrouped, ungroup]

theorem mapUngrouped_eq_self {f : Expression → Expression} :
    ∀ {e : Expression}, f e.ungroup = e.ungroup → e.mapUngrouped f = e
  | .group origin inner, h => by
    simp only [mapUngrouped, mapUngrouped_eq_self (e := inner) h]
  | .identifier .., h | .constant .., h | .array .., h | .elision .., h | .object .., h
  | .function .., h | .member .., h | .index .., h | .create .., h | .construct .., h
  | .call .., h | .unary .., h | .increment .., h | .binary .., h | .conditional .., h
  | .assign .., h | .comma .., h => by simpa only [mapUngrouped, ungroup] using h

end Expression

/-- Whether a wrapper is one of module `name`: its parameter is that name, and the name occurs in
what the left side of its argument spells. -/
def Wrapper.Serves (w : Wrapper) (name : String) : Prop :=
  name ≠ "" ∧ w.parameter = name ∧ Text.includes name.toList w.left.toList = true

namespace Statement

/-- What a statement looks like that is a wrapper. -/
theorem wrapper?_eq_some_iff {s : Statement} {w : Wrapper} :
    s.wrapper? = some w ↔
      ∃ origin e callOrigin callee argumentsOrigin functionOrigin parameter left,
        s = .expression origin e ∧
        e.ungroup = .call callOrigin callee argumentsOrigin [w.argument] ∧
        callee.ungroup = .function functionOrigin none [parameter] w.body ∧
        w.argument.ungroup.leftSide? = some left ∧ left.dottedName? = some w.left ∧
        parameter.text = w.parameter := by
  constructor
  · intro h
    unfold wrapper? at h
    split at h
    · next origin e =>
      split at h
      · next callOrigin callee argumentsOrigin argument he =>
        split at h
        · next functionOrigin parameter body hc =>
          simp only [Option.bind_eq_bind, Option.bind_eq_some_iff, Option.pure_def,
            Option.some.injEq] at h
          obtain ⟨left, hl, spelled, hd, rfl⟩ := h
          exact ⟨origin, e, callOrigin, callee, argumentsOrigin, functionOrigin, parameter, left,
            rfl, he, hc, hl, hd, rfl⟩
        · cases h
      · cases h
    · cases h
  · rintro ⟨origin, e, callOrigin, callee, argumentsOrigin, functionOrigin, parameter, left, rfl,
      he, hc, hl, hd, hp⟩
    simp [wrapper?, he, hc, hl, hd, hp]

theorem wrapper?_withBody {s : Statement} {w : Wrapper} (h : s.wrapper? = some w)
    (body : List Statement) : (s.withBody body).wrapper? = some { w with body } := by
  obtain ⟨origin, e, callOrigin, callee, argumentsOrigin, functionOrigin, parameter, left, rfl,
    he, hc, hl, hd, hp⟩ := wrapper?_eq_some_iff.mp h
  refine wrapper?_eq_some_iff.mpr ⟨origin, _, callOrigin, ?callee, argumentsOrigin,
    functionOrigin, parameter, left, rfl, ?call, ?function, hl, hd, hp⟩
  case call =>
    rw [Expression.ungroup_mapUngrouped, he]
    rfl
  case function =>
    rw [Expression.ungroup_mapUngrouped, hc]
    rfl

theorem withBody_body {s : Statement} {w : Wrapper} (h : s.wrapper? = some w) :
    s.withBody w.body = s := by
  obtain ⟨origin, e, callOrigin, callee, argumentsOrigin, functionOrigin, parameter, left, rfl,
    he, hc, -⟩ := wrapper?_eq_some_iff.mp h
  rw [withBody, Expression.mapUngrouped_eq_self]
  rw [he]
  simp only [Expression.call.injEq, and_true, true_and]
  apply Expression.mapUngrouped_eq_self
  rw [hc]

theorem moduleName?_of_wrapper? {s : Statement} {w : Wrapper} (h : s.wrapper? = some w) :
    s.moduleName? = none := by
  obtain ⟨origin, e, _, _, _, _, _, _, rfl, -⟩ := wrapper?_eq_some_iff.mp h
  rfl

theorem moduleBody?_eq_some_iff {s : Statement} {name : String} {body : List Statement} :
    s.moduleBody? name = some body ↔ ∃ w, s.wrapper? = some w ∧ w.Serves name ∧ w.body = body := by
  simp only [moduleBody?, Option.bind_eq_bind, Option.bind_eq_some_iff, Wrapper.Serves]
  refine exists_congr fun w => and_congr_right fun _ => ?_
  split
  · next h => simp_all
  · next h => simp_all

theorem moduleName?_of_moduleBody? {s : Statement} {name : String} {body : List Statement}
    (h : s.moduleBody? name = some body) : s.moduleName? = none := by
  obtain ⟨w, hw, -⟩ := moduleBody?_eq_some_iff.mp h
  exact moduleName?_of_wrapper? hw

/-- A wrapper that is given another body serves the same modules. -/
theorem moduleBody?_withBody {s : Statement} {name : String} {body : List Statement}
    (h : s.moduleBody? name = some body) (body' : List Statement) :
    (s.withBody body').moduleBody? name = some body' := by
  obtain ⟨w, hw, hs, -⟩ := moduleBody?_eq_some_iff.mp h
  exact moduleBody?_eq_some_iff.mpr ⟨_, wrapper?_withBody hw body', hs, rfl⟩

theorem withBody_moduleBody {s : Statement} {name : String} {body : List Statement}
    (h : s.moduleBody? name = some body) : s.withBody body = s := by
  obtain ⟨w, hw, -, rfl⟩ := moduleBody?_eq_some_iff.mp h
  exact withBody_body hw

end Statement

/-! ### Runs -/

/-- What stands at the start of a list in which a run was found. -/
theorem Run.ofList?_eq_some_iff {statements : List Statement} {r : Run} :
    Run.ofList? statements = some r ↔
      ∃ rest, statements = r.declaration :: r.wrapper :: rest ∧
        r.declaration.moduleName? = some r.name ∧ r.wrapper.moduleBody? r.name = some r.body ∧
        takeBlocks r.name rest = (r.further, r.rest) := by
  constructor
  · intro h
    unfold Run.ofList? at h
    split at h
    · next declaration wrapper rest =>
      simp only [Option.bind_eq_bind, Option.bind_eq_some_iff, Option.pure_def,
        Option.some.injEq] at h
      obtain ⟨name, hname, body, hbody, rfl⟩ := h
      exact ⟨rest, rfl, hname, hbody, rfl⟩
    · cases h
  · rintro ⟨rest, rfl, hname, hbody, htake⟩
    simp [Run.ofList?, hname, hbody, htake]

/-- A list starts with a run of module `name` if it starts with a block of it. -/
theorem Run.name_ofList?_eq_some_iff {statements : List Statement} {name : String} :
    (Run.ofList? statements).map (·.name) = some name ↔
      ∃ declaration wrapper body rest, statements = declaration :: wrapper :: rest ∧
        declaration.moduleName? = some name ∧ wrapper.moduleBody? name = some body := by
  rw [Option.map_eq_some_iff]
  constructor
  · rintro ⟨r, h, rfl⟩
    obtain ⟨rest, rfl, hname, hbody, -⟩ := ofList?_eq_some_iff.mp h
    exact ⟨r.declaration, r.wrapper, r.body, rest, rfl, hname, hbody⟩
  · rintro ⟨declaration, wrapper, body, rest, rfl, hname, hbody⟩
    let r : Run :=
      { name, declaration, wrapper, body, further := (takeBlocks name rest).1
        rest := (takeBlocks name rest).2 }
    exact ⟨r, ofList?_eq_some_iff.mpr ⟨rest, rfl, hname, hbody, rfl⟩, rfl⟩

/-- No run starts with the statement `s` before the statements `rest`. -/
theorem Run.ofList?_cons_eq_none_iff {s : Statement} {rest : List Statement} :
    Run.ofList? (s :: rest) = none ↔
      ∀ name wrapper, s.moduleName? = some name → rest.head? = some wrapper →
        wrapper.moduleBody? name = none := by
  cases rest with
  | nil => simp [Run.ofList?]
  | cons wrapper rest =>
    simp only [Run.ofList?, Option.bind_eq_bind, Option.bind_eq_none_iff, Option.pure_def,
      reduceCtorEq, List.head?_cons, Option.some.injEq]
    constructor
    · rintro h name _ hname rfl
      cases hbody : wrapper.moduleBody? name with
      | none => rfl
      | some body => exact (h name hname body hbody).elim
    · intro h name hname body hbody
      rw [h name wrapper hname rfl] at hbody
      cases hbody

end NamespaceMerge.Script
