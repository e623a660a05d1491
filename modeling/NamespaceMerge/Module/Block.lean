import NamespaceMerge.Script.Syntax

/-! Module blocks. A module is a variable declaration without a value, followed by a call of a
function on the module object:

    var shop;
    (function (shop) { … })(shop || (shop = {}));

The declaration gives the module its name; the call is its wrapper, and the body of the function is
the body of the module. -/

namespace NamespaceMerge.Script

/-- The name that an identifier, or a chain of members on one, spells. -/
def Expression.dottedName? : Expression → Option String
  | .group _ inner => inner.dottedName?
  | .identifier name => some name.text
  | .member _ owner name =>
    match owner.dottedName? with
    | some owner => if owner.isEmpty then none else some (owner ++ "." ++ name.text)
    | none => none
  | _ => none

/-- The left side of the argument of a wrapper: of a disjunction or of an assignment. -/
def Expression.leftSide? : Expression → Option Expression
  | .binary _ operator left _ => if operator = "||" then some left else none
  | .assign _ _ target _ => some target
  | _ => none

/-- Applies `f` to the expression inside all parentheses around it. -/
def Expression.mapUngrouped (f : Expression → Expression) : Expression → Expression
  | .group origin inner => .group origin (inner.mapUngrouped f)
  | e => f e

/-- A call of an unnamed function of one parameter on one argument. -/
structure Wrapper where
  parameter : String
  argument : Expression
  /-- The name that the left side of the argument spells. -/
  left : String
  body : List Statement

namespace Statement

/-- The module that the statement declares. -/
def moduleName? : Statement → Option String
  | .variables _ [.bare _ name] => some name.text
  | _ => none

def wrapper? : Statement → Option Wrapper
  | .expression _ e =>
    match e.ungroup with
    | .call _ callee _ [argument] =>
      match callee.ungroup with
      | .function _ none [parameter] body => do
        let left ← (← argument.ungroup.leftSide?).dottedName?
        return { parameter := parameter.text, argument, left, body }
      | _ => none
    | _ => none
  | _ => none

/-- The body of module `name`, if the statement is a wrapper of that module. -/
def moduleBody? (name : String) (s : Statement) : Option (List Statement) := do
  let w ← s.wrapper?
  if !name.isEmpty && w.parameter == name && Text.includes name.toList w.left.toList then
    return w.body
  else none

/-- The wrapper with another body. -/
def withBody (body : List Statement) : Statement → Statement
  | .expression origin e =>
    .expression origin <| e.mapUngrouped fun
      | .call o callee argumentsOrigin arguments =>
        let callee := callee.mapUngrouped fun
          | .function o name parameters _ => .function o name parameters body
          | e => e
        .call o callee argumentsOrigin arguments
      | e => e
  | s => s

end Statement

theorem Expression.sizeOf_ungroup_le : ∀ e : Expression, sizeOf e.ungroup ≤ sizeOf e
  | .group _ inner => by
    have := sizeOf_ungroup_le inner
    simp only [ungroup, group.sizeOf_spec]
    omega
  | .identifier .. | .constant .. | .array .. | .elision .. | .object .. | .function ..
  | .member .. | .index .. | .create .. | .construct .. | .call .. | .unary .. | .increment ..
  | .binary .. | .conditional .. | .assign .. | .comma .. => by simp [ungroup]

theorem Statement.sizeOf_body_lt {s : Statement} {w : Wrapper} (h : s.wrapper? = some w) :
    sizeOf w.body < sizeOf s := by
  unfold wrapper? at h
  split at h
  · next origin e =>
    split at h
    · next callee _ argument he =>
      split at h
      · next parameter body hc =>
        have hsize := Expression.sizeOf_ungroup_le e
        have hcallee := Expression.sizeOf_ungroup_le callee
        rw [he] at hsize
        rw [hc] at hcallee
        simp only [Option.bind_eq_bind, Option.bind_eq_some_iff, Option.pure_def,
          Option.some.injEq] at h
        obtain ⟨_, _, _, _, rfl⟩ := h
        simp only [Expression.call.sizeOf_spec, Expression.function.sizeOf_spec,
          Statement.expression.sizeOf_spec] at *
        omega
      · simp at h
    · simp at h
  · simp at h

theorem Statement.wrapper?_of_moduleBody? {name : String} {s : Statement} {body : List Statement}
    (h : s.moduleBody? name = some body) : ∃ w, s.wrapper? = some w ∧ w.body = body := by
  simp only [moduleBody?, Option.bind_eq_bind, Option.bind_eq_some_iff] at h
  obtain ⟨w, hw, h⟩ := h
  split at h
  · exact ⟨w, hw, by simpa using h⟩
  · simp at h

end NamespaceMerge.Script
