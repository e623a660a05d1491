import NamespaceMerge.Script.Grammar.Statement

/-! The grammar of scripts. `Grammar.ofDepth` closes the recursion of its parsers at a depth that
the length of the script bounds, since nothing is nested without a token. -/

namespace NamespaceMerge.Script

open Parse

namespace Grammar

/-- The parsers of constructs nested at most `depth` deep. -/
def ofDepth : Nat → Grammar
  | 0 =>
    { assignment := fun _ => throw (.stopped .nesting)
      unary := throw (.stopped .nesting)
      creation := throw (.stopped .nesting)
      statement := throw (.stopped .nesting) }
  | depth + 1 =>
    let inner := ofDepth depth
    { assignment := inner.assignmentHere
      unary := Prod.fst <$> inner.operand false
      creation := do inner.creationTail (← keyword "new")
      statement := inner.statementHere }

/-- Statements up to the end of the script. -/
def program (g : Grammar) : Parse (List Statement) := do
  let body ← g.statements
  match ← peek with
  | none => return body
  | some _ => refuse

end Grammar

/-- The statements of a script, with the comments that printing keeps if `keepComments`. -/
def parse (keepComments : Bool) (text : Text) : Except Fault (List Statement) := do
  let size := text.length + 2
  let start : Cursor := { lexer := .ofText keepComments text, budget := size }
  let (body, _) ← (Grammar.ofDepth size).program.run start
  return body

end NamespaceMerge.Script
