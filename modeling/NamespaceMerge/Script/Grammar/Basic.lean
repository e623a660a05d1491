import NamespaceMerge.Script.Parse

/-! The parts of a grammar that call each other, and the parsers that both expressions and
statements need. The recursion is open: a parser takes from a `Grammar` the parsers of what it
contains. -/

namespace NamespaceMerge.Script

open Parse

/-- The origin of a node from its tokens, with the comments of `main`. -/
def Origin.of (main : Option Token) (tokens : List Token) : Origin :=
  { marks := tokens.map fun t => (t.text, t.position)
    comments := (main.map (·.comments)).getD [] }

/-- The origin of a node whose main token is the first of its tokens. -/
def Origin.led (first : Token) (more : List Token) : Origin := .of (some first) (first :: more)

/-- The parsers that others call on what they contain. -/
structure Grammar where
  /-- An expression without commas; `in` is an operator in it if `allowIn`. -/
  assignment : (allowIn : Bool) → Parse Expression
  unary : Parse Expression
  /-- The operand of `new`, from the word on, and whether it has got its arguments. -/
  creation : Parse (Expression × Bool)
  statement : Parse Statement

namespace Grammar

def identifier : Parse Name := do
  let t ← expect (·.kind == .identifier)
  return ⟨.led t [], t.text⟩

/-- A property name after a point: reserved words are names here. Its comments are dropped. -/
def memberName : Parse Name := do
  let t ← expect fun t => t.kind == .identifier || t.kind == .keyword
  return ⟨.of none [t], t.text⟩

/-- A property name in an object: a member name, a string or a number. -/
def propertyName : Parse Name := do
  match ← peek with
  | some t =>
    if t.kind == .string || t.kind == .number then
      drop
      return ⟨.led t [], t.text⟩
    else memberName
  | none => refuse

variable (g : Grammar)

/-- Statements up to a closing brace, a clause of a `switch` or the end of the script. -/
def statements : Parse (List Statement) :=
  loop (fun body => do
    match ← peek with
    | none => return .inl body
    | some t =>
      if t.isMark "\x7d" || t.isKeyword "case" || t.isKeyword "default" then return .inl body
      else return .inr (body ++ [← g.statement])) []

end Grammar

end NamespaceMerge.Script
