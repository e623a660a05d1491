import NamespaceMerge.Script.Lexer
import NamespaceMerge.Script.Syntax

/-! Parsers of scripts: steps over the tokens with one token of lookahead. Where no token fits,
three remedies are tried in turn: a semicolon left out, a slash read again as a regular expression,
and refusal. -/

namespace NamespaceMerge.Script

structure Cursor where
  lexer : Lexer
  /-- The next token, once it is read; at the end of the script there is none. -/
  lookahead : Option (Option Token) := none
  /-- No construct has more parts than this. -/
  budget : Nat

abbrev Parse := StateT Cursor (Except Fault)

namespace Parse

def peek : Parse (Option Token) := do
  let s ← get
  match s.lookahead with
  | some t => return t
  | none =>
    let (t, lexer) ← s.lexer.next
    set { s with lexer, lookahead := some t }
    return t

/-- Takes the lookahead. -/
def drop : Parse Unit := modify fun s => { s with lookahead := none }

/-- The fault of `token`, which does not fit: a semicolon left out is not shown. -/
def unexpected (lexer : Lexer) (token : Option Token) : Except Fault Fault := do
  let (after, _) ← lexer.next
  let shown := token.filter (·.kind ≠ .impliedSemicolon)
  return .refused (.unexpected ([lexer.tokenBefore, shown, after].filterMap id))

/-- The fault of a lookahead for which there is no remedy. -/
def faultHere : Parse Fault := do
  let token ← peek
  let lexer := (← get).lexer
  let (token, lexer) := match lexer.impliedSemicolon? token with
    | some (semicolon, lexer) => (some semicolon, lexer)
    | none => (token, lexer)
  if ← lexer.mayReread then
    let (again, reread) ← lexer.reread
    if again.any (·.kind == .regex) then unexpected reread again else unexpected reread token
  else unexpected lexer token

/-- No token but the lookahead fits. -/
def refuse {α : Type} : Parse α := do throw (← faultHere)

/-- The lookahead where an operand may start, a slash read again as a regular expression. -/
def peekOperand : Parse (Option Token) := do
  let t ← peek
  if t.any (·.isMark "/") then
    let s ← get
    if ← s.lexer.mayReread then
      let (again, lexer) ← s.lexer.reread
      if again.any (·.kind == .regex) then
        set { s with lexer, lookahead := some again }
        return again
  return t

def nextIsMark (text : String) : Parse Bool := do return (← peek).any (·.isMark text)

def nextIsKeyword (word : String) : Parse Bool := do return (← peek).any (·.isKeyword word)

/-- Takes a token that satisfies `p`. -/
def expect (p : Token → Bool) : Parse Token := do
  match ← peek with
  | some t => if p t then drop; return t else refuse
  | none => refuse

def mark (text : String) : Parse Token := expect (·.isMark text)

def keyword (word : String) : Parse Token := expect (·.isKeyword word)

/-- Takes the mark if it is next. -/
def mark? (text : String) : Parse (Option Token) := do
  if ← nextIsMark text then return some (← mark text) else return none

/-- The semicolon at the end of a statement, which may be left out. -/
def semicolon : Parse Token := do
  let t ← peek
  match t.filter fun t => t.isMark ";" || t.kind == .impliedSemicolon with
  | some t => drop; return t
  | none =>
    let s ← get
    match s.lexer.impliedSemicolon? t with
    | some (semicolon, lexer) =>
      set { s with lexer, lookahead := none }
      return semicolon
    | none => refuse

/-- Repeats `step` until it gives a result, `budget` times at most. -/
def iterate {α β : Type} (step : β → Parse (α ⊕ β)) : Nat → β → Parse α
  | 0, _ => throw (.stopped .nesting)
  | budget + 1, b => do
    match ← step b with
    | .inl a => return a
    | .inr b => iterate step budget b

def loop {α β : Type} (step : β → Parse (α ⊕ β)) (start : β) : Parse α := do
  iterate step (← get).budget start

/-- One or more items with commas between them. -/
def commaList {α : Type} (item : Parse α) : Parse (List α) := do
  let first ← item
  loop (fun items => do
    match ← mark? "," with
    | some _ => return .inr (items ++ [← item])
    | none => return .inl items) [first]

end Parse

end NamespaceMerge.Script
