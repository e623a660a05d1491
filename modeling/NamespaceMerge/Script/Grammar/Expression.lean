import NamespaceMerge.Script.Grammar.Basic

/-! Parsers of expressions. -/

namespace NamespaceMerge.Script.Grammar

open Parse

variable (g : Grammar)

/-- An expression with commas, after its first part. -/
def commaFrom (allowIn : Bool) (first : Expression) : Parse Expression :=
  loop (fun left => do
    match ← mark? "," with
    | some t => return .inr (.comma (.led t []) left (← g.assignment allowIn))
    | none => return .inl left) first

def expression (allowIn : Bool) : Parse Expression := do
  g.commaFrom allowIn (← g.assignment allowIn)

/-- Commas in a row at the start of array items, as one item left out. -/
def elision : Parse (List Expression) := do
  match ← mark? "," with
  | none => return []
  | some first =>
    loop (fun count => do
      match ← mark? "," with
      | some _ => return .inr (count + 1)
      | none =>
        let commas := String.ofList (List.replicate count ',')
        let origin : Origin := { marks := [(commas, first.position)], comments := first.comments }
        return .inl [.elision origin count]) 1

/-- The items of an array after its opening bracket. -/
def array (opening : Token) : Parse Expression := do
  let start ← elision
  match ← mark? "]" with
  | some closing => return .array (.led opening [closing]) start
  | none =>
    let first ← g.assignment true
    loop (fun items => do
      match ← mark? "," with
      | none =>
        let closing ← mark "]"
        return .inl (.array (.led opening [closing]) items)
      | some comma =>
        let skipped ← elision
        match ← mark? "]" with
        | some closing =>
          return .inl (.array (.led opening [comma, closing]) (items ++ skipped))
        | none => return .inr (items ++ skipped ++ [← g.assignment true])) (start ++ [first])

/-- A function from its opening parenthesis on: parameters, body and the tokens around them. -/
def functionTail : Parse (List Name × List Statement × List Token) := do
  let opening ← mark "("
  let parameters ← if ← nextIsMark ")" then pure [] else commaList identifier
  let closing ← mark ")"
  let left ← mark "\x7b"
  let body ← g.statements
  let right ← mark "\x7d"
  return (parameters, body, [opening, closing, left, right])

def property : Parse Property := do
  match ← peek with
  | none => refuse
  | some t =>
    if t.kind == .accessor then
      drop
      let name ← propertyName
      let opening ← mark "("
      let parameter ← if t.text == "set" then some <$> identifier else pure none
      let closing ← mark ")"
      let left ← mark "\x7b"
      let body ← g.statements
      let right ← mark "\x7d"
      let origin := Origin.led t [opening, closing, left, right]
      match parameter with
      | some parameter => return .setter origin name parameter body
      | none => return .getter origin name body
    else
      let name ← propertyName
      let colon ← mark ":"
      return .value (.led colon []) name (← g.assignment true)

/-- An object after its opening brace. A comma may follow the last property. -/
def object (opening : Token) : Parse Expression := do
  match ← mark? "\x7d" with
  | some closing => return .object (.led opening [closing]) []
  | none =>
    let first ← g.property
    loop (fun properties => do
      match ← mark? "," with
      | none =>
        let closing ← mark "\x7d"
        return .inl (.object (.led opening [closing]) properties)
      | some comma =>
        match ← mark? "\x7d" with
        | some closing => return .inl (.object (.led opening [comma, closing]) properties)
        | none => return .inr (properties ++ [← g.property])) [first]

/-- The function expression after the word `function`. -/
def functionExpression (start : Token) : Parse Expression := do
  let name ← if ← nextIsMark "(" then pure none else some <$> identifier
  let (parameters, body, tokens) ← g.functionTail
  return .function (.led start tokens) name parameters body

/-- Whether a token is an operand by itself, other than an identifier. -/
def isConstant (t : Token) : Bool :=
  match t.kind with
  | .string | .number | .regex => true
  | .keyword => ["this", "null", "true", "false"].contains t.text
  | _ => false

/-- An operand without accessors. Where a statement starts, a brace opens no object. -/
def primary (atStart : Bool) : Parse Expression := do
  match ← peekOperand with
  | none => refuse
  | some t =>
    if t.kind == .identifier then
      return .identifier (← identifier)
    else if isConstant t then
      drop
      return .constant (.led t []) t.text
    else if t.isMark "[" then
      drop
      g.array t
    else if t.isMark "(" then
      drop
      let inner ← g.expression true
      let closing ← mark ")"
      match inner with
      | .group .. => return inner
      | _ => return .group (.led t [closing]) inner
    else if t.isMark "\x7b" && !atStart then
      drop
      g.object t
    else if t.isKeyword "function" then
      drop
      g.functionExpression t
    else refuse

/-- The arguments of a call, from their parenthesis on. -/
def arguments : Parse (Origin × List Expression) := do
  let opening ← mark "("
  let items ← if ← nextIsMark ")" then pure [] else commaList (g.assignment true)
  let closing ← mark ")"
  return (.led opening [closing], items)

/-- The accessors after an operand, and its calls if `calls`. -/
def accessors (calls : Bool) (operand : Expression) : Parse Expression :=
  loop (fun e => do
    if let some t ← mark? "." then
      return .inr (.member (.led t []) e (← memberName))
    else if let some t ← mark? "[" then
      let index ← g.expression true
      let closing ← mark "]"
      return .inr (.index (.led t [closing]) e index)
    else if calls && (← nextIsMark "(") then
      let (origin, items) ← g.arguments
      return .inr (.call {} e origin items)
    else return .inl e) operand

/-- The operand of `new` after the word: with arguments it is whole, without it takes none. -/
def creationTail (start : Token) : Parse (Expression × Bool) := do
  let (callee, whole) ←
    if ← nextIsKeyword "new" then g.creation else pure (← g.primary false, true)
  if whole then
    let callee ← g.accessors false callee
    if ← nextIsMark "(" then
      let (origin, items) ← g.arguments
      return (.construct (.led start []) callee origin items, true)
    else return (.create (.led start []) callee, false)
  else return (.create (.led start []) callee, false)

/-- The rest of an operand that may be assigned to, and whether it still may: an increment after
it takes that away. -/
def incremented (e : Expression) : Parse (Expression × Bool) := do
  match ← peek with
  | some t =>
    if t.isMark "++" || t.isMark "--" then
      drop
      return (.increment (.led t []) e t.text, false)
    else return (e, true)
  | none => return (e, true)

/-- The rest of an operand after its first part. -/
def operandFrom (first : Expression) : Parse (Expression × Bool) := do
  incremented (← g.accessors true first)

def isUnaryOperator (t : Token) : Bool :=
  match t.kind with
  | .keyword => ["delete", "void", "typeof"].contains t.text
  | .punctuator => ["++", "--", "+", "-", "~", "!"].contains t.text
  | _ => false

/-- An operand of binary operators, and whether it may be assigned to. -/
def operand (atStart : Bool) : Parse (Expression × Bool) := do
  match ← peekOperand with
  | none => refuse
  | some t =>
    if isUnaryOperator t then
      drop
      return (.unary (.led t []) t.text (← g.unary), false)
    else if t.isKeyword "new" then
      drop
      let (e, whole) ← g.creationTail t
      if whole then g.operandFrom e else incremented e
    else g.operandFrom (← g.primary atStart)

/-- The binary operators, from the tightest level on. -/
def operators : Nat → List String
  | 1 => ["*", "/", "%"]
  | 2 => ["+", "-"]
  | 3 => ["<<", ">>", ">>>"]
  | 4 => ["<", ">", "<=", ">=", "instanceof", "in"]
  | 5 => ["==", "!=", "===", "!=="]
  | 6 => ["&"]
  | 7 => ["^"]
  | 8 => ["|"]
  | 9 => ["&&"]
  | 10 => ["||"]
  | _ => []

def isOperator (level : Nat) (allowIn : Bool) (t : Token) : Bool :=
  (t.kind == .punctuator || t.kind == .keyword) && (operators level).contains t.text
    && (allowIn || !t.isKeyword "in")

/-- The binary operators up to `level` after the operand `first`. To the right of an equality `in`
is always an operator, and to the right of the looser operators the rules of the start of a
statement go on. -/
def binaryFrom (allowIn atStart : Bool) : Nat → Expression → Parse Expression
  | 0, first => pure first
  | level + 1, first => do
    let left ← binaryFrom allowIn atStart level first
    loop (fun left => do
      match (← peek).filter (isOperator (level + 1) allowIn) with
      | none => return .inl left
      | some t =>
        drop
        let atStart := atStart && 6 ≤ level + 1
        let (next, _) ← g.operand atStart
        let right ← binaryFrom (allowIn || level + 1 == 5) atStart level next
        return .inr (.binary (.led t []) t.text left right)) left

def isAssignment (t : Token) : Bool :=
  t.kind == .punctuator && ["=", "*=", "/=", "%=", "+=", "-=", "<<=", ">>=", ">>>=", "&=", "^=",
    "|="].contains t.text

/-- The rest of an expression without commas after its first operand. -/
def assignmentFrom (allowIn atStart : Bool) (first : Expression) (assignable : Bool) :
    Parse Expression := do
  match (← peek).filter fun t => assignable && isAssignment t with
  | some t =>
    drop
    return .assign (.of none [t]) t.text first (← g.assignment allowIn)
  | none =>
    let test ← g.binaryFrom allowIn atStart 10 first
    match ← mark? "?" with
    | none => return test
    | some question =>
      let yes ← g.assignment allowIn
      let colon ← mark ":"
      return .conditional (.led question [colon]) test yes (← g.assignment allowIn)

def assignmentHere (allowIn : Bool) : Parse Expression := do
  let (first, assignable) ← g.operand false
  g.assignmentFrom allowIn false first assignable

end NamespaceMerge.Script.Grammar
