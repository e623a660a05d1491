import NamespaceMerge.Script.Grammar.Expression

/-! Parsers of statements. -/

namespace NamespaceMerge.Script.Grammar

open Parse

variable (g : Grammar)

/-- Whether a token may follow a statement. -/
def followsStatement : Option Token → Bool
  | none => true
  | some t =>
    match t.kind with
    | .identifier | .number | .string | .regex => true
    | .punctuator =>
      ["\x7b", "\x7d", ";", "[", "(", "++", "--", "+", "-", "~", "!"].contains t.text
    | .keyword =>
      ["this", "null", "true", "false", "function", "new", "delete", "void", "typeof", "var", "if",
        "do", "while", "for", "continue", "break", "return", "with", "switch", "throw", "try",
        "debugger", "else", "case", "default"].contains t.text
    | _ => false

/-- The rest of an expression statement after its first operand. A function by itself is none. -/
def expressionStatementFrom (first : Expression) (assignable : Bool) : Parse Statement := do
  let e ← g.commaFrom true (← g.assignmentFrom true true first assignable)
  let stop ← semicolon
  match e with
  | .function origin .. =>
    if followsStatement (← peek) then
      throw (.refused (.unnamedFunction (origin.place "(")))
    else refuse
  | e => return .expression (.of none [stop]) e

/-- A statement that starts with an identifier: labelled, or an expression. -/
def namedStatement : Parse Statement := do
  let name ← identifier
  match ← mark? ":" with
  | some colon => return .labelled (.led colon []) name (← g.statement)
  | none =>
    let (first, assignable) ← g.operandFrom (.identifier name)
    g.expressionStatementFrom first assignable

/-- A statement that starts with `function`: a declaration, unless there is no name or an operator
follows. -/
def functionStatement (start : Token) : Parse Statement := do
  if ← nextIsMark "(" then
    let (first, assignable) ← g.operandFrom (← g.functionExpression start)
    g.expressionStatementFrom first assignable
  else
    let name ← identifier
    let (parameters, body, tokens) ← g.functionTail
    let origin := Origin.led start tokens
    if followsStatement (← peek) then return .function origin name parameters body
    else
      let (first, assignable) ← g.operandFrom (.function origin (some name) parameters body)
      g.expressionStatementFrom first assignable

def blockAfter (opening : Token) : Parse Statement := do
  let body ← g.statements
  let closing ← mark "\x7d"
  return .block (.led opening [closing]) body

def block : Parse Statement := do g.blockAfter (← mark "\x7b")

def declarator (allowIn : Bool) : Parse Declarator := do
  let name ← identifier
  match ← mark? "=" with
  | none => return .bare {} name
  | some t => return .initialized (.of none [t]) name (← g.assignment allowIn)

/-- The parenthesis after a keyword: an expression with its two tokens. -/
def parenthesized : Parse (Expression × List Token) := do
  let opening ← mark "("
  let e ← g.expression true
  let closing ← mark ")"
  return (e, [opening, closing])

def ifStatement (start : Token) : Parse Statement := do
  let (test, tokens) ← g.parenthesized
  let yes ← g.statement
  if ← nextIsKeyword "else" then
    let other ← keyword "else"
    return .ifElse (.led start (tokens ++ [other])) test yes (← g.statement)
  else return .ifThen (.led start tokens) test yes

def doStatement (start : Token) : Parse Statement := do
  let body ← g.statement
  let again ← keyword "while"
  let (test, tokens) ← g.parenthesized
  let stop ← semicolon
  return .doWhile (.led start (again :: tokens ++ [stop])) body test

/-- The rest of a counting loop after its first part, which is a statement once the origin of the
whole loop is known. -/
def forTail (start opening : Token) (words : List Token) (init : Origin → Statement) :
    Parse Statement := do
  let first ← mark ";"
  let test ← if ← nextIsMark ";" then pure none else some <$> g.expression true
  let second ← mark ";"
  let step ← if ← nextIsMark ")" then pure none else some <$> g.expression true
  let closing ← mark ")"
  let origin := Origin.led start (opening :: words ++ [first, second, closing])
  let part (comments : List Comment) : Origin := { origin with comments }
  let test := match test with
    | none => Statement.empty (part first.comments)
    | some e => Statement.expression (part []) e
  return .forLoop origin (init origin) test step (← g.statement)

/-- The rest of a loop over the properties of an object, from the word `in` on. -/
def forInTail (start opening : Token) (words : List Token) :
    Parse (Origin × Expression × Statement) := do
  let word ← keyword "in"
  let iterable ← g.expression true
  let closing ← mark ")"
  let body ← g.statement
  return (.led start (opening :: words ++ [word, closing]), iterable, body)

def forStatement (start : Token) : Parse Statement := do
  let opening ← mark "("
  let part (origin : Origin) (comments : List Comment) : Origin := { origin with comments }
  if ← nextIsKeyword "var" then
    let word ← keyword "var"
    let first ← g.declarator false
    if ← nextIsKeyword "in" then
      let (origin, iterable, body) ← g.forInTail start opening [word]
      let (name, value) := match first with
        | .bare _ name => (name, none)
        | .initialized _ name value => (name, some value)
      return .forVariableIn origin (part origin word.comments) name value iterable body
    else
      let declarators ← loop (fun found => do
        match ← mark? "," with
        | some _ => return .inr (found ++ [← g.declarator false])
        | none => return .inl found) [first]
      g.forTail start opening [word] fun origin =>
        .variables (part origin word.comments) declarators
  else if ← nextIsMark ";" then
    g.forTail start opening [] fun origin => .empty (part origin opening.comments)
  else
    let (first, assignable) ← g.operand false
    if assignable && (← nextIsKeyword "in") then
      let (origin, iterable, body) ← g.forInTail start opening []
      return .forIn origin first iterable body
    else
      let e ← g.commaFrom false (← g.assignmentFrom false false first assignable)
      g.forTail start opening [] fun origin => .expression (part origin []) e

/-- A jump after its keyword: the label is optional. -/
def jump (start : Token) (make : Origin → Option Name → Statement) : Parse Statement := do
  let label ←
    if (← peek).any (·.kind == .identifier) then some <$> identifier else pure none
  let stop ← semicolon
  return make (.led start [stop]) label

/-- Whether an expression may start with the token. -/
def startsExpression (t : Token) : Bool :=
  t.kind == .identifier || isConstant t || isUnaryOperator t || t.isMark "[" || t.isMark "("
    || t.isMark "\x7b" || t.isKeyword "function" || t.isKeyword "new"

def returnStatement (start : Token) : Parse Statement := do
  let value ←
    if (← peek).any startsExpression then some <$> g.expression true else pure none
  let stop ← semicolon
  return .returnFrom (.led start [stop]) value

def throwStatement (start : Token) : Parse Statement := do
  let value ← g.expression true
  let stop ← semicolon
  return .throwing (.led start [stop]) value

/-- The clauses of a `switch` up to the closing brace; at most one is the default. -/
def clauses : Parse (List Clause) := do
  let (found, _) ← loop (fun ((found, hasDefault) : List Clause × Bool) => do
    if ← nextIsKeyword "case" then
      let start ← keyword "case"
      let test ← g.expression true
      let colon ← mark ":"
      return .inr (found ++ [.caseOf (.led start [colon]) test (← g.statements)], hasDefault)
    else if !hasDefault && (← nextIsKeyword "default") then
      let start ← keyword "default"
      let colon ← mark ":"
      return .inr (found ++ [.defaultCase (.led start [colon]) (← g.statements)], true)
    else return .inl (found, hasDefault)) ([], false)
  return found

def switchStatement (start : Token) : Parse Statement := do
  let (subject, tokens) ← g.parenthesized
  let opening ← mark "\x7b"
  let found ← g.clauses
  let closing ← mark "\x7d"
  return .switchOn (.led start tokens) subject (.led opening [closing]) found

def finallyHandler : Parse Handler := do
  let start ← keyword "finally"
  return .finishing (.led start []) (← g.block)

def tryStatement (start : Token) : Parse Statement := do
  let body ← g.block
  if ← nextIsKeyword "catch" then
    let word ← keyword "catch"
    let opening ← mark "("
    let name ← identifier
    let closing ← mark ")"
    let handler := Handler.catching (.led word [opening, closing]) name (← g.block)
    if ← nextIsKeyword "finally" then
      return .tryBlock (.led start []) body [handler, ← g.finallyHandler]
    else return .tryBlock (.led start []) body [handler]
  else return .tryBlock (.led start []) body [← g.finallyHandler]

/-- A statement that starts with a keyword of its own. -/
def keywordStatement? (t : Token) : Option (Parse Statement) :=
  match t.text with
  | "var" => some do
    let declarators ← commaList (g.declarator true)
    let stop ← semicolon
    return .variables (.led t [stop]) declarators
  | "if" => some (g.ifStatement t)
  | "do" => some (g.doStatement t)
  | "while" => some do
    let (test, tokens) ← g.parenthesized
    return .whileLoop (.led t tokens) test (← g.statement)
  | "for" => some (g.forStatement t)
  | "continue" => some (jump t .continueTo)
  | "break" => some (jump t .breakOut)
  | "return" => some (g.returnStatement t)
  | "with" => some do
    let (subject, tokens) ← g.parenthesized
    return .withScope (.led t tokens) subject (← g.statement)
  | "switch" => some (g.switchStatement t)
  | "throw" => some (g.throwStatement t)
  | "try" => some (g.tryStatement t)
  | "debugger" => some do
    let stop ← semicolon
    return .debugger (.led t [stop])
  | "function" => some (g.functionStatement t)
  | _ => none

def statementHere : Parse Statement := do
  match ← peekOperand with
  | none => refuse
  | some t =>
    if t.isMark "\x7b" then
      drop
      g.blockAfter t
    else if t.isMark ";" then
      drop
      return .empty (.led t [])
    else if t.kind == .identifier then g.namedStatement
    else match if t.kind == .keyword then g.keywordStatement? t else none with
      | some parser =>
        drop
        parser
      | none =>
        let (first, assignable) ← g.operand true
        g.expressionStatementFrom first assignable

end NamespaceMerge.Script.Grammar
