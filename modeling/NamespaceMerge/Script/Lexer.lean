import NamespaceMerge.Script.Lexeme
import NamespaceMerge.Script.Fault

/-! Tokens read one at a time. Whether a slash divides or opens a regular expression depends on the
tokens before it, and so does the semicolon that may be left out; `Lexer` holds what these
decisions need. -/

namespace NamespaceMerge.Script

structure Lexer where
  rest : Text
  line : Nat := 1
  column : Nat := 1
  /-- The last lexeme read, separators included; none at either end of the script. -/
  current : Option Token := none
  /-- The lexeme before `current`. -/
  previous : Option Token := none
  /-- The last lexeme that is no separator. -/
  lastToken : Option Token := none
  /-- The last lexeme before `current` that is no separator. -/
  tokenBefore : Option Token := none
  /-- For every open parenthesis, whether it opens the head of an `if`, `for` or `while`. -/
  heads : List Bool := []
  /-- Whether `current` closes such a head. -/
  closedHead : Bool := false
  /-- Tokens to be delivered again, the next one first. -/
  pending : List Token := []
  /-- Comments that no token has taken yet. -/
  comments : List Comment := []
  keepComments : Bool

namespace Lexer

def ofText (keepComments : Bool) (text : Text) : Lexer := { rest := text, keepComments }

def position (s : Lexer) : Position := ⟨s.line, s.column⟩

/-- The position after a lexeme: every line end in it counts. -/
def advance (line column : Nat) : Text → Nat × Nat
  | '\r' :: '\n' :: rest => advance (line + 1) 1 rest
  | c :: rest => if isLineEnd c then advance (line + 1) 1 rest else advance line (column + 1) rest
  | [] => (line, column)

/-- Passes over characters that do not end lines here. -/
def skipWhile (p : Char → Bool) (s : Lexer) : Lexer :=
  let n := countWhile p s.rest
  { s with rest := s.rest.drop n, column := s.column + n }

/-- Takes note of the lexeme just read, or of the end of the script. -/
def note (s : Lexer) (lexeme : Option Token) : Lexer :=
  let seen (last : Option Token) (t : Option Token) : Option Token :=
    match t with
    | some t => if t.isSeparator then last else some t
    | none => last
  { s with
    previous := s.current
    tokenBefore := seen s.tokenBefore s.current
    current := lexeme
    lastToken := seen s.lastToken lexeme
    closedHead := false }

/-- Reads a lexeme of `n` characters. -/
def take (s : Lexer) (kind : TokenKind) (n : Nat) : Token × Lexer :=
  let text := s.rest.take n
  let token : Token := { kind, text := String.ofList text, position := s.position }
  let (line, column) := advance s.line s.column text
  (token, { s with rest := s.rest.drop n, line, column }.note (some token))

/-- Keeps track of open parentheses; the lexeme is noted already. -/
def trackParentheses (s : Lexer) (t : Token) : Except Fault Lexer :=
  if t.isMark "(" then
    .ok { s with heads := (s.previous.any Token.hasHead) :: s.heads }
  else if t.isMark ")" then
    match s.heads with
    | [] => .error (.refused (.mismatchedParenthesis t))
    | head :: heads => .ok { s with heads, closedHead := head }
  else .ok s

/-- The fault of a string that is not closed: of its escape, if an escape ends it. -/
def brokenString (s : Lexer) (n : Nat) : Fault :=
  let lexeme := s.rest.take n
  let after := s.rest.drop n
  let (line, column) := advance s.line s.column lexeme
  let escape := '\\' :: (after.drop 1).take 1
    ++ ((after.drop 2).takeWhile fun c => Hex.isDigit c || c == '-')
  match after with
  | ['\\'] => .stopped .trailingBackslash
  | '\\' :: 'x' :: _ => .refused (.hexadecimalEscape escape ⟨line, column⟩)
  | '\\' :: 'u' :: _ => .refused (.unicodeEscape escape ⟨line, column⟩)
  | '\\' :: _ => .stopped .unknownEscape
  | _ => .refused (.unterminatedString lexeme s.position)

/-- The fault of a text that starts with no lexeme. -/
def illegal (s : Lexer) (c : Char) : Fault :=
  match brokenStringLength? s.rest with
  | some n => s.brokenString n
  | none => .refused (.illegalCharacter c s.position s.current)

/-- The next lexeme outside regular expressions. A line break after `return` and its like is a
semicolon. -/
def readLexeme (s : Lexer) : Except Fault (Option Token × Lexer) :=
  let s := s.skipWhile isIgnored
  match s.rest with
  | [] => .ok (none, s.note none)
  | c :: _ =>
    match lexeme? s.rest with
    | none => .error (s.illegal c)
    | some (kind, n) => do
      let (token, s) := s.take kind n
      let s ← s.trackParentheses token
      if kind = .lineBreak ∧ s.previous.any Token.endsAtLineBreak then
        return (some (.impliedSemicolon token), s)
      else return (some token, s)

/-- A regular expression; the text starts with a slash. -/
def readRegex (s : Lexer) : Except Fault (Option Token × Lexer) :=
  let s := s.skipWhile fun c => c == ' ' || c == '\t'
  match regexLength? s.rest with
  | none => .error (.refused (.regularExpression s.rest s.position))
  | some n =>
    let (token, s) := s.take .regex n
    .ok (some token, s)

/-- Whether a slash divides: after an operand, unless that is the parenthesis right before it that
closes the head of a statement. -/
def mayDivide (s : Lexer) : Bool := s.lastToken.any Token.endsOperand && !s.closedHead

def keep (s : Lexer) (t : Token) : Lexer :=
  if t.kind.isComment && s.keepComments then
    { s with comments := s.comments ++ [⟨t.text, t.position⟩] }
  else s

/-- Reads the next lexeme, as a regular expression if it starts with a slash that may not divide.
A lone last character is never such a slash. -/
def step (s : Lexer) : Except Fault (Option Token × Lexer) :=
  match s.rest.dropWhile fun c => c == ' ' || c == '\t' with
  | c :: next :: _ =>
    if c ≠ '/' ∨ next = '/' ∨ next = '*' then do
      match ← s.readLexeme with
      | (none, _) => .error (.stopped .trailingBlanks)
      | found => return found
    else if s.mayDivide then s.readLexeme
    else s.readRegex
  | _ => s.readLexeme

/-- The next token from the text, separators passed over. The test of the lengths never fails: a
separator has at least one character. -/
def readToken (s : Lexer) : Except Fault (Option Token × Lexer) := do
  match ← s.step with
  | (none, s') => return (none, s')
  | (some t, s') =>
    if t.isSeparator then
      if _h : s'.rest.length < s.rest.length then readToken (s'.keep t) else return (none, s')
    else return (some t, s')
termination_by s.rest.length
decreasing_by simp only [keep]; split <;> assumption

/-- The next token, with the comments before it. -/
def next (s : Lexer) : Except Fault (Option Token × Lexer) :=
  match s.pending with
  | t :: pending => .ok (some t, { s with pending })
  | [] => do
    match ← s.readToken with
    | (none, s) => return (none, s)
    | (some t, s) => return (some { t with comments := s.comments }, { s with comments := [] })

/-- The semicolon that may stand in for the unfitting token `t`, which is then delivered again:
before a closing brace, after a line break and at the end of the script. -/
def impliedSemicolon? (s : Lexer) (t : Option Token) : Option (Token × Lexer) :=
  match t with
  | none => some (.impliedSemicolon none, s)
  | some t =>
    let isSemicolon := t.kind == .impliedSemicolon || t.isMark ";"
    let afterLineBreak := s.previous.any (·.kind == .lineBreak)
    if !isSemicolon && (t.isMark "\x7d" || afterLineBreak) then
      some (.impliedSemicolon (some t), { s with pending := t :: s.pending })
    else none

/-- Whether the division just read may have to be read again as a regular expression: it follows a
brace or an increment, which may end an operand but need not. -/
def mayReread (s : Lexer) : Except Fault Bool :=
  if s.current.any (·.isMark "/") then
    match s.tokenBefore with
    | none => .error (.stopped .leadingDivision)
    | some t => .ok (t.isMark "\x7d" || t.isMark "++" || t.isMark "--")
  else .ok false

/-- Steps back before the slash just read and reads on from there. -/
def reread (s : Lexer) : Except Fault (Option Token × Lexer) := do
  let back := { s with rest := '/' :: s.rest, column := s.column - 1, pending := [] }
  let (t, s') ← back.next
  return (t, { s' with tokenBefore := s.tokenBefore })

end Lexer

end NamespaceMerge.Script
