import NamespaceMerge.Text.Quoted

/-! The tokens of a script, and the places where they stand. -/

namespace NamespaceMerge.Script

/-- Line and column, both counted from one. Line zero is no place in a script. -/
structure Position where
  line : Nat
  column : Nat
deriving DecidableEq

/-- The position of what has none. -/
def Position.none : Position := ⟨0, 0⟩

inductive TokenKind
  | identifier
  | string
  | number
  | regex
  /-- The word `get` or `set` in front of a property name. -/
  | accessor
  /-- A reserved word, known by its text. -/
  | keyword
  /-- Known by its text. -/
  | punctuator
  | lineComment
  | blockComment
  | lineBreak
  /-- A semicolon that the script leaves out. -/
  | impliedSemicolon
deriving DecidableEq

structure Comment where
  text : String
  position : Position
deriving DecidableEq

structure Token where
  kind : TokenKind
  text : String
  position : Position
  /-- The comments directly before the token. -/
  comments : List Comment := []

namespace TokenKind

def isComment (kind : TokenKind) : Bool := kind == lineComment || kind == blockComment

/-- Comments and line breaks only separate other tokens. -/
def isSeparator (kind : TokenKind) : Bool := kind.isComment || kind == lineBreak

end TokenKind

namespace Token

def isSeparator (t : Token) : Bool := t.kind.isSeparator

def isKeyword (t : Token) (word : String) : Bool := t.kind == .keyword && t.text == word

def isMark (t : Token) (text : String) : Bool := t.kind == .punctuator && t.text == text

/-- Whether the token may end an operand, so that a slash after it divides. -/
def endsOperand (t : Token) : Bool :=
  match t.kind with
  | .identifier | .number | .string | .regex => true
  | .keyword => ["true", "false", "null", "this"].contains t.text
  | .punctuator => ["++", "--", ")", "\x7d", "]"].contains t.text
  | _ => false

/-- Whether a parenthesis after the token opens the head of a statement. -/
def hasHead (t : Token) : Bool := t.kind == .keyword && ["for", "while", "if"].contains t.text

/-- Whether a line break after the token ends its statement. -/
def endsAtLineBreak (t : Token) : Bool :=
  t.kind == .keyword && ["break", "continue", "return", "throw"].contains t.text

/-- The token as messages show it. A semicolon left out has no column. -/
def describe (t : Token) : String :=
  let column := if t.kind == .impliedSemicolon then 0 else t.position.column
  s!"{quoted t.text} at {t.position.line}:{column}"

/-- The semicolon left out before `next`, or at the end of the script. -/
def impliedSemicolon (next : Option Token) : Token :=
  { kind := .impliedSemicolon, text := ";", position := (next.map (·.position)).getD .none }

end Token

end NamespaceMerge.Script
