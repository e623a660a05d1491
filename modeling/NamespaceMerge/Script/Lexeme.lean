import NamespaceMerge.Script.Token
import NamespaceMerge.Text.Blank
import NamespaceMerge.Text.IdentifierCharacter

/-! The lexemes of a script: how many characters at the start of a text make one, and of which
kind. Nothing here depends on what was read before. -/

namespace NamespaceMerge.Script

/-- Ends a line inside comments and strings. -/
def isLineEnd (c : Char) : Bool := c == '\n' || c == '\r' || c == '\u2028' || c == '\u2029'

/-- Passed over between tokens. The separators U+2028 and U+2029 count as spaces here. -/
def isIgnored (c : Char) : Bool :=
  let n := c.toNat
  n == 0x20 || n == 0x09 || n == 0x0b || n == 0x0c || n == 0xa0 || n == 0x1680
    || (0x2000 ≤ n && n ≤ 0x200a) || n == 0x2028 || n == 0x2029 || n == 0x202f || n == 0x205f
    || n == 0x3000 || n == 0xfeff

/-- The number of characters at the start of a text that satisfy `p`. -/
def countWhile (p : Char → Bool) (text : Text) : Nat := (text.takeWhile p).length

/-- An identifier: letters, then letters of ASCII, digits and marks. -/
def identifierLength? (text : Text) : Option Nat :=
  match countWhile isIdentifierStart text with
  | 0 => none
  | n => some (n + countWhile isIdentifierPart (text.drop n))

def reservedWords : List String :=
  ["break", "case", "catch", "continue", "debugger", "default", "delete", "do", "else", "finally",
    "for", "function", "if", "in", "instanceof", "new", "return", "switch", "this", "throw", "try",
    "typeof", "var", "void", "while", "with", "null", "true", "false", "class", "const", "enum",
    "export", "extends", "import", "super"]

/-- The line end at the start of a text; a carriage return and a newline are one. -/
def lineEndLength? : Text → Option Nat
  | '\r' :: '\n' :: _ => some 2
  | c :: _ => if isLineEnd c then some 1 else none
  | [] => none

/-- Characters that stand for themselves, or for a control character, after a backslash. -/
def isSimpleEscape (c : Char) : Bool :=
  let n := c.toNat
  0x21 ≤ n && n ≤ 0x7e && !c.isDigit && c != 'u' && c != 'x' && c != 'U' && c != 'X'

/-- The escape sequence at the start of a text, the backslash included. -/
def escapeLength? : Text → Option Nat
  | '\\' :: 'x' :: a :: b :: _ => if [a, b].all Hex.isDigit then some 4 else none
  | '\\' :: 'u' :: a :: b :: c :: d :: _ => if [a, b, c, d].all Hex.isDigit then some 6 else none
  | '\\' :: c :: rest =>
    match lineEndLength? (c :: rest) with
    | some n => some (n + 1)
    | none => if isSimpleEscape c || ('0' ≤ c && c ≤ '7') then some 2 else none
  | _ => none

theorem escapeLength?_pos {text : Text} {n : Nat} (h : escapeLength? text = some n) : 0 < n := by
  unfold escapeLength? at h
  split at h
  · split at h <;> simp at h; omega
  · split at h <;> simp at h; omega
  · split at h
    · simp at h; omega
    · split at h <;> simp at h; omega
  · simp at h

/-- What a string holds up to its closing quote or to what it cannot hold. -/
def stringBodyLength (quote : Char) (text : Text) : Nat :=
  match text with
  | [] => 0
  | c :: rest =>
    if c = '\\' then
      match h : escapeLength? (c :: rest) with
      | some n =>
        have := escapeLength?_pos h
        n + stringBodyLength quote ((c :: rest).drop n)
      | none => 0
    else if c = quote ∨ isLineEnd c then 0
    else 1 + stringBodyLength quote rest
termination_by text.length
decreasing_by
  · simp; omega
  · simp

/-- A string that is closed. -/
def stringLength? : Text → Option Nat
  | quote :: rest =>
    if quote = '"' ∨ quote = '\'' then
      let n := stringBodyLength quote rest
      if (rest.drop n).head? = some quote then some (n + 2) else none
    else none
  | [] => none

/-- What can be read of a string that is not closed, its opening quote included. -/
def brokenStringLength? : Text → Option Nat
  | quote :: rest =>
    if quote = '"' ∨ quote = '\'' then some (stringBodyLength quote rest + 1) else none
  | [] => none

/-- The exponent of a number, if there is a whole one. -/
def exponentLength : Text → Nat
  | c :: rest =>
    if c = 'e' ∨ c = 'E' then
      let sign := match rest with
        | '+' :: _ | '-' :: _ => 1
        | _ => 0
      match countWhile Char.isDigit (rest.drop sign) with
      | 0 => 0
      | n => n + sign + 1
    else 0
  | [] => 0

/-- Digits, then the fraction and the exponent that may follow them. -/
def decimalLength (text : Text) (whole : Nat) : Nat :=
  let rest := text.drop whole
  let fraction := match rest with
    | '.' :: rest => 1 + countWhile Char.isDigit rest
    | _ => 0
  whole + fraction + exponentLength (rest.drop fraction)

def isOctalDigit (c : Char) : Bool := '0' ≤ c && c ≤ '7'

def numberLength? (text : Text) : Option Nat :=
  match text with
  | '0' :: rest =>
    let hex := match rest with
      | x :: rest => if x = 'x' ∨ x = 'X' then countWhile Hex.isDigit rest else 0
      | [] => 0
    if hex ≠ 0 then some (hex + 2)
    else match countWhile isOctalDigit rest with
      | 0 => some (decimalLength text 1)
      | n => some (n + 1)
  | '.' :: rest =>
    match countWhile Char.isDigit rest with
    | 0 => none
    | n => some (n + 1 + exponentLength (rest.drop n))
  | c :: _ => if c.isDigit then some (decimalLength text (countWhile Char.isDigit text)) else none
  | [] => none

/-- The rest of a block comment up to and including its end. -/
def blockCommentTail? : Text → Option Nat
  | '*' :: '/' :: _ => some 2
  | _ :: rest => (blockCommentTail? rest).map (· + 1)
  | [] => none

def commentLength? : Text → Option (TokenKind × Nat)
  | '/' :: '/' :: rest => some (.lineComment, 2 + countWhile (fun c => !isLineEnd c) rest)
  | '/' :: '*' :: rest => (blockCommentTail? rest).map fun n => (.blockComment, n + 2)
  | _ => none

/-- The class of characters at the start of a regular expression's rest, up to its bracket. -/
def regexClassLength? : Text → Option Nat
  | ']' :: _ => some 1
  | '\\' :: c :: rest => if c = '\n' then none else (regexClassLength? rest).map (· + 2)
  | ['\\'] => none
  | _ :: rest => (regexClassLength? rest).map (· + 1)
  | [] => none

/-- The body of a regular expression up to and including its closing slash. -/
def regexTail? (text : Text) : Option Nat :=
  match text with
  | '/' :: _ => some 1
  | '\\' :: c :: rest => if c = '\n' then none else (regexTail? rest).map (· + 2)
  | ['\\'] => none
  | '[' :: rest =>
    match regexClassLength? rest with
    | none => none
    | some n => (regexTail? (rest.drop n)).map (· + n + 1)
  | _ :: rest => (regexTail? rest).map (· + 1)
  | [] => none
termination_by text.length
decreasing_by all_goals simp; try omega

/-- A regular expression with its flags. Its body is neither empty nor starts with a star. -/
def regexLength? : Text → Option Nat
  | '/' :: '/' :: _ => none
  | '/' :: '*' :: _ => none
  | '/' :: rest =>
    (regexTail? rest).map fun n => n + 1 + countWhile Char.isAlphanum (rest.drop n)
  | _ => none

/-- The punctuators, longer ones first. -/
def punctuators : List Text :=
  [">>>=", "===", "!==", ">>>", "<<=", ">>=", "==", "!=", "<=", ">=", "||", "&&", "++", "--", "<<",
    ">>", "+=", "-=", "*=", "/=", "&=", "%=", "^=", "|=", ".", ",", ";", ":", "+", "-", "*", "/",
    "%", "&", "|", "^", "~", "?", "!", "(", ")", "\x7b", "\x7d", "[", "]", "=", "<", ">"].map
    String.toList

def punctuatorLength? (text : Text) : Option Nat :=
  (punctuators.find? (·.isPrefixOf text)).map List.length

/-- The words `get` and `set` where one blank and an identifier follow. -/
def isAccessor : Text → Bool
  | a :: 'e' :: 't' :: blank :: rest =>
    (a == 'g' || a == 's') && isBlank blank && (identifierLength? rest).isSome
  | _ => false

def wordKind (word : Text) : TokenKind :=
  if reservedWords.contains (String.ofList word) then .keyword else .identifier

/-- The lexeme at the start of a text outside regular expressions: its kind and its length. -/
def lexeme? (text : Text) : Option (TokenKind × Nat) :=
  match stringLength? text with
  | some n => some (.string, n)
  | none =>
    if isAccessor text then some (.accessor, 3)
    else match identifierLength? text with
      | some n => some (wordKind (text.take n), n)
      | none =>
        match numberLength? text with
        | some n => some (.number, n)
        | none =>
          match commentLength? text with
          | some found => some found
          | none =>
            match lineEndLength? text with
            | some n => some (.lineBreak, n)
            | none => (punctuatorLength? text).map fun n => (.punctuator, n)

end NamespaceMerge.Script
