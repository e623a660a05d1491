import NamespaceMerge.Script.Token
import NamespaceMerge.Text.Blank

/-! Why a script is refused. -/

namespace NamespaceMerge.Script

/-- A violation of the grammar, or a lexeme that cannot be read. -/
inductive SyntaxFault
  /-- Nothing fits here: the last token before, the token that does not fit, and the one after
  it, so far as there are such. -/
  | unexpected (tokens : List Token)
  | mismatchedParenthesis (closing : Token)
  | illegalCharacter (c : Char) (position : Position) (after : Option Token)
  /-- What can be read of the string, its opening quote included. -/
  | unterminatedString (lexeme : Text) (position : Position)
  | hexadecimalEscape (lexeme : Text) (position : Position)
  | unicodeEscape (lexeme : Text) (position : Position)
  /-- No regular expression starts here; `rest` is the script from the slash on. -/
  | regularExpression (rest : Text) (position : Position)
  /-- A statement that is a function without a name, whose parenthesis opens at `position`. -/
  | unnamedFunction (position : Position)

/-- What stops the reading of a script without being reported as a fault of its syntax. -/
inductive Breakdown
  /-- The script ends in blanks that are neither spaces nor tabs. -/
  | trailingBlanks
  /-- A division before any operand. -/
  | leadingDivision
  /-- An escape in a string that has no meaning. -/
  | unknownEscape
  /-- The script ends in the backslash of a string. -/
  | trailingBackslash
  /-- Constructs nested deeper than the script is long: no script reaches this. -/
  | nesting

def Breakdown.describe : Breakdown → String
  | trailingBlanks => "blanks at the end"
  | leadingDivision => "a division before any operand"
  | unknownEscape => "an escape without a meaning"
  | trailingBackslash => "a backslash at the end"
  | nesting => "constructs nested too deeply"

inductive Fault
  | refused (fault : SyntaxFault)
  | stopped (cause : Breakdown)

def Position.describe (p : Position) : String := s!"{p.line}:{p.column}"

/-- Up to sixteen characters of a broken string, trimmed, and dots when there are more. -/
def excerpt (lexeme : Text) : Text :=
  Text.trim (lexeme.take 16) ++ if (lexeme.drop 16).isEmpty then [] else ['.', '.', '.']

def SyntaxFault.message : SyntaxFault → String
  | unexpected [] => "Unexpected end of input"
  | unexpected [before] => s!"Unexpected end of input after {before.describe}"
  | unexpected [before, token] => s!"Unexpected {token.describe} after {before.describe}"
  | unexpected (before :: token :: after :: _) =>
    s!"Unexpected {token.describe} between {before.describe} and {after.describe}"
  | mismatchedParenthesis closing =>
    s!"Mismatched '{closing.text}' at {closing.position.describe}"
  | illegalCharacter c position none =>
    s!"Illegal character {quoted c.toString} at {position.describe}"
  | illegalCharacter c position (some after) =>
    s!"Illegal character {quoted c.toString} at {position.describe} after {after.describe}"
  | unterminatedString lexeme position =>
    s!"Unterminated string literal {quoted (String.ofList (excerpt lexeme))} at "
      ++ position.describe
  | hexadecimalEscape lexeme position =>
    s!"Invalid hexadecimal escape sequence '{String.ofList lexeme}' at {position.describe}"
  | unicodeEscape lexeme position =>
    s!"Invalid unicode escape sequence '{String.ofList lexeme}' at {position.describe}"
  | regularExpression rest position =>
    s!"Error parsing regular expression '{String.ofList rest}' at {position.describe}"
  | unnamedFunction position => s!"Function statement requires a name at {position.describe}"

end NamespaceMerge.Script
