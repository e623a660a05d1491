import NamespaceMerge.Text.Blank

/-! References to source maps: comment lines of the forms

    //# sourceMappingURL=app.js.map
    /*# sourceMappingURL=app.js.map */

A reference takes up a whole line. The last one of a text counts. -/

namespace NamespaceMerge.SourceMap

def isSpaceOrTab (c : Char) : Bool := c == ' ' || c == '\t'

def skipSpaces (text : Text) : Text := text.dropWhile isSpaceOrTab

/-- What follows the keyword of a reference, after the comment is opened. -/
def afterKeyword? : Text → Option Text
  | c :: rest =>
    if c = '#' ∨ c = '@' then Text.dropStart? "sourceMappingURL=".toList (skipSpaces rest)
    else none
  | [] => none

/-- The value in a line comment: all up to the blanks at the end, with no blank in it. -/
def lineValue? (text : Text) : Option Text :=
  let (value, rest) := text.span (!isBlank ·)
  if !value.isEmpty && (skipSpaces rest).isEmpty then some value else none

/-- The value in a block comment, which ends there with the line. -/
def blockValue? (text : Text) : Option Text :=
  let (value, rest) := text.span fun c => !isBlank c && c != '*'
  match skipSpaces rest with
  | '*' :: '/' :: rest => if !value.isEmpty && (skipSpaces rest).isEmpty then some value else none
  | _ => none

/-- The value of a line that is a reference. -/
def referenceValue? (line : Text) : Option Text :=
  match skipSpaces line with
  | '/' :: '/' :: rest => (afterKeyword? rest).bind lineValue?
  | '/' :: '*' :: rest => (afterKeyword? rest).bind blockValue?
  | _ => none

def isReference (line : Text) : Bool := (referenceValue? line).isSome

/-- The value of the last reference in a text. -/
def findReference (text : Text) : Option Text := (text.lines.filterMap referenceValue?).getLast?

/-- Joins lines without those that are references; their newlines go with them. -/
def joinOthers : List Text → Text
  | [] => []
  | [line] => if isReference line then [] else line
  | line :: rest => (if isReference line then [] else line ++ ['\n']) ++ joinOthers rest

/-- The text without its references. -/
def stripReferences (text : Text) : Text := joinOthers text.lines

end NamespaceMerge.SourceMap
