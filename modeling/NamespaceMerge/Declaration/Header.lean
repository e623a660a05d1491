import NamespaceMerge.Text.Blank
import NamespaceMerge.Text.Caseless

/-! Headers of namespace blocks. A line is a header line if it holds `declare namespace `, in any
case, and an opening brace after it; the name stands between them. -/

namespace NamespaceMerge.Declaration

def keyword : Text := "declare namespace ".toList

/-- A header line: what stands before the keyword, between it and the brace, and after the brace. -/
structure Header where
  before : Text
  name : Text
  rest : Text

/-- The header on a line. The first keyword counts, and the first brace after it. -/
def Header.ofLine? (line : Text) : Option Header := do
  let (before, after) ← Text.splitCaseless? keyword line
  let (name, rest) ← Text.splitOnce '\x7b' after
  return { before, name, rest }

def isHeaderLine (line : Text) : Bool := (Header.ofLine? line).isSome

/-- The header lines among lines of which the first starts at `offset`: the offset of each and its
trimmed name. -/
def headersFrom (offset : Nat) : List Text → List (Nat × Text)
  | [] => []
  | line :: rest =>
    let more := headersFrom (offset + line.length + 1) rest
    match Header.ofLine? line with
    | some header => (offset, Text.trim header.name) :: more
    | none => more

/-- The header lines of a text, in order. -/
def headers (text : Text) : List (Nat × Text) := headersFrom 0 text.lines

/-- Drops everything up to the brace from the first header line. -/
def dropHeader : List Text → List Text
  | [] => []
  | line :: rest =>
    match Header.ofLine? line with
    | some header => header.rest :: rest
    | none => line :: dropHeader rest

/-- The text without its first header: the line of the header is cut up to its brace. -/
def withoutHeader (text : Text) : Text := Text.join ['\n'] (dropHeader text.lines)

end NamespaceMerge.Declaration
