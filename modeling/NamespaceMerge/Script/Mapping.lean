import NamespaceMerge.Script.Printer
import NamespaceMerge.Text.Base64

/-! Mappings from printed text back to the script: for every line of the output a list of segments,
all numbers relative to those before, written as variable-length base64 digits. -/

namespace NamespaceMerge.Script.Mapping

/-- What a segment points back to, relative to the segment before: source, line and column. -/
structure Target where
  source : Int
  line : Int
  column : Int

/-- A segment starts `column` characters after the one before it on its line. -/
structure Segment where
  column : Int
  target : Option Target

abbrev Line := List Segment

/-- A number that is written as its difference to the number before it. -/
structure Counter where
  previous : Int
  current : Int

namespace Counter

def starting (value : Int) : Counter := ⟨value, value⟩

def move (c : Counter) (value : Int) : Counter := ⟨c.current, value⟩

def difference (c : Counter) : Int := c.current - c.previous

end Counter

/-- Where the output and the script stand. -/
structure Book where
  column : Counter := .starting 0
  sourceLine : Counter := .starting 1
  sourceColumn : Counter := .starting 1
  /-- The length of the last piece on this line of the output. -/
  length : Nat := 0
  /-- The finished lines, the last one first, and the line that is being written. -/
  finished : List Line := []
  current : Line := []

/-- Ends a line of the kind that pieces of text are split at. -/
def isLineBoundary (c : Char) : Bool :=
  let n := c.toNat
  (0x0a ≤ n && n ≤ 0x0d) || (0x1c ≤ n && n ≤ 0x1e) || n == 0x85 || n == 0x2028 || n == 0x2029

/-- The lines of a text with their ends. -/
def pieces (text : Text) : List Text :=
  match text with
  | [] => []
  | '\r' :: '\n' :: rest => ['\r', '\n'] :: pieces rest
  | c :: rest =>
    if isLineBoundary c then [c] :: pieces rest
    else match pieces rest with
      | [] => [[c]]
      | piece :: more => (c :: piece) :: more

namespace Book

/-- Writes a segment for a piece at `place`; an unknown line leaves the line of the script as it
is, an unknown column goes on after the piece before. -/
def mark (b : Book) (place : Option Position) : Book :=
  match place with
  | none => { b with current := b.current ++ [⟨b.column.difference, none⟩] }
  | some place =>
    let sourceLine := if place.line = 0 then b.sourceLine else b.sourceLine.move place.line
    let line := if place.line = 0 then 0 else sourceLine.difference
    let sourceColumn := b.sourceColumn.move
      (if place.column = 0 then b.sourceColumn.current + b.length else place.column)
    { b with
      sourceLine, sourceColumn
      current := b.current ++ [⟨b.column.difference, some ⟨0, line, sourceColumn.difference⟩⟩] }

/-- Moves past a piece of the output. -/
def pass (b : Book) (piece : Text) : Book :=
  if piece.getLast?.any fun c => c == '\n' || c == '\r' then
    { b with
      column := .starting 0
      length := 0
      finished := b.current :: b.finished
      current := [] }
  else
    { b with column := b.column.move (b.column.current + piece.length), length := piece.length }

/-- Writes the pieces of a fragment. After a line end in it the place is the start of the next
line, if it is known at all. -/
def write (b : Book) (place : Option Position) : List Text → Book
  | [] => b
  | piece :: rest =>
    let endsLine := piece.getLast?.any fun c => c == '\n' || c == '\r'
    let next := place.map fun p =>
      if endsLine && p.line ≠ 0 && p.column ≠ 0 then ⟨p.line + 1, 1⟩ else p
    ((b.mark place).pass piece).write next rest

end Book

/-- The lines of segments of printed fragments. -/
def ofFragments (fragments : List Fragment) : List Line :=
  let book := fragments.foldl (fun b f => Book.write b f.place (pieces f.text.toList)) {}
  (book.current :: book.finished).reverse

/-- What leaving out segments has added up: columns of the output and of the script. -/
structure Carry where
  column : Int := 0
  sourceColumn : Int
  /-- Whether the next segment with a target is kept in any case. -/
  keepNext : Bool := true

/-- Leaves out the segments of a line that say nothing new: those that go on in the script just as
in the output, and the second of two without a target. -/
def normalizeFrom (carry : Carry) (lastHasTarget : Bool) : Line → Line × Int
  | [] => ([], carry.sourceColumn)
  | ⟨column, none⟩ :: rest =>
    let column := carry.column + column
    if lastHasTarget then
      let (line, last) := normalizeFrom { carry with column := 0, keepNext := true } false rest
      (⟨column, none⟩ :: line, last)
    else normalizeFrom { carry with column } lastHasTarget rest
  | ⟨column, some target⟩ :: rest =>
    let column := carry.column + column
    let sourceColumn := carry.sourceColumn + target.column
    if carry.keepNext ∨ target.source ≠ 0 ∨ target.line ≠ 0 ∨ column ≠ sourceColumn then
      let (line, last) := normalizeFrom ⟨0, 0, false⟩ true rest
      (⟨column, some { target with column := sourceColumn }⟩ :: line, last)
    else normalizeFrom { carry with column, sourceColumn } lastHasTarget rest

/-- A line without segments leaves what was carried to the next one. -/
def normalizeLine (carried : Int) (line : Line) : Line × Int :=
  if line.isEmpty then ([], carried) else normalizeFrom { sourceColumn := carried } false line

def normalize (carried : Int) : List Line → List Line
  | [] => []
  | line :: rest =>
    let (line, carried) := normalizeLine carried line
    line :: normalize carried rest

/-- The base64 digits of a number, five bits each from the lowest on; all but the last digit have
a sixth bit. -/
def digits (n : Nat) : Text :=
  if n < 32 then [Base64.symbol n] else Base64.symbol (32 + n % 32) :: digits (n / 32)
termination_by n

/-- A number with its sign in the lowest bit. -/
def writeNumber (i : Int) : Text := digits (2 * i.natAbs + if i < 0 then 1 else 0)

def Segment.text (s : Segment) : Text :=
  let target := match s.target with
    | none => []
    | some t => [t.source, t.line, t.column]
  (s.column :: target).flatMap writeNumber

def write (lines : List Line) : Text :=
  Text.join [';'] (lines.map fun line => Text.join [','] (line.map Segment.text))

/-- The mappings of printed fragments. -/
def text (fragments : List Fragment) : Text := write (normalize 0 (ofFragments fragments))

end NamespaceMerge.Script.Mapping
