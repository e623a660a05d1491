import NamespaceMerge.Script.Layout
import NamespaceMerge.Text.WordCharacter

/-! Printed scripts as fragments. The layout marks between two texts are settled together, because
some of them depend on the texts around them and some sequences of them mean something else than
their members. -/

namespace NamespaceMerge.Script

/-- A piece of printed text and the place it comes from. Indentation comes from nowhere, not even
from an unknown place. -/
structure Fragment where
  text : String
  place : Option Position
deriving DecidableEq

/-- What is done for a layout mark, or for a sequence of them. -/
inductive LayoutAction
  | mark (mark : LayoutMark)
  /-- A space in front of a semicolon vanishes. -/
  | bareSemicolon
  /-- An indented line with nothing on it vanishes. -/
  | nothing
deriving DecidableEq

/-- A layout mark of a node; `isLoop` in the head of a loop. -/
structure LayoutStep where
  action : LayoutAction
  origin : Origin
  isLoop : Bool

/-- What a sequence of marks at the end of those collected means, if it means something else. -/
def sequenceAction? : List LayoutAction → Option LayoutAction
  | [.mark .space, .mark .endStatement] => some .bareSemicolon
  | [.mark .optionalSpace, .mark .endStatement] => some .bareSemicolon
  | [.mark .indent, .mark .newline, .mark .dedent] => some .nothing
  | _ => none

/-- Adds a mark to those collected from `all`. A sequence is replaced by one step; it belongs to
the node found in `all` at the index where the sequence starts among those collected. -/
def addMark (all : List LayoutStep) (collected : List LayoutStep) (step : LayoutStep) :
    List LayoutStep :=
  let steps := collected ++ [step]
  let replaced (length : Nat) : Option (List LayoutStep) :=
    let index := steps.length - length
    match sequenceAction? ((steps.drop index).map (·.action)), all[index]? with
    | some action, some node => some (steps.take index ++ [{ node with action }])
    | _, _ => none
  ((replaced 3).or (replaced 2)).getD steps

def collectMarks (marks : List LayoutStep) : List LayoutStep := marks.foldl (addMark marks) []

/-- Texts that two tokens would run together in. -/
def needsSpace (before after : Char) : Bool :=
  (isWordCharacter before && (isWordCharacter after || after == '$'))
    || (before == '$' && isWordCharacter after)
    || (before == '+' && after == '+') || (before == '-' && after == '-')

def assignmentTexts : List String :=
  ["*=", "/=", "%=", "+=", "-=", "<<=", ">>=", ">>>=", "&=", "^=", "|=", "="]

/-- The texts around the marks: the text before them, the one after them, and the last one that
the marks themselves gave. -/
structure Surroundings where
  before : Option String
  after : Option String
  previous : Option String := none

def Surroundings.needsSpace (s : Surroundings) (isLoop : Bool) : Bool :=
  (isLoop && !(s.after == none || s.after == some ";" || s.after == some ")"))
    || match s.before, s.after with
      | some before, some after =>
        assignmentTexts.contains after
          || match before.toList.getLast?, after.toList.head? with
            | some b, some a => Script.needsSpace b a
            | _, _ => false
      | _, _ => false

def endsLine (text : Option String) : Bool :=
  ((text.map String.toList).bind List.getLast?).any fun c => c == '\n' || c == '\r'

def startsLine (text : Option String) : Bool :=
  ((text.map String.toList).bind List.head?).any fun c => c == '\n' || c == '\r'

/-- The indentation of a line, if there is any. -/
def indentation (unit : String) (level : Nat) : List Fragment :=
  let text := String.join (List.replicate level unit)
  if text.isEmpty then [] else [⟨text, none⟩]

/-- The fragments of one step, and the level of indentation after it. -/
def LayoutStep.fragments (unit : String) (level : Nat) (around : Surroundings) (s : LayoutStep) :
    List Fragment × Nat :=
  let printed (text : String) : List Fragment := [⟨text, some (s.origin.place text)⟩]
  let newline : Fragment := ⟨"\n", some .none⟩
  match s.action with
  | .nothing => ([], level)
  | .bareSemicolon | .mark .endStatement => (printed ";", level)
  | .mark .openBlock => (printed "\x7b", level)
  | .mark .closeBlock => (printed "\x7d", level)
  | .mark .space | .mark .wordSpace => ([⟨" ", some .none⟩], level)
  | .mark .optionalSpace =>
    (if around.needsSpace s.isLoop then [⟨" ", some .none⟩] else [], level)
  | .mark .indent => ([], level + 1)
  | .mark .dedent => ([], level - 1)
  | .mark .newline => (newline :: indentation unit level, level)
  | .mark .optionalNewline =>
    if endsLine around.before then ([], level)
    else
      let isThere := startsLine around.after || endsLine around.previous
      ((if isThere then [] else [newline]) ++ indentation unit level, level)

/-- The fragments of the steps between two texts. -/
def settle (unit : String) (level : Nat) (around : Surroundings) :
    List LayoutStep → List Fragment × Nat
  | [] => ([], level)
  | s :: rest =>
    let (fragments, level) := s.fragments unit level around
    let previous := (fragments.getLast?.map (·.text)).or around.previous
    let (more, level) := settle unit level { around with previous } rest
    (fragments ++ more, level)

/-- How far printing has come: the level of indentation, the last text, and the marks after it. -/
structure Printing where
  level : Nat := 0
  last : Option String := none
  marks : List LayoutStep := []

/-- The fragments of the rest of the chunks. `unit` is one level of indentation. -/
def printFrom (unit : String) (p : Printing) : List Chunk → List Fragment
  | [] => (settle unit p.level ⟨p.last, none, none⟩ (collectMarks p.marks)).1
  | .mark mark origin isLoop :: rest =>
    printFrom unit { p with marks := p.marks ++ [⟨.mark mark, origin, isLoop⟩] } rest
  | .text text place :: rest =>
    let (layout, level) := settle unit p.level ⟨p.last, some text, none⟩ (collectMarks p.marks)
    layout ++ ⟨text, some place⟩ :: printFrom unit ⟨level, some text, []⟩ rest

def print (unit : String) (body : List Statement) : List Fragment :=
  printFrom unit {} (programChunks body)

/-- The printed text of a script. -/
def Fragment.textOf (fragments : List Fragment) : Text := fragments.flatMap (·.text.toList)

end NamespaceMerge.Script
