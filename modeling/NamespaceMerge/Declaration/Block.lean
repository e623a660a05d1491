import NamespaceMerge.Declaration.Header
import NamespaceMerge.Number.Decimal

/-! Namespace blocks in a text of declarations, and the text between them. A block starts with its
header line and goes on to the next header; where it really ends is found by its last brace. -/

namespace NamespaceMerge.Declaration

/-- A piece of the text that starts at offset `start`. Pieces that were not read from a text may
lack their end or their body. -/
structure Block where
  name : Text
  start : Nat
  stop : Option Nat := none
  body : Option Text := none

/-- The blocks of a text that start at the given offsets. A block ends one character before the
next one starts, the last one with the text. -/
def blocksAt (text : Text) : List (Nat × Text) → List Block
  | [] => []
  | [(start, name)] =>
    [{ name, start, stop := some text.length, body := some (text.drop start) }]
  | (start, name) :: (next, nextName) :: rest =>
    { name, start, stop := some (next - 1), body := some (text.slice start (next - 1)) }
      :: blocksAt text ((next, nextName) :: rest)

/-- The blocks of a text, one for each header line. -/
def scan (text : Text) : List Block := blocksAt text (headers text)

/-- The block with its inner text as body: without the header, and cut at the last brace, which
becomes its end. Without a brace the end stays where it was. -/
def Block.strip (b : Block) : Block :=
  let body := b.body.getD []
  match Text.lastIndexOf '\x7d' body with
  | some index =>
    { b with stop := some (b.start + index), body := some (withoutHeader (body.take index)) }
  | none => { b with body := some (withoutHeader body) }

/-- Text between blocks is kept if it leaves at least this many characters from the end of one
block to the start of the next. -/
def gapThreshold : Nat := 3

/-- The name of text that is kept from between blocks. -/
def additionalName : Text := "__additionalDeclaration".toList

/-- Whether a key is the name of text from between blocks, with its number. -/
def isAdditional (key : Text) : Bool :=
  match Text.dropCaseless? (Text.lower additionalName) key with
  | some number => !number.isEmpty && number.all Char.isDigit
  | none => false

/-- Blocks of one name, or one piece of text from between blocks. -/
structure Group where
  key : Text
  blocks : List Block

/-- Groups in the order in which their keys first appear. -/
abbrev Groups := List Group

def Groups.add (groups : Groups) (key : Text) (block : Block) : Groups :=
  match groups with
  | [] => [⟨key, [block]⟩]
  | group :: rest =>
    if group.key = key then { group with blocks := group.blocks ++ [block] } :: rest
    else group :: Groups.add rest key block

/-- How far a text is organized. -/
structure Organizing where
  groups : Groups := []
  /-- The number of pieces kept from between blocks. -/
  extras : Nat := 0
  /-- The offset after the end of the last block. -/
  position : Nat := 0

/-- Keeps the text from `start` to `stop` as a group of its own. -/
def Organizing.keep (o : Organizing) (text : Text) (start stop : Nat) : Organizing :=
  let piece : Block :=
    { name := additionalName, start, stop := some stop, body := some (text.slice start stop) }
  { o with
    groups := o.groups.add (additionalName ++ Decimal.digits o.extras) piece
    extras := o.extras + 1 }

/-- Keeps the gap between the last block and `stop`, unless it is too narrow. The brace that ends
the last block counts towards the threshold. -/
def Organizing.keepGap (o : Organizing) (text : Text) (stop : Nat) : Organizing :=
  if o.position + (gapThreshold - 1) ≤ stop then o.keep text o.position stop else o

/-- Keeps what stands before the first block, unless it is too narrow. -/
def Organizing.keepStart (o : Organizing) (text : Text) (stop : Nat) : Organizing :=
  if gapThreshold ≤ stop then o.keep text 0 stop else o

/-- Adds a stripped block, after the gap before it. Fails if it has no end. -/
def Organizing.addBlock (o : Organizing) (text : Text) (isFirst : Bool) (b : Block) :
    Option Organizing := do
  let stop ← b.stop
  let o := if isFirst then o.keepStart text b.start else o.keepGap text b.start
  return { o with groups := o.groups.add b.name b, position := stop + 1 }

/-- Groups blocks by name, with the text between them. Fails if a block has no end. -/
def organize? (text : Text) (blocks : List Block) : Option Groups := do
  let stripped := blocks.map Block.strip
  let start : Organizing := {}
  let o ← match stripped with
    | [] => some start
    | first :: rest => do
      rest.foldlM (fun o b => o.addBlock text false b) (← start.addBlock text true first)
  return (o.keepGap text text.length).groups

/-- The number of groups that are written; all pieces from between blocks count as one. -/
def countGroups (groups : Groups) : Nat :=
  let extras := groups.filter fun g => isAdditional g.key
  max 1 (groups.length - extras.length + if extras.isEmpty then 0 else 1)

end NamespaceMerge.Declaration
