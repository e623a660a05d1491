import NamespaceMerge.Declaration.Block

/-! Groups of blocks as text: one block per namespace, and the text from between blocks as it
was. -/

namespace NamespaceMerge.Declaration

/-- The bodies that are not blank, with `separator` between them. -/
def joinBodies (separator : Text) (blocks : List Block) : Text :=
  Text.join separator
    ((blocks.map fun b => b.body.getD []).filter fun body => !(Text.trim body).isEmpty)

def Group.render (g : Group) : Text :=
  if isAdditional g.key then joinBodies [] g.blocks
  else
    keyword ++ g.key ++ " \x7b\n\t".toList ++ joinBodies ['\t'] g.blocks ++ "\x7d\n".toList

/-- One newline for a carriage return and a newline, in either order. -/
def normalizeLineEnds (text : Text) : Text :=
  Text.replacePair '\n' '\r' ['\n'] (Text.replacePair '\r' '\n' ['\n'] text)

def render (groups : Groups) : Text := normalizeLineEnds (groups.flatMap Group.render)

/-- The outcome of merging the blocks of a text. -/
structure Merged where
  contents : Text
  /-- The number of groups written, and of blocks read. -/
  groups : Nat
  blocks : Nat

/-- Merges the blocks of a text; without any block there is nothing to merge. -/
def merge? (text : Text) : Option Merged := do
  let blocks := scan text
  if blocks.isEmpty then none
  else
    let groups ← organize? text blocks
    return { contents := render groups, groups := countGroups groups, blocks := blocks.length }

end NamespaceMerge.Declaration
