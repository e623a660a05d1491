import NamespaceMerge.Declaration.Render
import NamespaceMerge.Proofs.Declaration.Chunk

/-! How the blocks of a text are organized, said without offsets: the text before the first chunk,
the chunks without header and last brace, and the text between them become pieces
(`piecesFrom`), and these are placed in groups one after the other (`organize?_scan`). -/

namespace NamespaceMerge.Declaration

namespace Chunk

/-- Where a chunk is cut: at its last brace, or behind its end. -/
def cut (c : Chunk) : Nat := (Text.lastIndexOf '\x7d' c.text).getD c.text.length

/-- The text of a chunk up to the cut, without the header. -/
def inner (c : Chunk) : Text := withoutHeader (c.text.take c.cut)

/-- The text of a chunk behind the cut. -/
def tail (c : Chunk) (further : List Chunk) : Text := (c.full further).drop (c.cut + 1)

end Chunk

/-- A part of an organized text: text that is kept from between blocks, or what a block holds. -/
inductive Piece
  | kept (text : Text)
  | block (name body : Text)

def keptStart (lead : Text) : List Piece :=
  if gapThreshold ≤ lead.length then [.kept lead] else []

def keptGap (gap : Text) : List Piece :=
  if gapThreshold - 1 ≤ gap.length then [.kept gap] else []

def piecesFrom : List Chunk → List Piece
  | [] => []
  | c :: further => .block c.name c.inner :: (keptGap (c.tail further) ++ piecesFrom further)

/-- The pieces of a text, given the text before its first chunk. -/
def piecesOf (lead : Text) (chunks : List Chunk) : List Piece :=
  keptStart lead ++ piecesFrom chunks

/-- What is written of groups: their keys, each with the bodies under it. -/
def Groups.shown (groups : Groups) : List (Text × List Text) :=
  groups.map fun g => (g.key, g.blocks.map fun b => b.body.getD [])

def addBody (key body : Text) : List (Text × List Text) → List (Text × List Text)
  | [] => [(key, [body])]
  | g :: rest => if g.1 = key then (g.1, g.2 ++ [body]) :: rest else g :: addBody key body rest

/-- Places a piece in groups of which `extras` are kept text. -/
def place : List (Text × List Text) × Nat → Piece → List (Text × List Text) × Nat
  | (shown, extras), .kept text =>
    (addBody (additionalName ++ Decimal.digits extras) text shown, extras + 1)
  | (shown, extras), .block name body => (addBody name body shown, extras)

theorem Groups.shown_add (groups : Groups) (key : Text) (b : Block) :
    (groups.add key b).shown = addBody key (b.body.getD []) groups.shown := by
  induction groups with
  | nil => rfl
  | cons g rest ih =>
    simp only [Groups.add, shown, List.map_cons, addBody] at ih ⊢
    split
    · simp
    · rw [List.map_cons, ih]

theorem strip_blocksFrom_cons (offset : Nat) (c : Chunk) (further : List Chunk) :
    (blocksFrom offset (c :: further)).map Block.strip =
      { name := c.name, start := offset, stop := some (offset + c.cut), body := some c.inner }
        :: (blocksFrom (offset + (c.full further).length) further).map Block.strip := by
  rw [blocksFrom, List.map_cons, Block.strip, Chunk.cut, Chunk.inner, Chunk.cut]
  cases h : Text.lastIndexOf '\x7d' c.text <;> simp [h]

/-! ### Organizing -/

namespace Organizing

/-- What an unfinished organization has placed so far. -/
def placed (o : Organizing) : List (Text × List Text) × Nat := (o.groups.shown, o.extras)

theorem placed_keep (o : Organizing) (text : Text) (start stop : Nat) :
    (o.keep text start stop).placed = place o.placed (.kept (text.slice start stop)) := by
  simp only [placed, keep, place, Groups.shown_add, Option.getD_some]

theorem placed_keepStart (o : Organizing) (lead rest : Text) :
    (o.keepStart (lead ++ rest) lead.length).placed = (keptStart lead).foldl place o.placed := by
  rw [keepStart, keptStart]
  split
  · rw [placed_keep]
    simp [Text.slice]
  · rfl

theorem placed_keepGap (o : Organizing) {text : Text} {stop : Nat} (h : stop ≤ text.length) :
    (o.keepGap text stop).placed =
      (keptGap (text.slice o.position stop)).foldl place o.placed := by
  have hlength : (o.position + (gapThreshold - 1) ≤ stop) ↔
      gapThreshold - 1 ≤ (text.slice o.position stop).length := by
    rw [Text.length_slice, gapThreshold]
    omega
  rw [keepGap, keptGap]
  by_cases hgap : o.position + (gapThreshold - 1) ≤ stop
  · rw [if_pos hgap, if_pos (hlength.mp hgap), placed_keep]
    rfl
  · rw [if_neg hgap, if_neg (mt hlength.mpr hgap)]
    rfl

end Organizing

/-- The text between the cut of a chunk and the next chunk, or the end. -/
theorem slice_tail (front : Text) (c : Chunk) (further : List Chunk) :
    (front ++ textOf (c :: further)).slice (front.length + c.cut + 1)
        (front ++ c.full further).length = c.tail further := by
  have hstart : front.length + c.cut + 1 - front.length = c.cut + 1 := by omega
  have hlength : front.length + (c.full further).length - (front.length + c.cut + 1) =
      (c.full further).length - (c.cut + 1) := by omega
  rw [textOf, Text.slice, Chunk.tail, List.length_append, hlength, List.drop_append, hstart,
    List.drop_eq_nil_of_le (by omega), List.nil_append]
  simp [List.drop_append]

/-- Adding a block places what is kept before it, and then what it holds. -/
theorem placed_addBlock (front : Text) (c : Chunk) (further : List Chunk) (isFirst : Bool)
    (o : Organizing) :
    ∃ o', o.addBlock (front ++ textOf (c :: further)) isFirst
        { name := c.name, start := front.length, stop := some (front.length + c.cut)
          body := some c.inner } = some o' ∧
      o'.position = front.length + c.cut + 1 ∧
      o'.placed = ((if isFirst then keptStart front
          else keptGap ((front ++ textOf (c :: further)).slice o.position front.length)) ++
        [Piece.block c.name c.inner]).foldl place o.placed := by
  refine ⟨_, rfl, rfl, ?_⟩
  rw [List.foldl_append]
  cases isFirst with
  | false =>
    have hstop : front.length ≤ (front ++ textOf (c :: further)).length := by simp
    simp only [Bool.false_eq_true, if_false]
    rw [← o.placed_keepGap hstop]
    simp [Organizing.placed, place, Groups.shown_add]
  | true =>
    simp only [if_true]
    rw [← o.placed_keepStart front (textOf (c :: further))]
    simp [Organizing.placed, place, Groups.shown_add]

theorem placed_foldlM (front : Text) (chunks : List Chunk) (o : Organizing) :
    ∃ o', ((blocksFrom front.length chunks).map Block.strip).foldlM
        (fun o b => o.addBlock (front ++ textOf chunks) false b) o = some o' ∧
      (o'.keepGap (front ++ textOf chunks) (front ++ textOf chunks).length).placed =
        (keptGap ((front ++ textOf chunks).slice o.position front.length) ++
          piecesFrom chunks).foldl place o.placed := by
  induction chunks generalizing front o with
  | nil =>
    refine ⟨o, rfl, ?_⟩
    rw [o.placed_keepGap (Nat.le_refl _)]
    simp [textOf, piecesFrom]
  | cons c further ih =>
    obtain ⟨o₁, hadd, hposition, hplaced⟩ := placed_addBlock front c further false o
    obtain ⟨o₂, hfold, hrest⟩ := ih (front ++ c.full further) o₁
    have htail := slice_tail front c further
    simp only [textOf, List.append_assoc] at hadd hplaced hfold hrest htail ⊢
    simp only [Bool.false_eq_true, if_false] at hplaced
    rw [hposition, htail, hplaced] at hrest
    refine ⟨o₂, ?_, ?_⟩
    · rw [strip_blocksFrom_cons, List.foldlM_cons, hadd, ← hfold, List.length_append]
      rfl
    · rw [hrest, piecesFrom]
      simp only [List.foldl_append, List.foldl_cons, List.foldl_nil]

theorem organize?_blocksFrom (front : Text) {chunks : List Chunk} (h : chunks ≠ []) :
    ∃ groups, organize? (front ++ textOf chunks) (blocksFrom front.length chunks) = some groups ∧
      groups.shown = ((piecesOf front chunks).foldl place ([], 0)).1 := by
  obtain ⟨c, further, rfl⟩ := List.exists_cons_of_ne_nil h
  obtain ⟨o₁, hadd, hposition, hplaced⟩ := placed_addBlock front c further true {}
  obtain ⟨o₂, hfold, hrest⟩ := placed_foldlM (front ++ c.full further) further o₁
  have htail := slice_tail front c further
  simp only [textOf, List.append_assoc] at hadd hfold hrest htail ⊢
  rw [hposition, htail, hplaced] at hrest
  refine ⟨(o₂.keepGap (front ++ (c.full further ++ textOf further))
    (front ++ (c.full further ++ textOf further)).length).groups, ?_, ?_⟩
  · rw [organize?, strip_blocksFrom_cons]
    simp only [hadd, Option.bind_eq_bind, Option.bind_some]
    rw [← List.length_append, hfold]
    rfl
  · have hshown := congrArg Prod.fst hrest
    rw [if_pos rfl] at hshown
    rw [piecesOf, piecesFrom]
    simp only [List.foldl_append, List.foldl_cons, List.foldl_nil] at hshown ⊢
    exact hshown

/-- The groups of a text: its pieces, placed one after the other. -/
theorem organize?_scan {text : Text} (h : (chunksOf text.lines).2 ≠ []) :
    ∃ groups, organize? text (scan text) = some groups ∧
      groups.shown =
        ((piecesOf (leadOf (chunksOf text.lines).1) (chunksOf text.lines).2).foldl place
          ([], 0)).1 := by
  have hgroups := organize?_blocksFrom (leadOf (chunksOf text.lines).1) h
  rwa [← join_eq_leadOf_append h, Text.lines, Text.join_splitAll, ← Text.lines,
    ← scan_eq] at hgroups

end NamespaceMerge.Declaration
