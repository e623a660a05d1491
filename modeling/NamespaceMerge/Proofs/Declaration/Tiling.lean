import Mathlib.Data.List.Nodup
import NamespaceMerge.Proofs.Declaration.Filing
import NamespaceMerge.Proofs.Declaration.HeaderLine
import NamespaceMerge.Proofs.Text.Blank

/-! Blocks and kept text tile a text of declarations. A stripped block ends at its last brace or,
without one, in front of the next block, and holds what stands between its header and its end
(`Block.Ends`); between two blocks nothing but a newline is left out (`Tiles`). Organizing keeps
the regions around the blocks that are wide enough, and no other text (`keptRegions`). -/

namespace NamespaceMerge

namespace Text

theorem slice_append_left (front text : Text) (start stop : Nat) :
    slice (front ++ text) (front.length + start) (front.length + stop) = slice text start stop := by
  rw [slice, slice, List.drop_append, List.drop_eq_nil_of_le (Nat.le_add_right _ _),
    List.nil_append, Nat.add_sub_cancel_left, Nat.add_sub_add_left]

theorem slice_append_right {text : Text} {stop : Nat} (h : stop ≤ text.length) (start : Nat)
    (after : Text) : slice (text ++ after) start stop = slice text start stop := by
  rw [slice, slice, ← List.drop_take, ← List.drop_take, List.take_append_of_le_length h]

theorem slice_eq_drop_take (text : Text) (start stop : Nat) :
    slice text start stop = (text.take stop).drop start := by
  rw [slice, List.drop_take]

end Text

namespace Declaration

/-! ### Statement -/

/-- The line of a text that starts at offset `start`. -/
def lineAt (text : Text) (start : Nat) : Text := (text.drop start).takeWhile (· ≠ '\n')

/-- The offset behind the brace of the header line that starts at `start`. -/
def headerEnd? (text : Text) (start : Nat) : Option Nat :=
  (Header.ofLine? (lineAt text start)).map (start + ·.length)

/-- A stripped block ends at offset `stop` of a text in which its lines end at `limit`. -/
structure Block.Ends (b : Block) (text : Text) (limit stop : Nat) : Prop where
  stop_eq : b.stop = some stop
  start_le : b.start ≤ stop
  stop_le : stop ≤ limit
  /-- With a brace in its lines, the block ends at the last of them. -/
  brace : '\x7d' ∈ text.slice b.start limit →
    text[stop]? = some '\x7d' ∧ '\x7d' ∉ text.slice (stop + 1) limit
  /-- Without a brace, it ends with its lines. -/
  noBrace : '\x7d' ∉ text.slice b.start limit → stop = limit
  /-- The body starts behind the header, or with the block if the end stands before that. -/
  body : ∃ header, headerEnd? text b.start = some header ∧ header ≤ limit ∧
    b.body = some (text.slice (if header ≤ stop then header else b.start) stop)

/-- Stripped blocks that follow each other in a text up to its end. The lines of a block end at
the newline in front of the next one, and between two blocks at most that newline stands, unless
there are two characters or more. -/
inductive Tiles (text : Text) : List Block → Prop
  | last {b : Block} {stop : Nat} (ends : b.Ends text text.length stop) : Tiles text [b]
  | cons {b next : Block} {rest : List Block} {stop : Nat}
      (ends : b.Ends text (next.start - 1) stop) (stop_lt : stop < next.start)
      (newline : text[next.start - 1]? = some '\n')
      (narrow : (text.slice (stop + 1) next.start).length < 2 →
        text.slice (stop + 1) next.start = [] ∨ text.slice (stop + 1) next.start = ['\n'])
      (further : Tiles text (next :: rest)) : Tiles text (b :: next :: rest)

/-- The pieces in groups that are no blocks: the key of their group is not their name. -/
def Groups.fragments (groups : Groups) : List Block :=
  groups.flatMap fun g => g.blocks.filter (·.name ≠ g.key)

/-! ### Ends of blocks -/

/-- A chunk as it is read from lines. -/
structure Chunk.Read (c : Chunk) : Prop where
  header : Header.ofLine? c.first = some c.header
  newline : '\n' ∉ c.first

theorem read_of_mem_chunksOf {lines : List Text} (h : ∀ line ∈ lines, '\n' ∉ line) {c : Chunk}
    (hc : c ∈ (chunksOf lines).2) : c.Read := by
  induction lines with
  | nil => cases hc
  | cons line rest ih =>
    rw [List.forall_mem_cons] at h
    cases hline : Header.ofLine? line with
    | some header =>
      rw [chunksOf_cons_of_some hline, List.mem_cons] at hc
      rcases hc with rfl | hc
      · exact ⟨hline, h.1⟩
      · exact ih h.2 hc
    | none =>
      rw [chunksOf_cons_of_none hline] at hc
      exact ih h.2 hc

namespace Chunk

theorem text_eq (c : Chunk) : ∃ rest, c.text = c.first ++ rest ∧ FollowsLine rest := by
  cases hmore : c.more with
  | nil => exact ⟨[], by rw [text, hmore, Text.join_singleton, List.append_nil], .inl rfl⟩
  | cons line more =>
    refine ⟨'\n' :: Text.join ['\n'] (line :: more), ?_, .inr rfl⟩
    rw [text, hmore, Text.join_cons _ _ (List.cons_ne_nil _ _), List.singleton_append]

theorem brace_cut {c : Chunk} (h : '\x7d' ∈ c.text) :
    c.text[c.cut]? = some '\x7d' ∧ '\x7d' ∉ c.text.slice (c.cut + 1) c.text.length := by
  obtain ⟨a, b, htext, hb⟩ := Text.exists_eq_append_cons_of_mem h
  have hcut : c.cut = a.length := by
    rw [cut, htext, Text.lastIndexOf_append_cons a hb, Option.getD_some]
  have hbehind : (a ++ '\x7d' :: b).slice (a.length + 1) (a ++ '\x7d' :: b).length = b := by
    rw [Text.slice_eq_drop_take, List.take_length]
    simp
  rw [hcut, htext, hbehind]
  exact ⟨by simp, hb⟩

theorem cut_of_notMem {c : Chunk} (h : '\x7d' ∉ c.text) : c.cut = c.text.length := by
  rw [cut, Text.lastIndexOf_eq_none_iff.mpr h, Option.getD_none]

theorem cut_le (c : Chunk) : c.cut ≤ c.text.length := by
  by_cases h : '\x7d' ∈ c.text
  · exact Nat.le_of_lt (List.getElem?_eq_some_iff.mp (brace_cut h).1).1
  · exact Nat.le_of_eq (cut_of_notMem h)

/-- The line that a chunk starts with, in a text where another line follows the chunk. -/
theorem Read.lineAt {c : Chunk} (hc : c.Read) (front : Text) {after : Text}
    (hafter : FollowsLine after) : lineAt (front ++ (c.text ++ after)) front.length = c.first := by
  obtain ⟨rest, htext, hrest⟩ := c.text_eq
  have hfollows : FollowsLine (rest ++ after) := by
    rcases hrest with rfl | hrest
    · exact hafter
    · obtain ⟨more, rfl⟩ := List.head?_eq_some_iff.mp hrest
      exact .inr rfl
  have hall : ∀ x ∈ c.first, decide (x ≠ '\n') = true := fun x hx => by
    rw [decide_eq_true_eq]
    rintro rfl
    exact hc.newline hx
  rw [Declaration.lineAt, List.drop_left, htext, List.append_assoc,
    List.takeWhile_append_of_pos hall]
  rcases hfollows with hnil | hhead
  · rw [hnil, List.takeWhile_nil, List.append_nil]
  · obtain ⟨more, hmore⟩ := List.head?_eq_some_iff.mp hhead
    simp [hmore]

/-- What a chunk holds up to where it is cut, behind its header if that stands before the cut. -/
theorem Read.inner_eq {c : Chunk} (hc : c.Read) :
    c.inner = c.text.slice (if c.header.length ≤ c.cut then c.header.length else 0) c.cut := by
  obtain ⟨rest, htext, hrest⟩ := c.text_eq
  have hinner := withoutHeader_take hc.newline hrest hc.header c.cut
  rw [← htext] at hinner
  rw [inner, hinner, Text.slice_eq_drop_take]
  split <;> rfl

theorem Read.inner_infix {c : Chunk} (hc : c.Read) : c.inner <:+: c.text := by
  rw [hc.inner_eq, Text.slice_eq_drop_take]
  exact (List.drop_suffix _ _).isInfix.trans (List.take_prefix _ _).isInfix

theorem Read.name_infix {c : Chunk} (hc : c.Read) : c.name <:+: c.text := by
  obtain ⟨rest, htext, -⟩ := c.text_eq
  obtain ⟨part, -, hline, -⟩ := Header.exists_line_eq hc.header
  refine (Text.trim_infix _).trans ⟨c.header.before ++ part, '\x7b' :: (c.header.rest ++ rest), ?_⟩
  rw [htext, hline]
  simp

end Chunk

/-- A chunk that is stripped ends where it is cut. -/
theorem ends_of_read {c : Chunk} (hc : c.Read) (front after : Text)
    (hafter : FollowsLine after) :
    Block.Ends { name := c.name, start := front.length, stop := some (front.length + c.cut)
                 body := some c.inner }
      (front ++ (c.text ++ after)) (front.length + c.text.length) (front.length + c.cut) := by
  have hslice : ∀ start stop, stop ≤ c.text.length →
      (front ++ (c.text ++ after)).slice (front.length + start) (front.length + stop) =
        c.text.slice start stop := fun start stop hstop => by
    rw [Text.slice_append_left, Text.slice_append_right hstop]
  have hwhole : (front ++ (c.text ++ after)).slice front.length
      (front.length + c.text.length) = c.text := by
    have h := hslice 0 c.text.length (Nat.le_refl _)
    rwa [Nat.add_zero, c.text.slice_eq_drop_take, List.take_length, List.drop_zero] at h
  refine ⟨rfl, Nat.le_add_right _ _, Nat.add_le_add_left c.cut_le _, ?brace, ?noBrace, ?body⟩
  case brace =>
    intro hmem
    rw [hwhole] at hmem
    obtain ⟨hbrace, hbehind⟩ := Chunk.brace_cut hmem
    obtain ⟨hbound, -⟩ := List.getElem?_eq_some_iff.mp hbrace
    rw [Nat.add_assoc, hslice _ _ (Nat.le_refl _),
      List.getElem?_append_right (Nat.le_add_right _ _), Nat.add_sub_cancel_left,
      List.getElem?_append_left hbound]
    exact ⟨hbrace, hbehind⟩
  case noBrace =>
    intro hmem
    rw [hwhole] at hmem
    rw [Chunk.cut_of_notMem hmem]
  case body =>
    obtain ⟨rest, htext, -⟩ := c.text_eq
    have hlength := Header.length_le hc.header
    refine ⟨front.length + c.header.length, ?_, ?_, ?_⟩
    · rw [headerEnd?, hc.lineAt front hafter, hc.header, Option.map_some]
    · rw [htext, List.length_append]
      omega
    · rw [hc.inner_eq, ← hslice _ _ c.cut_le]
      simp only [Nat.add_le_add_iff_left]
      split <;> rfl

/-- What stands between the end of a block and the newline in front of the next one. -/
theorem narrow_of_newline {text : Text} {stop next : Nat} (hnext : text[next - 1]? = some '\n')
    (hstop : stop < next) (hlength : (text.slice (stop + 1) next).length < 2) :
    text.slice (stop + 1) next = [] ∨ text.slice (stop + 1) next = ['\n'] := by
  obtain ⟨hbound, hget⟩ := List.getElem?_eq_some_iff.mp hnext
  rw [Text.length_slice] at hlength
  rcases (show next = stop + 1 ∨ next = stop + 2 by omega) with rfl | rfl
  · left
    rw [Text.slice, Nat.sub_self, List.take_zero]
  · right
    have hone : stop + 2 - (stop + 1) = 1 := by omega
    have hbound' : stop + 1 < text.length := hbound
    rw [Text.slice, hone, List.drop_eq_getElem_cons hbound', List.take_succ_cons, List.take_zero]
    exact congrArg (fun c => [c]) hget

theorem tiles_blocksFrom {chunks : List Chunk} (h : ∀ c ∈ chunks, c.Read) (hne : chunks ≠ [])
    (front : Text) :
    Tiles (front ++ textOf chunks) ((blocksFrom front.length chunks).map Block.strip) := by
  induction chunks generalizing front with
  | nil => exact (hne rfl).elim
  | cons c further ih =>
    rw [List.forall_mem_cons] at h
    cases further with
    | nil =>
      have hends := ends_of_read h.1 front [] (.inl rfl)
      rw [List.append_nil, ← List.length_append] at hends
      rw [strip_blocksFrom_cons, textOf, textOf, List.append_nil, Chunk.full,
        if_pos List.isEmpty_nil]
      exact .last hends
    | cons next further =>
      have hends := ends_of_read h.1 front ('\n' :: textOf (next :: further)) (.inr rfl)
      have hmore := ih h.2 (List.cons_ne_nil _ _) (front ++ (c.text ++ ['\n']))
      have htext : front ++ textOf (c :: next :: further) =
          front ++ (c.text ++ '\n' :: textOf (next :: further)) := by
        simp [textOf, Chunk.full]
      have htext' : (front ++ (c.text ++ ['\n'])) ++ textOf (next :: further) =
          front ++ (c.text ++ '\n' :: textOf (next :: further)) := by
        simp
      have hlength : (front ++ (c.text ++ ['\n'])).length = front.length + c.text.length + 1 := by
        simp [Nat.add_assoc]
      rw [htext', hlength, strip_blocksFrom_cons] at hmore
      rw [htext, strip_blocksFrom_cons, strip_blocksFrom_cons]
      have hfull : front.length + (c.full (next :: further)).length =
          front.length + c.text.length + 1 := by
        simp [Chunk.full, Nat.add_assoc]
      rw [hfull]
      have hlt : front.length + c.cut < front.length + c.text.length + 1 := by
        have := c.cut_le
        omega
      have hnewline : (front ++ (c.text ++ '\n' :: textOf (next :: further)))[front.length +
          c.text.length + 1 - 1]? = some '\n' := by simp
      exact .cons hends hlt hnewline (narrow_of_newline hnewline hlt) hmore

theorem tiles_scan {text : Text} (h : scan text ≠ []) :
    Tiles text ((scan text).map Block.strip) := by
  have hchunks := chunks_ne_nil h
  have hread : ∀ c ∈ (chunksOf text.lines).2, c.Read := fun c hc =>
    read_of_mem_chunksOf (fun line hline => Text.notMem_of_mem_splitAll hline) hc
  have htiles := tiles_blocksFrom hread hchunks (leadOf (chunksOf text.lines).1)
  rwa [← join_eq_leadOf_append hchunks, Text.lines, Text.join_splitAll, ← Text.lines,
    ← scan_eq] at htiles

/-! ### Kept regions -/

theorem fragments_add (groups : Groups) (key : Text) (b : Block) :
    (groups.add key b).fragments.Perm (groups.fragments ++ [b].filter (·.name ≠ key)) := by
  induction groups with
  | nil => simp [Groups.add, Groups.fragments]
  | cons g rest ih =>
    rw [Groups.add]
    split
    · next hkey =>
      subst hkey
      simp only [Groups.fragments, List.flatMap_cons, List.filter_append, List.append_assoc]
      exact (List.perm_append_comm).append_left _
    · have happend := ih.append_left (g.blocks.filter (·.name ≠ g.key))
      simpa only [Groups.fragments, List.flatMap_cons, List.append_assoc] using happend

/-- The fragments of entries are those that stand under another key than their name. -/
theorem fragments_ofEntries (entries : List (Text × Block)) :
    (Groups.ofEntries entries).fragments.Perm
      ((entries.filter fun e => e.2.name ≠ e.1).map (·.2)) := by
  induction entries using List.reverseRecOn with
  | nil => exact .refl _
  | append_singleton entries e ih =>
    have hadd := fragments_add (.ofEntries entries) e.1 e.2
    rw [Groups.add_ofEntries] at hadd
    refine hadd.trans ?_
    rw [List.filter_append, List.map_append]
    by_cases hname : e.2.name = e.1
    · simpa [hname] using ih
    · simpa [hname] using ih.append_right [e.2]

theorem exists_organize?_fragments {text : Text} {blocks : List Block} (hne : blocks ≠ [])
    (h : ∀ b ∈ blocks.map Block.strip, b.start ≤ text.length ∧ b.stop.isSome) :
    ∃ groups, organize? text blocks = some groups ∧
      groups.fragments.Perm
        ((keptRegions text (blocks.map Block.strip)).map (Region.piece text)) := by
  obtain ⟨entries, horganize, hfiles⟩ := exists_organize?_files hne h
  refine ⟨_, horganize, (fragments_ofEntries entries).trans (.of_eq ?_)⟩
  rw [hfiles.regions]
  exact List.ext_getElem (by simp) (by simp [regionEntry])

/-! ### The order of kept regions -/

theorem Tiles.forall_mem {text : Text} {blocks : List Block} (h : Tiles text blocks) :
    ∀ b ∈ blocks, b.start ≤ text.length ∧ b.stop.isSome := by
  induction h with
  | last ends =>
    rw [List.forall_mem_singleton, ends.stop_eq]
    exact ⟨Nat.le_trans ends.start_le ends.stop_le, rfl⟩
  | cons ends stop_lt newline narrow further ih =>
    rw [List.forall_mem_cons, ends.stop_eq]
    have hnext := (ih _ List.mem_cons_self).1
    have hstart := ends.start_le
    exact ⟨⟨by omega, rfl⟩, ih⟩

/-- Every block ends behind the one before it. -/
theorem Tiles.isChain_stop {text : Text} {blocks : List Block} (h : Tiles text blocks) :
    (blocks.map fun b => b.stop.getD 0 + 1).IsChain (· < ·) := by
  induction h with
  | last ends => exact .singleton _
  | @cons b next rest stop ends stop_lt newline narrow further ih =>
    rw [List.map_cons, List.map_cons, List.isChain_cons_cons]
    refine ⟨?_, ih⟩
    have hnext : ∃ stop', next.stop = some stop' ∧ next.start ≤ stop' := by
      cases further with
      | last ends' => exact ⟨_, ends'.stop_eq, ends'.start_le⟩
      | cons ends' => exact ⟨_, ends'.stop_eq, ends'.start_le⟩
    obtain ⟨stop', hstop', hle⟩ := hnext
    rw [ends.stop_eq, hstop', Option.getD_some, Option.getD_some]
    omega

theorem start_gapsFrom (text : Text) (position : Nat) (blocks : List Block) :
    (gapsFrom text position blocks).map Region.start =
      position :: blocks.map fun b => b.stop.getD 0 + 1 := by
  induction blocks generalizing position with
  | nil => rfl
  | cons b rest ih => rw [gapsFrom, List.map_cons, ih, List.map_cons]

/-- Kept regions start one after the other. -/
theorem Tiles.pairwise_keptRegions {text : Text} {blocks : List Block} (h : Tiles text blocks) :
    (keptRegions text blocks).Pairwise fun r r' => r.start < r'.start := by
  cases blocks with
  | nil => exact .nil
  | cons first rest =>
    have hchain := h.isChain_stop
    rw [List.map_cons, ← start_gapsFrom text] at hchain
    have hpairwise := List.pairwise_map.mp (List.isChain_iff_pairwise.mp hchain)
    have hzero : ∀ r ∈ gapsFrom text (first.stop.getD 0 + 1) rest, 0 < r.start := fun r hr => by
      have hmem := List.mem_map_of_mem (f := Region.start) hr
      rw [start_gapsFrom, List.mem_cons, List.mem_map] at hmem
      rcases hmem with heq | ⟨b, -, heq⟩ <;> omega
    have hsublist : (keptRegions text (first :: rest)).Sublist
        (⟨0, first.start⟩ :: gapsFrom text (first.stop.getD 0 + 1) rest) :=
      List.filter_sublist.append List.filter_sublist
    exact (List.pairwise_cons.mpr ⟨hzero, hpairwise⟩).sublist hsublist

/-- A list that holds the same blocks as one in the order of their starts, sorted. -/
theorem mergeSort_eq_of_perm {blocks sorted : List Block} (h : blocks.Perm sorted)
    (hsorted : sorted.Pairwise fun a b => a.start < b.start) :
    blocks.mergeSort (fun a b => decide (a.start ≤ b.start)) = sorted := by
  have hperm := (blocks.mergeSort_perm fun a b => decide (a.start ≤ b.start)).trans h
  have hnodup : (sorted.map (·.start)).Nodup :=
    List.pairwise_map.mpr (hsorted.imp fun hlt => Nat.ne_of_lt hlt)
  refine List.Perm.eq_of_pairwise (fun a b ha hb hle hge => ?_) (List.pairwise_mergeSort ?_ ?_ _)
    (hsorted.imp fun hlt => decide_eq_true (Nat.le_of_lt hlt)) hperm
  · have hstart := Nat.le_antisymm (of_decide_eq_true hle) (of_decide_eq_true hge)
    exact List.inj_on_of_nodup_map hnodup (hperm.mem_iff.mp ha) hb hstart
  · simpa using fun a b c : Block => Nat.le_trans
  · simpa using fun a b : Block => Nat.le_total a.start b.start

/-- Stripped blocks tile their text, and organizing keeps the wide regions around them: the pieces
that are no blocks are just these, in the order in which they start. -/
theorem tiles_organize? {text : Text} (h : scan text ≠ []) :
    Tiles text ((scan text).map Block.strip) ∧
      ∃ groups, organize? text (scan text) = some groups ∧
        groups.fragments.mergeSort (fun a b => decide (a.start ≤ b.start)) =
          (keptRegions text ((scan text).map Block.strip)).map (Region.piece text) := by
  have htiles := tiles_scan h
  obtain ⟨groups, horganize, hfragments⟩ := exists_organize?_fragments h htiles.forall_mem
  refine ⟨htiles, groups, horganize, mergeSort_eq_of_perm hfragments ?_⟩
  exact List.pairwise_map.mpr htiles.pairwise_keptRegions

/-- A block that ends with its lines, one whose only brace stands in front of its header, and one
with text behind it. -/
def ragged : Text :=
  ("//\n\ndeclare namespace A \x7b\n  a\n" ++ "/* \x7d */ declare namespace B \x7b\n\n" ++
    "declare namespace C \x7b c \x7d;\n").toList

theorem tiles_organize?_ragged :
    scan ragged ≠ [] ∧
      (scan ragged).map (fun b => (b.start, b.strip.stop)) =
        [(4, some 29), (30, some 33), (61, some 85)] ∧
      Tiles ragged ((scan ragged).map Block.strip) ∧
      ∃ groups, organize? ragged (scan ragged) = some groups ∧
        groups.fragments.mergeSort (fun a b => decide (a.start ≤ b.start)) =
          [⟨0, 4⟩, ⟨34, 61⟩, ⟨86, 88⟩].map (Region.piece ragged) := by
  have hkept : (keptRegions ragged ((scan ragged).map Block.strip)) =
      [⟨0, 4⟩, ⟨34, 61⟩, ⟨86, 88⟩] := by decide
  have hne : scan ragged ≠ [] := by decide
  obtain ⟨htiles, hgroups⟩ := tiles_organize? hne
  rw [hkept] at hgroups
  exact ⟨hne, by decide, htiles, hgroups⟩

end Declaration

end NamespaceMerge
