import NamespaceMerge.Merging.DeclarationMerger
import NamespaceMerge.Proofs.Declaration.LineEnds
import NamespaceMerge.Proofs.Declaration.Source
import NamespaceMerge.Toolkit.Standard

/-! The merged text of a source of declarations, written down from its blocks: every name has one
block, where it first appears, and the text around the blocks stays in its place
(`Source.merged`). A merger returns this text for every source whose blocks end where they are
written to end, and that has no carriage returns (`contents_merge_of_regular`). -/

namespace NamespaceMerge

namespace Declaration

/-- Text that has at least `least` characters and is not blank; nothing for other text. -/
def keptFrom (least : Nat) (text : Text) : Text := if least ≤ text.length then keptText text else []

/-- The bodies of the blocks with a name. -/
def bodiesNamed (name : Text) (blocks : List SourceBlock) : List Text :=
  (blocks.filter (·.name = name)).map (·.body)

/-- The merged text of blocks, but for the names that were `seen` before. -/
def mergedFrom (seen : List Text) : List SourceBlock → Text
  | [] => []
  | b :: rest =>
    if seen.contains b.name then keptFrom 2 b.gap ++ mergedFrom seen rest
    else
      blockText b.name (bodiesNamed b.name (b :: rest)) ++
        (keptFrom 2 b.gap ++ mergedFrom (seen ++ [b.name]) rest)

def Source.merged (s : Source) : Text := keptFrom 3 s.lead ++ mergedFrom [] s.blocks

theorem written_keptStart (seen : List Text) (lead : Text) (rest : List Piece) :
    written seen (keptStart lead ++ rest) = keptFrom 3 lead ++ written seen rest := by
  rw [keptStart, keptFrom, gapThreshold]
  split <;> rfl

theorem written_keptGap (seen : List Text) (gap : Text) (rest : List Piece) :
    written seen (keptGap gap ++ rest) = keptFrom 2 gap ++ written seen rest := by
  rw [keptGap, keptFrom, gapThreshold]
  split <;> rfl

theorem bodiesOf_keptGap (name gap : Text) (rest : List Piece) :
    bodiesOf name (keptGap gap ++ rest) = bodiesOf name rest := by
  rw [keptGap]
  split <;> rfl

theorem bodiesOf_pieces (name : Text) (blocks : List SourceBlock) :
    bodiesOf name (blocks.flatMap SourceBlock.pieces) = bodiesNamed name blocks := by
  induction blocks with
  | nil => rfl
  | cons b rest ih =>
    rw [List.flatMap_cons, SourceBlock.pieces, List.cons_append, bodiesOf, bodiesOf_keptGap, ih,
      bodiesNamed, bodiesNamed, List.filter_cons]
    by_cases h : b.name = name <;> simp [h]

theorem written_pieces (seen : List Text) (blocks : List SourceBlock) :
    written seen (blocks.flatMap SourceBlock.pieces) = mergedFrom seen blocks := by
  induction blocks generalizing seen with
  | nil => rfl
  | cons b rest ih =>
    rw [List.flatMap_cons, SourceBlock.pieces, List.cons_append, written, mergedFrom,
      written_keptGap, written_keptGap, ih, ih, bodiesOf_keptGap, bodiesOf_pieces]
    simp [bodiesNamed]

theorem Source.written_pieces (s : Source) : written [] s.pieces = s.merged := by
  rw [pieces, written_keptStart, Declaration.written_pieces, merged]

theorem Source.cut_eq_self {s : Source} (h : ∀ b ∈ s.blocks, '\x7d' ∉ b.gap) : s.cut = s := by
  have hblocks : s.blocks.map SourceBlock.cut = s.blocks.map id :=
    List.map_congr_left fun b hb => SourceBlock.cut_of_notMem (h b hb)
  rw [cut, hblocks, List.map_id]

/-- The merged text of a source, by its blocks as they are read. -/
theorem contents_merge?_cut {s : Source} (h : s.Regular) (hne : s.blocks ≠ []) :
    (merge? s.text).map (·.contents) = some (normalizeLineEnds s.cut.merged) := by
  rw [contents_merge?_source h.readable hne, s.cut.written_pieces]

/-! ### Carriage returns -/

theorem return_notMem_keptFrom {text : Text} (h : '\r' ∉ text) (least : Nat) :
    '\r' ∉ keptFrom least text := by
  rw [keptFrom, keptText]
  split
  · split
    · exact List.not_mem_nil
    · exact h
  · exact List.not_mem_nil

theorem return_notMem_blockText {name : Text} {bodies : List Text} (hname : '\r' ∉ name)
    (hbodies : ∀ body ∈ bodies, '\r' ∉ body) : '\r' ∉ blockText name bodies := by
  have hjoin : '\r' ∉ Text.join ['\t'] (bodies.filter fun body => !isBlankText body) := by
    intro hmem
    rcases Text.exists_of_mem_join hmem with h | ⟨body, hbody, h⟩
    · simp at h
    · exact hbodies body (List.mem_of_mem_filter hbody) h
  rw [blockText]
  simp only [List.mem_append, hname, hjoin]
  decide

theorem return_notMem_mergedFrom {blocks : List SourceBlock}
    (h : ∀ b ∈ blocks, '\r' ∉ b.text) (seen : List Text) : '\r' ∉ mergedFrom seen blocks := by
  have hparts : ∀ b ∈ blocks, '\r' ∉ b.name ∧ '\r' ∉ b.body ∧ '\r' ∉ b.gap := fun b hb => by
    have htext := h b hb
    simp only [SourceBlock.text, opening, List.mem_append, List.mem_cons,
      not_or] at htext
    exact ⟨htext.1.2.1, htext.2.1, htext.2.2.2⟩
  clear h
  induction blocks generalizing seen with
  | nil => exact List.not_mem_nil
  | cons b rest ih =>
    have hb := hparts b List.mem_cons_self
    have hgap := return_notMem_keptFrom hb.2.2 2
    have hrest := fun seen => ih seen fun b' hb' => hparts b' (List.mem_cons_of_mem _ hb')
    rw [mergedFrom]
    split
    · rw [List.mem_append, not_or]
      exact ⟨hgap, hrest _⟩
    · rw [List.mem_append, List.mem_append, not_or, not_or]
      refine ⟨return_notMem_blockText hb.1 fun body hbody => ?_, hgap, hrest _⟩
      obtain ⟨b', hb', rfl⟩ := List.mem_map.mp hbody
      exact (hparts b' (List.mem_of_mem_filter hb')).2.1

theorem Source.return_notMem_merged {s : Source} (h : '\r' ∉ s.text) : '\r' ∉ s.merged := by
  rw [text, List.mem_append, not_or] at h
  rw [merged, List.mem_append, not_or]
  exact ⟨return_notMem_keptFrom h.1 3, return_notMem_mergedFrom (fun b hb hmem =>
    h.2 (List.mem_flatMap.mpr ⟨b, hb, hmem⟩)) []⟩

end Declaration

namespace DeclarationMerger

open Declaration

/-- A merger that skips nothing returns the merged text of its file. -/
theorem contents_merge {m : DeclarationMerger} {text contents : Text}
    (hskip : m.settings.skipDeclarations = false) (hfile : m.file.contents.toList = text)
    (h : (merge? text).map (·.contents) = some contents) :
    ∃ result, m.merge.2 = some result ∧ result.contents.toList = contents := by
  obtain ⟨merged, hmerge, rfl⟩ := Option.map_eq_some_iff.mp h
  refine ⟨m.settings.mergedDeclarations m.file, ?_, ?_⟩
  · simp [merge, Settings.mergeDeclarations, hskip]
  · simp [Settings.mergedDeclarations, File.measured, hfile, hmerge]

/-- A file without namespaces stays as it is. -/
theorem contents_merge_none {m : DeclarationMerger} {text : Text}
    (hskip : m.settings.skipDeclarations = false) (hfile : m.file.contents.toList = text)
    (h : merge? text = none) :
    ∃ result, m.merge.2 = some result ∧ result.contents.toList = text := by
  refine ⟨m.settings.mergedDeclarations m.file, ?_, ?_⟩
  · simp [merge, Settings.mergeDeclarations, hskip]
  · simp [Settings.mergedDeclarations, File.measured, hfile, h]

/-- The merged file holds the lead, the first block of every name with all bodies of the name, and
the gaps, in this order. -/
theorem contents_merge_of_regular (m : DeclarationMerger) {s : Source} (h : s.Regular)
    (hne : s.blocks ≠ []) (hreturn : '\r' ∉ s.text) (hbrace : ∀ b ∈ s.blocks, '\x7d' ∉ b.gap)
    (hskip : m.settings.skipDeclarations = false) (hfile : m.file.contents.toList = s.text) :
    ∃ result, m.merge.2 = some result ∧ result.contents.toList = s.merged := by
  refine contents_merge hskip hfile ?_
  rw [contents_merge?_cut h hne, Source.cut_eq_self hbrace,
    normalizeLineEnds_eq_self (.inl (Source.return_notMem_merged hreturn))]

/-- A reference, a namespace with a blank block between its others, and another one. -/
def shapes : Source where
  lead := "/// a.d.ts\n".toList
  blocks := [
    ⟨"Shapes".toList, "\n  a;\n".toList, "\ntype T = 1;\n".toList⟩,
    ⟨"Units".toList, " b; ".toList, "\n".toList⟩,
    ⟨"Shapes".toList, "  ".toList, "\n\n".toList⟩,
    ⟨"Shapes".toList, "\n  \x7b c \x7d;\n".toList, ";".toList⟩]

def mergedShapes : Text :=
  ("/// a.d.ts\ndeclare namespace Shapes \x7b\n\t\n  a;\n\t\n  \x7b c \x7d;\n\x7d\n" ++
    "\ntype T = 1;\ndeclare namespace Units \x7b\n\t b; \x7d\n").toList

theorem contents_merge_shapes :
    ∃ result,
      (merge ⟨.standard, File.ofDeclarations (String.ofList shapes.text), {}⟩).2 = some result ∧
        result.contents.toList = mergedShapes := by
  have hmerged : shapes.merged = mergedShapes := by decide
  rw [← hmerged]
  exact contents_merge_of_regular _ (by decide) (by decide) (by decide) (by decide) rfl
    String.toList_ofList

end DeclarationMerger

end NamespaceMerge
