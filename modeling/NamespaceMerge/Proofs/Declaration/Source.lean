import NamespaceMerge.Proofs.Declaration.Gathering
import NamespaceMerge.Proofs.Text.Blank

/-! Texts that are put together from blocks with their names and bodies, and the text around them.
Such a text is scanned into the blocks it was made of, but for their ends: a block takes what
follows it up to the last brace before the next block (`SourceBlock.cut`). -/

namespace NamespaceMerge.Declaration

/-- What a block of namespace `name` begins with. -/
def opening (name : Text) : Text := keyword ++ (name ++ ' ' :: ['\x7b'])

/-- A block as it is written, and the text from its end to the next block. -/
structure SourceBlock where
  name : Text
  body : Text
  gap : Text

namespace SourceBlock

def text (b : SourceBlock) : Text := opening b.name ++ (b.body ++ '\x7d' :: b.gap)

/-- The block as it is read: its body goes on to the last brace before the next block. -/
def cut (b : SourceBlock) : SourceBlock :=
  match Text.lastIndexOf '\x7d' b.gap with
  | none => b
  | some index =>
    { b with body := b.body ++ '\x7d' :: b.gap.take index, gap := b.gap.drop (index + 1) }

def pieces (b : SourceBlock) : List Piece := .block b.name b.body :: keptGap b.gap

end SourceBlock

/-- A text of declarations: what stands before the first block, and the blocks. -/
structure Source where
  lead : Text
  blocks : List SourceBlock

namespace Source

def text (s : Source) : Text := s.lead ++ s.blocks.flatMap SourceBlock.text

def cut (s : Source) : Source := { s with blocks := s.blocks.map SourceBlock.cut }

def pieces (s : Source) : List Piece := keptStart s.lead ++ s.blocks.flatMap SourceBlock.pieces

end Source

def EndsLine (text : Text) : Prop := text.getLast? = some '\n'

instance (text : Text) : Decidable (EndsLine text) := inferInstanceAs (Decidable (_ = _))

/-- A name that is read back as it was written. -/
structure RegularName (name : Text) : Prop where
  nonempty : name ≠ []
  brace : '\x7b' ∉ name
  newline : '\n' ∉ name
  trimmed : Text.trim name = name
  plain : isAdditional name = false

/-- A block whose name is read back, and with no other keyword up to the next block. -/
structure SourceBlock.Regular (b : SourceBlock) : Prop where
  name : RegularName b.name
  bodyFree : ¬ Text.HoldsCaseless keyword b.body
  gapFree : ¬ Text.HoldsCaseless keyword b.gap

/-- Every block is regular and starts on a line of its own. -/
structure Source.Regular (s : Source) : Prop where
  lead : s.blocks ≠ [] → s.lead = [] ∨ EndsLine s.lead
  leadFree : ¬ Text.HoldsCaseless keyword s.lead
  gaps : ∀ b ∈ s.blocks.dropLast, EndsLine b.gap
  blocks : ∀ b ∈ s.blocks, b.Regular

/-- A name that is read back, but may be empty. -/
structure ReadableName (name : Text) : Prop where
  brace : '\x7b' ∉ name
  newline : '\n' ∉ name
  trimmed : Text.trim name = name
  plain : isAdditional name = false

structure SourceBlock.Readable (b : SourceBlock) : Prop where
  name : ReadableName b.name
  bodyFree : ¬ Text.HoldsCaseless keyword b.body
  gapFree : ¬ Text.HoldsCaseless keyword b.gap

/-- A source that is regular but for empty names. -/
structure Source.Readable (s : Source) : Prop where
  lead : s.blocks ≠ [] → s.lead = [] ∨ EndsLine s.lead
  leadFree : ¬ Text.HoldsCaseless keyword s.lead
  gaps : ∀ b ∈ s.blocks.dropLast, EndsLine b.gap
  blocks : ∀ b ∈ s.blocks, b.Readable

theorem RegularName.readable {name : Text} (h : RegularName name) : ReadableName name :=
  ⟨h.brace, h.newline, h.trimmed, h.plain⟩

theorem SourceBlock.Regular.readable {b : SourceBlock} (h : b.Regular) : b.Readable :=
  ⟨h.name.readable, h.bodyFree, h.gapFree⟩

theorem Source.Regular.readable {s : Source} (h : s.Regular) : s.Readable :=
  ⟨h.lead, h.leadFree, h.gaps, fun b hb => (h.blocks b hb).readable⟩

instance (name : Text) : Decidable (RegularName name) :=
  decidable_of_iff
    (name ≠ [] ∧ '\x7b' ∉ name ∧ '\n' ∉ name ∧ Text.trim name = name ∧ isAdditional name = false)
    ⟨fun ⟨h₁, h₂, h₃, h₄, h₅⟩ => ⟨h₁, h₂, h₃, h₄, h₅⟩,
      fun h => ⟨h.nonempty, h.brace, h.newline, h.trimmed, h.plain⟩⟩

instance (b : SourceBlock) : Decidable b.Regular :=
  decidable_of_iff
    (RegularName b.name ∧ ¬ Text.HoldsCaseless keyword b.body ∧ ¬ Text.HoldsCaseless keyword b.gap)
    ⟨fun ⟨h₁, h₂, h₃⟩ => ⟨h₁, h₂, h₃⟩, fun h => ⟨h.name, h.bodyFree, h.gapFree⟩⟩

instance (s : Source) : Decidable s.Regular :=
  decidable_of_iff
    ((s.blocks ≠ [] → s.lead = [] ∨ EndsLine s.lead) ∧ ¬ Text.HoldsCaseless keyword s.lead ∧
      (∀ b ∈ s.blocks.dropLast, EndsLine b.gap) ∧ ∀ b ∈ s.blocks, b.Regular)
    ⟨fun ⟨h₁, h₂, h₃, h₄⟩ => ⟨h₁, h₂, h₃, h₄⟩, fun h => ⟨h.lead, h.leadFree, h.gaps, h.blocks⟩⟩

/-! ### Header lines -/

theorem dropCaseless?_keyword (text : Text) :
    Text.dropCaseless? keyword (keyword ++ text) = some text :=
  Text.dropCaseless?_eq_some_iff.mpr ⟨keyword, Text.spells_lower keyword, rfl⟩

theorem opening_append (name text : Text) :
    opening name ++ text = keyword ++ ((name ++ [' ']) ++ '\x7b' :: text) := by
  simp [opening]

theorem Header.ofLine?_opening {name : Text} (h : '\x7b' ∉ name) (line : Text) :
    Header.ofLine? (opening name ++ line) =
      some { before := [], name := name ++ [' '], rest := line } := by
  have hname : '\x7b' ∉ name ++ [' '] := by simp [h]
  rw [ofLine?, opening_append, Text.splitCaseless?_of_dropCaseless? (dropCaseless?_keyword _)]
  simp only [Option.bind_eq_bind, Option.bind_some, Text.splitOnce_append_cons hname line]
  rfl

theorem Header.ofLine?_of_not_holdsCaseless {line : Text}
    (h : ¬ Text.HoldsCaseless keyword line) : ofLine? line = none := by
  rw [ofLine?, Text.splitCaseless?_eq_none_iff.mpr h]
  rfl

/-- Lines of a text without the keyword are no header lines. -/
theorem ofLine?_eq_none_of_mem_lines {text line : Text} (h : ¬ Text.HoldsCaseless keyword text)
    (hline : line ∈ text.lines) : Header.ofLine? line = none :=
  Header.ofLine?_of_not_holdsCaseless fun hholds =>
    h (hholds.mono (Text.infix_of_mem_splitAll hline))

theorem newline_notMem_opening {name : Text} (h : '\n' ∉ name) : '\n' ∉ opening name := by
  rw [opening]
  simp only [List.mem_append, List.mem_cons, h]
  decide

theorem withoutHeader_opening {name : Text} (hbrace : '\x7b' ∉ name) (hline : '\n' ∉ name)
    (text : Text) : withoutHeader (opening name ++ text) = text := by
  obtain ⟨first, more, hsplit⟩ := List.exists_cons_of_ne_nil (Text.splitAll_ne_nil '\n' text)
  rw [withoutHeader, Text.lines,
    Text.splitAll_append_of_notMem (newline_notMem_opening hline) hsplit, dropHeader,
    Header.ofLine?_opening hbrace]
  simp only
  rw [← hsplit, Text.join_splitAll]

/-! ### Chunks -/

theorem Chunk.lastIndexOf_full (c : Chunk) (further : List Chunk) :
    Text.lastIndexOf '\x7d' (c.full further) = Text.lastIndexOf '\x7d' c.text := by
  rw [full]
  split
  · rfl
  · exact Text.lastIndexOf_concat (by decide) c.text

/-- A chunk is cut at the last brace before the next one. -/
theorem Chunk.cut_of_full {c : Chunk} {further : List Chunk} {inside rest : Text}
    (h : c.full further = inside ++ '\x7d' :: rest) (hrest : '\x7d' ∉ rest) :
    c.inner = withoutHeader inside ∧ c.tail further = rest := by
  have hcut : c.cut = inside.length := by
    rw [cut, ← c.lastIndexOf_full further, h, Text.lastIndexOf_append_cons _ hrest,
      Option.getD_some]
  have hinside : c.text.take inside.length = inside := by
    have htake := congrArg (List.take inside.length) h
    rw [List.take_left, full] at htake
    split at htake
    · exact htake
    · next hfurther =>
      have hlength := congrArg List.length h
      rw [full, if_neg hfurther] at hlength
      simp only [List.length_append, List.length_cons, List.length_nil] at hlength
      rwa [List.take_append_of_le_length (by omega)] at htake
  refine ⟨by rw [inner, hcut, hinside], ?_⟩
  rw [tail, hcut, h, List.drop_append, List.drop_eq_nil_of_le (by omega)]
  simp

@[simp] theorem SourceBlock.name_cut (b : SourceBlock) : b.cut.name = b.name := by
  rw [cut]
  split <;> rfl

theorem SourceBlock.cut_of_notMem {b : SourceBlock} (h : '\x7d' ∉ b.gap) : b.cut = b := by
  rw [cut, Text.lastIndexOf_eq_none_iff.mpr h]

theorem SourceBlock.cut_of_gap {b : SourceBlock} {before after : Text}
    (hgap : b.gap = before ++ '\x7d' :: after) (h : '\x7d' ∉ after) :
    b.cut = { b with body := b.body ++ '\x7d' :: before, gap := after } := by
  rw [cut, hgap, Text.lastIndexOf_append_cons before h]
  simp

/-- A block that is cut elsewhere still has the same text. -/
theorem SourceBlock.append_cut (b : SourceBlock) :
    b.body ++ '\x7d' :: b.gap = b.cut.body ++ '\x7d' :: b.cut.gap ∧ '\x7d' ∉ b.cut.gap := by
  by_cases h : '\x7d' ∈ b.gap
  · obtain ⟨before, after, hgap, hafter⟩ := Text.exists_eq_append_cons_of_mem h
    rw [cut_of_gap hgap hafter, hgap]
    simp [hafter]
  · rw [cut_of_notMem h]
    exact ⟨rfl, h⟩

/-- The lines of a block begin a chunk of its own. -/
theorem chunksOf_block {name : Text} (h : ReadableName name) {text : Text}
    (hfree : ¬ Text.HoldsCaseless keyword text) {rest : List Text}
    (hrest : (chunksOf rest).1 = []) :
    ∃ c, chunksOf ((opening name ++ text).lines ++ rest) = ([], c :: (chunksOf rest).2) ∧
      c.name = name ∧ c.text = opening name ++ text := by
  obtain ⟨first, more, hsplit⟩ := List.exists_cons_of_ne_nil (Text.splitAll_ne_nil '\n' text)
  have hlines : (opening name ++ text).lines = (opening name ++ first) :: more :=
    Text.splitAll_append_of_notMem (newline_notMem_opening h.newline) hsplit
  have hmore : ∀ line ∈ more, Header.ofLine? line = none := fun line hline =>
    ofLine?_eq_none_of_mem_lines hfree (by
      rw [Text.lines, hsplit]
      exact List.mem_cons_of_mem _ hline)
  refine ⟨{
    header := { before := [], name := name ++ [' '], rest := first }
    first := opening name ++ first, more }, ?_, ?_, ?_⟩
  · rw [hlines, List.cons_append, chunksOf_cons_of_some (Header.ofLine?_opening h.brace first),
      chunksOf_append hmore, hrest, List.append_nil]
  · rw [Chunk.name, Text.trim_concat (by decide), h.trimmed]
  · rw [Chunk.text, ← hlines, Text.lines, Text.join_splitAll]

/-! ### The chunks of a source -/

theorem keyword_free_of_all {c : Char}
    (h : (keyword.all fun letter => !matchesCaseless letter c) = true) :
    ∀ letter ∈ keyword, matchesCaseless letter c = false := fun letter hletter => by
  simpa using List.all_eq_true.mp h letter hletter

theorem keyword_brace : ∀ letter ∈ keyword, matchesCaseless letter '\x7d' = false :=
  keyword_free_of_all (by decide)

theorem keyword_newline : ∀ letter ∈ keyword, matchesCaseless letter '\n' = false :=
  keyword_free_of_all (by decide)

theorem keyword_tab : ∀ letter ∈ keyword, matchesCaseless letter '\t' = false :=
  keyword_free_of_all (by decide)

theorem EndsLine.exists_eq {text : Text} (h : EndsLine text) : ∃ line, text = line ++ ['\n'] :=
  List.getLast?_eq_some_iff.mp h

/-- The first block of several, where `gap` is what follows it on its own lines. -/
theorem piecesFrom_block {b : SourceBlock} (h : b.Readable) {gap : Text} {rest : List Text}
    (hgap : b.gap = if (chunksOf rest).2.isEmpty then gap else gap ++ ['\n'])
    (hrest : (chunksOf rest).1 = []) :
    ∃ c, chunksOf ((opening b.name ++ (b.body ++ '\x7d' :: gap)).lines ++ rest) =
        ([], c :: (chunksOf rest).2) ∧
      c.name = b.name ∧
      piecesFrom (c :: (chunksOf rest).2) = b.cut.pieces ++ piecesFrom (chunksOf rest).2 := by
  obtain ⟨hcut, hafter⟩ := b.append_cut
  have hfree : ¬ Text.HoldsCaseless keyword (b.body ++ '\x7d' :: gap) := by
    have hinfix : gap <:+: b.gap := by
      rw [hgap]
      split
      · exact List.infix_rfl
      · exact (List.prefix_append _ _).isInfix
    rw [Text.holdsCaseless_append_cons keyword_brace, not_or]
    exact ⟨h.bodyFree, fun hholds => h.gapFree (hholds.mono hinfix)⟩
  obtain ⟨c, hchunks, hname, htext⟩ := chunksOf_block h.name hfree hrest
  have hfull : c.full (chunksOf rest).2 =
      (opening b.name ++ b.cut.body) ++ '\x7d' :: b.cut.gap := by
    rw [List.append_assoc, ← hcut, Chunk.full, htext, hgap]
    split <;> simp
  obtain ⟨hinner, htail⟩ := Chunk.cut_of_full hfull hafter
  rw [withoutHeader_opening h.name.brace h.name.newline] at hinner
  refine ⟨c, hchunks, hname, ?_⟩
  rw [piecesFrom, SourceBlock.pieces, b.name_cut, hname, hinner, htail, List.cons_append]

theorem forall_mem_dropLast_cons {p : SourceBlock → Prop} {b : SourceBlock}
    {rest : List SourceBlock} :
    (∀ x ∈ (b :: rest).dropLast, p x) ↔ (rest ≠ [] → p b) ∧ ∀ x ∈ rest.dropLast, p x := by
  cases rest with
  | nil => simp
  | cons next rest => simp [List.dropLast_cons_of_ne_nil]

/-- The blocks of a source are its chunks, and nothing stands before them. -/
theorem chunksOf_blocks {blocks : List SourceBlock} (hne : blocks ≠ [])
    (hgaps : ∀ b ∈ blocks.dropLast, EndsLine b.gap) (h : ∀ b ∈ blocks, b.Readable) :
    (chunksOf (Text.lines (blocks.flatMap SourceBlock.text))).1 = [] ∧
      (chunksOf (Text.lines (blocks.flatMap SourceBlock.text))).2.map (·.name) =
        blocks.map (·.name) ∧
      piecesFrom (chunksOf (Text.lines (blocks.flatMap SourceBlock.text))).2 =
        (blocks.map SourceBlock.cut).flatMap SourceBlock.pieces := by
  induction blocks with
  | nil => exact (hne rfl).elim
  | cons b blocks ih =>
    rw [List.forall_mem_cons] at h
    rw [forall_mem_dropLast_cons] at hgaps
    cases blocks with
    | nil =>
      have hnil : (chunksOf []).1 = [] := rfl
      obtain ⟨c, hchunks, hname, hpieces⟩ := piecesFrom_block h.1 rfl hnil
      rw [List.append_nil, ← SourceBlock.text] at hchunks
      rw [List.flatMap_singleton, hchunks, hpieces]
      simp [chunksOf, piecesFrom, hname]
    | cons next blocks =>
      obtain ⟨hfront, hnames, hmore⟩ := ih (List.cons_ne_nil _ _) hgaps.2 h.2
      obtain ⟨gap, hgap⟩ := (hgaps.1 (List.cons_ne_nil _ _)).exists_eq
      have hlines : Text.lines ((b :: next :: blocks).flatMap SourceBlock.text) =
          Text.lines (opening b.name ++ (b.body ++ '\x7d' :: gap)) ++
            Text.lines ((next :: blocks).flatMap SourceBlock.text) := by
        rw [List.flatMap_cons, SourceBlock.text, hgap, Text.lines, Text.lines, Text.lines,
          ← Text.splitAll_append_mark]
        simp
      have hsome : (chunksOf (Text.lines ((next :: blocks).flatMap SourceBlock.text))).2.isEmpty =
          false := by
        rw [← List.isEmpty_map, hnames, List.map_cons, List.isEmpty_cons]
      obtain ⟨c, hchunks, hname, hpieces⟩ :=
        piecesFrom_block h.1 (by rw [hsome, if_neg Bool.false_ne_true, hgap]) hfront
      rw [hlines, hchunks, hpieces, hmore, List.map_cons, hname, hnames]
      exact ⟨rfl, rfl, rfl⟩

/-- The lines of a lead go before the first chunk. -/
theorem exists_lines_of_lead {lead : Text} (h : lead = [] ∨ EndsLine lead)
    (hfree : ¬ Text.HoldsCaseless keyword lead) :
    ∃ front, leadOf front = lead ∧ (∀ line ∈ front, Header.ofLine? line = none) ∧
      ∀ text, Text.lines (lead ++ text) = front ++ Text.lines text := by
  rcases h with rfl | h
  · exact ⟨[], rfl, fun _ hline => (List.not_mem_nil hline).elim, fun _ => rfl⟩
  · obtain ⟨text, rfl⟩ := h.exists_eq
    obtain ⟨first, more, hsplit⟩ := List.exists_cons_of_ne_nil (Text.splitAll_ne_nil '\n' text)
    refine ⟨text.lines, ?_, fun line hline => ?_, fun more => ?_⟩
    · rw [Text.lines, hsplit, ← join_concat_newline, ← hsplit, Text.join_splitAll]
    · have hfree' : ¬ Text.HoldsCaseless keyword text := fun hholds =>
        hfree (hholds.mono (List.prefix_append _ _).isInfix)
      exact ofLine?_eq_none_of_mem_lines hfree' hline
    · rw [List.append_assoc, List.singleton_append]
      exact Text.splitAll_append_mark _ _ _

/-- The chunks of a source are its blocks as they are read, behind its lead. -/
theorem chunksOf_source {s : Source} (h : s.Readable) (hne : s.blocks ≠ []) :
    leadOf (chunksOf s.text.lines).1 = s.lead ∧
      (chunksOf s.text.lines).2.map (·.name) = s.blocks.map (·.name) ∧
      piecesFrom (chunksOf s.text.lines).2 = s.cut.blocks.flatMap SourceBlock.pieces := by
  obtain ⟨front, hlead, hfront, hlines⟩ := exists_lines_of_lead (h.lead hne) h.leadFree
  obtain ⟨hnone, hnames, hpieces⟩ := chunksOf_blocks hne h.gaps h.blocks
  rw [Source.text, hlines, chunksOf_append hfront, hnone, List.append_nil]
  exact ⟨hlead, hnames, hpieces⟩

/-- The merged text of a source is written from the pieces of its blocks as they are read. -/
theorem contents_merge?_source {s : Source} (h : s.Readable) (hne : s.blocks ≠ []) :
    (merge? s.text).map (·.contents) = some (normalizeLineEnds (written [] s.cut.pieces)) := by
  obtain ⟨hlead, hnames, hpieces⟩ := chunksOf_source h hne
  have hplain : ∀ name ∈ s.blocks.map (·.name), isAdditional name = false :=
    List.forall_mem_map.mpr fun b hb => (h.blocks b hb).name.plain
  rw [contents_merge?_of_names hnames (mt List.map_eq_nil_iff.mp hne) hplain, piecesOf, hlead,
    hpieces]
  rfl

/-- Without the keyword there is nothing to merge. -/
theorem merge?_eq_none {text : Text} (h : ¬ Text.HoldsCaseless keyword text) :
    merge? text = none := by
  have hlines : ∀ line ∈ text.lines, Header.ofLine? line = none := fun _ hline =>
    ofLine?_eq_none_of_mem_lines h hline
  have hchunks := chunksOf_append hlines []
  rw [List.append_nil] at hchunks
  rw [merge?, scan_eq, hchunks]
  rfl

end NamespaceMerge.Declaration
