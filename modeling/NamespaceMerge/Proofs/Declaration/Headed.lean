import NamespaceMerge.Proofs.Declaration.Collected
import NamespaceMerge.Proofs.Declaration.Tiling
import NamespaceMerge.Toolkit.Standard

/-! Merging a text, and then what it was merged to. In a headed text (`Headed`) the keyword stands
in header lines only, so its chunks, closed where they are cut, are the blocks of a source with the
same merged text (`Source.ofText`). That the merged text is a source again, with one block for each
name, then says what the second merge does: it changes blanks only (`merge_stable`). -/

namespace NamespaceMerge

namespace Declaration

open Text (withoutBlanks HoldsCaseless)

/-! ### Statement -/

/-- In a text, the keyword stands on header lines only, once on each, and behind blanks. -/
structure Headed (text : Text) : Prop where
  once : ∀ line ∈ text.lines, Text.countCaseless keyword line = if isHeaderLine line then 1 else 0
  indented : ∀ line ∈ text.lines, ∀ header, Header.ofLine? line = some header →
    withoutBlanks header.before = []

instance (text : Text) : Decidable (Headed text) :=
  decidable_of_iff
    ((∀ line ∈ text.lines,
        Text.countCaseless keyword line = if isHeaderLine line then 1 else 0) ∧
      ∀ line ∈ text.lines, ∀ header ∈ Header.ofLine? line, withoutBlanks header.before = [])
    ⟨fun ⟨honce, hindented⟩ => ⟨honce, hindented⟩, fun h => ⟨h.once, h.indented⟩⟩

/-! ### Headers of a headed text -/

variable {line : Text} {header : Header}

/-- A header without a brace in its name has none before its last character. -/
theorem Header.brace_notMem_take (hh : ofLine? line = some header)
    (hbefore : withoutBlanks header.before = []) (hname : '\x7d' ∉ Text.trim header.name) :
    '\x7d' ∉ line.take header.length := by
  obtain ⟨part, hpart, rfl, hlength⟩ := exists_line_eq hh
  have hblank : '\x7d' ∉ header.before := fun hmem => by
    have := List.filter_eq_nil_iff.mp hbefore _ hmem
    exact this rfl
  have hname' : '\x7d' ∉ header.name := mt (Text.mem_trim (by decide)).mpr hname
  have hkeyword : '\x7d' ∉ part := hpart.notMem keyword_brace
  rw [← hlength, List.take_left]
  simp [hblank, hname', hkeyword]

theorem Header.not_holdsCaseless_rest (hh : ofLine? line = some header)
    (honce : Text.countCaseless keyword line ≤ 1) : ¬ HoldsCaseless keyword header.rest := by
  obtain ⟨part, hpart, hline, -⟩ := exists_line_eq hh
  rw [hline, List.append_assoc, List.append_assoc] at honce
  have hafter := Text.not_holdsCaseless_of_countCaseless (by decide) hpart honce
  exact fun hholds => hafter (hholds.mono (List.suffix_append _ _).isInfix)

theorem Header.readableName (hh : ofLine? line = some header) (hline : '\n' ∉ line)
    (hplain : isAdditional (Text.trim header.name) = false) :
    ReadableName (Text.trim header.name) where
  brace hmem := by
    obtain ⟨-, -, -, hbrace⟩ := ofLine?_eq_some_iff.mp hh
    exact hbrace ((Text.trim_infix _).subset hmem)
  newline hmem := by
    obtain ⟨part, -, rfl, -⟩ := exists_line_eq hh
    exact hline (by simp [(Text.trim_infix _).subset hmem])
  trimmed := Text.trim_trim _
  plain := hplain

/-! ### Chunks of a headed text -/

theorem mem_front {lines : List Text} (h : line ∈ (chunksOf lines).1) :
    line ∈ lines ∧ Header.ofLine? line = none := by
  induction lines with
  | nil => cases h
  | cons first rest ih =>
    cases hfirst : Header.ofLine? first with
    | some header =>
      rw [chunksOf_cons_of_some hfirst] at h
      cases h
    | none =>
      rw [chunksOf_cons_of_none hfirst, List.mem_cons] at h
      rcases h with rfl | h
      · exact ⟨List.mem_cons_self, hfirst⟩
      · exact ⟨List.mem_cons_of_mem _ (ih h).1, (ih h).2⟩

/-- A chunk has lines of the text, and no header line but the first. -/
theorem lines_of_mem_chunksOf {lines : List Text} {c : Chunk} (h : c ∈ (chunksOf lines).2) :
    c.first ∈ lines ∧ ∀ line ∈ c.more, line ∈ lines ∧ Header.ofLine? line = none := by
  induction lines with
  | nil => cases h
  | cons first rest ih =>
    have hlater : c ∈ (chunksOf rest).2 → c.first ∈ first :: rest ∧
        ∀ line ∈ c.more, line ∈ first :: rest ∧ Header.ofLine? line = none := fun h =>
      ⟨List.mem_cons_of_mem _ (ih h).1, fun line hline =>
        ⟨List.mem_cons_of_mem _ ((ih h).2 line hline).1, ((ih h).2 line hline).2⟩⟩
    cases hfirst : Header.ofLine? first with
    | some header =>
      rw [chunksOf_cons_of_some hfirst, List.mem_cons] at h
      rcases h with rfl | h
      · exact ⟨List.mem_cons_self, fun line hline =>
          ⟨List.mem_cons_of_mem _ (mem_front hline).1, (mem_front hline).2⟩⟩
      · exact hlater h
    | none =>
      rw [chunksOf_cons_of_none hfirst] at h
      exact hlater h

/-- Lines of a headed text that are no header lines do not hold the keyword. -/
theorem Headed.not_holdsCaseless {text : Text} (h : Headed text) (hline : line ∈ text.lines)
    (hnone : Header.ofLine? line = none) : ¬ HoldsCaseless keyword line := by
  have honce := h.once line hline
  rw [isHeaderLine, hnone, Option.isSome_none, if_neg Bool.false_ne_true] at honce
  rw [Text.holdsCaseless_iff_countCaseless_pos, honce]
  exact Nat.lt_irrefl 0

/-- A chunk that is cut behind its header, and has no other keyword. -/
structure Chunk.Clear (c : Chunk) : Prop extends c.Read where
  whole : c.header.length ≤ c.cut
  free : ¬ HoldsCaseless keyword (c.text.drop c.header.length)
  name : ReadableName c.name

theorem Headed.not_holdsCaseless_drop {text : Text} (h : Headed text) {c : Chunk} (hc : c.Read)
    (hmem : c ∈ (chunksOf text.lines).2) :
    ¬ HoldsCaseless keyword (c.text.drop c.header.length) := by
  obtain ⟨hfirst, hmore⟩ := lines_of_mem_chunksOf hmem
  have honce : Text.countCaseless keyword c.first ≤ 1 := by
    rw [h.once _ hfirst]
    split <;> omega
  have hrest := Header.not_holdsCaseless_rest hc.header honce
  have hlines : ∀ line ∈ c.more, ¬ HoldsCaseless keyword line := fun line hline =>
    h.not_holdsCaseless (hmore line hline).1 (hmore line hline).2
  by_cases hnil : c.more = []
  · rwa [Chunk.text, hnil, Text.join_singleton, Header.drop_length hc.header]
  · rw [Chunk.text, Text.join_cons _ _ hnil, List.singleton_append,
      List.drop_append_of_le_length (Header.length_le hc.header), Header.drop_length hc.header,
      Text.holdsCaseless_append_cons keyword_newline, not_or]
    exact ⟨hrest, Text.not_holdsCaseless_join (by decide) keyword_newline hlines⟩

theorem Chunk.Read.header_le_cut {c : Chunk} (hc : c.Read)
    (h : '\x7d' ∉ c.first.take c.header.length) : c.header.length ≤ c.cut := by
  obtain ⟨rest, htext, -⟩ := c.text_eq
  have hlength := Header.length_le hc.header
  by_cases hbrace : '\x7d' ∈ c.text
  · -- Cut before that, the chunk would have its last brace in the header.
    by_contra hcut
    have hcut' : c.cut < c.header.length := by omega
    have hget := (Chunk.brace_cut hbrace).1
    rw [htext, List.getElem?_append_left (by omega)] at hget
    refine h (List.mem_of_getElem? (i := c.cut) ?_)
    rwa [List.getElem?_take_of_lt hcut']
  · rw [Chunk.cut_of_notMem hbrace, htext, List.length_append]
    omega

theorem Headed.clear {text : Text} (h : Headed text) {c : Chunk}
    (hmem : c ∈ (chunksOf text.lines).2) (hbrace : '\x7d' ∉ c.name)
    (hplain : isAdditional c.name = false) : c.Clear := by
  have hc : c.Read :=
    read_of_mem_chunksOf (fun line hline => Text.notMem_of_mem_splitAll hline) hmem
  have hindented := h.indented _ (lines_of_mem_chunksOf hmem).1 _ hc.header
  exact {
    hc with
    whole := hc.header_le_cut (Header.brace_notMem_take hc.header hindented hbrace)
    free := h.not_holdsCaseless_drop hc hmem
    name := Header.readableName hc.header hc.newline hplain }

/-! ### Chunks as blocks of a source -/

/-- A chunk as a block, closed where the chunk is cut. -/
def Chunk.block (c : Chunk) (further : List Chunk) : SourceBlock where
  name := c.name
  body := c.inner
  gap := c.text.drop (c.cut + 1) ++ if further.isEmpty then [] else ['\n']

def blocksOf : List Chunk → List SourceBlock
  | [] => []
  | c :: further => c.block further :: blocksOf further

theorem map_name_blocksOf (chunks : List Chunk) :
    (blocksOf chunks).map (·.name) = chunks.map Chunk.name := by
  induction chunks with
  | nil => rfl
  | cons c further ih =>
    rw [blocksOf, List.map_cons, ih]
    rfl

theorem exists_of_mem_blocksOf {chunks : List Chunk} {b : SourceBlock} (h : b ∈ blocksOf chunks) :
    ∃ c ∈ chunks, ∃ further, b = c.block further := by
  induction chunks with
  | nil => cases h
  | cons c further ih =>
    rw [blocksOf, List.mem_cons] at h
    rcases h with rfl | h
    · exact ⟨c, List.mem_cons_self, further, rfl⟩
    · obtain ⟨c', hc', hblock⟩ := ih h
      exact ⟨c', List.mem_cons_of_mem _ hc', hblock⟩

theorem endsLine_gap_blocksOf (chunks : List Chunk) :
    ∀ b ∈ (blocksOf chunks).dropLast, EndsLine b.gap := by
  induction chunks with
  | nil => exact fun b hb => (List.not_mem_nil hb).elim
  | cons c further ih =>
    rw [blocksOf, forall_mem_dropLast_cons]
    refine ⟨fun hne => ?_, ih⟩
    have hfurther : further ≠ [] := by
      rintro rfl
      exact hne rfl
    have hline : EndsLine ['\n'] := rfl
    rw [Chunk.block, if_neg (by simpa using hfurther)]
    exact hline.append _

namespace Chunk

/-- The newline that a chunk without a brace leaves behind it is too narrow to be kept. -/
theorem pieces_block (c : Chunk) (further : List Chunk) :
    (c.block further).pieces = .block c.name c.inner :: keptGap (c.tail further) := by
  have hgap : keptGap (c.block further).gap = keptGap (c.tail further) := by
    rw [block, tail, full]
    by_cases h : '\x7d' ∈ c.text
    · obtain ⟨hlength, -⟩ := List.getElem?_eq_some_iff.mp (brace_cut h).1
      split
      · rw [List.append_nil]
      · rw [List.drop_append_of_le_length (Nat.succ_le_of_lt hlength)]
    · rw [cut_of_notMem h, List.drop_eq_nil_of_le (Nat.le_succ _)]
      split
      · rw [List.drop_eq_nil_of_le (Nat.le_succ _)]
        rfl
      · rw [List.drop_eq_nil_of_le (by simp)]
        rfl
  rw [SourceBlock.pieces, hgap]
  rfl

theorem brace_notMem_gap_block (c : Chunk) (further : List Chunk) :
    '\x7d' ∉ (c.block further).gap := by
  have hdrop : '\x7d' ∉ c.text.drop (c.cut + 1) := by
    by_cases h : '\x7d' ∈ c.text
    · have hbehind := (brace_cut h).2
      rwa [Text.slice_eq_drop_take, List.take_length] at hbehind
    · exact fun hmem => h (List.mem_of_mem_drop hmem)
  rw [block, List.mem_append, not_or]
  exact ⟨hdrop, by split <;> decide⟩

theorem return_notMem_block {c : Chunk} (hc : c.Clear) (h : '\r' ∉ c.text)
    (further : List Chunk) : '\r' ∉ (c.block further).text := by
  have hname : '\r' ∉ c.name := fun hmem => h (hc.name_infix.subset hmem)
  have hinner : '\r' ∉ c.inner := fun hmem => h (hc.inner_infix.subset hmem)
  have hgap : '\r' ∉ (c.block further).gap := by
    rw [block, List.mem_append, not_or]
    exact ⟨fun hmem => h (List.mem_of_mem_drop hmem), by split <;> decide⟩
  have hkeyword : '\r' ∉ keyword := by decide
  rw [SourceBlock.text, opening]
  simp only [List.mem_append, List.mem_cons, not_or]
  exact ⟨⟨hkeyword, hname, by decide⟩, hinner, by decide, hgap⟩

theorem Clear.readable_block {c : Chunk} (hc : c.Clear) (further : List Chunk) :
    (c.block further).Readable where
  name := hc.name
  bodyFree hholds := by
    have hinner : c.inner = (c.text.drop c.header.length).take (c.cut - c.header.length) := by
      rw [hc.inner_eq, if_pos hc.whole]
      rfl
    rw [block, hinner] at hholds
    exact hc.free (hholds.mono (List.take_prefix _ _).isInfix)
  gapFree := by
    have hdrop : ¬ HoldsCaseless keyword (c.text.drop (c.cut + 1)) := fun hholds =>
      hc.free (hholds.mono
        (List.drop_suffix_drop_left c.text (Nat.le_succ_of_le hc.whole)).isInfix)
    rw [block]
    split
    · rwa [List.append_nil]
    · rw [Text.holdsCaseless_append_cons keyword_newline, not_or]
      exact ⟨hdrop, by decide⟩

end Chunk

theorem flatMap_pieces_blocksOf (chunks : List Chunk) :
    (blocksOf chunks).flatMap SourceBlock.pieces = piecesFrom chunks := by
  induction chunks with
  | nil => rfl
  | cons c further ih =>
    rw [blocksOf, List.flatMap_cons, c.pieces_block, ih]
    rfl

theorem Headed.not_holdsCaseless_lead {text : Text} (h : Headed text) :
    ¬ HoldsCaseless keyword (leadOf (chunksOf text.lines).1) := by
  have hlines : ∀ line ∈ (chunksOf text.lines).1, ¬ HoldsCaseless keyword line :=
    fun line hline => h.not_holdsCaseless (mem_front hline).1 (mem_front hline).2
  generalize (chunksOf text.lines).1 = front at hlines
  induction front with
  | nil => decide
  | cons line front ih =>
    rw [List.forall_mem_cons] at hlines
    rw [leadOf_cons, Text.holdsCaseless_append_cons keyword_newline, not_or]
    exact ⟨hlines.1, ih hlines.2⟩

theorem leadOf_eq_nil_or (front : List Text) : leadOf front = [] ∨ EndsLine (leadOf front) := by
  cases front with
  | nil => exact .inl rfl
  | cons line front =>
    right
    rw [← join_concat_newline]
    exact EndsLine.append _ rfl

/-! ### Headed texts as sources -/

/-- A text as a source: its chunks, closed where they are cut, behind the text before them. -/
def Source.ofText (text : Text) : Source where
  lead := leadOf (chunksOf text.lines).1
  blocks := blocksOf (chunksOf text.lines).2

namespace Source

variable {text : Text}

theorem map_name_ofText (text : Text) :
    (ofText text).blocks.map (·.name) = (scan text).map (·.name) := by
  rw [map_name_scan]
  exact map_name_blocksOf _

theorem pieces_ofText (text : Text) :
    (ofText text).pieces = piecesOf (leadOf (chunksOf text.lines).1) (chunksOf text.lines).2 := by
  rw [pieces, ofText, flatMap_pieces_blocksOf, piecesOf]

theorem return_notMem_ofText (hreturn : '\r' ∉ text) (hchunks : (chunksOf text.lines).2 ≠ [])
    (hclear : ∀ c ∈ (chunksOf text.lines).2, c.Clear) : '\r' ∉ (ofText text).text := by
  rw [eq_leadOf_append hchunks, List.mem_append, not_or] at hreturn
  rw [Source.text, List.mem_append, not_or]
  refine ⟨hreturn.1, fun hmem => ?_⟩
  obtain ⟨b, hb, hmem⟩ := List.mem_flatMap.mp hmem
  obtain ⟨c, hc, further, rfl⟩ := exists_of_mem_blocksOf hb
  have hc' : '\r' ∉ c.text := fun h => hreturn.2 ((text_infix_textOf hc).subset h)
  exact Chunk.return_notMem_block (hclear c hc) hc' further hmem

theorem closed_ofText (h : Headed text) (hreturn : '\r' ∉ text) (hne : scan text ≠ [])
    (hnames : ∀ b ∈ scan text, '\x7d' ∉ b.name ∧ isAdditional b.name = false) :
    (ofText text).Closed := by
  have hname : ∀ name ∈ (chunksOf text.lines).2.map Chunk.name,
      '\x7d' ∉ name ∧ isAdditional name = false := by
    rw [← map_name_scan]
    exact List.forall_mem_map.mpr hnames
  have hclear : ∀ c ∈ (chunksOf text.lines).2, c.Clear := fun c hc =>
    have hc' := hname c.name (List.mem_map_of_mem hc)
    h.clear hc hc'.1 hc'.2
  refine ⟨⟨fun _ => leadOf_eq_nil_or _, h.not_holdsCaseless_lead, endsLine_gap_blocksOf _,
    fun b hb => ?_⟩, fun hnil => ?_, fun b hb => ?_,
    return_notMem_ofText hreturn (chunks_ne_nil hne) hclear⟩
  · obtain ⟨c, hc, further, rfl⟩ := exists_of_mem_blocksOf hb
    exact (hclear c hc).readable_block further
  · have hblocks := map_name_ofText text
    rw [hnil, List.map_nil, eq_comm, List.map_eq_nil_iff] at hblocks
    exact hne hblocks
  · obtain ⟨c, -, further, rfl⟩ := exists_of_mem_blocksOf hb
    exact c.brace_notMem_gap_block further

/-- A text is merged as the source that it is. -/
theorem contents_merge?_ofText (h : (ofText text).Closed) :
    (merge? text).map (·.contents) = some (ofText text).collected.text := by
  have hnames : (chunksOf text.lines).2.map Chunk.name = (ofText text).blocks.map (·.name) :=
    (map_name_blocksOf _).symm
  have hplain : ∀ name ∈ (ofText text).blocks.map (·.name), isAdditional name = false :=
    List.forall_mem_map.mpr fun b hb => (h.blocks b hb).name.plain
  rw [contents_merge?_of_names hnames (mt List.map_eq_nil_iff.mp h.nonempty) hplain,
    ← pieces_ofText, written_pieces,
    normalizeLineEnds_eq_self (.inl (return_notMem_merged h.noReturn)), collected_text]

end Source

end Declaration

namespace DeclarationMerger

open Declaration Text

/-- Merging a headed text leaves one block for each name, and merging what it leaves changes blanks
only. -/
theorem merge_stable (m : DeclarationMerger) {text : Text} (hreturn : '\r' ∉ text)
    (h : Headed text) (hne : scan text ≠ [])
    (hnames : ∀ b ∈ scan text, '\x7d' ∉ b.name ∧ isAdditional b.name = false)
    (hskip : m.settings.skipDeclarations = false) (hfile : m.file.contents.toList = text) :
    ∃ result, m.merge.2 = some result ∧
      ((scan result.contents.toList).map (·.name)).Nodup ∧
      (scan result.contents.toList).map (·.name) = ((scan text).map (·.name)).eraseDups ∧
      ∀ again : DeclarationMerger, again.settings.skipDeclarations = false →
        again.file.contents = result.contents →
          ∃ result', again.merge.2 = some result' ∧
            withoutBlanks result'.contents.toList = withoutBlanks result.contents.toList := by
  have hclosed := Source.closed_ofText h hreturn hne hnames
  obtain ⟨result, hresult, hcontents⟩ :=
    contents_merge hskip hfile (Source.contents_merge?_ofText hclosed)
  have hscan : (scan result.contents.toList).map (·.name) =
      ((scan text).map (·.name)).eraseDups := by
    rw [hcontents, hclosed.collected.map_name_scan, Source.map_name_collected,
      Source.map_name_ofText]
  refine ⟨result, hresult, hscan ▸ nodup_eraseDups _, hscan, fun again hskip' hfile' => ?_⟩
  obtain ⟨result', hresult', hcontents'⟩ :=
    contents_merge hskip' (hfile' ▸ hcontents) hclosed.collected.contents_merge?
  refine ⟨result', hresult', ?_⟩
  rw [hcontents', hcontents, Source.collected_text, Source.withoutBlanks_merged_collected]

/-- A block that is not closed, and headers in other letters and behind blanks. -/
def mixedText : Text :=
  ("/// a\nDECLARE namespace  A \x7b\n  a;\n\tdeclare name\u017fpace B\x7b b; \x7d\n" ++
    "type T = 1;\n declare namespace A \x7b\n c;\n\x7d\n;").toList

theorem merge_stable_mixedText :
    scan mixedText ≠ [] ∧
      ∃ result,
        (merge ⟨.standard, File.ofDeclarations (String.ofList mixedText), {}⟩).2 = some result ∧
          (scan result.contents.toList).map (·.name) = ["A".toList, "B".toList] ∧
          ∃ result', (merge ⟨.standard, File.ofDeclarations result.contents, {}⟩).2 = some result' ∧
            withoutBlanks result'.contents.toList = withoutBlanks result.contents.toList := by
  have hne : scan mixedText ≠ [] := by decide
  obtain ⟨result, hresult, -, hscan, hagain⟩ :=
    merge_stable ⟨.standard, File.ofDeclarations (String.ofList mixedText), {}⟩
      (by decide : '\r' ∉ mixedText) (by decide) hne (by decide) rfl String.toList_ofList
  have hnames : ((scan mixedText).map (·.name)).eraseDups = ["A".toList, "B".toList] := by
    decide
  exact ⟨hne, result, hresult, hscan.trans hnames, hagain _ rfl rfl⟩

end DeclarationMerger

end NamespaceMerge
