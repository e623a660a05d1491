import Mathlib.Algebra.BigOperators.Group.Finset.Basic
import Mathlib.Tactic.Abel
import NamespaceMerge.Proofs.Declaration.Closing
import NamespaceMerge.Proofs.Declaration.Tiling
import NamespaceMerge.Proofs.Text.Ink

/-! What merging does to the ink of a text of declarations. The headers of the blocks and the
braces that close them go, one header and one brace for each name come, and everything else stays
(`ink_merge`), as long as nothing stands in front of a header on its line. Too narrow to be kept is
only what stands at either end of the text: between two blocks that is a newline. -/

namespace NamespaceMerge

namespace Declaration

open Text (ink withoutBlanks ink_nil ink_append ink_eq_zero_iff)

/-! ### Statement -/

namespace Block

/-- The header line of a scanned block. -/
def firstLine (b : Block) : Text := lineAt (b.body.getD []) 0

/-- The offset of the last brace in a block. -/
def lastBrace? (b : Block) : Option Nat := Text.lastIndexOf '\x7d' (b.body.getD [])

/-- The brace that closes a block, if it stands behind the header. -/
def close (b : Block) (header : Header) : Text :=
  match b.lastBrace? with
  | some index => if header.length ≤ index then ['\x7d'] else []
  | none => []

/-- What a block is wrapped in: its header from the keyword to the brace, and the brace that
closes it. -/
def wrapper (b : Block) : Text :=
  match Header.ofLine? b.firstLine with
  | some header =>
    b.firstLine.slice header.before.length header.length ++ b.close header
  | none => []

/-- What stands behind the last brace of a block. -/
def behind (b : Block) : Text :=
  match b.lastBrace? with
  | some index => (b.body.getD []).drop (index + 1)
  | none => []

/-- A block whose header has nothing but blanks in front of it, and all its braces behind it. -/
structure Tidy (b : Block) (header : Header) : Prop where
  read : Header.ofLine? b.firstLine = some header
  indented : withoutBlanks header.before = []
  whole : ∀ index, b.lastBrace? = some index → header.length ≤ index

instance (b : Block) : Decidable (∃ header, b.Tidy header) :=
  decidable_of_iff (∃ header ∈ Header.ofLine? b.firstLine, withoutBlanks header.before = [] ∧
    ∀ index ∈ b.lastBrace?, header.length ≤ index)
    ⟨fun ⟨header, hread, hindented, hwhole⟩ => ⟨header, hread, hindented, hwhole⟩,
      fun ⟨header, hread, hindented, hwhole⟩ => ⟨header, hread, hindented, hwhole⟩⟩

end Block

/-- What is written around the bodies of a namespace. -/
def wrapperText (name : Text) : Text := keyword ++ name ++ " \x7b".toList ++ "\x7d".toList

/-- The ink of what blocks are wrapped in. -/
def inkOfWrappers (blocks : List Block) : Multiset Char := (blocks.map fun b => ink b.wrapper).sum

/-- The ink of what is written around bodies, once for each name of a block. -/
def inkOfNames (blocks : List Block) : Multiset Char :=
  ∑ name ∈ (blocks.map (·.name)).toFinset, ink (wrapperText name)

/-- A text that has less than `least` characters, and nothing of another one. -/
def narrow (least : Nat) (text : Text) : Text := if text.length < least then text else []

/-- What stands before the first block and behind the last one, if that is too narrow to be
kept. -/
def narrowEnds (text : Text) (blocks : List Block) : Text :=
  match blocks.head?, blocks.getLast? with
  | some first, some last => narrow 3 (text.take first.start) ++ narrow 2 last.behind
  | _, _ => []

/-! ### Pieces -/

def Piece.text : Piece → Text
  | .kept text => text
  | .block _ body => body

def inkOfPieces (pieces : List Piece) : Multiset Char := (pieces.map fun p => ink p.text).sum

def namesOf : List Piece → List Text
  | [] => []
  | .kept _ :: rest => namesOf rest
  | .block name _ :: rest => name :: namesOf rest

/-- The ink of the bodies of blocks with a name in `seen`. -/
def inkUnder (seen : List Text) : List Piece → Multiset Char
  | [] => 0
  | .kept _ :: rest => inkUnder seen rest
  | .block name body :: rest => (if seen.contains name then ink body else 0) + inkUnder seen rest

theorem inkOfPieces_nil : inkOfPieces [] = 0 := rfl

theorem inkOfPieces_append (a b : List Piece) :
    inkOfPieces (a ++ b) = inkOfPieces a + inkOfPieces b := by
  rw [inkOfPieces, List.map_append, List.sum_append]
  rfl

theorem inkOfPieces_cons (piece : Piece) (rest : List Piece) :
    inkOfPieces (piece :: rest) = ink piece.text + inkOfPieces rest := by
  rw [inkOfPieces, List.map_cons, List.sum_cons]
  rfl

theorem ink_keptText (text : Text) : ink (keptText text) = ink text := by
  rw [keptText]
  split
  · next h => rw [ink_eq_zero_iff.mpr (isBlankText_iff.mp h), ink_eq_zero_iff]; rfl
  · rfl

theorem ink_blockText (name : Text) (bodies : List Text) :
    ink (blockText name bodies) = ink (wrapperText name) + (bodies.map ink).sum := by
  have hblank : ∀ body ∈ bodies, (!isBlankText body) = false → withoutBlanks body = [] := by
    intro body _ h
    exact isBlankText_iff.mp (by simpa using h)
  have hopen : ink " \x7b\n\t".toList = ink " \x7b".toList := by decide
  have hclose : ink "\x7d\n".toList = ink "\x7d".toList := by decide
  rw [blockText, wrapperText]
  simp only [ink_append, hopen, hclose, Text.ink_join (show withoutBlanks ['\t'] = [] by decide),
    Text.sum_ink_filter hblank]
  exact add_right_comm _ _ _

theorem inkUnder_nil (pieces : List Piece) : inkUnder [] pieces = 0 := by
  induction pieces with
  | nil => rfl
  | cons piece rest ih => cases piece <;> simp [inkUnder, ih]

/-- The bodies under one more name are those of the blocks with that name. -/
theorem inkUnder_concat {seen : List Text} {name : Text} (h : name ∉ seen) (pieces : List Piece) :
    inkUnder (seen ++ [name]) pieces =
      inkUnder seen pieces + ((bodiesOf name pieces).map ink).sum := by
  induction pieces with
  | nil => rfl
  | cons piece rest ih =>
    cases piece with
    | kept text => exact ih
    | block name' body =>
      rw [inkUnder, inkUnder, ih, bodiesOf]
      by_cases hname : name' = name
      · subst hname
        simp [h, add_left_comm]
      · simp [hname, add_assoc]

/-- The ink of written pieces is that of the pieces and of what is written around the names that
were not `seen` before. The bodies under those that were have been written there. -/
theorem ink_written (seen : List Text) (pieces : List Piece) :
    ink (written seen pieces) + inkUnder seen pieces =
      inkOfPieces pieces +
        ∑ name ∈ (namesOf pieces).toFinset \ seen.toFinset, ink (wrapperText name) := by
  induction pieces generalizing seen with
  | nil =>
    rw [namesOf, List.toFinset_nil, Finset.empty_sdiff, Finset.sum_empty]
    rfl
  | cons piece rest ih =>
    rw [inkOfPieces_cons]
    cases piece with
    | kept text =>
      rw [written, ink_append, ink_keptText, inkUnder, namesOf, add_assoc, ih, add_assoc]
      rfl
    | block name body =>
      rw [written, inkUnder, namesOf, List.toFinset_cons]
      by_cases hseen : name ∈ seen
      · rw [if_pos hseen, if_pos (List.contains_iff_mem.mpr hseen),
          Finset.insert_sdiff_of_mem _ (List.mem_toFinset.mpr hseen), add_left_comm, ih, add_assoc]
        rfl
      · have hsplit : insert name (namesOf rest).toFinset \ seen.toFinset =
            insert name ((namesOf rest).toFinset \ (seen ++ [name]).toFinset) := by
          ext other
          by_cases hother : other = name <;> simp [hother, hseen]
        have hrest := ih (seen ++ [name])
        rw [inkUnder_concat hseen] at hrest
        rw [if_neg hseen, if_neg (mt List.contains_iff_mem.mp hseen), hsplit,
          Finset.sum_insert (by simp), ink_append, ink_blockText, List.map_cons, List.sum_cons]
        calc ink (wrapperText name) + (ink body + ((bodiesOf name rest).map ink).sum) +
              ink (written (seen ++ [name]) rest) + (0 + inkUnder seen rest)
          _ = ink (wrapperText name) + ink body + (ink (written (seen ++ [name]) rest) +
              (inkUnder seen rest + ((bodiesOf name rest).map ink).sum)) := by abel
          _ = _ := by rw [hrest]; show _ = ink body + _ + _; abel

theorem ink_contents {pieces : List Piece} :
    ink (normalizeLineEnds (written [] pieces)) =
      inkOfPieces pieces + ∑ name ∈ (namesOf pieces).toFinset, ink (wrapperText name) := by
  have hwritten := ink_written [] pieces
  rw [inkUnder_nil, add_zero, List.toFinset_nil, Finset.sdiff_empty] at hwritten
  rw [← hwritten, ink, withoutBlanks, filter_normalizeLineEnds (by decide) (by decide)]
  rfl

/-! ### Chunks -/

theorem Header.take_before {line : Text} {h : Header} (hh : Header.ofLine? line = some h) :
    line.take h.before.length = h.before := by
  obtain ⟨after, hsplit, -⟩ := Header.ofLine?_eq_some_iff.mp hh
  obtain ⟨part, -, rfl⟩ := Text.splitCaseless?_eq_some hsplit
  exact List.take_left

namespace Chunk

/-- What a chunk is cut at: its last brace, if it has one. -/
def brace (c : Chunk) : Text := if '\x7d' ∈ c.text then ['\x7d'] else []

/-- The ink of a chunk is that of its parts around the cut. -/
theorem ink_full (c : Chunk) (further : List Chunk) :
    ink (c.full further) = ink (c.text.take c.cut) + ink c.brace + ink (c.tail further) := by
  obtain ⟨rest, hfull, hrest⟩ := c.full_eq further
  rw [tail, hfull, brace]
  by_cases h : '\x7d' ∈ c.text
  · obtain ⟨before, behind, htext, hbehind⟩ := Text.exists_eq_append_cons_of_mem h
    have hcut : c.cut = before.length := by
      rw [cut, htext, Text.lastIndexOf_append_cons before hbehind, Option.getD_some]
    have hdrop : (before ++ '\x7d' :: behind ++ rest).drop (before.length + 1) =
        behind ++ rest := by simp
    rw [if_pos h, hcut, htext, List.take_left, hdrop, ← ink_append, ← ink_append]
    simp
  · have hdrop : (c.text ++ rest).drop (c.cut + 1) = [] := by
      rw [cut_of_notMem h, List.drop_eq_nil_iff, List.length_append]
      rcases hrest with rfl | rfl <;> simp
    have hblank : ink rest = 0 := by
      rcases hrest with rfl | rfl <;> rfl
    rw [if_neg h, hdrop, cut_of_notMem h, List.take_length, ink_append, hblank, ink_nil, add_zero,
      add_zero]

/-- Behind the cut of a chunk stands, before another chunk, at least a newline. -/
theorem ink_narrow_tail (c next : Chunk) (more : List Chunk) :
    ink (narrow 2 (c.tail (next :: more))) = 0 := by
  have hfull : c.full (next :: more) = c.text ++ ['\n'] := rfl
  rw [narrow, tail, hfull, ink_eq_zero_iff]
  split
  · next hlength =>
    by_cases hcut : c.cut + 1 ≤ c.text.length
    · rw [List.drop_append_of_le_length hcut, List.length_append, List.length_singleton] at hlength
      have hnil : c.text.drop (c.cut + 1) = [] := List.length_eq_zero_iff.mp (by omega)
      rw [List.drop_append_of_le_length hcut, hnil]
      rfl
    · have hnil : (c.text ++ ['\n']).drop (c.cut + 1) = [] := by
        rw [List.drop_eq_nil_iff, List.length_append, List.length_singleton]
        omega
      rw [hnil]
      rfl
  · rfl

variable {c : Chunk} {b : Block}

theorem Read.firstLine_eq (hc : c.Read) (hb : b.body = some c.text) : b.firstLine = c.first := by
  have hline : Declaration.lineAt ([] ++ (c.text ++ [])) ([] : Text).length = c.first :=
    hc.lineAt [] (.inl rfl)
  rw [List.nil_append, List.append_nil, List.length_nil] at hline
  rw [Block.firstLine, hb, Option.getD_some, hline]

theorem Read.header_eq (hc : c.Read) (hb : b.body = some c.text) {header : Header}
    (h : b.Tidy header) : header = c.header := by
  have hread := h.read
  rw [hc.firstLine_eq hb, hc.header] at hread
  exact (Option.some.inj hread).symm

theorem header_le_cut (hb : b.body = some c.text) (hc : c.Read) (h : b.Tidy c.header) :
    c.header.length ≤ c.cut := by
  have hbrace : b.lastBrace? = Text.lastIndexOf '\x7d' c.text := by
    rw [Block.lastBrace?, hb, Option.getD_some]
  rw [cut]
  cases hlast : Text.lastIndexOf '\x7d' c.text with
  | some index => exact h.whole index (hbrace.trans hlast)
  | none =>
    obtain ⟨rest, htext, -⟩ := c.text_eq
    have hlength := Header.length_le hc.header
    rw [Option.getD_none, htext, List.length_append]
    omega

/-- Before its cut, a chunk has its header and what it holds. -/
theorem ink_take_cut (hb : b.body = some c.text) (hc : c.Read) (h : b.Tidy c.header) :
    ink (c.text.take c.cut) =
      ink (b.firstLine.slice c.header.before.length c.header.length) + ink c.inner := by
  obtain ⟨rest, htext, -⟩ := c.text_eq
  have hcut := header_le_cut hb hc h
  have hheader : (c.text.take c.cut).take c.header.length = c.first.take c.header.length := by
    rw [List.take_take, Nat.min_eq_left hcut, htext,
      List.take_append_of_le_length (Header.length_le hc.header)]
  have hbefore : (c.first.take c.header.length).take c.header.before.length = c.header.before := by
    have hle : c.header.before.length ≤ c.header.length := by
      rw [Header.length]
      omega
    rw [List.take_take, Nat.min_eq_left hle, Header.take_before hc.header]
  rw [hc.inner_eq, if_pos hcut, hc.firstLine_eq hb, Text.slice_eq_drop_take,
    Text.slice_eq_drop_take, ← Text.ink_take_add_drop c.header.length, hheader,
    ← Text.ink_take_add_drop c.header.before.length (c.first.take _), hbefore,
    ink_eq_zero_iff.mpr h.indented, zero_add]

theorem close_eq (hb : b.body = some c.text) (h : b.Tidy c.header) :
    b.close c.header = c.brace := by
  have hwhole := h.whole
  rw [Block.close, brace]
  rw [Block.lastBrace?, hb, Option.getD_some] at hwhole ⊢
  cases hlast : Text.lastIndexOf '\x7d' c.text with
  | some index =>
    have hmem : '\x7d' ∈ c.text := by
      by_contra hmem
      rw [Text.lastIndexOf_eq_none_iff.mpr hmem] at hlast
      cases hlast
    simp only [if_pos (hwhole index hlast), if_pos hmem]
  | none => rw [if_neg (Text.lastIndexOf_eq_none_iff.mp hlast)]

/-- The ink of a chunk is that of its wrapper, of what it holds and of what stands behind it. -/
theorem ink_full_of_tidy (hb : b.body = some c.text) (hc : c.Read) (h : b.Tidy c.header)
    (further : List Chunk) :
    ink (c.full further) = ink b.wrapper + (ink c.inner + ink (c.tail further)) := by
  rw [c.ink_full, ink_take_cut hb hc h, Block.wrapper, h.read]
  simp only [ink_append, close_eq hb h]
  abel

theorem behind_eq (hb : b.body = some c.text) : b.behind = c.tail [] := by
  have hfull : c.full [] = c.text := rfl
  rw [Block.behind, Block.lastBrace?, hb, Option.getD_some, tail, hfull, cut]
  cases hlast : Text.lastIndexOf '\x7d' c.text with
  | some index => rfl
  | none => simp

end Chunk

/-- Text around blocks is kept, or it is too narrow for that. -/
theorem ink_kept_or_narrow (least : Nat) (text : Text) :
    inkOfPieces (if least ≤ text.length then [.kept text] else []) + ink (narrow least text) =
      ink text := by
  rw [narrow]
  by_cases h : text.length < least
  · rw [if_pos h, if_neg (Nat.not_le_of_lt h), inkOfPieces_nil, zero_add]
  · rw [if_neg h, if_pos (Nat.le_of_not_lt h), inkOfPieces_cons, inkOfPieces_nil, ink_nil, add_zero,
      add_zero]
    rfl

/-- The ink of chunks, by their blocks and the pieces that are made of them. -/
theorem ink_textOf {chunks : List Chunk} (h : ∀ c ∈ chunks, c.Read) (hne : chunks ≠ [])
    (offset : Nat) (htidy : ∀ b ∈ blocksFrom offset chunks, ∃ header, b.Tidy header) :
    ∃ last, (blocksFrom offset chunks).getLast? = some last ∧
      ink (textOf chunks) = inkOfWrappers (blocksFrom offset chunks) +
        inkOfPieces (piecesFrom chunks) + ink (narrow 2 last.behind) := by
  induction chunks generalizing offset with
  | nil => exact (hne rfl).elim
  | cons c further ih =>
    rw [List.forall_mem_cons] at h
    rw [blocksFrom, List.forall_mem_cons] at htidy
    obtain ⟨⟨header, htidy⟩, hrest⟩ := htidy
    obtain rfl := h.1.header_eq rfl htidy
    have hfull := Chunk.ink_full_of_tidy rfl h.1 htidy further
    rw [textOf, blocksFrom, inkOfWrappers, List.map_cons, List.sum_cons, piecesFrom,
      inkOfPieces_cons, inkOfPieces_append, ink_append, hfull, Piece.text]
    have hgap : inkOfPieces (keptGap (c.tail further)) + ink (narrow 2 (c.tail further)) =
        ink (c.tail further) := ink_kept_or_narrow 2 _
    cases further with
    | nil =>
      refine ⟨_, rfl, ?_⟩
      rw [Chunk.behind_eq (c := c) rfl, ← hgap, textOf, piecesFrom, ink_nil, inkOfPieces_nil]
      simp only [blocksFrom, List.map_nil, List.sum_nil, add_zero, add_assoc]
    | cons next more =>
      obtain ⟨last, hlast, hink⟩ := ih h.2 (List.cons_ne_nil _ _) _ hrest
      rw [Chunk.ink_narrow_tail, add_zero] at hgap
      refine ⟨last, hlast, ?_⟩
      rw [hink, hgap, inkOfWrappers]
      abel

theorem namesOf_append (a b : List Piece) : namesOf (a ++ b) = namesOf a ++ namesOf b := by
  induction a with
  | nil => rfl
  | cons piece rest ih =>
    cases piece with
    | kept text => exact ih
    | block name body => rw [List.cons_append, namesOf, namesOf, ih, List.cons_append]

theorem namesOf_kept (p : Prop) [Decidable p] (text : Text) :
    namesOf (if p then [.kept text] else []) = [] := by
  split <;> rfl

theorem namesOf_piecesFrom (chunks : List Chunk) (offset : Nat) :
    namesOf (piecesFrom chunks) = (blocksFrom offset chunks).map (·.name) := by
  induction chunks generalizing offset with
  | nil => rfl
  | cons c further ih =>
    rw [piecesFrom, namesOf, namesOf_append, keptGap, namesOf_kept, List.nil_append, blocksFrom,
      List.map_cons, ih]

/-! ### Whole texts -/

/-- The ink of a text, by its blocks and the pieces that are made of them. -/
theorem ink_text {text : Text} (h : scan text ≠ [])
    (htidy : ∀ b ∈ scan text, ∃ header, b.Tidy header) :
    ink text = inkOfWrappers (scan text) +
      inkOfPieces (piecesOf (leadOf (chunksOf text.lines).1) (chunksOf text.lines).2) +
      ink (narrowEnds text (scan text)) := by
  have hchunks := chunks_ne_nil h
  have htext := eq_leadOf_append hchunks
  have hread : ∀ c ∈ (chunksOf text.lines).2, c.Read := fun c hc =>
    read_of_mem_chunksOf (fun line hline => Text.notMem_of_mem_splitAll hline) hc
  rw [scan_eq] at htidy ⊢
  generalize leadOf (chunksOf text.lines).1 = lead at *
  generalize (chunksOf text.lines).2 = chunks at *
  obtain ⟨last, hlast, hink⟩ := ink_textOf hread hchunks lead.length htidy
  have hfirst : ∃ first, (blocksFrom lead.length chunks).head? = some first ∧
      first.start = lead.length := by
    obtain ⟨c, further, rfl⟩ := List.exists_cons_of_ne_nil hchunks
    exact ⟨_, rfl, rfl⟩
  obtain ⟨first, hfirst, hstart⟩ := hfirst
  have hlead : inkOfPieces (keptStart lead) + ink (narrow 3 lead) = ink lead :=
    ink_kept_or_narrow 3 lead
  have hends : narrowEnds text (blocksFrom lead.length chunks) =
      narrow 3 lead ++ narrow 2 last.behind := by
    rw [narrowEnds, hfirst, hlast]
    simp only [hstart, htext, List.take_left]
  rw [hends, htext, ink_append, ink_append, hink, piecesOf, inkOfPieces_append, ← hlead]
  abel

/-- The ink of a merged text, by the names of its blocks and the pieces that are made of them. -/
theorem ink_merge? {text : Text} (h : scan text ≠ [])
    (hnames : ∀ b ∈ scan text, isAdditional b.name = false) :
    ∃ contents, (merge? text).map (·.contents) = some contents ∧
      ink contents = inkOfNames (scan text) +
        inkOfPieces (piecesOf (leadOf (chunksOf text.lines).1) (chunksOf text.lines).2) := by
  have hplain : ∀ name ∈ (scan text).map (·.name), isAdditional name = false :=
    List.forall_mem_map.mpr hnames
  refine ⟨_, contents_merge?_of_names (map_name_scan text).symm (mt List.map_eq_nil_iff.mp h)
    hplain, ?_⟩
  rw [ink_contents, inkOfNames, piecesOf, namesOf_append, keptStart, namesOf_kept, List.nil_append,
    namesOf_piecesFrom _ (leadOf (chunksOf text.lines).1).length, ← scan_eq, add_comm]

end Declaration

namespace DeclarationMerger

open Declaration Text

/-- Merging keeps the ink of a text, but for the wrappers of its blocks and text at its ends that
is too narrow, and adds that of one wrapper for each name. -/
theorem ink_merge (m : DeclarationMerger) {text : Text} (h : scan text ≠ [])
    (hnames : ∀ b ∈ scan text, isAdditional b.name = false)
    (htidy : ∀ b ∈ scan text, ∃ header, b.Tidy header)
    (hskip : m.settings.skipDeclarations = false) (hfile : m.file.contents.toList = text) :
    ∃ result, m.merge.2 = some result ∧
      inkOfWrappers (scan text) + ink (narrowEnds text (scan text)) ≤ ink text ∧
      inkOfNames (scan text) ≤ ink result.contents.toList ∧
      ink text - inkOfWrappers (scan text) - ink (narrowEnds text (scan text)) =
        ink result.contents.toList - inkOfNames (scan text) := by
  obtain ⟨contents, hmerge, hink⟩ := ink_merge? h hnames
  obtain ⟨result, hresult, rfl⟩ := contents_merge hskip hfile hmerge
  have htext := ink_text h htidy
  refine ⟨result, hresult, ?_, ?_, ?_⟩
  · rw [htext, add_right_comm]
    exact Multiset.le_add_right _ _
  · rw [hink]
    exact Multiset.le_add_right _ _
  · rw [htext, hink, add_assoc, add_tsub_cancel_left, add_tsub_cancel_left, add_tsub_cancel_right]

/-- Blocks with too little text at both ends: a letter before them, a semicolon behind. -/
def narrowText : Text :=
  ("x\n  declare namespace A \x7b a \x7d\ntype T = 1;\ndeclare namespace B \x7b\n" ++
    "  declare namespace A \x7b\n  \x7b c \x7d\n\x7d;").toList

theorem ink_merge_narrowText :
    scan narrowText ≠ [] ∧ (∀ b ∈ scan narrowText, isAdditional b.name = false) ∧
      (∀ b ∈ scan narrowText, ∃ header, b.Tidy header) ∧
      narrowEnds narrowText (scan narrowText) = "x\n;".toList ∧
      ∃ result,
        (merge ⟨.standard, File.ofDeclarations (String.ofList narrowText), {}⟩).2 = some result ∧
          ink narrowText - inkOfWrappers (scan narrowText) - ink "x\n;".toList =
            ink result.contents.toList - inkOfNames (scan narrowText) := by
  have hscan : scan narrowText ≠ [] := by decide
  have hnames : ∀ b ∈ scan narrowText, isAdditional b.name = false := by decide
  have htidy : ∀ b ∈ scan narrowText, ∃ header, b.Tidy header := by decide
  have hends : narrowEnds narrowText (scan narrowText) = "x\n;".toList := by decide
  obtain ⟨result, hresult, -, -, hink⟩ :=
    ink_merge ⟨.standard, File.ofDeclarations (String.ofList narrowText), {}⟩ hscan hnames htidy rfl
      String.toList_ofList
  rw [hends] at hink
  exact ⟨hscan, hnames, htidy, hends, result, hresult, hink⟩

/-- A text with blocks and what it is merged to differ by the ink of wrappers only. -/
def KeepsInk (text : Text) : Prop :=
  scan text ≠ [] → (∀ b ∈ scan text, isAdditional b.name = false) →
    ∃ result, (merge ⟨.standard, File.ofDeclarations (String.ofList text), {}⟩).2 = some result ∧
      ink text - inkOfWrappers (scan text) = ink result.contents.toList - inkOfNames (scan text)

theorem not_keepsInk {text : Text} (h : scan text ≠ [])
    (hnames : ∀ b ∈ scan text, isAdditional b.name = false)
    (hink : ∃ contents ∈ (merge? text).map (·.contents),
      ink text - inkOfWrappers (scan text) ≠ ink contents - inkOfNames (scan text)) :
    ¬ KeepsInk text := by
  intro hkeeps
  obtain ⟨contents, hmerge, hink⟩ := hink
  obtain ⟨result, hresult, heq⟩ := hkeeps h hnames
  have hfile : (File.ofDeclarations (String.ofList text)).contents.toList = text :=
    String.toList_ofList
  obtain ⟨other, hother, rfl⟩ :=
    contents_merge (m := ⟨.standard, File.ofDeclarations (String.ofList text), {}⟩) rfl hfile hmerge
  obtain rfl := Option.some.inj (hother.symm.trans hresult)
  exact hink heq

/-- A letter before the first block is too narrow. -/
def ledText : Text := "x\ndeclare namespace A \x7b\n    a;\n\x7d\n".toList

def exportedText : Text := "export declare namespace A \x7b\n    a;\n\x7d\n".toList

/-- A block without a closing brace, and a brace in front of its header. -/
def bracedText : Text := "/* \x7d */ declare namespace A \x7b\n    a;\n".toList

theorem not_keepsInk_merge :
    ¬ KeepsInk ledText ∧ ¬ KeepsInk exportedText ∧ ¬ KeepsInk bracedText := by
  refine ⟨?_, ?_, ?_⟩
  · exact not_keepsInk (by decide) (by decide) (by decide +kernel)
  · exact not_keepsInk (by decide) (by decide) (by decide +kernel)
  · exact not_keepsInk (by decide) (by decide) (by decide +kernel)

end DeclarationMerger

end NamespaceMerge
