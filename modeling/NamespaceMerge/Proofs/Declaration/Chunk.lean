import NamespaceMerge.Declaration.Block
import NamespaceMerge.Proofs.Text.Basic

/-! A text of declarations as the text before its first header line, and one chunk for each header
line: that line and the lines up to the next one. The blocks of a text are its chunks at their
offsets (`scan_eq`). -/

namespace NamespaceMerge.Declaration

structure Chunk where
  header : Header
  /-- The header line. -/
  first : Text
  more : List Text

namespace Chunk

def name (c : Chunk) : Text := Text.trim c.header.name

def text (c : Chunk) : Text := Text.join ['\n'] (c.first :: c.more)

/-- The text of a chunk, with the newline before the chunks that follow it. -/
def full (c : Chunk) (further : List Chunk) : Text :=
  if further.isEmpty then c.text else c.text ++ ['\n']

theorem full_eq (c : Chunk) (further : List Chunk) :
    ∃ rest, c.full further = c.text ++ rest ∧ (rest = [] ∨ rest = ['\n']) := by
  rw [full]
  split
  · exact ⟨[], (List.append_nil _).symm, .inl rfl⟩
  · exact ⟨['\n'], rfl, .inr rfl⟩

end Chunk

/-- The lines before the first header line, and the chunks. -/
def chunksOf : List Text → List Text × List Chunk
  | [] => ([], [])
  | line :: rest =>
    let (front, chunks) := chunksOf rest
    match Header.ofLine? line with
    | some header => ([], { header, first := line, more := front } :: chunks)
    | none => (line :: front, chunks)

/-- The text of lines that are followed by others. -/
def leadOf (front : List Text) : Text := front.flatMap (· ++ ['\n'])

def textOf : List Chunk → Text
  | [] => []
  | c :: further => c.full further ++ textOf further

/-- The header lines of chunks that start at `offset`. -/
def headersAt (offset : Nat) : List Chunk → List (Nat × Text)
  | [] => []
  | c :: further => (offset, c.name) :: headersAt (offset + (c.full further).length) further

/-- The blocks of chunks that start at `offset`. -/
def blocksFrom (offset : Nat) : List Chunk → List Block
  | [] => []
  | c :: further =>
    { name := c.name, start := offset, stop := some (offset + c.text.length), body := some c.text }
      :: blocksFrom (offset + (c.full further).length) further

theorem chunksOf_cons_of_some {line : Text} {header : Header}
    (h : Header.ofLine? line = some header) (rest : List Text) :
    chunksOf (line :: rest) =
      ([], { header, first := line, more := (chunksOf rest).1 } :: (chunksOf rest).2) := by
  simp only [chunksOf, h]

theorem chunksOf_cons_of_none {line : Text} (h : Header.ofLine? line = none) (rest : List Text) :
    chunksOf (line :: rest) = (line :: (chunksOf rest).1, (chunksOf rest).2) := by
  simp only [chunksOf, h]

/-- Lines without a header go to the front. -/
theorem chunksOf_append {lines : List Text} (h : ∀ line ∈ lines, Header.ofLine? line = none)
    (rest : List Text) :
    chunksOf (lines ++ rest) = (lines ++ (chunksOf rest).1, (chunksOf rest).2) := by
  induction lines with
  | nil => rfl
  | cons line lines ih =>
    rw [List.forall_mem_cons] at h
    rw [List.cons_append, chunksOf_cons_of_none h.1, ih h.2]
    rfl

theorem chunksOf_front {lines : List Text} (h : (chunksOf lines).2 = []) :
    (chunksOf lines).1 = lines := by
  induction lines with
  | nil => rfl
  | cons line rest ih =>
    cases hline : Header.ofLine? line with
    | some header =>
      rw [chunksOf_cons_of_some hline] at h
      cases h
    | none =>
      rw [chunksOf_cons_of_none hline] at h ⊢
      rw [ih h]

theorem leadOf_cons (line : Text) (front : List Text) :
    leadOf (line :: front) = line ++ '\n' :: leadOf front := by
  simp [leadOf]

theorem join_concat_newline (line : Text) (more : List Text) :
    Text.join ['\n'] (line :: more) ++ ['\n'] = leadOf (line :: more) := by
  induction more generalizing line with
  | nil => simp [Text.join_singleton, leadOf]
  | cons next more ih =>
    rw [Text.join_cons _ _ (List.cons_ne_nil _ _), leadOf_cons, ← ih]
    simp

/-- A text with header lines is what stands before them, and its chunks. -/
theorem join_eq_leadOf_append {lines : List Text} (h : (chunksOf lines).2 ≠ []) :
    Text.join ['\n'] lines = leadOf (chunksOf lines).1 ++ textOf (chunksOf lines).2 := by
  induction lines with
  | nil => exact (h rfl).elim
  | cons line rest ih =>
    cases hline : Header.ofLine? line with
    | some header =>
      rw [chunksOf_cons_of_some hline]
      by_cases hrest : (chunksOf rest).2 = []
      · simp [leadOf, textOf, Chunk.full, Chunk.text, hrest, chunksOf_front hrest]
      · have hne : rest ≠ [] := by
          rintro rfl
          exact hrest rfl
        have hfull := join_concat_newline line (chunksOf rest).1
        rw [Text.join_cons _ _ hne, ih hrest, textOf, Chunk.full, if_neg (by simpa using hrest),
          Chunk.text, hfull, leadOf_cons]
        simp [leadOf]
    | none =>
      rw [chunksOf_cons_of_none hline] at h ⊢
      have hne : rest ≠ [] := by
        rintro rfl
        exact h rfl
      rw [Text.join_cons _ _ hne, ih h, leadOf_cons]
      simp

theorem eq_leadOf_append {text : Text} (h : (chunksOf text.lines).2 ≠ []) :
    text = leadOf (chunksOf text.lines).1 ++ textOf (chunksOf text.lines).2 := by
  rw [← join_eq_leadOf_append h, Text.lines, Text.join_splitAll]

theorem text_infix_textOf {chunks : List Chunk} {c : Chunk} (h : c ∈ chunks) :
    c.text <:+: textOf chunks := by
  induction chunks with
  | nil => cases h
  | cons first further ih =>
    rw [textOf]
    rcases List.mem_cons.mp h with rfl | h
    · obtain ⟨rest, hfull, -⟩ := c.full_eq further
      rw [hfull, List.append_assoc]
      exact (List.prefix_append _ _).isInfix
    · exact (ih h).trans (List.suffix_append _ _).isInfix

/-! ### Blocks -/

theorem headersFrom_eq (offset : Nat) (lines : List Text) :
    headersFrom offset lines =
      headersAt (offset + (leadOf (chunksOf lines).1).length) (chunksOf lines).2 := by
  induction lines generalizing offset with
  | nil => rfl
  | cons line rest ih =>
    cases hline : Header.ofLine? line with
    | some header =>
      have hmore := ih (offset + line.length + 1)
      by_cases hrest : (chunksOf rest).2 = []
      · simp [headersFrom, hline, hmore, chunksOf_cons_of_some hline, headersAt, leadOf, hrest,
          Chunk.name]
      · have hlength := congrArg List.length (join_concat_newline line (chunksOf rest).1)
        rw [leadOf_cons] at hlength
        simp only [headersFrom, hline, hmore, chunksOf_cons_of_some hline, headersAt, Chunk.full,
          List.isEmpty_iff, hrest, if_false, Chunk.text, Chunk.name, hlength, List.length_append,
          List.length_cons, leadOf, List.flatMap_nil, List.length_nil, Nat.add_zero]
        simp only [Nat.add_assoc, Nat.add_comm 1]
    | none =>
      rw [chunksOf_cons_of_none hline, leadOf_cons]
      simp only [headersFrom, hline, ih, List.length_append, List.length_cons]
      congr 1
      omega

theorem blocksAt_headersAt (front : Text) (chunks : List Chunk) :
    blocksAt (front ++ textOf chunks) (headersAt front.length chunks) =
      blocksFrom front.length chunks := by
  induction chunks generalizing front with
  | nil => rfl
  | cons c further ih =>
    cases further with
    | nil => simp [headersAt, blocksAt, blocksFrom, textOf, Chunk.full]
    | cons next further =>
      have hrest := ih (front ++ (c.text ++ ['\n']))
      simp only [headersAt, blocksAt, blocksFrom, textOf, Chunk.full, List.isEmpty_cons,
        Bool.false_eq_true, if_false, List.length_append, List.append_assoc] at hrest ⊢
      rw [hrest]
      simp [Text.slice]

/-- The blocks of a text are its chunks, at their offsets. -/
theorem scan_eq (text : Text) :
    scan text = blocksFrom (leadOf (chunksOf text.lines).1).length (chunksOf text.lines).2 := by
  rw [scan, headers, headersFrom_eq, Nat.zero_add]
  by_cases h : (chunksOf text.lines).2 = []
  · rw [h]
    rfl
  · have hblocks := blocksAt_headersAt (leadOf (chunksOf text.lines).1) (chunksOf text.lines).2
    rwa [← join_eq_leadOf_append h, Text.lines, Text.join_splitAll] at hblocks

theorem chunks_ne_nil {text : Text} (h : scan text ≠ []) : (chunksOf text.lines).2 ≠ [] := by
  intro hnil
  rw [scan_eq, hnil] at h
  exact h rfl

theorem map_name_blocksFrom (offset : Nat) (chunks : List Chunk) :
    (blocksFrom offset chunks).map (·.name) = chunks.map Chunk.name := by
  induction chunks generalizing offset with
  | nil => rfl
  | cons c further ih => rw [blocksFrom, List.map_cons, ih, List.map_cons]

theorem map_body_blocksFrom (offset : Nat) (chunks : List Chunk) :
    (blocksFrom offset chunks).map (·.body) = chunks.map fun c => some c.text := by
  induction chunks generalizing offset with
  | nil => rfl
  | cons c further ih => rw [blocksFrom, List.map_cons, ih, List.map_cons]

theorem map_body_scan (text : Text) :
    (scan text).map (·.body) = (chunksOf text.lines).2.map fun c => some c.text := by
  rw [scan_eq, map_body_blocksFrom]

/-- The first block starts behind the lead. -/
theorem head?_scan {text : Text} (h : scan text ≠ []) :
    (scan text).head?.map (·.start) = some (leadOf (chunksOf text.lines).1).length := by
  obtain ⟨c, further, hchunks⟩ := List.exists_cons_of_ne_nil (chunks_ne_nil h)
  rw [scan_eq, hchunks]
  rfl

theorem map_name_scan (text : Text) :
    (scan text).map (·.name) = (chunksOf text.lines).2.map Chunk.name := by
  rw [scan_eq, map_name_blocksFrom]

end NamespaceMerge.Declaration
