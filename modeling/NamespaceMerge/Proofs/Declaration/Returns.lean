import NamespaceMerge.Proofs.Declaration.Closing
import NamespaceMerge.Proofs.Declaration.Headed
import NamespaceMerge.Proofs.Text.Returns

/-! Merging a text whose lines end with a carriage return and a newline. Its chunks are those of the
text without the carriage returns, each with a carriage return in front of every newline
(`returnedChunks_lines`). What is kept between them differs in blank text only, so the same is
written of them but for carriage returns, and these go when line ends are normalized
(`contents_merge_withReturns`). -/

namespace NamespaceMerge

namespace Declaration

open Text (withReturns returned withoutBlanks)

/-! ### Texts that differ in carriage returns -/

/-- The second text has carriage returns in front of some newlines, and is the first without
them. -/
inductive AddsReturns : Text → Text → Prop
  | nil : AddsReturns [] []
  | cons {c : Char} {a b : Text} (hc : c ≠ '\r') (h : AddsReturns a b) :
    AddsReturns (c :: a) (c :: b)
  | newline {a b : Text} (h : AddsReturns a b) : AddsReturns ('\n' :: a) ('\r' :: '\n' :: b)

namespace AddsReturns

variable {a b a' b' : Text}

theorem refl (h : '\r' ∉ a) : AddsReturns a a := by
  induction a with
  | nil => exact .nil
  | cons c a ih =>
    rw [List.mem_cons, not_or] at h
    exact .cons (Ne.symm h.1) (ih h.2)

theorem append (h : AddsReturns a b) (h' : AddsReturns a' b') :
    AddsReturns (a ++ a') (b ++ b') := by
  induction h with
  | nil => exact h'
  | cons hc _ ih => exact .cons hc ih
  | newline _ ih => exact .newline ih

theorem withReturns (h : '\r' ∉ a) : AddsReturns a (withReturns a) := by
  induction a with
  | nil => exact .nil
  | cons c a ih =>
    rw [List.mem_cons, not_or] at h
    by_cases hc : c = '\n'
    · subst hc
      exact .newline (ih h.2)
    · rw [Text.withReturns_cons_of_ne hc]
      exact .cons (Ne.symm h.1) (ih h.2)

theorem return_notMem (h : AddsReturns a b) : '\r' ∉ a := by
  induction h with
  | nil => exact List.not_mem_nil
  | cons hc _ ih => exact fun hmem => (List.mem_cons.mp hmem).elim (hc ·.symm) ih
  | newline _ ih => exact fun hmem => (List.mem_cons.mp hmem).elim (by decide) ih

theorem replacePair_eq (h : AddsReturns a b) : Text.replacePair '\r' '\n' ['\n'] b = a := by
  induction h with
  | nil => rfl
  | cons hc _ ih => rw [Text.replacePair_cons_of_ne hc, ih]
  | newline _ ih => rw [Text.replacePair, if_pos ⟨rfl, rfl⟩, ih, List.singleton_append]

/-- The carriage returns go when line ends are normalized. -/
theorem normalizeLineEnds_eq (h : AddsReturns a b) :
    normalizeLineEnds b = normalizeLineEnds a := by
  rw [normalizeLineEnds_eq_self (.inl h.return_notMem), normalizeLineEnds, h.replacePair_eq]
  exact Text.replacePair_eq_self (.inr h.return_notMem) _

end AddsReturns

/-! ### Blank text and what is kept -/

theorem withoutBlanks_withReturns (text : Text) :
    withoutBlanks (withReturns text) = withoutBlanks text := by
  induction text with
  | nil => rfl
  | cons c text ih =>
    by_cases hc : c = '\n'
    · subst hc
      exact ih
    · rw [Text.withReturns_cons_of_ne hc]
      simp only [withoutBlanks, List.filter_cons] at ih ⊢
      rw [ih]

theorem isBlankText_withReturns (text : Text) :
    isBlankText (withReturns text) = isBlankText text := by
  rw [Bool.eq_iff_iff, isBlankText_iff, isBlankText_iff, withoutBlanks_withReturns]

theorem addsReturns_keptText {text : Text} (h : '\r' ∉ text) :
    AddsReturns (keptText text) (keptText (withReturns text)) := by
  rw [keptText, keptText, isBlankText_withReturns]
  split
  · exact .nil
  · exact .withReturns h

/-- Text that is only wide enough to be kept with its carriage returns makes no difference if it is
blank. -/
theorem addsReturns_keptFrom {text : Text} {least : Nat} (h : '\r' ∉ text)
    (hnarrow : text.length < least → least ≤ (withReturns text).length →
      isBlankText text = true) :
    AddsReturns (keptFrom least text) (keptFrom least (withReturns text)) := by
  have hlength := Text.length_le_withReturns text
  rw [keptFrom, keptFrom]
  by_cases hwide : least ≤ text.length
  · rw [if_pos hwide, if_pos (Nat.le_trans hwide hlength)]
    exact addsReturns_keptText h
  · rw [if_neg hwide]
    split
    · next hreturns =>
      rw [keptText, isBlankText_withReturns, hnarrow (Nat.lt_of_not_le hwide) hreturns]
      exact .nil
    · exact .nil

/-- A newline alone is kept behind a block with its carriage return, and is blank. -/
theorem addsReturns_keptGap {gap : Text} (h : '\r' ∉ gap) :
    AddsReturns (keptFrom 2 gap) (keptFrom 2 (withReturns gap)) := by
  refine addsReturns_keptFrom h fun hshort hlong => ?_
  match gap with
  | [] => exact absurd hlong (by decide)
  | [c] =>
    by_cases hc : c = '\n'
    · subst hc
      rfl
    · rw [Text.withReturns_cons_of_ne hc] at hlong
      exact absurd (show 2 ≤ 1 from hlong) (by decide)
  | _ :: _ :: _ =>
    simp only [List.length_cons] at hshort
    omega

/-- Two characters in front of the first block may be kept with a carriage return. -/
theorem addsReturns_keptStart {lead : Text} (h : '\r' ∉ lead) (hlength : lead.length ≠ 2) :
    AddsReturns (keptFrom 3 lead) (keptFrom 3 (withReturns lead)) := by
  refine addsReturns_keptFrom h fun hshort hlong => ?_
  match lead with
  | [] => exact absurd hlong (by decide)
  | [c] =>
    by_cases hc : c = '\n'
    · subst hc
      exact absurd hlong (by decide)
    · rw [Text.withReturns_cons_of_ne hc] at hlong
      exact absurd (show 3 ≤ 1 from hlong) (by decide)
  | _ :: _ :: _ =>
    simp only [List.length_cons] at hshort hlength
    omega

/-! ### Chunks -/

/-- Chunks of the same names, the second with a carriage return in front of every newline. -/
inductive ReturnedChunks : List Chunk → List Chunk → Prop
  | nil : ReturnedChunks [] []
  | cons {c c' : Chunk} {further further' : List Chunk} (name : c'.name = c.name)
    (full : c'.full further' = withReturns (c.full further))
    (more : ReturnedChunks further further') : ReturnedChunks (c :: further) (c' :: further')

theorem ReturnedChunks.map_name {chunks chunks' : List Chunk} (h : ReturnedChunks chunks chunks') :
    chunks'.map Chunk.name = chunks.map Chunk.name := by
  induction h with
  | nil => rfl
  | cons name _ _ ih => rw [List.map_cons, List.map_cons, name, ih]

theorem leadOf_map_return {front : List Text} (h : ∀ line ∈ front, '\n' ∉ line) :
    leadOf (front.map (· ++ ['\r'])) = withReturns (leadOf front) := by
  induction front with
  | nil => rfl
  | cons line front ih =>
    rw [List.forall_mem_cons] at h
    rw [List.map_cons, leadOf_cons, leadOf_cons, ih h.2, Text.withReturns_append,
      Text.withReturns_of_notMem h.1, Text.withReturns_cons_newline, List.append_assoc]
    rfl

theorem full_nil (header : Header) (first : Text) (more : List Text) :
    (Chunk.mk header first more).full [] = Text.join ['\n'] (first :: more) := rfl

theorem full_cons (header : Header) (first : Text) (more : List Text) (c : Chunk)
    (further : List Chunk) :
    (Chunk.mk header first more).full (c :: further) = leadOf (first :: more) :=
  join_concat_newline first more

/-- The front of lines with carriage returns. Only the last line has none. -/
def returnedFront (front : List Text) : List Chunk → List Text
  | [] => returned front
  | _ :: _ => front.map (· ++ ['\r'])

/-- A chunk of more than the last line gets a carriage return in front of every newline. -/
theorem full_returned {header header' : Header} {first : Text} {front : List Text}
    {chunks chunks' : List Chunk} (h : ReturnedChunks chunks chunks')
    (hlines : ∀ line ∈ first :: front, '\n' ∉ line) (hmore : chunks = [] → front ≠ []) :
    (Chunk.mk header' (first ++ ['\r']) (returnedFront front chunks)).full chunks' =
      withReturns ((Chunk.mk header first front).full chunks) := by
  cases h with
  | nil => rw [full_nil, full_nil, Text.withReturns_join hlines, Text.returned_cons (hmore rfl),
      returnedFront]
  | cons => rw [full_cons, full_cons, ← leadOf_map_return hlines, returnedFront, List.map_cons]

/-- The chunks of lines with carriage returns. -/
theorem returnedChunks_lines {lines : List Text} (h : ∀ line ∈ lines, '\n' ∉ line) :
    ReturnedChunks (chunksOf lines).2 (chunksOf (returned lines)).2 ∧
      (chunksOf (returned lines)).1 = returnedFront (chunksOf lines).1 (chunksOf lines).2 := by
  fun_induction returned lines with
  | case1 => exact ⟨.nil, rfl⟩
  | case2 line =>
    cases hline : Header.ofLine? line with
    | some header =>
      have hfull : (Chunk.mk header line []).full [] = line := Text.join_singleton ['\n'] line
      rw [chunksOf_cons_of_some hline]
      refine ⟨.cons rfl ?_ .nil, rfl⟩
      exact hfull.trans ((Text.withReturns_of_notMem (h line List.mem_cons_self)).symm.trans
        (congrArg withReturns hfull.symm))
    | none =>
      rw [chunksOf_cons_of_none hline]
      exact ⟨.nil, rfl⟩
  | case3 line next rest ih =>
    rw [List.forall_mem_cons] at h
    obtain ⟨hchunks, hfront⟩ := ih h.2
    have hreturn := Header.ofLine?_concat (show '\r' ≠ '\x7b' by decide) line
    have hlines : ∀ part ∈ line :: (chunksOf (next :: rest)).1, '\n' ∉ part := by
      rw [List.forall_mem_cons]
      exact ⟨h.1, fun part hpart => h.2 part (mem_front hpart).1⟩
    cases hline : Header.ofLine? line with
    | some header =>
      rw [hline, Option.map_some] at hreturn
      rw [chunksOf_cons_of_some hline, chunksOf_cons_of_some hreturn]
      refine ⟨.cons rfl ?_ hchunks, rfl⟩
      rw [hfront]
      refine full_returned hchunks hlines fun hnil => ?_
      rw [chunksOf_front hnil]
      exact List.cons_ne_nil _ _
    | none =>
      rw [hline, Option.map_none] at hreturn
      rw [chunksOf_cons_of_none hline, chunksOf_cons_of_none hreturn]
      refine ⟨hchunks, ?_⟩
      rw [hfront]
      cases hnone : (chunksOf (next :: rest)).2 with
      | nil =>
        rw [chunksOf_front hnone]
        rfl
      | cons c further => rfl

/-! ### What blocks hold -/

/-- What is left of the lines of a text are ends of them. -/
theorem suffix_of_mem_dropHeader {lines : List Text} {part : Text} (h : part ∈ dropHeader lines) :
    ∃ line ∈ lines, part <:+ line := by
  induction lines with
  | nil => cases h
  | cons line rest ih =>
    rw [dropHeader] at h
    split at h
    · next header hline =>
      rcases List.mem_cons.mp h with rfl | h
      · refine ⟨line, List.mem_cons_self, ?_⟩
        rw [← Header.drop_length hline]
        exact List.drop_suffix _ _
      · exact ⟨part, List.mem_cons_of_mem _ h, List.suffix_rfl⟩
    · rcases List.mem_cons.mp h with rfl | h
      · exact ⟨part, List.mem_cons_self, List.suffix_rfl⟩
      · obtain ⟨other, hother, hpart⟩ := ih h
        exact ⟨other, List.mem_cons_of_mem _ hother, hpart⟩

theorem dropHeader_ne_nil {lines : List Text} (h : lines ≠ []) : dropHeader lines ≠ [] := by
  obtain ⟨line, rest, rfl⟩ := List.exists_cons_of_ne_nil h
  rw [dropHeader]
  split <;> exact List.cons_ne_nil _ _

theorem dropHeader_returned (lines : List Text) :
    dropHeader (returned lines) = returned (dropHeader lines) := by
  fun_induction returned lines with
  | case1 => rfl
  | case2 line =>
    rw [dropHeader]
    split <;> rfl
  | case3 line next rest ih =>
    have hreturn := Header.ofLine?_concat (show '\r' ≠ '\x7b' by decide) line
    rw [dropHeader, hreturn, dropHeader]
    cases hline : Header.ofLine? line with
    | some header => rfl
    | none =>
      simp only [Option.map_none]
      rw [ih, Text.returned_cons (dropHeader_ne_nil (List.cons_ne_nil _ _))]

theorem withoutHeader_withReturns (text : Text) :
    withoutHeader (withReturns text) = withReturns (withoutHeader text) := by
  have hlines : ∀ part ∈ dropHeader text.lines, '\n' ∉ part := fun part hpart hmem => by
    obtain ⟨line, hline, hsuffix⟩ := suffix_of_mem_dropHeader hpart
    exact Text.notMem_of_mem_splitAll hline (hsuffix.subset hmem)
  rw [withoutHeader, Text.lines_withReturns, dropHeader_returned, withoutHeader,
    Text.withReturns_join hlines]

/-- A chunk with a brace to be cut at, and without carriage returns. -/
structure Chunk.Plain (c : Chunk) : Prop extends c.Read where
  brace : '\x7d' ∈ c.text
  noReturn : '\r' ∉ c.text

/-- A plain chunk with carriage returns is cut at the same brace. -/
theorem Chunk.Plain.cut_returned {c c' : Chunk} {further further' : List Chunk} (hc : c.Plain)
    (hfull : c'.full further' = withReturns (c.full further)) :
    c'.inner = withReturns c.inner ∧ c'.tail further' = withReturns (c.tail further) := by
  obtain ⟨rest, hrest, -⟩ := c.full_eq further
  have hmem : '\x7d' ∈ c.full further := hrest ▸ List.mem_append_left rest hc.brace
  obtain ⟨inside, behind, hsplit, hbehind⟩ := Text.exists_eq_append_cons_of_mem hmem
  obtain ⟨hinner, htail⟩ := Chunk.cut_of_full hsplit hbehind
  have hsplit' : c'.full further' = withReturns inside ++ '\x7d' :: withReturns behind := by
    rw [hfull, hsplit, Text.withReturns_append, Text.withReturns_cons_of_ne (by decide)]
  have hbehind' : '\x7d' ∉ withReturns behind :=
    (Text.mem_withReturns (by decide)).not.mpr hbehind
  obtain ⟨hinner', htail'⟩ := Chunk.cut_of_full hsplit' hbehind'
  exact ⟨by rw [hinner', hinner, withoutHeader_withReturns], by rw [htail', htail]⟩

theorem Chunk.Plain.return_notMem_inner {c : Chunk} (hc : c.Plain) : '\r' ∉ c.inner :=
  fun hmem => hc.noReturn (hc.inner_infix.subset hmem)

theorem Chunk.Plain.return_notMem_tail {c : Chunk} (hc : c.Plain) (further : List Chunk) :
    '\r' ∉ c.tail further := by
  obtain ⟨rest, hrest, hend⟩ := c.full_eq further
  refine fun hmem => ?_
  have hmem := List.mem_of_mem_drop hmem
  rw [hrest, List.mem_append] at hmem
  rcases hmem with hmem | hmem
  · exact hc.noReturn hmem
  · rcases hend with rfl | rfl <;> simp at hmem

/-! ### What is written -/

theorem addsReturns_join {parts : List Text} (h : ∀ part ∈ parts, '\r' ∉ part) :
    AddsReturns (Text.join ['\t'] parts) (Text.join ['\t'] (parts.map withReturns)) := by
  induction parts with
  | nil => exact .nil
  | cons part rest ih =>
    rw [List.forall_mem_cons] at h
    by_cases hrest : rest = []
    · rw [hrest, List.map_singleton, Text.join_singleton, Text.join_singleton]
      exact .withReturns h.1
    · rw [List.map_cons, Text.join_cons _ _ hrest, Text.join_cons _ _ (by simpa using hrest)]
      exact (AddsReturns.withReturns h.1).append ((AddsReturns.refl (by decide)).append (ih h.2))

theorem addsReturns_blockText {name : Text} {bodies : List Text} (hname : '\r' ∉ name)
    (h : ∀ body ∈ bodies, '\r' ∉ body) :
    AddsReturns (blockText name bodies) (blockText name (bodies.map withReturns)) := by
  have hfilter : (bodies.map withReturns).filter (fun body => !isBlankText body) =
      (bodies.filter fun body => !isBlankText body).map withReturns := by
    rw [List.filter_map]
    congr 1
    refine List.filter_congr fun body _ => ?_
    rw [Function.comp_apply, isBlankText_withReturns]
  have hkept : ∀ body ∈ bodies.filter fun body => !isBlankText body, '\r' ∉ body :=
    fun body hbody => h body (List.mem_of_mem_filter hbody)
  have hopening : '\r' ∉ keyword ++ name ++ " \x7b\n\t".toList := by
    simp only [List.mem_append, not_or]
    exact ⟨⟨by decide, hname⟩, by decide⟩
  rw [blockText, blockText, hfilter]
  exact ((AddsReturns.refl hopening).append (addsReturns_join hkept)).append
    (AddsReturns.refl (by decide))

theorem bodiesOf_returned {chunks chunks' : List Chunk} (h : ReturnedChunks chunks chunks')
    (hplain : ∀ c ∈ chunks, c.Plain) (name : Text) :
    bodiesOf name (piecesFrom chunks') = (bodiesOf name (piecesFrom chunks)).map withReturns ∧
      ∀ body ∈ bodiesOf name (piecesFrom chunks), '\r' ∉ body := by
  induction h with
  | nil => exact ⟨rfl, fun _ hbody => by cases hbody⟩
  | cons hname hfull _ ih =>
    rw [List.forall_mem_cons] at hplain
    obtain ⟨hc, hmore⟩ := hplain
    obtain ⟨hbodies, hfree⟩ := ih hmore
    rw [piecesFrom, piecesFrom, bodiesOf, bodiesOf, bodiesOf_keptGap, bodiesOf_keptGap, hname,
      (hc.cut_returned hfull).1, hbodies]
    split
    · exact ⟨rfl, List.forall_mem_cons.mpr ⟨hc.return_notMem_inner, hfree⟩⟩
    · exact ⟨rfl, hfree⟩

/-- The same is written of chunks but for carriage returns. -/
theorem addsReturns_written {chunks chunks' : List Chunk} (h : ReturnedChunks chunks chunks')
    (hplain : ∀ c ∈ chunks, c.Plain) (seen : List Text) :
    AddsReturns (written seen (piecesFrom chunks)) (written seen (piecesFrom chunks')) := by
  induction h generalizing seen with
  | nil => exact .nil
  | @cons c c' further further' hname hfull hreturned ih =>
    rw [List.forall_mem_cons] at hplain
    obtain ⟨hc, hmore⟩ := hplain
    obtain ⟨hinner, htail⟩ := hc.cut_returned hfull
    obtain ⟨hbodies, hfree⟩ := bodiesOf_returned hreturned hmore c.name
    have hgap := addsReturns_keptGap (hc.return_notMem_tail further)
    rw [piecesFrom, piecesFrom, written, written, written_keptGap, written_keptGap,
      bodiesOf_keptGap, bodiesOf_keptGap, written_keptGap, written_keptGap, hname, hinner, htail,
      hbodies, ← List.map_cons]
    split
    · exact hgap.append (ih hmore seen)
    · have hblock := addsReturns_blockText (fun hmem => hc.noReturn (hc.name_infix.subset hmem))
        (List.forall_mem_cons.mpr ⟨hc.return_notMem_inner, hfree⟩)
      exact hblock.append (hgap.append (ih hmore (seen ++ [c.name])))

/-! ### Merging -/

theorem plain_of_mem_chunksOf {text : Text} {c : Chunk} (hreturn : '\r' ∉ text)
    (hbrace : ∀ b ∈ scan text, '\x7d' ∈ b.body.getD []) (hc : c ∈ (chunksOf text.lines).2) :
    c.Plain where
  toRead := read_of_mem_chunksOf (fun _ => Text.notMem_of_mem_splitAll) hc
  brace := by
    have hmem : some c.text ∈ (scan text).map (·.body) := by
      rw [map_body_scan]
      exact List.mem_map_of_mem hc
    obtain ⟨b, hb, hbody⟩ := List.mem_map.mp hmem
    simpa only [hbody, Option.getD_some] using hbrace b hb
  noReturn hmem := by
    rw [eq_leadOf_append (List.ne_nil_of_mem hc), List.mem_append, not_or] at hreturn
    exact hreturn.2 ((text_infix_textOf hc).subset hmem)

/-- The merged text does not depend on carriage returns. -/
theorem contents_merge?_withReturns {text : Text} (hreturn : '\r' ∉ text) (hne : scan text ≠ [])
    (hbrace : ∀ b ∈ scan text, '\x7d' ∈ b.body.getD [])
    (hplain : ∀ b ∈ scan text, isAdditional b.name = false)
    (hstart : (scan text).head?.map (·.start) ≠ some 2) :
    ∃ contents, (merge? text).map (·.contents) = some contents ∧
      (merge? (withReturns text)).map (·.contents) = some contents := by
  have hchunks := chunks_ne_nil hne
  have hnewline : ∀ line ∈ text.lines, '\n' ∉ line := fun _ => Text.notMem_of_mem_splitAll
  obtain ⟨hreturned, hfront⟩ := returnedChunks_lines hnewline
  rw [← Text.lines_withReturns] at hreturned hfront
  have hlead : leadOf (chunksOf (withReturns text).lines).1 =
      withReturns (leadOf (chunksOf text.lines).1) := by
    obtain ⟨c, further, hcons⟩ := List.exists_cons_of_ne_nil hchunks
    rw [hfront, hcons, returnedFront, leadOf_map_return]
    exact fun line hline => hnewline line (mem_front hline).1
  have hleadFree : '\r' ∉ leadOf (chunksOf text.lines).1 := by
    rw [eq_leadOf_append hchunks, List.mem_append, not_or] at hreturn
    exact hreturn.1
  have hleadLength : (leadOf (chunksOf text.lines).1).length ≠ 2 := fun hlength =>
    hstart (by rw [head?_scan hne, hlength])
  have hnames : ∀ name ∈ (chunksOf text.lines).2.map Chunk.name, isAdditional name = false := by
    rw [← map_name_scan]
    exact List.forall_mem_map.mpr hplain
  have hadds : AddsReturns
      (written [] (piecesOf (leadOf (chunksOf text.lines).1) (chunksOf text.lines).2))
      (written [] (piecesOf (leadOf (chunksOf (withReturns text).lines).1)
        (chunksOf (withReturns text).lines).2)) := by
    rw [piecesOf, piecesOf, written_keptStart, written_keptStart, hlead]
    exact (addsReturns_keptStart hleadFree hleadLength).append
      (addsReturns_written hreturned (fun c hc => plain_of_mem_chunksOf hreturn hbrace hc) [])
  have hnamesNe : (chunksOf text.lines).2.map Chunk.name ≠ [] := mt List.map_eq_nil_iff.mp hchunks
  refine ⟨_, contents_merge?_of_names rfl hnamesNe hnames, ?_⟩
  rw [contents_merge?_of_names hreturned.map_name hnamesNe hnames, hadds.normalizeLineEnds_eq]

end Declaration

namespace DeclarationMerger

open Declaration

/-- Merging gives the same contents for newlines and for carriage returns with newlines. -/
theorem contents_merge_withReturns (m m' : DeclarationMerger) {text : Text}
    (hreturn : '\r' ∉ text) (hne : scan text ≠ [])
    (hbrace : ∀ b ∈ scan text, '\x7d' ∈ b.body.getD [])
    (hplain : ∀ b ∈ scan text, isAdditional b.name = false)
    (hstart : (scan text).head?.map (·.start) ≠ some 2)
    (hskip : m.settings.skipDeclarations = false) (hfile : m.file.contents.toList = text)
    (hskip' : m'.settings.skipDeclarations = false)
    (hfile' : m'.file.contents.toList = Text.withReturns text) :
    ∃ result result', m.merge.2 = some result ∧ m'.merge.2 = some result' ∧
      result'.contents = result.contents := by
  obtain ⟨contents, hcontents, hcontents'⟩ :=
    contents_merge?_withReturns hreturn hne hbrace hplain hstart
  obtain ⟨result, hresult, htext⟩ := contents_merge hskip hfile hcontents
  obtain ⟨result', hresult', htext'⟩ := contents_merge hskip' hfile' hcontents'
  exact ⟨result, result', hresult, hresult', String.toList_inj.mp (htext'.trans htext.symm)⟩

/-- Two blocks that follow each other, then one with text behind it, and one that ends the text. -/
def adjacentText : Text :=
  ("/// a\ndeclare namespace A \x7b\n  a;\n\x7d\ndeclare namespace B \x7b b; \x7d\n" ++
    "export declare namespace A \x7b\n\x7d\ntype T = 1;\n" ++
    "declare namespace A \x7b c;\n\x7d\n").toList

theorem contents_merge_withReturns_adjacent :
    let file (text : Text) := File.ofDeclarations (String.ofList text)
    (scan adjacentText).length = 4 ∧ (scan (Text.withReturns adjacentText)).length = 4 ∧
      ∃ result result', (merge ⟨.standard, file adjacentText, {}⟩).2 = some result ∧
        (merge ⟨.standard, file (Text.withReturns adjacentText), {}⟩).2 = some result' ∧
        result'.contents = result.contents := by
  intro file
  refine ⟨by decide +kernel, by decide +kernel, ?_⟩
  exact contents_merge_withReturns ⟨.standard, file adjacentText, {}⟩
    ⟨.standard, file (Text.withReturns adjacentText), {}⟩
    (by decide +kernel : '\r' ∉ adjacentText) (by decide +kernel) (by decide +kernel)
    (by decide +kernel) (by decide +kernel) rfl String.toList_ofList rfl String.toList_ofList

end DeclarationMerger

end NamespaceMerge
