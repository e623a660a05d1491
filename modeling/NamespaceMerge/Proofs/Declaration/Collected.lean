import NamespaceMerge.Proofs.Declaration.Membership

/-! The merged text of a source as a source again (`Source.collected`, `collected_text`): a block
for each name, where the name first appears, and the text that is kept up to the next one as its
gap. What a closed source is merged to is closed as well (`Source.Closed.collected`). Its names are
different, so merging it once more puts every block and every gap back where they were, and changes
blanks only (`withoutBlanks_merged_collected`). -/

namespace NamespaceMerge

namespace Declaration

open Text (withoutBlanks HoldsCaseless)

/-- What is written into a block between its braces. -/
def insideText (bodies : List Text) : Text :=
  '\n' :: '\t' :: Text.join ['\t'] (bodies.filter fun body => !isBlankText body)

/-- The text that is kept behind blocks with `seen` names, up to the first block with another
name. -/
def keptUpTo (seen : List Text) : List SourceBlock → Text
  | [] => []
  | b :: rest => if seen.contains b.name then keptFrom 2 b.gap ++ keptUpTo seen rest else []

/-- One block for each name that was not `seen` before. -/
def collect (seen : List Text) : List SourceBlock → List SourceBlock
  | [] => []
  | b :: rest =>
    if seen.contains b.name then collect seen rest
    else
      { name := b.name
        body := insideText (bodiesNamed b.name (b :: rest))
        gap := '\n' :: (keptFrom 2 b.gap ++ keptUpTo (seen ++ [b.name]) rest) }
        :: collect (seen ++ [b.name]) rest

def Source.collected (s : Source) : Source where
  lead := keptFrom 3 s.lead
  blocks := collect [] s.blocks

/-! ### The text of a collected source -/

theorem blockText_eq_insideText (name : Text) (bodies : List Text) :
    blockText name bodies = opening name ++ (insideText bodies ++ '\x7d' :: ['\n']) := by
  rw [blockText_eq, blockRest, insideText]

theorem mergedFrom_eq (seen : List Text) (blocks : List SourceBlock) :
    mergedFrom seen blocks =
      keptUpTo seen blocks ++ (collect seen blocks).flatMap SourceBlock.text := by
  induction blocks generalizing seen with
  | nil => rfl
  | cons b rest ih =>
    rw [mergedFrom, keptUpTo, collect]
    split
    · rw [ih, List.append_assoc]
    · rw [ih, blockText_eq_insideText, List.flatMap_cons, SourceBlock.text]
      simp

theorem keptUpTo_nil (blocks : List SourceBlock) : keptUpTo [] blocks = [] := by
  cases blocks <;> rfl

theorem Source.collected_text (s : Source) : s.collected.text = s.merged := by
  rw [merged, mergedFrom_eq, keptUpTo_nil, List.nil_append]
  rfl

/-! ### Names -/

/-- The names are those of the source, each where it first appears. -/
theorem map_name_collect (seen : List Text) (blocks : List SourceBlock) :
    (collect seen blocks).map (·.name) =
      ((blocks.map (·.name)).filter fun name => !seen.contains name).eraseDups := by
  induction blocks generalizing seen with
  | nil => rfl
  | cons b rest ih =>
    rw [collect, List.map_cons, List.filter_cons]
    by_cases h : seen.contains b.name = true
    · rw [if_pos h, if_neg (by simpa using h), ih]
    · rw [if_neg h, if_pos (by simpa using h), List.map_cons, ih, List.eraseDups_cons,
        List.filter_filter]
      congr 3
      funext name
      rw [Bool.eq_iff_iff]
      simp [and_comm]

theorem Source.map_name_collected (s : Source) :
    s.collected.blocks.map (·.name) = (s.blocks.map (·.name)).eraseDups := by
  rw [collected, map_name_collect]
  simp

/-! ### Blocks -/

theorem mem_keptFrom {c : Char} {least : Nat} {text : Text} (h : c ∈ keptFrom least text) :
    c ∈ text := by
  rcases keptFrom_eq least text with hkept | hkept
  · rw [hkept] at h
    cases h
  · rwa [hkept] at h

theorem mem_keptUpTo {c : Char} {seen : List Text} {blocks : List SourceBlock}
    (h : c ∈ keptUpTo seen blocks) : ∃ b ∈ blocks, c ∈ b.gap := by
  induction blocks with
  | nil => cases h
  | cons b rest ih =>
    rw [keptUpTo] at h
    split at h
    · rcases List.mem_append.mp h with h | h
      · exact ⟨b, List.mem_cons_self, mem_keptFrom h⟩
      · obtain ⟨b', hb', hc⟩ := ih h
        exact ⟨b', List.mem_cons_of_mem _ hb', hc⟩
    · cases h

/-- Text that is kept before another block ends its line. -/
theorem EndsLine.append_keptUpTo {c : Char} {text : Text} {seen : List Text}
    {blocks : List SourceBlock} (h : EndsLine (c :: text)) (hne : collect seen blocks ≠ [])
    (hgaps : ∀ b ∈ blocks.dropLast, EndsLine b.gap) :
    EndsLine (c :: (text ++ keptUpTo seen blocks)) := by
  induction blocks generalizing text with
  | nil => exact (hne rfl).elim
  | cons b rest ih =>
    rw [forall_mem_dropLast_cons] at hgaps
    rw [keptUpTo]
    rw [collect] at hne
    split at hne
    · next hb =>
      have hrest : rest ≠ [] := by
        rintro rfl
        exact hne rfl
      rw [if_pos hb, ← List.append_assoc]
      exact ih (h.append_keptFrom (hgaps.1 hrest) 2) hne hgaps.2
    · next hb => rwa [if_neg hb, List.append_nil]

theorem not_holdsCaseless_append_keptUpTo {c : Char} {text : Text} (seen : List Text)
    {blocks : List SourceBlock} (h : blocks ≠ [] → EndsLine (c :: text))
    (htext : ¬ HoldsCaseless keyword text) (hgaps : ∀ b ∈ blocks.dropLast, EndsLine b.gap)
    (hfree : ∀ b ∈ blocks, ¬ HoldsCaseless keyword b.gap) :
    ¬ HoldsCaseless keyword (text ++ keptUpTo seen blocks) := by
  induction blocks generalizing text with
  | nil => rwa [keptUpTo, List.append_nil]
  | cons b rest ih =>
    have hline := h (List.cons_ne_nil _ _)
    rw [forall_mem_dropLast_cons] at hgaps
    rw [List.forall_mem_cons] at hfree
    rw [keptUpTo]
    split
    · rw [← List.append_assoc]
      exact ih (fun hrest => hline.append_keptFrom (hgaps.1 hrest) 2)
        (not_holdsCaseless_append_keptFrom hline htext hfree.1 2) hgaps.2 hfree.2
    · rwa [List.append_nil]

theorem not_holdsCaseless_insideText {bodies : List Text}
    (h : ∀ body ∈ bodies, ¬ HoldsCaseless keyword body) :
    ¬ HoldsCaseless keyword (insideText bodies) := fun hholds =>
  not_holdsCaseless_blockRest h (hholds.mono (List.prefix_append _ _).isInfix)

/-- Every collected block but the last ends its line. -/
theorem endsLine_gap_collect {blocks : List SourceBlock} (seen : List Text)
    (hgaps : ∀ b ∈ blocks.dropLast, EndsLine b.gap) :
    ∀ b ∈ (collect seen blocks).dropLast, EndsLine b.gap := by
  induction blocks generalizing seen with
  | nil => exact fun b hb => (List.not_mem_nil hb).elim
  | cons b rest ih =>
    rw [forall_mem_dropLast_cons] at hgaps
    rw [collect]
    split
    · exact ih seen hgaps.2
    · rw [forall_mem_dropLast_cons]
      refine ⟨fun hne => ?_, ih _ hgaps.2⟩
      have hrest : rest ≠ [] := by
        rintro rfl
        exact hne rfl
      have hline : EndsLine ('\n' :: []) := rfl
      exact (hline.append_keptFrom (hgaps.1 hrest) 2).append_keptUpTo hne hgaps.2

theorem readable_of_mem_collect {blocks : List SourceBlock} (seen : List Text)
    (hgaps : ∀ b ∈ blocks.dropLast, EndsLine b.gap) (h : ∀ b ∈ blocks, b.Readable) :
    ∀ b ∈ collect seen blocks, b.Readable := by
  induction blocks generalizing seen with
  | nil => exact fun b hb => (List.not_mem_nil hb).elim
  | cons b rest ih =>
    have hb := h b List.mem_cons_self
    have hrest := fun b' hb' => h b' (List.mem_cons_of_mem b hb')
    rw [forall_mem_dropLast_cons] at hgaps
    rw [collect]
    split
    · exact ih seen hgaps.2 hrest
    · rw [List.forall_mem_cons]
      refine ⟨⟨hb.name, not_holdsCaseless_insideText fun body hbody => ?_, ?_⟩, ih _ hgaps.2 hrest⟩
      · obtain ⟨b', hb', rfl⟩ := List.mem_map.mp hbody
        exact (h b' (List.mem_of_mem_filter hb')).bodyFree
      · -- The newline behind the brace is the line on which the kept text starts.
        have hline : EndsLine ('\x7d' :: ['\n']) := rfl
        have hkept := not_holdsCaseless_append_keptFrom hline (by decide) hb.gapFree 2
        exact not_holdsCaseless_append_keptUpTo (seen ++ [b.name])
          (fun hne => hline.append_keptFrom (hgaps.1 hne) 2) hkept hgaps.2
          fun b' hb' => (hrest b' hb').gapFree

theorem brace_notMem_gap_collect {blocks : List SourceBlock} (seen : List Text)
    (h : ∀ b ∈ blocks, '\x7d' ∉ b.gap) : ∀ b ∈ collect seen blocks, '\x7d' ∉ b.gap := by
  induction blocks generalizing seen with
  | nil => exact fun b hb => (List.not_mem_nil hb).elim
  | cons b rest ih =>
    rw [List.forall_mem_cons] at h
    rw [collect]
    split
    · exact ih seen h.2
    · rw [List.forall_mem_cons]
      refine ⟨fun hmem => ?_, ih _ h.2⟩
      simp only [List.mem_cons, List.mem_append, Char.reduceEq, false_or] at hmem
      rcases hmem with hmem | hmem
      · exact h.1 (mem_keptFrom hmem)
      · obtain ⟨b', hb', hgap⟩ := mem_keptUpTo hmem
        exact h.2 b' hb' hgap

theorem Source.Readable.collected {s : Source} (h : s.Readable) (hne : s.blocks ≠ []) :
    s.collected.Readable where
  lead _ := by
    rcases keptFrom_eq 3 s.lead with hkept | hkept
    · exact .inl hkept
    · rw [Source.collected, hkept]
      exact h.lead hne
  leadFree := by
    have hline : EndsLine ('\n' :: []) := rfl
    exact not_holdsCaseless_append_keptFrom hline (by decide) h.leadFree 3
  gaps := endsLine_gap_collect [] h.gaps
  blocks := readable_of_mem_collect [] h.gaps h.blocks

/-! ### Closed sources -/

/-- A source with blocks, each of which ends where it is written to end, and without carriage
returns. -/
structure Source.Closed (s : Source) : Prop extends s.Readable where
  nonempty : s.blocks ≠ []
  brace : ∀ b ∈ s.blocks, '\x7d' ∉ b.gap
  noReturn : '\r' ∉ s.text

/-- The merged text of a closed source is the text of its collected one. -/
theorem Source.Closed.contents_merge? {s : Source} (h : s.Closed) :
    (merge? s.text).map (·.contents) = some s.collected.text := by
  rw [contents_merge?_source h.toReadable h.nonempty, s.cut.written_pieces, cut_eq_self h.brace,
    normalizeLineEnds_eq_self (.inl (return_notMem_merged h.noReturn)), s.collected_text]

/-- What a closed source is merged to is a closed source again. -/
theorem Source.Closed.collected {s : Source} (h : s.Closed) : s.collected.Closed where
  toReadable := h.toReadable.collected h.nonempty
  nonempty hnil := by
    obtain ⟨b, rest, hblocks⟩ := List.exists_cons_of_ne_nil h.nonempty
    rw [Source.collected, hblocks] at hnil
    cases hnil
  brace := brace_notMem_gap_collect [] h.brace
  noReturn := s.collected_text ▸ return_notMem_merged h.noReturn

theorem Source.Closed.map_name_scan {s : Source} (h : s.Closed) :
    (scan s.text).map (·.name) = s.blocks.map (·.name) := by
  rw [Declaration.map_name_scan]
  exact (chunksOf_source h.toReadable h.nonempty).2.1

/-! ### Merging a collected source -/

theorem withoutBlanks_keptText (text : Text) :
    withoutBlanks (keptText text) = withoutBlanks text := by
  rw [keptText]
  split
  · next h => rw [isBlankText_iff.mp h]; rfl
  · rfl

theorem withoutBlanks_keptFrom {least : Nat} {text : Text}
    (h : least ≤ text.length ∨ isBlankText text = true) :
    withoutBlanks (keptFrom least text) = withoutBlanks text := by
  rw [keptFrom]
  split
  · exact withoutBlanks_keptText text
  · next hlength => rw [isBlankText_iff.mp (h.resolve_left hlength)]; rfl

theorem keptFrom_keptFrom (least : Nat) (text : Text) :
    keptFrom least (keptFrom least text) = keptFrom least text := by
  rcases keptFrom_eq least text with h | h
  · rw [h, keptFrom]
    split <;> rfl
  · rw [h]
    exact h

/-- The block of a name with one body is the block with this body, up to blanks. -/
theorem withoutBlanks_blockText_singleton (name body : Text) :
    withoutBlanks (blockText name [body]) =
      withoutBlanks (opening name ++ (body ++ ['\x7d'])) := by
  have hinside : withoutBlanks (insideText [body]) = withoutBlanks body := by
    rw [insideText]
    cases hbody : isBlankText body with
    | true => rw [isBlankText_iff.mp hbody, List.filter_cons_of_neg (by simp [hbody])]; rfl
    | false =>
      rw [List.filter_cons_of_pos (by simp [hbody]), List.filter_nil, Text.join_singleton]
      rfl
  rw [blockText_eq_insideText, Text.withoutBlanks_append, Text.withoutBlanks_append, hinside,
    Text.withoutBlanks_append, Text.withoutBlanks_append]
  rfl

/-- Blocks with different names stay where they are when they are merged. -/
theorem withoutBlanks_mergedFrom {seen : List Text} {blocks : List SourceBlock}
    (hnodup : (blocks.map (·.name)).Nodup) (hseen : ∀ b ∈ blocks, b.name ∉ seen)
    (hgaps : ∀ b ∈ blocks, withoutBlanks (keptFrom 2 b.gap) = withoutBlanks b.gap) :
    withoutBlanks (mergedFrom seen blocks) =
      withoutBlanks (blocks.flatMap SourceBlock.text) := by
  induction blocks generalizing seen with
  | nil => rfl
  | cons b rest ih =>
    rw [List.map_cons, List.nodup_cons] at hnodup
    rw [List.forall_mem_cons] at hseen hgaps
    have hother : ∀ b' ∈ rest, b'.name ≠ b.name := fun b' hb' heq =>
      hnodup.1 (heq ▸ List.mem_map_of_mem hb')
    have hbodies : bodiesNamed b.name (b :: rest) = [b.body] := by
      have hnone : rest.filter (·.name = b.name) = [] :=
        List.filter_eq_nil_iff.mpr fun b' hb' => by simpa using hother b' hb'
      rw [bodiesNamed, List.filter_cons_of_pos (by simp), hnone]
      rfl
    have hrest : ∀ b' ∈ rest, b'.name ∉ seen ++ [b.name] := fun b' hb' => by
      rw [List.mem_append, List.mem_singleton, not_or]
      exact ⟨hseen.2 b' hb', hother b' hb'⟩
    rw [mergedFrom, if_neg (mt List.contains_iff_mem.mp hseen.1), hbodies, List.flatMap_cons,
      Text.withoutBlanks_append, Text.withoutBlanks_append, Text.withoutBlanks_append,
      withoutBlanks_blockText_singleton, hgaps.1, ih hnodup.2 hrest hgaps.2, ← List.append_assoc,
      ← Text.withoutBlanks_append]
    simp [SourceBlock.text]

/-- A gap of a collected block is kept when it is merged, but for a newline alone. -/
theorem withoutBlanks_gap_collect (seen : List Text) (blocks : List SourceBlock) :
    ∀ b ∈ collect seen blocks, withoutBlanks (keptFrom 2 b.gap) = withoutBlanks b.gap := by
  have hline : ∀ text,
      withoutBlanks (keptFrom 2 ('\n' :: text)) = withoutBlanks ('\n' :: text) := by
    intro text
    refine withoutBlanks_keptFrom ?_
    cases text with
    | nil => exact .inr rfl
    | cons c text => exact .inl (by simp)
  induction blocks generalizing seen with
  | nil => exact fun b hb => (List.not_mem_nil hb).elim
  | cons b rest ih =>
    rw [collect]
    split
    · exact ih seen
    · rw [List.forall_mem_cons]
      exact ⟨hline _, ih _⟩

/-- Merging the merged text of a source once more changes blanks only. -/
theorem Source.withoutBlanks_merged_collected (s : Source) :
    withoutBlanks s.collected.merged = withoutBlanks s.collected.text := by
  have hnodup : (s.collected.blocks.map (·.name)).Nodup :=
    s.map_name_collected ▸ nodup_eraseDups _
  have hlead : keptFrom 3 s.collected.lead = s.collected.lead := keptFrom_keptFrom 3 s.lead
  have hblocks : withoutBlanks (mergedFrom [] s.collected.blocks) =
      withoutBlanks (s.collected.blocks.flatMap SourceBlock.text) :=
    withoutBlanks_mergedFrom hnodup (fun _ _ => List.not_mem_nil)
      (withoutBlanks_gap_collect [] s.blocks)
  rw [merged, text, Text.withoutBlanks_append, Text.withoutBlanks_append, hlead, hblocks]

end Declaration

end NamespaceMerge
