import NamespaceMerge.Proofs.Declaration.Closing

/-! Whether bodies stay in their namespace when declarations are merged. A merged text has one block
for each name of its source, and no other (`hasBlocks_mergedFrom`). What the block holds are the
bodies of the name exactly if no namespace goes on behind a gap with a brace (`Source.Unbroken`,
`keepsMembers_merge_iff`). -/

namespace NamespaceMerge

namespace Declaration

open Text (withoutBlanks HoldsCaseless)

/-! ### The blocks of a merged text -/

theorem SourceBlock.Regular.not_holdsCaseless_cut {b : SourceBlock} (h : b.Regular) :
    ¬ HoldsCaseless keyword b.cut.body ∧ ¬ HoldsCaseless keyword b.cut.gap := by
  rw [← not_or, ← Text.holdsCaseless_append_cons keyword_brace, ← b.append_cut.1,
    Text.holdsCaseless_append_cons keyword_brace, not_or]
  exact ⟨h.bodyFree, h.gapFree⟩

theorem endsLine_gap_cut {b : SourceBlock} (h : EndsLine b.gap) : EndsLine b.cut.gap := by
  have hline : EndsLine (b.body ++ '\x7d' :: b.gap) := (h.append ['\x7d']).append b.body
  rw [b.append_cut.1, endsLine_append_cons] at hline
  exact hline.of_cons (by decide)

theorem keptFrom_eq (least : Nat) (text : Text) :
    keptFrom least text = [] ∨ keptFrom least text = text := by
  rw [keptFrom, keptText]
  split
  · split
    · exact .inl rfl
    · exact .inr rfl
  · exact .inl rfl

theorem EndsLine.append_keptFrom {c : Char} {text gap : Text} (h : EndsLine (c :: text))
    (hgap : EndsLine gap) (least : Nat) : EndsLine (c :: (text ++ keptFrom least gap)) := by
  rcases keptFrom_eq least gap with hkept | hkept
  · rwa [hkept, List.append_nil]
  · rw [hkept]
    exact hgap.append (c :: text)

theorem not_holdsCaseless_append_keptFrom {c : Char} {text gap : Text} (h : EndsLine (c :: text))
    (htext : ¬ HoldsCaseless keyword text) (hgap : ¬ HoldsCaseless keyword gap) (least : Nat) :
    ¬ HoldsCaseless keyword (text ++ keptFrom least gap) := by
  rcases keptFrom_eq least gap with hkept | hkept
  · rwa [hkept, List.append_nil]
  · rw [hkept]
    rcases h.eq_nil_or with rfl | hline
    · exact hgap
    · obtain ⟨line, rfl⟩ := hline.exists_eq
      rw [Text.holdsCaseless_append_cons keyword_newline, not_or] at htext
      rw [List.append_assoc, List.singleton_append,
        Text.holdsCaseless_append_cons keyword_newline, not_or]
      exact ⟨htext.1, hgap⟩

theorem bodiesNamed_cut (name : Text) (blocks : List SourceBlock) :
    bodiesNamed name (blocks.map SourceBlock.cut) =
      (blocks.filter (·.name = name)).map (·.cut.body) := by
  simp [bodiesNamed, List.filter_map, Function.comp_def]

/-- Blocks found in a text are those of a source, one for each name but the `seen` ones. -/
structure FoundBlocks (seen : List Text) (blocks : List SourceBlock) (found : List (Text × Text)) :
    Prop where
  nodup : (found.map (·.1)).Nodup
  names : ∀ name, name ∈ found.map (·.1) ↔ name ∉ seen ∧ name ∈ blocks.map (·.name)
  held : ∀ p ∈ found, withoutBlanks p.2 = withoutBlanks (heldBy (blocks.filter (·.name = p.1)))

theorem FoundBlocks.nil (seen : List Text) : FoundBlocks seen [] [] where
  nodup := List.nodup_nil
  names _ := by simp
  held p hp := by cases hp

theorem FoundBlocks.skip {seen : List Text} {b : SourceBlock} {rest : List SourceBlock}
    {found : List (Text × Text)} (hb : b.name ∈ seen) (h : FoundBlocks seen rest found) :
    FoundBlocks seen (b :: rest) found where
  nodup := h.nodup
  names name := by
    rw [h.names, List.map_cons, List.mem_cons]
    constructor
    · exact fun ⟨hseen, hname⟩ => ⟨hseen, .inr hname⟩
    · rintro ⟨hseen, rfl | hname⟩
      · exact (hseen hb).elim
      · exact ⟨hseen, hname⟩
  held p hp := by
    have hne : b.name ≠ p.1 := fun heq =>
      ((h.names p.1).mp (List.mem_map_of_mem hp)).1 (heq ▸ hb)
    rw [h.held p hp, List.filter_cons_of_neg (by simpa using hne)]

theorem FoundBlocks.add {seen : List Text} {b : SourceBlock} {rest : List SourceBlock}
    {inside : Text} {found : List (Text × Text)} (hb : b.name ∉ seen)
    (hinside : withoutBlanks inside =
      withoutBlanks (heldBy ((b :: rest).filter (·.name = b.name))))
    (h : FoundBlocks (seen ++ [b.name]) rest found) :
    FoundBlocks seen (b :: rest) ((b.name, inside) :: found) := by
  have hnames : ∀ name, name ∈ found.map (·.1) ↔
      name ∉ seen ∧ name ≠ b.name ∧ name ∈ rest.map (·.name) := fun name => by
    rw [h.names, List.mem_append, List.mem_singleton, not_or, and_assoc]
  refine ⟨?_, fun name => ?_, fun p hp => ?_⟩
  · rw [List.map_cons, List.nodup_cons]
    exact ⟨fun hmem => ((hnames b.name).mp hmem).2.1 rfl, h.nodup⟩
  · rw [List.map_cons, List.mem_cons, hnames, List.map_cons, List.mem_cons]
    by_cases hname : name = b.name
    · simp [hname, hb]
    · simp [hname]
  · rcases List.mem_cons.mp hp with rfl | hp
    · exact hinside
    · have hne : b.name ≠ p.1 := fun heq =>
        ((hnames p.1).mp (List.mem_map_of_mem hp)).2.1 heq.symm
      rw [h.held p hp, List.filter_cons_of_neg (by simpa using hne)]

/-- The block that is written for blocks of one name, up to the brace that closes it. -/
theorem exists_closed {blocks : List SourceBlock} (h : ∀ b ∈ blocks, b.Regular)
    (hbodies : ∀ b ∈ blocks, Text.Balanced b.body) :
    ∃ inside after, blockRest (blocks.map (·.cut.body)) = inside ++ '\x7d' :: after ∧
      Text.Balanced inside ∧ withoutBlanks inside = withoutBlanks (heldBy blocks) ∧
      ¬ HoldsCaseless keyword inside ∧ ¬ HoldsCaseless keyword after ∧
      EndsLine ('\x7d' :: after) := by
  obtain ⟨inside, after, htext, hbalanced, hblank⟩ := exists_blockRest_eq hbodies
  have hfree : ¬ HoldsCaseless keyword (blockRest (blocks.map (·.cut.body))) :=
    not_holdsCaseless_blockRest fun body hbody => by
      obtain ⟨b, hb, rfl⟩ := List.mem_map.mp hbody
      exact (h b hb).not_holdsCaseless_cut.1
  have hend := endsLine_blockRest (blocks.map (·.cut.body))
  rw [htext, Text.holdsCaseless_append_cons keyword_brace, not_or] at hfree
  rw [htext, endsLine_append_cons] at hend
  exact ⟨inside, after, htext, hbalanced, hblank, hfree.1, hfree.2, hend⟩

/-- The merged text of blocks, with text before it. When a block is closed, what is left of its text
goes before the rest. -/
theorem hasBlocks_mergedFrom {last : Char} {before : Text} (seen : List Text)
    {blocks : List SourceBlock} (hbefore : ¬ HoldsCaseless keyword before)
    (hstart : blocks ≠ [] → EndsLine (last :: before))
    (hgaps : ∀ b ∈ blocks.dropLast, EndsLine b.gap) (h : ∀ b ∈ blocks, b.Regular)
    (hbodies : ∀ b ∈ blocks, Text.Balanced b.body) :
    ∃ found, FoundBlocks seen blocks found ∧
      HasBlocks last (normalizeLineEnds (before ++ mergedFrom seen (blocks.map SourceBlock.cut)))
        found := by
  induction blocks generalizing last before seen with
  | nil =>
    rw [List.map_nil, mergedFrom, List.append_nil]
    exact ⟨[], .nil seen, .none (not_holdsCaseless_normalizeLineEnds hbefore)⟩
  | cons b rest ih =>
    have hline := hstart (List.cons_ne_nil _ _)
    rw [forall_mem_dropLast_cons] at hgaps
    have hgap := fun hne => endsLine_gap_cut (hgaps.1 hne)
    have hb := h b List.mem_cons_self
    have hrest := fun b' hb' => h b' (List.mem_cons_of_mem b hb')
    have hbodies' := fun b' hb' => hbodies b' (List.mem_cons_of_mem b hb')
    rw [List.map_cons, mergedFrom, b.name_cut]
    by_cases hseen : b.name ∈ seen
    · obtain ⟨found, hfound, hblocks⟩ := ih seen
        (not_holdsCaseless_append_keptFrom hline hbefore hb.not_holdsCaseless_cut.2 2)
        (fun hne => hline.append_keptFrom (hgap hne) 2) hgaps.2 hrest hbodies'
      rw [if_pos (List.contains_iff_mem.mpr hseen), ← List.append_assoc]
      exact ⟨found, hfound.skip hseen, hblocks⟩
    · obtain ⟨inside, after, htext, hbalanced, hblank, hinside, hafter, hend⟩ :=
        exists_closed (fun b' hb' => h b' (List.mem_of_mem_filter hb'))
          fun b' hb' => hbodies b' (List.mem_of_mem_filter hb')
      obtain ⟨found, hfound, hblocks⟩ := ih (seen ++ [b.name])
        (not_holdsCaseless_append_keptFrom hend hafter hb.not_holdsCaseless_cut.2 2)
        (fun hne => hend.append_keptFrom (hgap hne) 2) hgaps.2 hrest hbodies'
      rw [if_neg (mt List.contains_iff_mem.mp hseen), ← List.map_cons, bodiesNamed_cut,
        blockText_eq, htext]
      rw [List.append_assoc] at hblocks
      have hall := hblocks.normalizeLineEnds_block hb.name hline hbefore hbalanced hinside
      refine ⟨(b.name, normalizeLineEnds inside) :: found, hfound.add hseen ?_, ?_⟩
      · rw [withoutBlanks_normalizeLineEnds, hblank]
      · simpa only [List.append_assoc, List.cons_append] using hall

/-! ### Namespaces that keep their bodies -/

/-- In a text, every name of a source has one block, and it holds the bodies of the name and
nothing else but blanks; no other name has a block. -/
structure KeepsMembers (s : Source) (text : Text) : Prop where
  held : ∀ b ∈ s.blocks, ∃ before inside, BlockAt '\n' text before b.name inside ∧
    withoutBlanks inside = withoutBlanks (bodiesNamed b.name s.blocks).flatten
  single : ∀ b ∈ s.blocks, ∀ before inside before' inside',
    BlockAt '\n' text before b.name inside → BlockAt '\n' text before' b.name inside' →
      before = before' ∧ inside = inside'
  named : ∀ name before inside, '\x7b' ∉ name → BlockAt '\n' text before name inside →
    name ∈ s.blocks.map (·.name)

/-- Behind a gap with a brace, no block has the name of the block before the gap and a body that is
not blank. -/
def Source.Unbroken (s : Source) : Prop :=
  s.blocks.Pairwise fun b later =>
    b.name = later.name → '\x7d' ∈ b.gap → isBlankText later.body = true

instance (s : Source) : Decidable s.Unbroken :=
  inferInstanceAs (Decidable (s.blocks.Pairwise _))

theorem withoutBlanks_flatten_eq_nil_iff {bodies : List Text} :
    withoutBlanks bodies.flatten = [] ↔ ∀ body ∈ bodies, isBlankText body = true := by
  induction bodies with
  | nil => simp [withoutBlanks]
  | cons body rest ih =>
    rw [List.flatten_cons, Text.withoutBlanks_append, List.append_eq_nil_iff, ih,
      List.forall_mem_cons, isBlankText_iff]

/-- Blocks of one name hold all their bodies if the bodies behind a gap with a brace are blank. -/
theorem withoutBlanks_heldBy_iff {blocks : List SourceBlock} :
    withoutBlanks (heldBy blocks) = withoutBlanks (blocks.map (·.body)).flatten ↔
      blocks.Pairwise fun b later => '\x7d' ∈ b.gap → isBlankText later.body = true := by
  induction blocks with
  | nil => simp [heldBy]
  | cons b rest ih =>
    rw [heldBy, List.map_cons, List.flatten_cons, Text.withoutBlanks_append, List.pairwise_cons]
    by_cases hgap : '\x7d' ∈ b.gap
    · rw [if_pos hgap, eq_comm, List.append_right_eq_self, withoutBlanks_flatten_eq_nil_iff,
        List.forall_mem_map]
      constructor
      · intro h
        refine ⟨fun later hlater _ => h later hlater, ?_⟩
        exact List.pairwise_of_forall_mem_list fun _ _ later hlater _ => h later hlater
      · exact fun h later hlater => h.1 later hlater hgap
    · rw [if_neg hgap, Text.withoutBlanks_append, List.append_cancel_left_eq, ih]
      simp [hgap]

theorem Source.unbroken_iff {s : Source} :
    s.Unbroken ↔ ∀ b ∈ s.blocks, (s.blocks.filter (·.name = b.name)).Pairwise
      fun b later => '\x7d' ∈ b.gap → isBlankText later.body = true := by
  simp only [Unbroken, List.pairwise_filter, decide_eq_true_eq]
  simp only [List.pairwise_iff_forall_sublist]
  constructor
  · intro h b _ first later hsub hfirst hlater
    exact h hsub (hfirst.trans hlater.symm)
  · intro h first later hsub hname
    exact h first (hsub.subset List.mem_cons_self) hsub rfl hname.symm

theorem keepsMembers_iff {s : Source} {text : Text} {found : List (Text × Text)}
    (hbrace : ∀ b ∈ s.blocks, '\x7b' ∉ b.name) (hfound : FoundBlocks [] s.blocks found)
    (hblocks : HasBlocks '\n' text found) : KeepsMembers s text ↔ s.Unbroken := by
  rw [Source.unbroken_iff]
  constructor
  · intro h b hb
    obtain ⟨before, inside, hat, hinside⟩ := h.held b hb
    have hheld := hfound.held _ (hblocks.mem_of_blockAt (hbrace b hb) hat)
    rw [← withoutBlanks_heldBy_iff, ← hheld, hinside, bodiesNamed]
  · intro h
    refine ⟨fun b hb => ?_, fun b hb before inside before' inside' hat hat' => ?_,
      fun name before inside hname hat => ?_⟩
    · have hmem : b.name ∈ found.map (·.1) :=
        (hfound.names b.name).mpr ⟨List.not_mem_nil, List.mem_map_of_mem hb⟩
      obtain ⟨⟨name, inside⟩, hp, rfl⟩ := List.mem_map.mp hmem
      obtain ⟨before, hat⟩ := hblocks.exists_blockAt hp
      refine ⟨before, inside, hat, ?_⟩
      rw [hfound.held _ hp, bodiesNamed]
      exact withoutBlanks_heldBy_iff.mpr (h b hb)
    · obtain rfl := hblocks.before_unique hfound.nodup (hbrace b hb) hat hat'
      obtain ⟨-, hbalanced, after, htext⟩ := hat
      obtain ⟨-, hbalanced', after', htext'⟩ := hat'
      rw [htext', List.append_cancel_left_eq, List.append_cancel_left_eq] at htext
      exact ⟨rfl, (hbalanced'.eq_of_append_cons hbalanced htext).symm⟩
    · have hmem := hblocks.mem_of_blockAt hname hat
      exact ((hfound.names name).mp (List.mem_map_of_mem hmem)).2

end Declaration

namespace DeclarationMerger

open Declaration

/-- A file that is put together from blocks is merged into a text with the same names. -/
theorem exists_hasBlocks_merge {m : DeclarationMerger} {s : Source} (h : s.Regular)
    (hbodies : ∀ b ∈ s.blocks, Text.Balanced b.body)
    (hskip : m.settings.skipDeclarations = false) (hfile : m.file.contents.toList = s.text) :
    ∃ result found, m.merge.2 = some result ∧ FoundBlocks [] s.blocks found ∧
      HasBlocks '\n' result.contents.toList found := by
  by_cases hne : s.blocks = []
  · have htext : s.text = s.lead := by rw [Source.text, hne, List.flatMap_nil, List.append_nil]
    obtain ⟨result, hresult, hcontents⟩ :=
      contents_merge_none hskip hfile (merge?_eq_none (htext ▸ h.leadFree))
    refine ⟨result, [], hresult, hne ▸ FoundBlocks.nil [], ?_⟩
    rw [hcontents, htext]
    exact .none h.leadFree
  · obtain ⟨result, hresult, hcontents⟩ :=
      contents_merge hskip hfile (contents_merge?_cut h hne)
    have hline : EndsLine ('\n' :: []) := rfl
    have hstart : EndsLine ('\n' :: ([] ++ keptFrom 3 s.lead)) := by
      rcases h.lead hne with hlead | hlead
      · rw [hlead]
        rfl
      · exact hline.append_keptFrom hlead 3
    have hfree := not_holdsCaseless_append_keptFrom hline (by decide) h.leadFree 3
    obtain ⟨found, hfound, hblocks⟩ :=
      hasBlocks_mergedFrom [] hfree (fun _ => hstart) h.gaps h.blocks hbodies
    refine ⟨result, found, hresult, hfound, ?_⟩
    rw [hcontents]
    exact hblocks

/-- The merged file keeps the bodies of every namespace in one block of the namespace, and all
other text out of the blocks, exactly if no namespace goes on behind a gap with a brace. -/
theorem keepsMembers_merge_iff (m : DeclarationMerger) {s : Source} (h : s.Regular)
    (hbodies : ∀ b ∈ s.blocks, Text.Balanced b.body)
    (hskip : m.settings.skipDeclarations = false) (hfile : m.file.contents.toList = s.text) :
    ∃ result, m.merge.2 = some result ∧
      (KeepsMembers s result.contents.toList ↔ s.Unbroken) := by
  obtain ⟨result, found, hresult, hfound, hblocks⟩ := exists_hasBlocks_merge h hbodies hskip hfile
  exact ⟨result, hresult, keepsMembers_iff (fun b hb => (h.blocks b hb).name.brace) hfound hblocks⟩

/-- Text with braces before another name. -/
def parted : Source where
  lead := "interface I \x7b x \x7d\n".toList
  blocks := [
    ⟨"A".toList, "\n  \x7b a \x7d\n".toList, "\n".toList⟩,
    ⟨"A".toList, " b ".toList, "\ninterface J \x7b y \x7d\n".toList⟩,
    ⟨"B".toList, " c ".toList, "\n".toList⟩]

theorem keepsMembers_merge_parted :
    ∃ result,
      (merge ⟨.standard, File.ofDeclarations (String.ofList parted.text), {}⟩).2 = some result ∧
        KeepsMembers parted result.contents.toList := by
  obtain ⟨result, hresult, hiff⟩ :=
    keepsMembers_merge_iff ⟨.standard, File.ofDeclarations (String.ofList parted.text), {}⟩
      (by decide : parted.Regular) (by decide) rfl String.toList_ofList
  exact ⟨result, hresult, hiff.mpr (by decide)⟩

/-- An interface between two blocks of one name. -/
def divided : Source where
  lead := []
  blocks := [
    ⟨"A".toList, "\n    a;\n".toList, "\ninterface I \x7b x \x7d\n".toList⟩,
    ⟨"A".toList, "\n    b;\n".toList, "\n".toList⟩]

theorem not_keepsMembers_merge_divided :
    divided.Regular ∧ (∀ b ∈ divided.blocks, Text.Balanced b.body ∧ Text.Balanced b.gap) ∧
      ∃ result,
        (merge ⟨.standard, File.ofDeclarations (String.ofList divided.text), {}⟩).2 = some result ∧
          ¬ KeepsMembers divided result.contents.toList := by
  have hregular : divided.Regular := by decide
  obtain ⟨result, found, hresult, hfound, hblocks⟩ := exists_hasBlocks_merge
    (m := ⟨.standard, File.ofDeclarations (String.ofList divided.text), {}⟩) hregular (by decide)
    rfl String.toList_ofList
  refine ⟨hregular, by decide, result, hresult, fun hkeeps => ?_⟩
  have hunbroken := (keepsMembers_iff (by decide) hfound hblocks).mp hkeeps
  exact absurd hunbroken (by decide)

end DeclarationMerger

end NamespaceMerge
