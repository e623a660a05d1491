import NamespaceMerge.Proofs.Declaration.Merged
import NamespaceMerge.Proofs.Declaration.Occurrence

/-! Where the block of a name is closed in a merged text. It holds the bodies of the name up to the
first that is followed by a gap with a brace, for the brace behind that body closes it
(`heldBy`, `exists_blockRest_eq`). Normalizing line ends moves no brace. -/

namespace NamespaceMerge.Declaration

open Text (withoutBlanks HoldsCaseless)

/-- What the block of a name holds after merging the blocks with the name: their bodies up to the
first with a brace in the gap behind it. -/
def heldBy : List SourceBlock → Text
  | [] => []
  | b :: rest => if '\x7d' ∈ b.gap then b.body else b.body ++ heldBy rest

/-! ### The block of a name -/

theorem isBlankText_iff {text : Text} : isBlankText text = true ↔ withoutBlanks text = [] := by
  rw [isBlankText, List.isEmpty_iff, Text.trim_eq_nil_iff]

theorem not_isBlankText_brace (a b : Text) : isBlankText (a ++ '\x7d' :: b) = false := by
  rw [← Bool.not_eq_true, isBlankText_iff, Text.withoutBlanks_append]
  simp [withoutBlanks, isBlank]

theorem withoutBlanks_cons_tab (text : Text) : withoutBlanks ('\t' :: text) = withoutBlanks text :=
  rfl

/-- Bodies that are not blank, each behind a tab. -/
def tabbed (bodies : List Text) : Text :=
  (bodies.filter fun body => !isBlankText body).flatMap ('\t' :: ·)

theorem tabbed_cons_of_blank {body : Text} (h : isBlankText body = true) (rest : List Text) :
    tabbed (body :: rest) = tabbed rest := by
  simp [tabbed, h]

theorem tabbed_cons_of_not_blank {body : Text} (h : isBlankText body = false) (rest : List Text) :
    tabbed (body :: rest) = '\t' :: (body ++ tabbed rest) := by
  simp [tabbed, h]

theorem cons_join_tab {bodies : List Text} (h : bodies ≠ []) :
    '\t' :: Text.join ['\t'] bodies = bodies.flatMap ('\t' :: ·) := by
  induction bodies with
  | nil => exact (h rfl).elim
  | cons body rest ih =>
    by_cases hrest : rest = []
    · rw [hrest, Text.join_singleton, List.flatMap_singleton]
    · rw [Text.join_cons _ _ hrest, List.flatMap_cons, ← ih hrest]
      rfl

/-- The bodies of blocks of one name as they are read, and behind them a brace: what comes up to
the brace that closes what was open before. -/
theorem exists_tabbed_eq {blocks : List SourceBlock} (hbodies : ∀ b ∈ blocks, Text.Balanced b.body)
    (text : Text) :
    ∃ inside after, tabbed (blocks.map (·.cut.body)) ++ '\x7d' :: text = inside ++ '\x7d' :: after ∧
      Text.Balanced inside ∧ withoutBlanks inside = withoutBlanks (heldBy blocks) := by
  induction blocks with
  | nil => exact ⟨[], text, rfl, rfl, rfl⟩
  | cons b rest ih =>
    rw [List.forall_mem_cons] at hbodies
    have htab : ∀ {text}, Text.Balanced text → Text.Balanced ('\t' :: text) := fun h => h
    rw [List.map_cons, heldBy]
    by_cases hgap : '\x7d' ∈ b.gap
    · -- The block is closed where the body of `b` ends.
      obtain ⟨before, behind, hsplit, hbehind⟩ := Text.exists_eq_append_cons_of_mem hgap
      rw [SourceBlock.cut_of_gap hsplit hbehind, if_pos hgap,
        tabbed_cons_of_not_blank (not_isBlankText_brace _ _)]
      refine ⟨'\t' :: b.body, before ++ (tabbed (rest.map (·.cut.body)) ++ '\x7d' :: text), ?_,
        htab hbodies.1, rfl⟩
      simp
    · obtain ⟨inside, after, htext, hbalanced, hblank⟩ := ih hbodies.2
      rw [SourceBlock.cut_of_notMem hgap, if_neg hgap]
      cases hbody : isBlankText b.body with
      | true =>
        rw [tabbed_cons_of_blank hbody, Text.withoutBlanks_append, isBlankText_iff.mp hbody]
        exact ⟨inside, after, htext, hbalanced, hblank⟩
      | false =>
        rw [tabbed_cons_of_not_blank hbody, List.cons_append, List.append_assoc, htext]
        refine ⟨'\t' :: (b.body ++ inside), after, ?_, htab (hbodies.1.append hbalanced), ?_⟩
        · simp
        · rw [withoutBlanks_cons_tab, Text.withoutBlanks_append, hblank, Text.withoutBlanks_append]

/-- What is written behind the opening of a block with the given bodies. -/
def blockRest (bodies : List Text) : Text :=
  '\n' :: '\t' :: Text.join ['\t'] (bodies.filter fun body => !isBlankText body) ++ '\x7d' :: ['\n']

theorem blockText_eq (name : Text) (bodies : List Text) :
    blockText name bodies = opening name ++ blockRest bodies := by
  simp [blockText, opening, blockRest]

theorem endsLine_blockRest (bodies : List Text) : EndsLine (blockRest bodies) := by
  rw [blockRest, endsLine_append_cons]
  rfl

theorem not_holdsCaseless_blockRest {bodies : List Text}
    (h : ∀ body ∈ bodies, ¬ HoldsCaseless keyword body) :
    ¬ HoldsCaseless keyword (blockRest bodies) := by
  have hline : ¬ HoldsCaseless keyword ['\n'] := by decide
  rw [blockRest, Text.holdsCaseless_append_cons keyword_brace, ← List.singleton_append,
    Text.holdsCaseless_append_cons keyword_tab, not_or, not_or]
  refine ⟨⟨hline, Text.not_holdsCaseless_join (by decide) keyword_tab fun body hbody => ?_⟩, hline⟩
  exact h body (List.mem_of_mem_filter hbody)

theorem exists_blockRest_eq {blocks : List SourceBlock}
    (hbodies : ∀ b ∈ blocks, Text.Balanced b.body) :
    ∃ inside after, blockRest (blocks.map (·.cut.body)) = inside ++ '\x7d' :: after ∧
      Text.Balanced inside ∧ withoutBlanks inside = withoutBlanks (heldBy blocks) := by
  obtain ⟨inside, after, htext, hbalanced, hblank⟩ := exists_tabbed_eq hbodies ['\n']
  rw [blockRest]
  by_cases hnone : ((blocks.map (·.cut.body)).filter fun body => !isBlankText body) = []
  · have hinside : inside = [] := by
      rw [tabbed, hnone] at htext
      exact (Text.Balanced.eq_of_append_cons (a := []) rfl hbalanced htext).symm
    rw [hnone]
    refine ⟨['\n', '\t'], ['\n'], rfl, by decide, ?_⟩
    rw [← hblank, hinside]
    rfl
  · rw [cons_join_tab hnone, ← tabbed, List.cons_append, htext]
    exact ⟨'\n' :: inside, after, rfl, hbalanced, hblank⟩

/-! ### Normalizing line ends -/

theorem normalizeLineEnds_opening {name : Text} (h : '\n' ∉ name) (before text : Text) :
    normalizeLineEnds (before ++ (opening name ++ text)) =
      normalizeLineEnds before ++ (opening name ++ normalizeLineEnds text) := by
  have hopening : ∀ text, opening name ++ text =
      'd' :: ((keyword.tail ++ (name ++ [' '])) ++ '\x7b' :: text) := by
    intro text
    rw [opening_append, List.append_assoc keyword.tail]
    rfl
  have hline : '\n' ∉ keyword.tail ++ (name ++ [' ']) := by
    simp only [List.mem_append, h]
    decide
  rw [hopening, hopening, normalizeLineEnds_append_cons (by decide) (by decide),
    normalizeLineEnds_append_cons (by decide) (by decide), normalizeLineEnds_eq_self (.inr hline)]

theorem balanced_normalizeLineEnds {text : Text} (h : Text.Balanced text) :
    Text.Balanced (normalizeLineEnds text) := by
  have hfilter : ∀ text, Text.depthAfter 0 (text.filter fun c => c != '\r' && c != '\n') =
      Text.depthAfter 0 text := Text.depthAfter_filter (by decide) (by decide) 0
  rw [Text.Balanced, ← hfilter, filter_normalizeLineEnds (by decide) (by decide), hfilter, h]

theorem withoutBlanks_normalizeLineEnds (text : Text) :
    withoutBlanks (normalizeLineEnds text) = withoutBlanks text :=
  filter_normalizeLineEnds (by decide) (by decide) text

theorem not_holdsCaseless_normalizeLineEnds {text : Text} (h : ¬ HoldsCaseless keyword text) :
    ¬ HoldsCaseless keyword (normalizeLineEnds text) := fun hholds =>
  h (holdsCaseless_of_normalizeLineEnds keyword_newline hholds)

theorem EndsLine.cons_normalizeLineEnds {c : Char} {text : Text} (h : EndsLine (c :: text)) :
    EndsLine (c :: normalizeLineEnds text) := by
  rcases h.eq_nil_or with rfl | hline
  · exact h
  · exact EndsLine.append [c] (getLast?_normalizeLineEnds hline)

/-- Normalizing keeps the blocks of a text, with what they hold normalized. -/
theorem HasBlocks.normalizeLineEnds_block {last : Char} {before name inside text : Text}
    {found : List (Text × Text)} (hname : RegularName name) (hstart : EndsLine (last :: before))
    (hbefore : ¬ HoldsCaseless keyword before) (hbalanced : Text.Balanced inside)
    (hinside : ¬ HoldsCaseless keyword inside)
    (h : HasBlocks '\x7d' (normalizeLineEnds text) found) :
    HasBlocks last (normalizeLineEnds (before ++ (opening name ++ (inside ++ '\x7d' :: text))))
      ((name, normalizeLineEnds inside) :: found) := by
  rw [normalizeLineEnds_opening hname.newline,
    normalizeLineEnds_append_cons (by decide) (by decide)]
  exact .block hstart.cons_normalizeLineEnds (not_holdsCaseless_normalizeLineEnds hbefore)
    hname.brace hname.newline (balanced_normalizeLineEnds hbalanced)
    (not_holdsCaseless_normalizeLineEnds hinside) h

end NamespaceMerge.Declaration
