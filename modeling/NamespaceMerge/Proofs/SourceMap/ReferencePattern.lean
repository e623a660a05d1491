import Mathlib.Data.List.Basic
import NamespaceMerge.Proofs.SourceMap.ReferenceLine
import NamespaceMerge.Proofs.Text.Pattern

/-! References by their pattern. It is written for one reference over the whole text: anchored to
the start and the end of a line, with the newline behind it.

    ^[ \t]*(?://[#@][ \t]*sourceMappingURL=([^\s]+)[ \t]*
             |/\*[#@][ \t]*sourceMappingURL=([^\s*]+)[ \t]*\*/[ \t]*)$\n?

Searching a text for it comes to the same as reading the text line by line: at the start of a
reference line it takes just that line (`first?_of_referenceLine`), and elsewhere nothing
(`first?_eq_none`). So what is found and what is stripped is told by the lines of a text alone
(`readsByLine`). -/

namespace NamespaceMerge.SourceMap

open Pattern

/-! ### The pattern -/

/-- What stands between the opening of a comment and the value: `[#@][ \t]*sourceMappingURL=`. -/
def leadPattern : Pattern :=
  seq (one fun c => c == '#' || c == '@') <| seq (most isSpaceOrTab) <|
    literal "sourceMappingURL=".toList

/-- A comment with a value, which is a group of its own. -/
def commentPattern (opening : Text) (number : Nat) (accepts : Char → Bool) (closing : Pattern) :
    Pattern :=
  seq (literal opening) <| seq leadPattern <| seq (group number (atLeastOne accepts)) closing

def isValueChar (c : Char) : Bool := !isBlank c

def isBlockValueChar (c : Char) : Bool := !isBlank c && c != '*'

/-- `//`, the lead, `([^\s]+)` and `[ \t]*`. -/
def lineCommentPattern : Pattern :=
  commentPattern "//".toList 1 isValueChar (most isSpaceOrTab)

/-- `/\*`, the lead, `([^\s*]+)` and `[ \t]*\*/[ \t]*`. -/
def blockCommentPattern : Pattern :=
  commentPattern "/*".toList 2 isBlockValueChar <|
    seq (most isSpaceOrTab) <| seq (literal "*/".toList) <| most isSpaceOrTab

/-- A comment behind spaces. -/
def indentedPattern : Pattern :=
  seq (most isSpaceOrTab) (either lineCommentPattern blockCommentPattern)

/-- A comment that takes up its line: `^`, the comment behind spaces, `$`. -/
def linePattern : Pattern := seq lineStart (seq indentedPattern lineEnd)

/-- A reference, with its newline if it has one: `\n?` behind the line. -/
def referencePattern : Pattern := seq linePattern (optional (one (· == '\n')))

/-- The value of a reference that was found. -/
def valueOf (r : Reading) : Option Text := (r.group? 1).or (r.group? 2)

/-! ### What the pattern takes on a line -/

theorem takes_leadPattern {taken : Text} {groups : List (Nat × Text)} :
    leadPattern.Takes taken groups ↔ IsLead taken ∧ groups = [] := by
  constructor
  · rintro ⟨_, _, ⟨mark, hmark, rfl, rfl⟩, _, _, hrest, rfl, rfl⟩
    obtain ⟨spaces, _, ⟨hspaces, rfl⟩, _, _, hword, rfl, rfl⟩ := hrest
    obtain ⟨rfl, rfl⟩ := takes_literal.mp hword
    exact ⟨.mk (by simpa using hmark) hspaces, rfl⟩
  · rintro ⟨@⟨mark, spaces, hmark, hspaces⟩, rfl⟩
    have hone : (one fun c => c == '#' || c == '@').Takes [mark] [] :=
      ⟨mark, by simpa using hmark, rfl, rfl⟩
    have hspaces : (most isSpaceOrTab).Takes spaces [] := ⟨hspaces, rfl⟩
    exact hone.seq (hspaces.seq (takes_literal.mpr ⟨rfl, rfl⟩))

theorem takes_commentPattern {opening taken : Text} {number : Nat} {accepts : Char → Bool}
    {closing : Pattern} {groups : List (Nat × Text)} :
    (commentPattern opening number accepts closing).Takes taken groups ↔
      ∃ lead value after more, IsLead lead ∧ (value ≠ [] ∧ ∀ c ∈ value, accepts c = true) ∧
        closing.Takes after more ∧ taken = opening ++ (lead ++ (value ++ after)) ∧
        groups = (number, value) :: more := by
  constructor
  · rintro ⟨_, _, hopen, _, _, hrest, rfl, rfl⟩
    obtain ⟨rfl, rfl⟩ := takes_literal.mp hopen
    obtain ⟨lead, _, htaken, _, _, hrest, rfl, rfl⟩ := hrest
    obtain ⟨hlead, rfl⟩ := takes_leadPattern.mp htaken
    obtain ⟨value, _, ⟨_, htaken, rfl⟩, after, more, hafter, rfl, rfl⟩ := hrest
    obtain ⟨hvalue, rfl⟩ := takes_atLeastOne.mp htaken
    exact ⟨lead, value, after, more, hlead, hvalue, hafter, rfl, rfl⟩
  · rintro ⟨lead, value, after, more, hlead, hvalue, hafter, rfl, rfl⟩
    have hopen : (literal opening).Takes opening [] := takes_literal.mpr ⟨rfl, rfl⟩
    have hgroup : (group number (atLeastOne accepts)).Takes value [(number, value)] :=
      ⟨[], takes_atLeastOne.mpr ⟨hvalue, rfl⟩, rfl⟩
    exact hopen.seq ((takes_leadPattern.mpr ⟨hlead, rfl⟩).seq (hgroup.seq hafter))

theorem isValue_iff {value : Text} :
    (value ≠ [] ∧ ∀ c ∈ value, isValueChar c = true) ↔ IsValue value := by
  simp only [isValueChar, Bool.not_eq_true']
  exact ⟨fun ⟨hne, hall⟩ => ⟨hne, hall⟩, fun ⟨hne, hall⟩ => ⟨hne, hall⟩⟩

theorem isBlockValue_iff {value : Text} :
    (value ≠ [] ∧ ∀ c ∈ value, isBlockValueChar c = true) ↔ IsValue value ∧ '*' ∉ value := by
  simp only [← isValue_iff, isValueChar, isBlockValueChar, Bool.and_eq_true, bne_iff_ne, and_assoc,
    forall_and, and_congr_right_iff]
  intro _ _
  exact ⟨fun h hmem => h _ hmem rfl, fun h c hc heq => h (heq ▸ hc)⟩

/-- What the pattern takes up to the end of a line is a reference line. -/
theorem referenceLine_of_takes {taken : Text} {groups : List (Nat × Text)}
    (h : indentedPattern.Takes taken groups) :
    ∃ value, ReferenceLine taken value ∧ (groups.lookup 1).or (groups.lookup 2) = some value := by
  obtain ⟨indent, _, ⟨hindent, rfl⟩, _, _, hcomment, rfl, rfl⟩ := h
  rcases hcomment with hline | hblock
  · obtain ⟨lead, value, after, _, hlead, hvalue, ⟨hafter, rfl⟩, rfl, rfl⟩ :=
      takes_commentPattern.mp hline
    exact ⟨value, .line hindent hlead (isValue_iff.mp hvalue) hafter, rfl⟩
  · obtain ⟨lead, value, _, _, hlead, hvalue, hclosing, rfl, rfl⟩ := takes_commentPattern.mp hblock
    obtain ⟨inside, _, ⟨hinside, rfl⟩, _, _, hclosing, rfl, rfl⟩ := hclosing
    obtain ⟨_, _, hstar, after, _, ⟨hafter, rfl⟩, rfl, rfl⟩ := hclosing
    obtain ⟨rfl, rfl⟩ := takes_literal.mp hstar
    obtain ⟨hvalue, hnostar⟩ := isBlockValue_iff.mp hvalue
    exact ⟨value, .block hindent hlead hvalue hnostar hinside hafter, rfl⟩

theorem exists_takes {line value : Text} (h : ReferenceLine line value) :
    ∃ groups, indentedPattern.Takes line groups := by
  have hspaces : ∀ {text : Text}, Spaces text → (most isSpaceOrTab).Takes text [] :=
    fun h => ⟨h, rfl⟩
  cases h with
  | @line indent lead value after hindent hlead hvalue hafter =>
    have hcomment : lineCommentPattern.Takes ('/' :: '/' :: (lead ++ (value ++ after)))
        [(1, value)] :=
      takes_commentPattern.mpr ⟨lead, value, after, [], hlead, isValue_iff.mpr hvalue,
        hspaces hafter, rfl, rfl⟩
    exact ⟨_, (hspaces hindent).seq (.inl hcomment)⟩
  | @block indent lead value inside after hindent hlead hvalue hstar hinside hafter =>
    have hclose : (literal "*/".toList).Takes "*/".toList [] := takes_literal.mpr ⟨rfl, rfl⟩
    have hcomment : blockCommentPattern.Takes
        ('/' :: '*' :: (lead ++ (value ++ (inside ++ '*' :: '/' :: after)))) [(2, value)] :=
      takes_commentPattern.mpr ⟨lead, value, _, [], hlead,
        isBlockValue_iff.mpr ⟨hvalue, hstar⟩, (hspaces hinside).seq (hclose.seq (hspaces hafter)),
        rfl, rfl⟩
    exact ⟨_, (hspaces hindent).seq (.inr hcomment)⟩

theorem plain_indentedPattern : indentedPattern.plain = true := rfl

theorem mem_readings_linePattern {previous : Option Char} (hprevious : StartsLine previous)
    {text : Text} {r : Reading} :
    r ∈ linePattern.readings previous text ↔
      indentedPattern.Takes r.taken r.groups ∧ text = r.taken ++ r.rest ∧ BehindLine r.rest := by
  rw [linePattern, readings_seq_lineStart hprevious, mem_readings_seq]
  constructor
  · rintro ⟨s, hs, t, ht, rfl⟩
    obtain ⟨hend, rfl⟩ := mem_readings_lineEnd.mp ht
    obtain ⟨htakes, htext⟩ := (mem_readings_iff plain_indentedPattern).mp hs
    simp only [Reading.append, List.append_nil]
    exact ⟨htakes, htext, hend⟩
  · rintro ⟨htakes, htext, hend⟩
    refine ⟨r, (mem_readings_iff plain_indentedPattern).mpr ⟨htakes, htext⟩, ⟨[], r.rest, []⟩,
      mem_readings_lineEnd.mpr ⟨hend, rfl⟩, ?_⟩
    simp only [Reading.append, List.append_nil]

/-! ### A line of a text -/

/-- A text is cut in one way into a line and what follows it. -/
theorem line_append_inj {a b c d : Text} (ha : '\n' ∉ a) (hb : BehindLine b) (hc : '\n' ∉ c)
    (hd : BehindLine d) (h : a ++ b = c ++ d) : a = c ∧ b = d := by
  have hline : ∀ {line rest : Text}, '\n' ∉ line → BehindLine rest →
      (line ++ rest).takeWhile (· != '\n') = line := fun hline hrest => by
    refine takeWhile_append_of_head? (fun c hc => ?_) (fun c hc => ?_)
    · rw [bne_iff_ne]
      rintro rfl
      exact hline hc
    · rw [BehindLine, hc] at hrest
      simpa using hrest
  have hac : a = c := by rw [← hline ha hb, h, hline hc hd]
  subst hac
  exact ⟨rfl, List.append_cancel_left h⟩

/-- A reading of a line takes the whole line, which is a reference line. -/
theorem of_mem_readings_linePattern {previous : Option Char}
    (hprevious : StartsLine previous) {line rest : Text} (hline : '\n' ∉ line)
    (hrest : BehindLine rest) {r : Reading}
    (hr : r ∈ linePattern.readings previous (line ++ rest)) :
    r.taken = line ∧ r.rest = rest ∧
      ∃ value, ReferenceLine line value ∧ valueOf r = some value := by
  obtain ⟨htakes, htext, hend⟩ := (mem_readings_linePattern hprevious).mp hr
  obtain ⟨value, href, hvalue⟩ := referenceLine_of_takes htakes
  obtain ⟨rfl, rfl⟩ := line_append_inj hline hrest href.newline_notMem hend htext
  exact ⟨rfl, rfl, value, href, hvalue⟩

/-- At the start of a reference line the pattern takes the line, with its newline. -/
theorem first?_of_referenceLine {previous : Option Char} (hprevious : StartsLine previous)
    {line value rest : Text} (h : ReferenceLine line value) (hrest : BehindLine rest) :
    ∃ r, referencePattern.first? previous (line ++ rest) = some r ∧
      r.taken = line ++ rest.take 1 ∧ r.rest = rest.drop 1 ∧ valueOf r = some value := by
  obtain ⟨groups, htakes⟩ := exists_takes h
  have hmem : (⟨line, rest, groups⟩ : Reading) ∈ linePattern.readings previous (line ++ rest) :=
    (mem_readings_linePattern hprevious).mpr ⟨htakes, rfl, hrest⟩
  -- Other readings may come first, but they all take this line, for this value.
  obtain ⟨s, others, hreadings⟩ := List.exists_cons_of_ne_nil (List.ne_nil_of_mem hmem)
  obtain ⟨hsline, hsrest, value', h', hvalue⟩ := of_mem_readings_linePattern hprevious
    h.newline_notMem hrest (hreadings ▸ List.mem_cons_self)
  obtain rfl := h.value_unique h'
  obtain ⟨more, hnewline⟩ : ∃ more,
      (optional (one (· == '\n'))).readings (s.last? previous) s.rest =
        ⟨rest.take 1, rest.drop 1, []⟩ :: more := by
    rw [hsrest]
    cases rest with
    | nil => exact ⟨[], rfl⟩
    | cons c rest =>
      obtain rfl := hrest.eq_newline
      exact ⟨_, rfl⟩
  refine ⟨⟨line ++ rest.take 1, rest.drop 1, s.groups⟩, ?_, rfl, rfl, hvalue⟩
  rw [first?, referencePattern, readings, hreadings, List.flatMap_cons, hnewline, List.map_cons,
    List.cons_append, List.find?_cons_of_pos]
  · rw [Reading.append, hsline, List.append_nil]
  · simp [Reading.append, hsline, h.ne_nil]

/-- At the start of another line it takes nothing. -/
theorem first?_eq_none {previous : Option Char} (hprevious : StartsLine previous)
    {line rest : Text} (h : ¬ IsReferenceLine line) (hline : '\n' ∉ line)
    (hrest : BehindLine rest) :
    referencePattern.first? previous (line ++ rest) = none := by
  have hreadings : linePattern.readings previous (line ++ rest) = [] := by
    rw [List.eq_nil_iff_forall_not_mem]
    intro r hr
    obtain ⟨-, -, value, href, -⟩ := of_mem_readings_linePattern hprevious hline hrest hr
    exact h ⟨value, href⟩
  rw [first?, referencePattern, readings, hreadings, List.flatMap_nil, List.find?_nil]

theorem anchored_referencePattern : Anchored referencePattern :=
  (anchored_seq_lineStart _).seq _

/-! ### The search line by line -/

theorem pieces_of_referenceLine {previous : Option Char} (hprevious : StartsLine previous)
    {line value rest : Text} (h : ReferenceLine line value) (hrest : BehindLine rest)
    (offset : Nat) :
    ∃ r, r.taken = line ++ rest.take 1 ∧ valueOf r = some value ∧
      referencePattern.pieces previous offset 0 (line ++ rest) =
        .found offset r ::
          referencePattern.pieces (some '\n') (offset + line.length + 1) 0 (rest.drop 1) := by
  obtain ⟨r, hfirst, htaken, hleft, hvalue⟩ := first?_of_referenceLine hprevious h hrest
  refine ⟨r, htaken, hvalue, ?_⟩
  rw [pieces_of_first? hfirst, Reading.last?, htaken, hleft, pieces_next_line hrest]

theorem pieces_of_not_isReferenceLine {previous : Option Char}
    (hprevious : StartsLine previous) {line rest : Text} (h : ¬ IsReferenceLine line)
    (hline : '\n' ∉ line) (hrest : BehindLine rest) (offset : Nat) :
    referencePattern.pieces previous offset 0 (line ++ rest) =
      (line ++ rest.take 1).map .other ++
        referencePattern.pieces (some '\n') (offset + line.length + 1) 0 (rest.drop 1) :=
  anchored_referencePattern.pieces_line hline hrest (first?_eq_none hprevious h hline hrest) offset

/-- The lines of a text that are no references. -/
def otherLines (text : Text) : List PlacedLine :=
  (Text.placedLines text).filter fun line => ¬ IsReferenceLine line.content

theorem flatMap_full_filter (lines : List PlacedLine) :
    (lines.filter fun line => ¬ IsReferenceLine line.content).flatMap PlacedLine.full =
      lines.flatMap fun line => if isReference line.content then [] else line.full := by
  induction lines with
  | nil => rfl
  | cons line lines ih =>
    rw [List.flatMap_cons, ← ih]
    cases href : isReference line.content with
    | true => rw [List.filter_cons_of_neg (by simpa using isReference_iff.mp href), if_pos rfl,
        List.nil_append]
    | false => rw [List.filter_cons_of_pos (by simpa using isReference_eq_false_iff.mp href),
        if_neg Bool.false_ne_true, List.flatMap_cons]

/-- Removing what is found removes the reference lines. -/
theorem removeAll_referencePattern (text : Text) :
    referencePattern.removeAll text = (otherLines text).flatMap PlacedLine.full := by
  rw [otherLines, flatMap_full_filter]
  apply filterMap_pieces
  intro previous line rest hprevious hline hrest offset
  cases href : isReference line with
  | true =>
    obtain ⟨value, h⟩ := isReference_iff.mp href
    obtain ⟨r, -, -, hpieces⟩ := pieces_of_referenceLine hprevious h hrest offset
    rw [hpieces, List.filterMap_cons_none rfl, if_pos rfl, List.nil_append]
  | false =>
    rw [pieces_of_not_isReferenceLine hprevious (isReference_eq_false_iff.mp href) hline hrest,
      List.filterMap_append, filterMap_other?_map, if_neg Bool.false_ne_true, PlacedLine.full]

/-- What is found on a line that starts at its place: the whole line, with its value. -/
def matchOn? (line : PlacedLine) : Option (Nat × Text × Option Text) :=
  (referenceValue? line.content).map fun value => (line.start, line.full, some value)

/-- What is found in a text are its reference lines, one by one. -/
theorem map_findAll (text : Text) :
    (referencePattern.findAll text).map (fun found => (found.1, found.2.taken, valueOf found.2)) =
      (Text.placedLines text).filterMap matchOn? := by
  rw [findAll, List.map_filterMap, List.filterMap_eq_flatMap_toList (f := matchOn?)]
  apply filterMap_pieces
  intro previous line rest hprevious hline hrest offset
  cases hvalue : referenceValue? line with
  | some value =>
    obtain ⟨r, htaken, hr, hpieces⟩ := pieces_of_referenceLine hprevious
      (referenceValue?_eq_some_iff.mp hvalue) hrest offset
    rw [hpieces, List.filterMap_cons]
    simp [Piece.found?, matchOn?, hvalue, htaken, hr, PlacedLine.full]
  | none =>
    rw [pieces_of_not_isReferenceLine hprevious (referenceValue?_eq_none_iff.mp hvalue) hline
      hrest, List.filterMap_append, filterMap_found?_map, matchOn?, hvalue]
    rfl

/-- The values of what is found are the values of the reference lines. -/
theorem map_valueOf_findAll (text : Text) :
    (referencePattern.findAll text).map (fun found => valueOf found.2) =
      (text.lines.filterMap referenceValue?).map some := by
  have hvalues := congrArg (List.map fun found => found.2.2) (map_findAll text)
  rw [List.map_map, List.map_filterMap] at hvalues
  rw [← Text.map_content_placedLines, List.filterMap_map, List.map_filterMap]
  refine hvalues.trans (List.filterMap_congr fun line _ => ?_)
  rw [matchOn?, Option.map_map]
  rfl

/-! ### The lines of a text, and what is found and stripped -/

theorem joinOthers_eq_flatMap (offset : Nat) (lines : List Text) :
    joinOthers lines = (Text.placedFrom offset lines).flatMap fun line =>
      if isReference line.content then [] else line.full := by
  induction lines generalizing offset with
  | nil => rfl
  | cons line rest ih =>
    cases rest with
    | nil => simp [joinOthers, Text.placedFrom, PlacedLine.full]
    | cons next rest =>
      rw [joinOthers_cons _ (List.cons_ne_nil _ _), Text.placedFrom, List.flatMap_cons, ih]
      rfl

/-- Stripping leaves the other lines, each with its newline. -/
theorem stripReferences_eq_flatMap (text : Text) :
    stripReferences text = (otherLines text).flatMap PlacedLine.full := by
  rw [otherLines, flatMap_full_filter, Text.placedLines, ← joinOthers_eq_flatMap, stripReferences]

theorem findReference_eq_none_iff {text : Text} :
    findReference text = none ↔ ∀ line ∈ text.lines, ¬ IsReferenceLine line := by
  simp only [findReference, List.getLast?_eq_none_iff, List.filterMap_eq_nil_iff,
    referenceValue?_eq_none_iff]

/-- The last reference line of a text has its value. -/
theorem findReference_eq_some_iff {text value : Text} :
    findReference text = some value ↔
      ∃ front line back, text.lines = front ++ line :: back ∧ ReferenceLine line value ∧
        ∀ other ∈ back, ¬ IsReferenceLine other := by
  rw [findReference, List.getLast?_filterMap, List.findSome?_eq_some_iff]
  constructor
  · rintro ⟨back, line, front, hlines, hvalue, hback⟩
    refine ⟨front.reverse, line, back.reverse, ?_, referenceValue?_eq_some_iff.mp hvalue, ?_⟩
    · rw [← List.reverse_reverse text.lines, hlines]
      simp
    · intro other hother
      exact referenceValue?_eq_none_iff.mp (hback other (List.mem_reverse.mp hother))
  · rintro ⟨front, line, back, hlines, hvalue, hback⟩
    refine ⟨back.reverse, line, front.reverse, ?_, referenceValue?_eq_some_iff.mpr hvalue, ?_⟩
    · rw [hlines]
      simp
    · intro other hother
      exact referenceValue?_eq_none_iff.mpr (hback other (List.mem_reverse.mp hother))

theorem findReference_stripReferences (text : Text) : findReference (stripReferences text) = none :=
  findReference_eq_none fun _ => not_isReference_of_mem_lines

theorem stripReferences_eq_self_iff {text : Text} :
    stripReferences text = text ↔ findReference text = none := by
  constructor
  · intro h
    rw [← h]
    exact findReference_stripReferences text
  · intro h
    refine stripReferences_of_none fun line hline => ?_
    exact isReference_eq_false_iff.mpr (findReference_eq_none_iff.mp h line hline)

/-- What is found and what is stripped, by the pattern and by the lines of a text. -/
structure ReadsByLine (text : Text) : Prop where
  /-- What a search for the pattern finds: its offset, what it takes, and its value. -/
  matched : (referencePattern.findAll text).map
      (fun found => (found.1, found.2.taken, valueOf found.2)) =
    (Text.placedLines text).filterMap matchOn?
  /-- The last value that a search for the pattern finds. -/
  found_pattern :
    ((referencePattern.findAll text).map fun found => valueOf found.2).getLast?.join =
      findReference text
  /-- The text without what a search for the pattern finds. -/
  stripped_pattern : referencePattern.removeAll text = stripReferences text
  found : ∀ value, findReference text = some value ↔
    ∃ front line back, text.lines = front ++ line :: back ∧ ReferenceLine line value ∧
      ∀ other ∈ back, ¬ IsReferenceLine other
  notFound : findReference text = none ↔ ∀ line ∈ text.lines, ¬ IsReferenceLine line
  /-- The lines of the text with their newlines, and those that are left. -/
  stripped : (Text.placedLines text).flatMap PlacedLine.full = text ∧
    stripReferences text = (otherLines text).flatMap PlacedLine.full
  found_stripped : findReference (stripReferences text) = none
  stripped_stripped : stripReferences (stripReferences text) = stripReferences text
  unchanged : stripReferences text = text ↔ findReference text = none

/-- The references of a text are its reference lines. -/
theorem readsByLine (text : Text) : ReadsByLine text where
  matched := map_findAll text
  found_pattern := by
    rw [map_valueOf_findAll, List.getLast?_map, ← findReference]
    cases findReference text <;> rfl
  stripped_pattern := by rw [removeAll_referencePattern, stripReferences_eq_flatMap]
  found := fun _ => findReference_eq_some_iff
  notFound := findReference_eq_none_iff
  stripped := ⟨Text.flatMap_full_placedLines text, stripReferences_eq_flatMap text⟩
  found_stripped := findReference_stripReferences text
  stripped_stripped := stripReferences_stripReferences text
  unchanged := stripReferences_eq_self_iff

end NamespaceMerge.SourceMap
