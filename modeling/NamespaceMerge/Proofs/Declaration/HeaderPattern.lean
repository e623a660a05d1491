import Mathlib.Data.List.Basic
import NamespaceMerge.Proofs.Declaration.Chunk
import NamespaceMerge.Proofs.Declaration.HeaderLine
import NamespaceMerge.Proofs.Declaration.Source
import NamespaceMerge.Proofs.Text.Pattern

/-! Header lines by their pattern, which is written for one header over the whole text:

    ^(.*?)declare (namespace) (.*?)\{

It takes the shortest front and the shortest name that it can, and letters in either case. On a
line that is the header of the line (`first?_headerPattern`): the first keyword counts, even if the
pattern would go on to a later one, since no brace stands behind a later keyword unless one stands
behind the first. So a search of a text for the pattern finds its headers
(`map_findAll_headerPattern`). -/

namespace NamespaceMerge

namespace Text

theorem dropCaseless?_append (a b text : Text) :
    dropCaseless? (a ++ b) text = (dropCaseless? a text).bind (dropCaseless? b) := by
  induction a generalizing text with
  | nil => rfl
  | cons letter a ih =>
    cases text with
    | nil => rfl
    | cons c text =>
      rw [List.cons_append, dropCaseless?, dropCaseless?]
      split
      · exact ih text
      · rfl

/-- A word that matches no newline does not reach behind its line. -/
theorem dropCaseless?_append_line {word : Text}
    (hword : ∀ letter ∈ word, matchesCaseless letter '\n' = false) (line : Text) {rest : Text}
    (hrest : Pattern.BehindLine rest) :
    dropCaseless? word (line ++ rest) =
      (dropCaseless? word line).map (· ++ rest) := by
  induction word generalizing line with
  | nil => rfl
  | cons letter word ih =>
    rw [List.forall_mem_cons] at hword
    cases line with
    | nil =>
      cases rest with
      | nil => rfl
      | cons c rest =>
        obtain rfl := hrest.eq_newline
        simp only [List.nil_append, dropCaseless?, hword.1, Bool.false_eq_true, if_false,
          Option.map_none]
    | cons c line =>
      rw [List.cons_append, dropCaseless?, dropCaseless?]
      split
      · exact ih hword.2 line
      · rfl

end Text

namespace Declaration

open Pattern

/-! ### The pattern -/

/-- Any character but a newline. -/
def dot (c : Char) : Bool := c != '\n'

/-- The name up to the brace: `(.*?)\x7b`. -/
def namePattern : Pattern := seq (group 3 (fewest dot)) (literal ['\x7b'])

/-- The keyword in any case, with the kind of block as a group, and the name. -/
def keywordPattern : Pattern :=
  seq (caseless "declare ".toList) <| seq (group 2 (caseless "namespace".toList)) <|
    seq (caseless " ".toList) namePattern

/-- The keyword behind any front: `(.*?)` and the keyword. -/
def frontPattern : Pattern := seq (group 1 (fewest dot)) keywordPattern

/-- A header line up to its brace: `^` and the rest. -/
def headerPattern : Pattern := seq lineStart frontPattern

/-! ### The first reading -/

/-- What the first reading of a text leaves, and what it keeps as the name. -/
def outcome? (p : Pattern) (text : Text) : Option (Text × Option Text) :=
  (p.readings none text).head?.map fun r => (r.rest, r.group? 3)

/-- A word in any case is read in one way, if it stands at the start of the text. -/
theorem readings_caseless (word : Text) (previous : Option Char) (text : Text) :
    (caseless word).readings previous text =
      (Text.dropCaseless? word text).toList.map fun rest => ⟨text.take word.length, rest, []⟩ := by
  induction word generalizing previous text with
  | nil => rfl
  | cons letter word ih =>
    change (seq (one (matchesCaseless letter)) (caseless word)).readings previous text = _
    cases text with
    | nil => rfl
    | cons c text =>
      rw [readings, readings, Text.dropCaseless?]
      split
      · rw [List.flatMap_singleton, ih]
        cases Text.dropCaseless? word text <;> rfl
      · rfl

theorem readings_group_caseless (number : Nat) (word : Text) (previous : Option Char)
    (text : Text) :
    (group number (caseless word)).readings previous text =
      (Text.dropCaseless? word text).toList.map fun rest =>
        ⟨text.take word.length, rest, [(number, text.take word.length)]⟩ := by
  rw [readings, readings_caseless, List.map_map]
  rfl

theorem readings_group_fewest (number : Nat) (accepts : Char → Bool) (previous : Option Char)
    (text : Text) :
    (group number (fewest accepts)).readings previous text =
      (runs accepts text).map fun run => ⟨run.1, run.2, [(number, run.1)]⟩ := by
  rw [readings, readings, List.map_map]
  rfl

/-- The outcome behind readings that do not keep a name: that of the first of them behind which
the pattern goes on. -/
theorem outcome?_seq {α : Type} {p q : Pattern} (hq : q.plain = true) {text : Text} {l : List α}
    {g : α → Reading} (h : p.readings none text = l.map g) (hg : ∀ a, (g a).group? 3 = none) :
    outcome? (seq p q) text = l.findSome? fun a => outcome? q (g a).rest := by
  rw [outcome?, readings, h, List.flatMap_map, List.head?_flatMap, List.map_findSome?]
  congr 1
  funext a
  have hgroup : ∀ s : Reading, ((g a).append s).group? 3 = s.group? 3 := fun s => by
    rw [Reading.group?, Reading.append, List.lookup_append, ← Reading.group?, hg]
    rfl
  rw [Function.comp_apply, List.head?_map, Option.map_map, outcome?,
    readings_of_plain hq _ none]
  congr 1
  funext s
  exact congrArg (Prod.mk s.rest) (hgroup s)

theorem outcome?_seq_word {p q : Pattern} (hq : q.plain = true) {word text : Text}
    {g : Text → Reading}
    (h : p.readings none text = (Text.dropCaseless? word text).toList.map g)
    (hg : ∀ rest, (g rest).rest = rest ∧ (g rest).group? 3 = none) :
    outcome? (seq p q) text = (Text.dropCaseless? word text).bind (outcome? q) := by
  rw [outcome?_seq hq h fun rest => (hg rest).2]
  cases Text.dropCaseless? word text with
  | none => rfl
  | some rest =>
    rw [Option.toList_some, List.findSome?_singleton, (hg rest).1]
    rfl

theorem outcome?_seq_caseless {q : Pattern} (hq : q.plain = true) (word text : Text) :
    outcome? (seq (caseless word) q) text = (Text.dropCaseless? word text).bind (outcome? q) :=
  outcome?_seq_word hq (readings_caseless word none text) fun _ => ⟨rfl, rfl⟩

theorem outcome?_seq_group_caseless {q : Pattern} (hq : q.plain = true) (word text : Text) :
    outcome? (seq (group 2 (caseless word)) q) text =
      (Text.dropCaseless? word text).bind (outcome? q) :=
  outcome?_seq_word hq (readings_group_caseless 2 word none text) fun _ => ⟨rfl, rfl⟩

/-- The shortest front is taken behind which the pattern can be read. -/
theorem outcome?_seq_group_fewest {q : Pattern} (hq : q.plain = true) (text : Text) :
    outcome? (seq (group 1 (fewest dot)) q) text =
      (runs dot text).findSome? fun run => outcome? q run.2 :=
  outcome?_seq hq (readings_group_fewest 1 dot none text) fun _ => rfl

/-! ### What the pattern reads on a line -/

/-- What is left behind a name that ends here, and the name. -/
def closed? (run : Text × Text) : Option (Text × Option Text) :=
  match run.2 with
  | [] => none
  | c :: rest => if c = '\x7b' then some (rest, some run.1) else none

theorem closed?_cons (c : Char) (run : Text × Text) :
    closed? (c :: run.1, run.2) =
      (closed? run).map fun (rest, name) => (rest, name.map (c :: ·)) := by
  obtain ⟨taken, rest⟩ := run
  cases rest with
  | nil => rfl
  | cons d rest =>
    simp only [closed?]
    split <;> rfl

theorem outcome?_namePattern (text : Text) :
    outcome? namePattern text = (runs dot text).findSome? closed? := by
  rw [outcome?, namePattern, readings, readings_group_fewest, List.flatMap_map,
    List.head?_flatMap, List.map_findSome?]
  congr 1
  funext ⟨taken, rest⟩
  cases rest with
  | nil => rfl
  | cons c rest =>
    have hbrace : (literal ['\x7b']).readings (Reading.last? ⟨taken, c :: rest, [(3, taken)]⟩ none)
        (c :: rest) = if c = '\x7b' then [⟨['\x7b'], rest, []⟩] else [] := by
      simp only [literal, List.foldr_cons, List.foldr_nil, readings, beq_iff_eq]
      split
      · next hc =>
        rw [hc]
        rfl
      · rfl
    simp only [Function.comp_apply, hbrace, closed?]
    split <;> rfl

/-- The name ends at the first brace behind it, on its line. -/
theorem findSome?_closed? {line rest : Text} (hline : '\n' ∉ line) (hrest : BehindLine rest) :
    (runs dot (line ++ rest)).findSome? closed? =
      (Text.splitOnce '\x7b' line).map fun (name, after) => (after ++ rest, some name) := by
  induction line with
  | nil =>
    cases rest with
    | nil => rfl
    | cons c rest =>
      obtain rfl := hrest.eq_newline
      rw [List.nil_append, findSome?_runs_cons]
      rfl
  | cons c line ih =>
    rw [List.mem_cons, not_or] at hline
    have hdot : dot c = true := bne_iff_ne.mpr (Ne.symm hline.1)
    rw [List.cons_append, findSome?_runs_cons, if_pos hdot, Text.splitOnce]
    by_cases hc : c = '\x7b'
    · simp [closed?, hc]
    · have hmore := congrArg (Option.map fun (rest, name) => (rest, name.map (c :: ·)))
        (ih hline.2)
      rw [List.map_findSome?] at hmore
      have hfirst : closed? ([], c :: (line ++ rest)) = none := if_neg hc
      simp only [closed?_cons]
      rw [if_neg hc, hfirst, Option.none_or]
      refine hmore.trans ?_
      cases Text.splitOnce '\x7b' line <;> rfl

theorem outcome?_keywordPattern (text : Text) :
    outcome? keywordPattern text =
      (Text.dropCaseless? keyword text).bind (outcome? namePattern) := by
  have hkeyword : keyword = "declare ".toList ++ ("namespace".toList ++ " ".toList) := by
    decide +kernel
  rw [hkeyword, Text.dropCaseless?_append, Option.bind_assoc, keywordPattern,
    outcome?_seq_caseless rfl]
  congr 1
  funext text
  rw [Text.dropCaseless?_append, Option.bind_assoc, outcome?_seq_group_caseless rfl]
  congr 1
  funext text
  exact outcome?_seq_caseless rfl _ _

theorem keyword_openBrace : ∀ letter ∈ keyword, matchesCaseless letter '\x7b' = false :=
  keyword_free_of_all (by decide)

/-- A keyword at the start of the text, and a brace on its line. -/
theorem outcome?_keywordPattern_line {line rest : Text} (hline : '\n' ∉ line)
    (hrest : BehindLine rest) :
    outcome? keywordPattern (line ++ rest) =
      ((Text.dropCaseless? keyword line).bind (Text.splitOnce '\x7b')).map
        fun (name, after) => (after ++ rest, some name) := by
  rw [outcome?_keywordPattern, Text.dropCaseless?_append_line keyword_newline line hrest]
  cases hdrop : Text.dropCaseless? keyword line with
  | none => rfl
  | some after =>
    obtain ⟨part, -, rfl⟩ := Text.dropCaseless?_eq_some_iff.mp hdrop
    rw [List.mem_append, not_or] at hline
    rw [Option.map_some, Option.bind_some, Option.bind_some, outcome?_namePattern,
      findSome?_closed? hline.2 hrest]

theorem Header.ofLine?_eq_bind (line : Text) :
    Header.ofLine? line = (Text.splitCaseless? keyword line).bind fun parts =>
      (Text.splitOnce '\x7b' parts.2).map fun inner => ⟨parts.1, inner.1, inner.2⟩ := by
  rw [Header.ofLine?, Option.bind_eq_bind]
  congr 1
  funext parts
  exact Option.map_eq_bind.symm

theorem Header.ofLine?_eq_none_of_notMem {line : Text} (h : '\x7b' ∉ line) :
    Header.ofLine? line = none := by
  rw [Option.eq_none_iff_forall_ne_some]
  intro header hheader
  obtain ⟨part, -, hparts, -⟩ := Header.exists_line_eq hheader
  rw [hparts] at h
  simp at h

/-- The first keyword with a brace behind it on its line is the first keyword, so that the pattern
reads the header of a line, and nothing on other lines. -/
theorem findSome?_keywordPattern {line rest : Text} (hline : '\n' ∉ line)
    (hrest : BehindLine rest) :
    ((runs dot (line ++ rest)).findSome? fun run => outcome? keywordPattern run.2) =
      (Header.ofLine? line).map fun h => (h.rest ++ rest, some h.name) := by
  induction line with
  | nil =>
    have hfirst := outcome?_keywordPattern_line hline hrest
    have hdrop : Text.dropCaseless? keyword [] = none := by decide +kernel
    have hnone : Header.ofLine? [] = none := by decide +kernel
    rw [hdrop, Option.bind_none, Option.map_none, List.nil_append] at hfirst
    rw [List.nil_append, hnone, Option.map_none]
    cases rest with
    | nil => simpa [runs] using hfirst
    | cons c rest =>
      obtain rfl := hrest.eq_newline
      rw [findSome?_runs_cons, hfirst]
      rfl
  | cons c line ih =>
    have hfirst := outcome?_keywordPattern_line hline hrest
    rw [List.mem_cons, not_or] at hline
    have hdot : dot c = true := bne_iff_ne.mpr (Ne.symm hline.1)
    rw [List.cons_append, findSome?_runs_cons, if_pos hdot, ih hline.2, ← List.cons_append, hfirst]
    cases hdrop : Text.dropCaseless? keyword (c :: line) with
    | some after =>
      have hheader : Header.ofLine? (c :: line) =
          (Text.splitOnce '\x7b' after).map fun inner => ⟨[], inner.1, inner.2⟩ := by
        rw [Header.ofLine?_eq_bind, Text.splitCaseless?_of_dropCaseless? hdrop]
        rfl
      rw [hheader, Option.bind_some]
      cases hsplit : Text.splitOnce '\x7b' after with
      | some parts => rfl
      | none =>
        -- Without a brace behind the first keyword there is none behind a later one.
        obtain ⟨part, hpart, hparts⟩ := Text.dropCaseless?_eq_some_iff.mp hdrop
        have hbrace : '\x7b' ∉ c :: line := by
          rw [hparts, List.mem_append, not_or]
          exact ⟨hpart.notMem keyword_openBrace, Text.splitOnce_eq_none_iff.mp hsplit⟩
        rw [List.mem_cons, not_or] at hbrace
        rw [Header.ofLine?_eq_none_of_notMem hbrace.2]
        rfl
    | none =>
      have hheader : Header.ofLine? (c :: line) =
          (Header.ofLine? line).map fun h => { h with before := c :: h.before } := by
        rw [Header.ofLine?_eq_bind, Header.ofLine?_eq_bind, Text.splitCaseless?, hdrop,
          Option.bind_map, Option.map_bind]
        congr 1
        funext parts
        simp only [Function.comp_apply]
        cases Text.splitOnce '\x7b' parts.2 with
        | none => rfl
        | some inner => rfl
      rw [hheader, Option.bind_none, Option.map_none, Option.none_or, Option.map_map]
      rfl

theorem ne_nil_of_takes_frontPattern {taken : Text} {groups : List (Nat × Text)}
    (h : frontPattern.Takes taken groups) : taken ≠ [] := by
  obtain ⟨front, _, _, _, _, ⟨_, _, hdeclare, _, _, _, rfl, rfl⟩, rfl, rfl⟩ := h
  obtain ⟨_, _, ⟨c, _, rfl, _⟩, more, _, _, rfl, rfl⟩ := hdeclare
  simp

/-- At the start of a line the pattern reads the header of the line. -/
theorem first?_headerPattern {previous : Option Char} (hprevious : StartsLine previous)
    {line rest : Text} (hline : '\n' ∉ line) (hrest : BehindLine rest) :
    ((headerPattern.first? previous (line ++ rest)).map fun r => (r.rest, r.group? 3)) =
      (Header.ofLine? line).map fun h => (h.rest ++ rest, some h.name) := by
  have hplain : frontPattern.plain = true := rfl
  have hhead : headerPattern.first? previous (line ++ rest) =
      (frontPattern.readings none (line ++ rest)).head? := by
    rw [first?, headerPattern, readings_seq_lineStart hprevious,
      readings_of_plain hplain previous none]
    cases hreadings : frontPattern.readings none (line ++ rest) with
    | nil => rfl
    | cons r others =>
      have htakes := ((mem_readings_iff hplain).mp (hreadings ▸ List.mem_cons_self)).1
      rw [List.head?_cons, List.find?_cons_of_pos]
      simpa using ne_nil_of_takes_frontPattern htakes
  rw [hhead, ← outcome?, frontPattern, outcome?_seq_group_fewest rfl,
    findSome?_keywordPattern hline hrest]

/-! ### The search line by line -/

theorem anchored_headerPattern : Anchored headerPattern := anchored_seq_lineStart frontPattern

theorem pieces_of_header {previous : Option Char} (hprevious : StartsLine previous)
    {line rest : Text} {h : Header} (hh : Header.ofLine? line = some h) (hline : '\n' ∉ line)
    (hrest : BehindLine rest) (offset : Nat) :
    ∃ r, r.group? 3 = some h.name ∧
      headerPattern.pieces previous offset 0 (line ++ rest) =
        .found offset r :: ((h.rest ++ rest.take 1).map .other ++
          headerPattern.pieces (some '\n') (offset + line.length + 1) 0 (rest.drop 1)) := by
  have hfirst := first?_headerPattern hprevious hline hrest
  rw [hh, Option.map_some] at hfirst
  obtain ⟨r, hr, heq⟩ := Option.map_eq_some_iff.mp hfirst
  obtain ⟨hleft, hname⟩ := Prod.mk.inj heq
  obtain ⟨part, -, hparts, hlength⟩ := Header.exists_line_eq hh
  refine ⟨r, hname, ?_⟩
  have htaken : r.taken = h.before ++ (part ++ (h.name ++ ['\x7b'])) := by
    have htext := taken_append_rest (List.mem_of_find?_eq_some hr)
    rw [hleft, hparts, List.append_assoc] at htext
    exact List.append_cancel_right htext
  have hlast : r.last? previous = some '\x7b' := by
    rw [Reading.last?, htaken]
    simp
  have hrestline : '\n' ∉ h.rest := fun hmem => hline (by rw [hparts]; simp [hmem])
  have hoffset : offset + r.taken.length + h.rest.length = offset + line.length := by
    rw [← htaken] at hparts
    rw [hparts, List.length_append, Nat.add_assoc]
  rw [pieces_of_first? hr, hlast, hleft,
    anchored_headerPattern.pieces_rest (by decide) hrestline hrest, hoffset]

theorem headersFrom_eq_filterMap (offset : Nat) (lines : List Text) :
    headersFrom offset lines = (Text.placedFrom offset lines).filterMap fun line =>
      (Header.ofLine? line.content).map fun h => (line.start, Text.trim h.name) := by
  induction lines generalizing offset with
  | nil => rfl
  | cons line rest ih =>
    cases rest with
    | nil =>
      rw [headersFrom, Text.placedFrom, List.filterMap_cons]
      cases Header.ofLine? line <;> rfl
    | cons next rest =>
      rw [headersFrom, ih, Text.placedFrom, List.filterMap_cons]
      cases Header.ofLine? line <;> rfl

/-- A search for the pattern finds the headers of a text, where their lines start. -/
theorem map_findAll_headerPattern (text : Text) :
    (headerPattern.findAll text).map
        (fun found => (found.1, (found.2.group? 3).map Text.trim)) =
      (headers text).map fun (start, name) => (start, some name) := by
  rw [headers, headersFrom_eq_filterMap, List.map_filterMap, List.filterMap_eq_flatMap_toList,
    findAll, List.map_filterMap]
  apply filterMap_pieces
  intro previous line rest hprevious hline hrest offset
  cases hheader : Header.ofLine? line with
  | some h =>
    obtain ⟨r, hname, hpieces⟩ := pieces_of_header hprevious hheader hline hrest offset
    rw [hpieces, List.filterMap_cons, List.filterMap_append, filterMap_found?_map, List.nil_append]
    simp [Piece.found?, hname]
  | none =>
    have hnone : headerPattern.first? previous (line ++ rest) = none := by
      have hfirst := first?_headerPattern hprevious hline hrest
      rwa [hheader, Option.map_none, Option.map_eq_none_iff] at hfirst
    rw [anchored_headerPattern.pieces_line hline hrest hnone,
      List.filterMap_append, filterMap_found?_map]
    rfl

end Declaration

end NamespaceMerge
