import NamespaceMerge.Proofs.Declaration.HeaderPattern

/-! What scanning a text finds. A block starts at each line with a header (`HasHeader`) and is named
by what stands between the first keyword on it and the next brace (`NamedOn`). Its lines go on up
to the next block, so that the blocks are the text from the first header on (`scansByLine`). -/

namespace NamespaceMerge.Declaration

/-! ### Lines with a header -/

/-- A line with the keyword, and a brace somewhere behind it. -/
def HasHeader (line : Text) : Prop :=
  ∃ before part after, line = before ++ (part ++ after) ∧ Text.Spells keyword part ∧ '\x7b' ∈ after

/-- `name` stands between the first keyword on the line and the next brace. -/
structure NamedOn (line name : Text) : Prop where
  noBrace : '\x7b' ∉ name
  between : ∃ before part after, line = before ++ (part ++ (name ++ '\x7b' :: after)) ∧
    Text.Spells keyword part ∧
    ∀ other part', Text.Spells keyword part' → other ++ part' <+: line →
      before.length ≤ other.length

/-- No keyword stands in front of the one at which a line is split. -/
theorem length_le_of_splitCaseless? {word line before after other part : Text}
    (h : Text.splitCaseless? word line = some (before, after)) (hpart : Text.Spells word part)
    (hother : other ++ part <+: line) : before.length ≤ other.length := by
  refine Nat.le_of_not_lt fun hlt => ?_
  have hlength : (other ++ part).length = other.length + word.length := by
    rw [List.length_append, hpart.length_eq]
  have hnone : Text.splitCaseless? word (line.take (other ++ part).length) = none :=
    Text.splitCaseless?_take_of_lt h (by omega)
  rw [← List.prefix_iff_eq_take.mp hother, Text.splitCaseless?_eq_none_iff] at hnone
  exact hnone ⟨part, hpart, (List.suffix_append _ _).isInfix⟩

theorem namedOn_of_ofLine? {line : Text} {h : Header} (hh : Header.ofLine? line = some h) :
    NamedOn line h.name := by
  obtain ⟨after, hsplit, rfl, hbrace⟩ := Header.ofLine?_eq_some_iff.mp hh
  obtain ⟨part, hpart, hline⟩ := Text.splitCaseless?_eq_some hsplit
  exact {
    noBrace := hbrace
    between := ⟨h.before, part, h.rest, hline, hpart,
      fun _ _ hpart' hother => length_le_of_splitCaseless? hsplit hpart' hother⟩ }

/-- The header of a line is read off exactly if there is one. -/
theorem isHeaderLine_iff {line : Text} : isHeaderLine line = true ↔ HasHeader line := by
  rw [isHeaderLine, Option.isSome_iff_exists]
  constructor
  · rintro ⟨h, hh⟩
    obtain ⟨before, part, after, hline, hpart, -⟩ := (namedOn_of_ofLine? hh).between
    exact ⟨before, part, _, hline, hpart, by simp⟩
  · rintro ⟨other, part', after', rfl, hpart', hbrace⟩
    cases hsplit : Text.splitCaseless? keyword (other ++ (part' ++ after')) with
    | none =>
      rw [Text.splitCaseless?_eq_none_iff] at hsplit
      exact (hsplit ⟨part', hpart', other, after', List.append_assoc _ _ _⟩).elim
    | some parts =>
      obtain ⟨before, after⟩ := parts
      obtain ⟨part, hpart, hline⟩ := Text.splitCaseless?_eq_some hsplit
      have hle : before.length ≤ other.length := length_le_of_splitCaseless? hsplit hpart'
        ⟨after', List.append_assoc _ _ _⟩
      -- What stands behind a later keyword stands behind the first one.
      have hsuffix : after' <:+ after := by
        have hlength := congrArg List.length hline
        simp only [List.length_append, hpart.length_eq, hpart'.length_eq] at hlength
        have hlater : after' <:+ other ++ (part' ++ after') :=
          (List.suffix_append _ _).trans (List.suffix_append _ _)
        have hfirst : after <:+ other ++ (part' ++ after') := by
          rw [hline]
          exact (List.suffix_append _ _).trans (List.suffix_append _ _)
        exact List.suffix_of_suffix_length_le hlater hfirst (by omega)
      obtain ⟨name, rest, rfl, hname⟩ := List.eq_append_cons_of_mem (hsuffix.subset hbrace)
      exact ⟨⟨before, name, rest⟩, Header.ofLine?_eq_some_iff.mpr ⟨_, hsplit, rfl, hname⟩⟩

instance : DecidablePred HasHeader := fun _ => decidable_of_iff _ isHeaderLine_iff

/-! ### One block for each of them -/

theorem map_blocksAt (text : Text) (headers : List (Nat × Text)) :
    (blocksAt text headers).map (fun b => (b.start, b.name)) = headers := by
  induction headers with
  | nil => rfl
  | cons first rest ih =>
    cases rest with
    | nil => rfl
    | cons next rest => rw [blocksAt, List.map_cons, ih]

theorem map_scan (text : Text) : (scan text).map (fun b => (b.start, b.name)) = headers text :=
  map_blocksAt text (headers text)

/-- A block for the header on a line. -/
structure StartsAt (line : PlacedLine) (start : Nat) (name : Text) : Prop where
  start_eq : start = line.start
  named : ∃ between, NamedOn line.content between ∧ name = Text.trim between

theorem forall₂_headersFrom (offset : Nat) (lines : List Text) :
    List.Forall₂ (fun line header => StartsAt line header.1 header.2)
      ((Text.placedFrom offset lines).filter fun line => HasHeader line.content)
      (headersFrom offset lines) := by
  rw [headersFrom_eq_filterMap]
  generalize Text.placedFrom offset lines = placed
  induction placed with
  | nil => exact .nil
  | cons line placed ih =>
    cases hheader : Header.ofLine? line.content with
    | some h =>
      have hhas : HasHeader line.content := isHeaderLine_iff.mp (by rw [isHeaderLine, hheader]; rfl)
      rw [List.filter_cons_of_pos (by simpa using hhas),
        List.filterMap_cons_some (b := (line.start, Text.trim h.name)) (by rw [hheader]; rfl)]
      exact .cons ⟨rfl, h.name, namedOn_of_ofLine? hheader, rfl⟩ ih
    | none =>
      have hhas : ¬ HasHeader line.content := fun hhas => by
        rw [← isHeaderLine_iff, isHeaderLine, hheader] at hhas
        cases hhas
      rw [List.filter_cons_of_neg (by simpa using hhas),
        List.filterMap_cons_none (by rw [hheader]; rfl)]
      exact ih

theorem forall₂_scan (text : Text) :
    List.Forall₂ (fun line b => StartsAt line b.start b.name)
      ((Text.placedLines text).filter fun line => HasHeader line.content) (scan text) := by
  have hheaders := forall₂_headersFrom 0 text.lines
  rw [← headers, ← map_scan, List.forall₂_map_right_iff] at hheaders
  exact hheaders

/-! ### Where blocks end -/

/-- A block ends one character before the next one starts. -/
def EndsBefore (b next : Block) : Prop := ∃ stop, b.stop = some stop ∧ next.start = stop + 1

theorem isChain_blocksFrom (offset : Nat) (chunks : List Chunk) :
    (blocksFrom offset chunks).IsChain EndsBefore := by
  induction chunks generalizing offset with
  | nil => exact .nil
  | cons c further ih =>
    cases further with
    | nil => exact .singleton _
    | cons next further =>
      have hmore := ih (offset + (c.full (next :: further)).length)
      rw [blocksFrom] at hmore ⊢
      rw [blocksFrom]
      refine .cons_cons ⟨_, rfl, ?_⟩ hmore
      simp [Chunk.full, Nat.add_assoc]

theorem textOf_eq_join (chunks : List Chunk) :
    textOf chunks = Text.join ['\n'] (chunks.map Chunk.text) := by
  induction chunks with
  | nil => rfl
  | cons c further ih =>
    cases further with
    | nil => simp [textOf, Chunk.full, Text.join_singleton]
    | cons next further =>
      have hmore : (next :: further).map Chunk.text ≠ [] := List.cons_ne_nil _ _
      rw [textOf, ih, Chunk.full, List.isEmpty_cons, if_neg Bool.false_ne_true, List.append_assoc,
        ← Text.join_cons _ _ hmore]
      rfl

theorem stop_of_getLast?_blocksAt {text : Text} {headers : List (Nat × Text)} {b : Block}
    (h : (blocksAt text headers).getLast? = some b) : b.stop = some text.length := by
  induction headers with
  | nil => cases h
  | cons first rest ih =>
    cases rest with
    | nil =>
      cases h
      rfl
    | cons next rest =>
      obtain ⟨following, others, hmore⟩ : ∃ following others,
          blocksAt text (next :: rest) = following :: others := by
        cases rest <;> exact ⟨_, _, rfl⟩
      rw [blocksAt, hmore, List.getLast?_cons_cons, ← hmore] at h
      exact ih h

/-- The bodies of all blocks, line after line, are the text from the first header on. -/
theorem exists_bodies {text : Text} {first : Block} (h : (scan text).head? = some first) :
    ∃ bodies : List Text, (scan text).map (·.body) = bodies.map some ∧
      Text.join ['\n'] bodies = text.drop first.start := by
  have hne : scan text ≠ [] := by
    rintro hnil
    rw [hnil] at h
    cases h
  have hstart := head?_scan hne
  rw [h, Option.map_some, Option.some.injEq] at hstart
  have hdrop : text.drop first.start = textOf (chunksOf text.lines).2 := by
    rw [hstart]
    exact (congrArg (List.drop _) (eq_leadOf_append (chunks_ne_nil hne))).trans List.drop_left
  refine ⟨(chunksOf text.lines).2.map Chunk.text, ?_, ?_⟩
  · rw [map_body_scan, List.map_map]
    rfl
  · rw [hdrop, textOf_eq_join]

/-! ### The result of a scan -/

/-- What scanning a text finds, by the pattern and by the lines of the text. -/
structure ScansByLine (text : Text) : Prop where
  /-- What a search for the pattern finds, and what it keeps as the name. -/
  matched : (headerPattern.findAll text).map
      (fun found => (found.1, (found.2.group? 3).map Text.trim)) =
    (scan text).map fun b => (b.start, some b.name)
  /-- The lines of the text stand at their offsets. -/
  placed : ∀ line ∈ Text.placedLines text,
    ∃ front back, text = front ++ (line.full ++ back) ∧ front.length = line.start
  /-- One block for each line with a header, in order. -/
  entries : List.Forall₂ (fun line b => StartsAt line b.start b.name)
    ((Text.placedLines text).filter fun line => HasHeader line.content) (scan text)
  stops : (scan text).IsChain EndsBefore
  last : ∀ b, (scan text).getLast? = some b → b.stop = some text.length
  joined : ∀ first, (scan text).head? = some first →
    ∃ bodies : List Text, (scan text).map (·.body) = bodies.map some ∧
      Text.join ['\n'] bodies = text.drop first.start

/-- Scanning finds the lines with a header, and parts the text at them. -/
theorem scansByLine (text : Text) : ScansByLine text where
  matched := by
    rw [map_findAll_headerPattern, ← map_scan, List.map_map]
    rfl
  placed := fun _ => Text.exists_of_mem_placedLines
  entries := forall₂_scan text
  stops := by
    rw [scan_eq]
    exact isChain_blocksFrom _ _
  last := fun _ => stop_of_getLast?_blocksAt
  joined := fun _ => exists_bodies

end NamespaceMerge.Declaration
