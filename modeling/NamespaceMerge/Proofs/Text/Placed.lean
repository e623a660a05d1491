import NamespaceMerge.Proofs.Text.Basic

/-! The lines of a text with their places. Each line starts behind the one before it, and ends with
a newline unless it is the last one, so that the lines together are the text
(`flatMap_full_placedLines`). -/

namespace NamespaceMerge

structure PlacedLine where
  /-- The offset of its first character. -/
  start : Nat
  content : Text
  /-- The newline behind it, if there is one. -/
  ending : Text

namespace PlacedLine

def full (line : PlacedLine) : Text := line.content ++ line.ending

end PlacedLine

namespace Text

/-- The places of lines of which the first starts at `offset`. -/
def placedFrom (offset : Nat) : List Text → List PlacedLine
  | [] => []
  | [line] => [⟨offset, line, []⟩]
  | line :: next :: rest =>
    ⟨offset, line, ['\n']⟩ :: placedFrom (offset + line.length + 1) (next :: rest)

/-- The lines of a text, where they stand in it. -/
def placedLines (text : Text) : List PlacedLine := placedFrom 0 text.lines

theorem map_content_placedFrom (offset : Nat) (lines : List Text) :
    (placedFrom offset lines).map (·.content) = lines := by
  induction lines generalizing offset with
  | nil => rfl
  | cons line rest ih =>
    cases rest with
    | nil => rfl
    | cons next rest => rw [placedFrom, List.map_cons, ih]

theorem map_content_placedLines (text : Text) :
    (placedLines text).map (·.content) = text.lines := map_content_placedFrom 0 text.lines

theorem flatMap_full_placedFrom (offset : Nat) (lines : List Text) :
    (placedFrom offset lines).flatMap PlacedLine.full = join ['\n'] lines := by
  induction lines generalizing offset with
  | nil => rfl
  | cons line rest ih =>
    cases rest with
    | nil =>
      rw [join_singleton]
      simp [placedFrom, PlacedLine.full]
    | cons next rest =>
      rw [placedFrom, List.flatMap_cons, ih, join_cons _ _ (List.cons_ne_nil _ _),
        PlacedLine.full, List.append_assoc]

/-- The lines of a text with their newlines are the text. -/
theorem flatMap_full_placedLines (text : Text) :
    (placedLines text).flatMap PlacedLine.full = text := by
  rw [placedLines, flatMap_full_placedFrom, lines, join_splitAll]

theorem exists_of_mem_placedFrom {offset : Nat} {lines : List Text} {line : PlacedLine}
    (h : line ∈ placedFrom offset lines) :
    ∃ front back, join ['\n'] lines = front ++ (line.full ++ back) ∧
      line.start = offset + front.length := by
  induction lines generalizing offset with
  | nil => cases h
  | cons first rest ih =>
    cases rest with
    | nil =>
      obtain rfl := List.mem_singleton.mp h
      exact ⟨[], [], by rw [join_singleton]; simp [PlacedLine.full], rfl⟩
    | cons next rest =>
      rw [join_cons _ _ (List.cons_ne_nil _ _)]
      rcases List.mem_cons.mp h with rfl | h
      · exact ⟨[], join ['\n'] (next :: rest), by simp [PlacedLine.full], rfl⟩
      · obtain ⟨front, back, hjoin, hstart⟩ := ih h
        refine ⟨first ++ ('\n' :: front), back, by simp [hjoin], ?_⟩
        rw [hstart, List.length_append, List.length_cons]
        omega

/-- A line stands at its offset in the text. -/
theorem exists_of_mem_placedLines {text : Text} {line : PlacedLine} (h : line ∈ placedLines text) :
    ∃ front back, text = front ++ (line.full ++ back) ∧ front.length = line.start := by
  obtain ⟨front, back, hjoin, hstart⟩ := exists_of_mem_placedFrom h
  rw [lines, join_splitAll] at hjoin
  exact ⟨front, back, hjoin, by rw [hstart, Nat.zero_add]⟩

end Text

end NamespaceMerge
