import NamespaceMerge.Text.Basic

/-! Patterns of names: `*` for any text, `?` for any character, and sets of characters in
brackets. -/

namespace NamespaceMerge

/-- A part of a pattern for one character, or `*`. -/
inductive Wildcard
  | anyText
  | anyCharacter
  /-- A character of one of the ranges, or of none of them. -/
  | range (negated : Bool) (ranges : List (Char × Char))
  | character (c : Char)

namespace Wildcard

def isMagic (c : Char) : Bool := c == '*' || c == '?' || c == '['

/-- The ranges of a set. A hyphen between two characters makes a range. -/
def rangesOf : Text → List (Char × Char)
  | low :: '-' :: high :: rest => (low, high) :: rangesOf rest
  | c :: rest => (c, c) :: rangesOf rest
  | [] => []

/-- Whether a text starts with a mark, and the text without it. -/
def dropMark (mark : Char) : Text → Bool × Text
  | [] => (false, [])
  | c :: rest => if c = mark then (true, rest) else (false, c :: rest)

/-- The set after an opening bracket, and what follows its closing one. A closing bracket in
front belongs to the set, as does one after the exclamation mark that negates it. -/
def setOf? (text : Text) : Option (Wildcard × Text) := do
  let (negated, text) := dropMark '!' text
  let (closing, text) := dropMark ']' text
  let (body, rest) ← Text.splitOnce ']' text
  return (.range negated (rangesOf (if closing then ']' :: body else body)), rest)

theorem length_dropMark_le (mark : Char) (text : Text) :
    (dropMark mark text).2.length ≤ text.length := by
  unfold dropMark
  split
  · simp
  · split <;> simp

theorem length_splitOnce_lt {mark : Char} {text before after : Text}
    (h : Text.splitOnce mark text = some (before, after)) : after.length < text.length := by
  induction text generalizing before with
  | nil => simp [Text.splitOnce] at h
  | cons c rest ih =>
    unfold Text.splitOnce at h
    split at h
    · simp only [Option.some.injEq, Prod.mk.injEq] at h
      simp [← h.2]
    · obtain ⟨⟨b, a⟩, hs, he⟩ := Option.map_eq_some_iff.1 h
      simp only [Prod.mk.injEq] at he
      have := ih (he.2 ▸ hs)
      simp only [List.length_cons]
      omega

theorem length_setOf?_lt {text rest : Text} {set : Wildcard} (h : setOf? text = some (set, rest)) :
    rest.length < text.length := by
  simp only [setOf?, Option.bind_eq_bind, Option.bind_eq_some_iff, Option.pure_def,
    Option.some.injEq, Prod.mk.injEq] at h
  obtain ⟨⟨body, after⟩, hs, _, rfl⟩ := h
  have := length_splitOnce_lt hs
  have := length_dropMark_le ']' (dropMark '!' text).2
  have := length_dropMark_le '!' text
  show after.length < text.length
  omega

/-- The parts of a pattern. A bracket that is never closed stands for itself. -/
def ofText : Text → List Wildcard
  | [] => []
  | '*' :: rest => anyText :: ofText rest
  | '?' :: rest => anyCharacter :: ofText rest
  | '[' :: rest =>
    match h : setOf? rest with
    | some (set, after) =>
      have := length_setOf?_lt h
      set :: ofText after
    | none => character '[' :: ofText rest
  | c :: rest => character c :: ofText rest
termination_by text => text.length

def matchesCharacter (w : Wildcard) (c : Char) : Bool :=
  match w with
  | anyText | anyCharacter => true
  | range negated ranges => ranges.any (fun (low, high) => low ≤ c && c ≤ high) != negated
  | character d => c == d

/-- Whether a name is of a pattern, as a whole. -/
def matchesName : List Wildcard → Text → Bool
  | [], name => name.isEmpty
  | anyText :: pattern, [] => matchesName pattern []
  | anyText :: pattern, c :: name =>
    matchesName pattern (c :: name) || matchesName (anyText :: pattern) name
  | _ :: _, [] => false
  | part :: pattern, c :: name => part.matchesCharacter c && matchesName pattern name
termination_by pattern name => (pattern.length + name.length)

end Wildcard

end NamespaceMerge
