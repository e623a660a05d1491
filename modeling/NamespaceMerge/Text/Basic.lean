/-! Text as a list of characters, and the few operations on it that the rest of the library is
written with. Offsets and lengths count characters (code points). -/

namespace NamespaceMerge

abbrev Text := List Char

namespace Text

/-- The characters from offset `start` up to, not including, offset `stop`. -/
def slice (text : Text) (start stop : Nat) : Text := (text.drop start).take (stop - start)

/-- Splits at the first occurrence of `mark`, which belongs to neither part. -/
def splitOnce (mark : Char) : Text → Option (Text × Text)
  | [] => none
  | c :: rest =>
    if c = mark then some ([], rest)
    else (splitOnce mark rest).map fun (before, after) => (c :: before, after)

/-- The parts between the occurrences of `mark`; there is always at least one. -/
def splitAll (mark : Char) : Text → List Text
  | [] => [[]]
  | c :: rest =>
    if c = mark then [] :: splitAll mark rest
    else match splitAll mark rest with
      | [] => [[c]]
      | part :: parts => (c :: part) :: parts

/-- The lines of a text: what stands between its newlines. -/
def lines (text : Text) : List Text := splitAll '\n' text

def join (separator : Text) (parts : List Text) : Text := separator.intercalate parts

/-- Whether `part` stands somewhere in the text. -/
def includes (part : Text) : Text → Bool
  | [] => part.isEmpty
  | c :: rest => part.isPrefixOf (c :: rest) || includes part rest

/-- What follows `word` at the start of the text. -/
def dropStart? : Text → Text → Option Text
  | [], text => some text
  | _ :: _, [] => none
  | c :: word, d :: text => if c = d then dropStart? word text else none

/-- Replaces every `first` directly followed by `second`, from left to right. -/
def replacePair (first second : Char) (by' : Text) : Text → Text
  | a :: b :: rest =>
    if a = first ∧ b = second then by' ++ replacePair first second by' rest
    else a :: replacePair first second by' (b :: rest)
  | short => short

/-- One newline for each line end of any kind: a carriage return, a newline, or both in this
order. -/
def unifyLineEnds : Text → Text
  | '\r' :: '\n' :: rest => '\n' :: unifyLineEnds rest
  | c :: rest => (if c = '\r' then '\n' else c) :: unifyLineEnds rest
  | [] => []

/-- Whether `a` comes before `b`, or is the same, in the order of code points. -/
def before : Text → Text → Bool
  | [], _ => true
  | _ :: _, [] => false
  | c :: a, d :: b => c.toNat < d.toNat || c == d && before a b

/-- The offset of the last occurrence of `mark`. -/
def lastIndexOf (mark : Char) (text : Text) : Option Nat :=
  (text.reverse.findIdx? (· == mark)).map (text.length - 1 - ·)

/-- The text without the `mark`s it ends with. -/
def dropTrailing (mark : Char) (text : Text) : Text := (text.reverse.dropWhile (· == mark)).reverse

/-- Lower case on ASCII letters; other characters stay. -/
def lower (text : Text) : Text := text.map Char.toLower

theorem splitAll_ne_nil (mark : Char) (text : Text) : splitAll mark text ≠ [] := by
  cases text with
  | nil => exact List.cons_ne_nil _ _
  | cons c rest =>
    rw [splitAll]
    split
    · exact List.cons_ne_nil _ _
    · split <;> exact List.cons_ne_nil _ _

/-- Joining undoes splitting. -/
theorem join_splitAll (mark : Char) (text : Text) : join [mark] (splitAll mark text) = text := by
  induction text with
  | nil => rfl
  | cons c rest ih =>
    obtain ⟨part, parts, h⟩ := List.exists_cons_of_ne_nil (splitAll_ne_nil mark rest)
    rw [splitAll]
    rw [h] at ih ⊢
    split
    · next hc => rw [← ih, hc]; rfl
    · rw [← ih]
      cases parts <;> rfl

theorem dropStart?_eq_some_iff {word text rest : Text} :
    dropStart? word text = some rest ↔ text = word ++ rest := by
  induction word generalizing text with
  | nil => simp [dropStart?]
  | cons c word ih =>
    cases text with
    | nil => simp [dropStart?]
    | cons d text =>
      rw [dropStart?]
      split
      · next h => simp [ih, h]
      · next h => simp [Ne.symm h]

@[simp] theorem length_slice (text : Text) (start stop : Nat) :
    (slice text start stop).length = min (stop - start) (text.length - start) := by
  simp [slice]

theorem join_singleton (separator part : Text) : join separator [part] = part := by
  simp [join]

end Text

end NamespaceMerge
