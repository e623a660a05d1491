import NamespaceMerge.Text.Basic

/-! Matching letters in either case. A few letters outside ASCII fold onto ASCII ones and match
them too: the long s (U+017F), the dotted and the dotless i (U+0130, U+0131) and the kelvin sign
(U+212A). -/

namespace NamespaceMerge

/-- The letters outside ASCII that match a small ASCII letter when case is ignored. -/
def caselessPartners (letter : Char) : List Char :=
  match letter with
  | 's' => ['\u017f']
  | 'i' => ['\u0130', '\u0131']
  | 'k' => ['\u212a']
  | _ => []

/-- Whether `c` matches the small letter (or caseless character) `letter` when case is ignored. -/
def matchesCaseless (letter c : Char) : Bool :=
  c.toLower == letter || (caselessPartners letter).contains c

namespace Text

/-- What follows `word` at the start of the text, case ignored; `word` is in small letters. -/
def dropCaseless? : Text → Text → Option Text
  | [], text => some text
  | _ :: _, [] => none
  | letter :: word, c :: text => if matchesCaseless letter c then dropCaseless? word text else none

/-- Splits around the first occurrence of `word`, case ignored. -/
def splitCaseless? (word : Text) : Text → Option (Text × Text)
  | [] => (dropCaseless? word []).map ([], ·)
  | c :: text =>
    match dropCaseless? word (c :: text) with
    | some after => some ([], after)
    | none => (splitCaseless? word text).map fun (before, after) => (c :: before, after)

end Text

end NamespaceMerge
