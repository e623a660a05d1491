import NamespaceMerge.Text.Basic

/-! White space as the Unicode property counts it, together with the four information separators:
what is trimmed from names, and what ends the value of a reference. -/

namespace NamespaceMerge

/-- White space of any script, the line and paragraph separators, and U+001C to U+001F. -/
def isBlank (c : Char) : Bool :=
  let n := c.toNat
  (0x09 ≤ n && n ≤ 0x0d) || (0x1c ≤ n && n ≤ 0x20) || n == 0x85 || n == 0xa0 || n == 0x1680
    || (0x2000 ≤ n && n ≤ 0x200a) || n == 0x2028 || n == 0x2029 || n == 0x202f || n == 0x205f
    || n == 0x3000

theorem isBlank_of_isWhitespace {c : Char} (h : c.isWhitespace) : isBlank c := by
  simp only [Char.isWhitespace, Bool.or_eq_true, decide_eq_true_eq] at h
  rcases h with ((rfl | rfl) | rfl) | rfl <;> rfl

namespace Text

def trimStart (text : Text) : Text := text.dropWhile isBlank

/-- The text without the blanks at either end. -/
def trim (text : Text) : Text := (trimStart (trimStart text).reverse).reverse

end Text

end NamespaceMerge
