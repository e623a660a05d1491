import Mathlib.Data.List.DropRight
import Mathlib.Data.List.TakeWhile
import NamespaceMerge.Text.Blank

/-! Trimming, and what is left of a text without its blanks. -/

namespace NamespaceMerge.Text

def withoutBlanks (text : Text) : Text := text.filter fun c => !isBlank c

theorem trim_concat {c : Char} (hc : isBlank c = true) (text : Text) :
    trim (text ++ [c]) = trim text := by
  simp only [trim, trimStart, List.dropWhile_append]
  split
  · next h =>
    rw [List.isEmpty_iff] at h
    simp [h, hc]
  · simp [hc]

theorem withoutBlanks_append (a b : Text) :
    withoutBlanks (a ++ b) = withoutBlanks a ++ withoutBlanks b :=
  List.filter_append a b

/-- A text is trimmed to nothing if it has nothing but blanks. -/
theorem trim_eq_nil_iff {text : Text} : trim text = [] ↔ withoutBlanks text = [] := by
  rw [trim, List.reverse_eq_nil_iff, trimStart, List.dropWhile_eq_nil_iff, withoutBlanks,
    List.filter_eq_nil_iff]
  simp only [List.mem_reverse, Bool.not_eq_true', Bool.not_eq_false]
  constructor
  · intro h
    by_cases hnil : trimStart text = []
    · exact List.dropWhile_eq_nil_iff.mp hnil
    · have hhead : isBlank ((trimStart text).head hnil) = false :=
        List.head_dropWhile_not isBlank hnil
      rw [h _ (List.head_mem hnil)] at hhead
      cases hhead
  · intro h c hc
    exact h c ((List.dropWhile_suffix isBlank).subset hc)

theorem withoutBlanks_trimStart (text : Text) :
    withoutBlanks (trimStart text) = withoutBlanks text := by
  have hblank : withoutBlanks (text.takeWhile isBlank) = [] := by
    rw [withoutBlanks, List.filter_eq_nil_iff]
    intro c hc
    simp [List.mem_takeWhile_imp hc]
  rw [← List.takeWhile_append_dropWhile (p := isBlank) (l := text), withoutBlanks_append, hblank,
    List.takeWhile_append_dropWhile]
  rfl

theorem withoutBlanks_trim (text : Text) : withoutBlanks (trim text) = withoutBlanks text := by
  have hreverse : ∀ text, withoutBlanks text.reverse = (withoutBlanks text).reverse :=
    fun _ => List.filter_reverse
  rw [trim, hreverse, withoutBlanks_trimStart, hreverse, withoutBlanks_trimStart,
    List.reverse_reverse]

theorem mem_trim {c : Char} (hc : isBlank c = false) {text : Text} :
    c ∈ trim text ↔ c ∈ text := by
  have hmem : c ∈ withoutBlanks (trim text) ↔ c ∈ withoutBlanks text := by
    rw [withoutBlanks_trim]
  simpa [withoutBlanks, hc] using hmem

theorem trim_prefix_trimStart (text : Text) : trim text <+: trimStart text :=
  List.rdropWhile_prefix isBlank (trimStart text)

theorem trim_infix (text : Text) : trim text <:+: text :=
  (trim_prefix_trimStart text).isInfix.trans (List.dropWhile_suffix isBlank).isInfix

theorem trim_trim (text : Text) : trim (trim text) = trim text := by
  have hstart : trimStart (trim text) = trim text := by
    rw [trimStart, List.dropWhile_eq_self_iff]
    intro hlength
    have hne : trimStart text ≠ [] :=
      (trim_prefix_trimStart text).ne_nil (List.ne_nil_of_length_pos hlength)
    have hhead : isBlank ((trimStart text).head hne) = false := List.head_dropWhile_not isBlank hne
    rw [(trim_prefix_trimStart text).getElem hlength, ← List.head_eq_getElem hne, hhead]
    exact Bool.false_ne_true
  calc trim (trim text)
    _ = (trimStart (trim text)).rdropWhile isBlank := rfl
    _ = ((trimStart text).rdropWhile isBlank).rdropWhile isBlank := by rw [hstart]; rfl
    _ = trim text := List.rdropWhile_idempotent isBlank (trimStart text)

end NamespaceMerge.Text
