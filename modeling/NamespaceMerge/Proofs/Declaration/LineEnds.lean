import Mathlib.Data.List.Infix
import NamespaceMerge.Declaration.Render
import NamespaceMerge.Proofs.Text.Caseless
import NamespaceMerge.Proofs.Text.Pairs

/-! What becomes of a text when its line ends are normalized. A carriage return goes only where it
stands next to a newline, so all other characters stay (`filter_normalizeLineEnds`), and any of
them keeps what stands before it apart from what stands after it (`normalizeLineEnds_append_cons`).
No word appears that was not there before (`holdsCaseless_of_normalizeLineEnds`). Each pair of
characters is replaced in one pass, so that of two carriage returns next to a newline one goes and
the other may stay; `noLinePair_render_iff` says where. -/

namespace NamespaceMerge

namespace Text

/-- A part of a text stands at its front, or in what follows its first character. -/
theorem exists_cons_eq_append_iff {c : Char} {rest part : Text} {P : Text → Text → Prop} :
    (∃ a b, c :: rest = a ++ (part ++ b) ∧ P a b) ↔
      (∃ b, c :: rest = part ++ b ∧ P [] b) ∨
        ∃ a b, rest = a ++ (part ++ b) ∧ P (c :: a) b := by
  constructor
  · rintro ⟨a, b, h, hP⟩
    cases a with
    | nil => exact .inl ⟨b, h, hP⟩
    | cons d a =>
      rw [List.cons_append, List.cons.injEq] at h
      obtain ⟨rfl, h⟩ := h
      exact .inr ⟨a, b, h, hP⟩
  · rintro (⟨b, h, hP⟩ | ⟨a, b, h, hP⟩)
    · exact ⟨[], b, h, hP⟩
    · exact ⟨c :: a, b, by rw [h, List.cons_append], hP⟩

end Text

namespace Declaration

theorem normalizeLineEnds_eq_self {text : Text} (h : '\r' ∉ text ∨ '\n' ∉ text) :
    normalizeLineEnds text = text := by
  rw [normalizeLineEnds, Text.replacePair_eq_self h, Text.replacePair_eq_self h.symm]

theorem normalizeLineEnds_append_cons {c : Char} (hreturn : c ≠ '\r') (hline : c ≠ '\n')
    (a b : Text) :
    normalizeLineEnds (a ++ c :: b) = normalizeLineEnds a ++ c :: normalizeLineEnds b := by
  rw [normalizeLineEnds, Text.replacePair_append_cons hreturn hline,
    Text.replacePair_append_cons hline hreturn]
  rfl

theorem filter_normalizeLineEnds {p : Char → Bool} (hreturn : p '\r' = false)
    (hline : p '\n' = false) (text : Text) :
    (normalizeLineEnds text).filter p = text.filter p := by
  rw [normalizeLineEnds, Text.filter_replacePair hline hreturn hline,
    Text.filter_replacePair hreturn hline hline]

theorem getLast?_normalizeLineEnds {text : Text} (h : text.getLast? = some '\n') :
    (normalizeLineEnds text).getLast? = some '\n' :=
  Text.getLast?_replacePair (Text.getLast?_replacePair h)

theorem holdsCaseless_of_normalizeLineEnds {word text : Text}
    (hline : ∀ letter ∈ word, matchesCaseless letter '\n' = false)
    (h : Text.HoldsCaseless word (normalizeLineEnds text)) : Text.HoldsCaseless word text := by
  obtain ⟨part, hpart, hinfix⟩ := h
  have hnotMem := hpart.notMem hline
  exact ⟨part, hpart, Text.infix_of_infix_replacePair hnotMem
    (Text.infix_of_infix_replacePair hnotMem hinfix)⟩

/-! ### Which carriage returns go -/

/-- The text without the carriage returns that stand next to a newline; `before` is what stands in
front of the text. -/
def dropReturns (before : Option Char) : Text → Text
  | [] => []
  | c :: rest =>
    if c = '\r' ∧ (before = some '\n' ∨ rest.head? = some '\n') then dropReturns (some c) rest
    else c :: dropReturns (some c) rest

theorem dropReturns_of_ne {c : Char} (h : c ≠ '\r') (before : Option Char) (rest : Text) :
    dropReturns before (c :: rest) = c :: dropReturns (some c) rest := by
  rw [dropReturns, if_neg fun hgoes => h hgoes.1]

/-- A carriage return goes exactly if a newline stands next to it, in front of it or behind it. The
second equation is the same behind a newline. -/
theorem normalizeLineEnds_eq_dropReturns (text : Text) :
    (∀ before, before ≠ some '\n' → normalizeLineEnds text = dropReturns before text) ∧
      normalizeLineEnds ('\n' :: text) = '\n' :: dropReturns (some '\n') text := by
  have hline : ∀ text, Text.replacePair '\r' '\n' ['\n'] ('\n' :: text) =
      '\n' :: Text.replacePair '\r' '\n' ['\n'] text :=
    Text.replacePair_cons_of_ne (by decide) ['\n']
  simp only [normalizeLineEnds, hline]
  induction text with
  | nil => exact ⟨fun _ _ => rfl, rfl⟩
  | cons c rest ih =>
    obtain ⟨hother, hbehind⟩ := ih
    have hkept := hother (some c)
    by_cases hreturn : c = '\r'
    · subst hreturn
      have hkept := hkept (by decide)
      by_cases hnext : rest.head? = some '\n'
      · -- The first replacement takes the carriage return.
        have hfirst : Text.replacePair '\r' '\n' ['\n'] ('\r' :: rest) =
            Text.replacePair '\r' '\n' ['\n'] rest := by
          obtain ⟨more, rfl⟩ := List.head?_eq_some_iff.mp hnext
          rw [Text.replacePair, if_pos ⟨rfl, rfl⟩, hline]
          rfl
        have hhead : (Text.replacePair '\r' '\n' ['\n'] rest).head? ≠ some '\r' := by
          obtain ⟨more, rfl⟩ := List.head?_eq_some_iff.mp hnext
          simp [hline]
        refine ⟨fun before _ => ?_, ?_⟩
        · rw [hfirst, hkept, dropReturns, if_pos ⟨rfl, .inr hnext⟩]
        · rw [hfirst, Text.replacePair_cons_of_head? hhead, hkept, dropReturns,
            if_pos ⟨rfl, .inr hnext⟩]
      · -- The second one takes it behind a newline.
        have hfirst : Text.replacePair '\r' '\n' ['\n'] ('\r' :: rest) =
            '\r' :: Text.replacePair '\r' '\n' ['\n'] rest :=
          Text.replacePair_cons_of_head? hnext '\r' ['\n']
        refine ⟨fun before hbefore => ?_, ?_⟩
        · rw [hfirst, Text.replacePair_cons_of_ne (by decide), hkept, dropReturns, if_neg]
          simp [hbefore, hnext]
        · rw [hfirst, Text.replacePair, if_pos ⟨rfl, rfl⟩, hkept, dropReturns, if_pos (by simp)]
          rfl
    · have hhead : (c :: Text.replacePair '\r' '\n' ['\n'] rest).head? ≠ some '\r' := by
        simpa using hreturn
      rw [Text.replacePair_cons_of_ne hreturn, Text.replacePair_cons_of_head? hhead]
      simp only [dropReturns_of_ne hreturn]
      by_cases hc : c = '\n'
      · subst hc
        exact ⟨fun _ _ => hbehind, congrArg _ hbehind⟩
      · rw [Text.replacePair_cons_of_ne hc, hkept (by simpa using hc)]
        exact ⟨fun _ _ => rfl, rfl⟩

/-! ### Which pairs are left -/

theorem head?_dropReturns_newline (text : Text) :
    (dropReturns (some '\n') text).head? = some '\r' ↔
      ∃ rest, text = '\r' :: '\r' :: rest ∧ rest.head? ≠ some '\n' := by
  match text with
  | [] => simp [dropReturns]
  | [c] => by_cases hc : c = '\r' <;> simp [dropReturns, hc]
  | c :: d :: rest =>
    by_cases hc : c = '\r'
    · by_cases hd : d = '\r'
      · by_cases hrest : rest.head? = some '\n'
        · obtain ⟨more, rfl⟩ := List.head?_eq_some_iff.mp hrest
          simp [dropReturns, hc, hd]
        · simp [dropReturns, hc, hd, hrest]
      · simp [dropReturns, hc, hd]
    · simp [dropReturns, hc]

theorem head?_dropReturns_return {text : Text} (h : text.head? ≠ some '\n') :
    (dropReturns (some '\r') text).head? = some '\n' ↔ ∃ rest, text = '\r' :: '\n' :: rest := by
  match text with
  | [] => simp [dropReturns]
  | [c] => by_cases hc : c = '\r' <;> simp_all [dropReturns]
  | c :: d :: rest =>
    by_cases hc : c = '\r'
    · by_cases hd : d = '\n' <;> simp [dropReturns, hc, hd]
    · simp_all [dropReturns]

theorem pair_prefix_cons_iff {a b c : Char} {rest : Text} :
    [a, b] <+: c :: rest ↔ a = c ∧ rest.head? = some b := by
  rw [List.cons_prefix_cons]
  cases rest <;> simp [eq_comm]

/-- A newline and a carriage return are left where two carriage returns stand behind a newline, and
no newline behind these. -/
theorem newline_return_infix_dropReturns {before : Option Char} {text : Text} :
    ['\n', '\r'] <:+: dropReturns before text ↔
      ∃ a b, text = a ++ (['\n', '\r', '\r'] ++ b) ∧ b.head? ≠ some '\n' := by
  induction text generalizing before with
  | nil => simp [dropReturns]
  | cons c rest ih =>
    rw [Text.exists_cons_eq_append_iff (P := fun _ b => b.head? ≠ some '\n'),
      ← @ih (some c), dropReturns]
    split
    · next hgoes =>
      simp [hgoes.1]
    · rw [List.infix_cons_iff, pair_prefix_cons_iff]
      refine or_congr_left ?_
      constructor
      · rintro ⟨rfl, hhead⟩
        obtain ⟨more, rfl, hmore⟩ := (head?_dropReturns_newline rest).mp hhead
        exact ⟨more, rfl, hmore⟩
      · rintro ⟨more, hmore, hhead⟩
        cases hmore
        exact ⟨rfl, (head?_dropReturns_newline _).mpr ⟨more, rfl, hhead⟩⟩

/-- A carriage return and a newline are left where two carriage returns stand in front of a
newline, and no newline in front of these. -/
theorem return_newline_infix_dropReturns {before : Option Char} {text : Text} :
    ['\r', '\n'] <:+: dropReturns before text ↔
      ∃ a b, text = a ++ (['\r', '\r', '\n'] ++ b) ∧ a.getLast?.or before ≠ some '\n' := by
  induction text generalizing before with
  | nil => simp [dropReturns]
  | cons c rest ih =>
    have hlast (a : Text) : (c :: a).getLast?.or before = a.getLast?.or (some c) := by
      cases a with
      | nil => rfl
      | cons d a => simp [List.getLast?_cons]
    rw [Text.exists_cons_eq_append_iff (P := fun a _ => a.getLast?.or before ≠ some '\n')]
    simp only [hlast, ← @ih (some c)]
    rw [dropReturns]
    split
    · next hgoes =>
      refine (or_iff_right ?_).symm
      rintro ⟨more, hmore, hbefore⟩
      cases hmore
      exact hgoes.2.elim hbefore (by simp)
    · next hstays =>
      rw [List.infix_cons_iff, pair_prefix_cons_iff]
      refine or_congr_left ?_
      constructor
      · rintro ⟨rfl, hhead⟩
        rw [not_and_or, not_or] at hstays
        obtain ⟨hbefore, hnext⟩ := hstays.resolve_left (not_not.mpr rfl)
        obtain ⟨more, rfl⟩ := (head?_dropReturns_return hnext).mp hhead
        exact ⟨more, rfl, hbefore⟩
      · rintro ⟨more, hmore, hbefore⟩
        cases hmore
        exact ⟨rfl, (head?_dropReturns_return (by simp)).mpr ⟨more, rfl⟩⟩

/-! ### Statement -/

/-- A carriage return and a newline stand side by side. -/
def HasLinePair (text : Text) : Prop := ['\r', '\n'] <:+: text ∨ ['\n', '\r'] <:+: text

instance : DecidablePred HasLinePair := fun _ => instDecidableOr

/-- Two carriage returns side by side touch a newline only where one stands on either side of
them. -/
structure ReturnsEnclosed (text : Text) : Prop where
  front : ∀ a b, text = a ++ (['\r', '\r', '\n'] ++ b) → a.getLast? = some '\n'
  back : ∀ a b, text = a ++ (['\n', '\r', '\r'] ++ b) → b.head? = some '\n'

theorem not_hasLinePair_normalizeLineEnds_iff {text : Text} :
    ¬ HasLinePair (normalizeLineEnds text) ↔ ReturnsEnclosed text := by
  rw [HasLinePair, (normalizeLineEnds_eq_dropReturns text).1 none (by decide), not_or,
    return_newline_infix_dropReturns, newline_return_infix_dropReturns]
  simp only [Option.or_none, not_exists, not_and, not_not]
  exact ⟨fun h => ⟨h.1, h.2⟩, fun h => ⟨h.front, h.back⟩⟩

/-- A text in which such a pair stands gets shorter, and any other one stays as it is. -/
theorem normalizeLineEnds_eq_self_iff {text : Text} :
    normalizeLineEnds text = text ↔ ¬ HasLinePair text := by
  constructor
  · intro h
    have hfirst : ¬ ['\r', '\n'] <:+: text := fun hpair => by
      have hshorter := Text.length_replacePair_lt hpair '\n'
      have hle : (normalizeLineEnds text).length ≤
          (Text.replacePair '\r' '\n' ['\n'] text).length :=
        Text.length_replacePair_le (by simp) _
      rw [h] at hle
      omega
    refine not_or.mpr ⟨hfirst, fun hpair => ?_⟩
    have hshorter := Text.length_replacePair_lt hpair '\n'
    rw [normalizeLineEnds, Text.replacePair_of_not_infix hfirst] at h
    rw [h] at hshorter
    exact Nat.lt_irrefl _ hshorter
  · intro h
    rw [HasLinePair, not_or] at h
    rw [normalizeLineEnds, Text.replacePair_of_not_infix h.1, Text.replacePair_of_not_infix h.2]

/-- What is written of groups holds no carriage return and newline side by side exactly if, before
the line ends are normalized, two carriage returns side by side touch a newline only between two
of them; and normalizing once more changes nothing exactly then. -/
theorem noLinePair_render_iff (groups : Groups) :
    (¬ HasLinePair (render groups) ↔ ReturnsEnclosed (groups.flatMap Group.render)) ∧
      (normalizeLineEnds (render groups) = render groups ↔ ¬ HasLinePair (render groups)) :=
  ⟨not_hasLinePair_normalizeLineEnds_iff, normalizeLineEnds_eq_self_iff⟩

/-- A namespace with a body. -/
def namespaceGroup (body : String) : Group where
  key := ['A']
  blocks := [{ name := ['A'], start := 0, body := some body.toList }]

/-- Where a line ends in two carriage returns and a newline, or in these the other way round, one
pair is left. -/
theorem not_noLinePair_render :
    ¬ (∀ groups, ¬ HasLinePair (render groups)) ∧
      HasLinePair (render [namespaceGroup "a\r\r\n"]) ∧
      HasLinePair (render [namespaceGroup "a\n\r\r"]) ∧
      normalizeLineEnds (render [namespaceGroup "a\r\r\n"]) ≠
        render [namespaceGroup "a\r\r\n"] := by
  have hfront : HasLinePair (render [namespaceGroup "a\r\r\n"]) := by decide
  exact ⟨fun h => h _ hfront, hfront, by decide, by decide⟩

end Declaration

end NamespaceMerge
