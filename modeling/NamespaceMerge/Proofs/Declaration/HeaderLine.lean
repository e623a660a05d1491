import NamespaceMerge.Declaration.Header
import NamespaceMerge.Proofs.Text.Caseless

/-! Header lines and what is left of them when the text is cut somewhere. A header reaches from the
start of its line to its brace. Cut behind that brace, the line is still one with the same header
(`Header.ofLine?_take`); cut before it, it is none (`Header.ofLine?_take_of_lt`). So dropping the
header of a text that starts with a header line drops just its length (`withoutHeader_take`). -/

namespace NamespaceMerge

namespace Text

theorem Spells.length_eq {word part : Text} (h : Spells word part) : part.length = word.length :=
  (List.Forall₂.length_eq h).symm

theorem dropCaseless?_take {word text rest : Text} {n : Nat}
    (h : dropCaseless? word text = some rest) (hn : word.length ≤ n) :
    dropCaseless? word (text.take n) = some (rest.take (n - word.length)) := by
  obtain ⟨part, hpart, rfl⟩ := dropCaseless?_eq_some_iff.mp h
  refine dropCaseless?_eq_some_iff.mpr ⟨part, hpart, ?_⟩
  rw [List.take_append, List.take_of_length_le (hpart.length_eq ▸ hn), hpart.length_eq]

theorem dropCaseless?_take_eq_none {word text : Text} (h : dropCaseless? word text = none)
    (n : Nat) : dropCaseless? word (text.take n) = none := by
  rw [dropCaseless?_eq_none_iff] at h ⊢
  exact fun part hpart hstart => h part hpart (hstart.trans (List.take_prefix n text))

theorem splitCaseless?_of_length_lt {word text : Text} (h : text.length < word.length) :
    splitCaseless? word text = none := by
  rw [splitCaseless?_eq_none_iff]
  rintro ⟨part, hpart, hinfix⟩
  have hlength := hinfix.length_le
  rw [hpart.length_eq] at hlength
  omega

theorem splitCaseless?_eq_some {word text before after : Text}
    (h : splitCaseless? word text = some (before, after)) :
    ∃ part, Spells word part ∧ text = before ++ (part ++ after) := by
  induction text generalizing before with
  | nil =>
    obtain ⟨rest, hdrop, heq⟩ := Option.map_eq_some_iff.mp h
    cases heq
    obtain ⟨part, hpart, htext⟩ := dropCaseless?_eq_some_iff.mp hdrop
    exact ⟨part, hpart, htext⟩
  | cons c text ih =>
    rw [splitCaseless?] at h
    split at h
    · next rest hdrop =>
      cases h
      obtain ⟨part, hpart, htext⟩ := dropCaseless?_eq_some_iff.mp hdrop
      exact ⟨part, hpart, htext⟩
    · obtain ⟨⟨before', after'⟩, hsplit, heq⟩ := Option.map_eq_some_iff.mp h
      cases heq
      obtain ⟨part, hpart, rfl⟩ := ih hsplit
      exact ⟨part, hpart, rfl⟩

/-- The first occurrence of a word is found in every part of the text that holds it whole. -/
theorem splitCaseless?_take {word text before after : Text} {n : Nat}
    (h : splitCaseless? word text = some (before, after))
    (hn : before.length + word.length ≤ n) :
    splitCaseless? word (text.take n) =
      some (before, after.take (n - (before.length + word.length))) := by
  induction text generalizing before n with
  | nil =>
    obtain ⟨rest, hdrop, heq⟩ := Option.map_eq_some_iff.mp h
    cases heq
    have htake := dropCaseless?_take hdrop (Nat.le_of_add_left_le hn)
    rw [splitCaseless?_of_dropCaseless? htake, List.length_nil, Nat.zero_add]
  | cons c text ih =>
    rw [splitCaseless?] at h
    split at h
    · next rest hdrop =>
      cases h
      have htake := dropCaseless?_take hdrop (Nat.le_of_add_left_le hn)
      rw [splitCaseless?_of_dropCaseless? htake, List.length_nil, Nat.zero_add]
    · next hdrop =>
      obtain ⟨⟨before', after'⟩, hsplit, heq⟩ := Option.map_eq_some_iff.mp h
      cases heq
      cases n with
      | zero => simp at hn
      | succ n =>
        rw [List.length_cons] at hn ⊢
        have htake := ih hsplit (n := n) (by omega)
        have hnone := dropCaseless?_take_eq_none hdrop (n + 1)
        rw [List.take_succ_cons] at hnone ⊢
        rw [splitCaseless?, hnone]
        simp only [htake, Option.map_some, Option.some.injEq, Prod.mk.injEq, true_and]
        congr 1
        omega

/-- No part of the text that ends before the first occurrence of a word does holds the word. -/
theorem splitCaseless?_take_of_lt {word text before after : Text} {n : Nat}
    (h : splitCaseless? word text = some (before, after))
    (hn : n < before.length + word.length) : splitCaseless? word (text.take n) = none := by
  have hshort : ∀ {text : Text} {n : Nat}, n < word.length →
      splitCaseless? word (text.take n) = none := fun hlength =>
    splitCaseless?_of_length_lt (Nat.lt_of_le_of_lt (List.length_take_le _ _) hlength)
  induction text generalizing before n with
  | nil =>
    obtain ⟨rest, hdrop, heq⟩ := Option.map_eq_some_iff.mp h
    cases heq
    exact hshort (by simpa using hn)
  | cons c text ih =>
    rw [splitCaseless?] at h
    split at h
    · cases h
      exact hshort (by simpa using hn)
    · next hdrop =>
      obtain ⟨⟨before', after'⟩, hsplit, heq⟩ := Option.map_eq_some_iff.mp h
      cases heq
      cases n with
      | zero =>
        have hnone := dropCaseless?_take_eq_none hdrop 0
        rw [List.take_zero] at hnone ⊢
        rw [splitCaseless?, hnone, Option.map_none]
      | succ n =>
        rw [List.length_cons] at hn
        have hnone := dropCaseless?_take_eq_none hdrop (n + 1)
        rw [List.take_succ_cons] at hnone ⊢
        rw [splitCaseless?, hnone]
        simp only [ih hsplit (n := n) (by omega), Option.map_none]

/-- More text behind the first occurrence of a word leaves it where it is. -/
theorem splitCaseless?_append {word text before after : Text}
    (h : splitCaseless? word text = some (before, after)) (more : Text) :
    splitCaseless? word (text ++ more) = some (before, after ++ more) := by
  obtain ⟨part, hpart, htext⟩ := splitCaseless?_eq_some h
  cases hsplit : splitCaseless? word (text ++ more) with
  | none =>
    rw [splitCaseless?_eq_none_iff, htext] at hsplit
    refine (hsplit ⟨part, hpart, ⟨before, after ++ more, ?_⟩⟩).elim
    simp
  | some p =>
    obtain ⟨before', after'⟩ := p
    -- The occurrence in the longer text does not reach behind the one in `text`.
    have hwhole : before'.length + word.length ≤ text.length := by
      refine Nat.le_of_not_lt fun hlt => ?_
      have hnone := splitCaseless?_take_of_lt hsplit hlt
      rw [List.take_left, h] at hnone
      cases hnone
    have htake := splitCaseless?_take hsplit hwhole
    rw [List.take_left, h, Option.some.injEq, Prod.mk.injEq] at htake
    obtain ⟨rfl, -⟩ := htake
    obtain ⟨part', hpart', htext'⟩ := splitCaseless?_eq_some hsplit
    rw [htext, List.append_assoc, List.append_assoc, List.append_cancel_left_eq] at htext'
    rw [(List.append_inj htext' (hpart.length_eq.trans hpart'.length_eq.symm)).2]

end Text

namespace Declaration

namespace Header

/-- The number of characters from the start of a header line to behind its brace. -/
def length (h : Header) : Nat := h.before.length + keyword.length + h.name.length + 1

variable {line : Text} {h : Header} {n : Nat}

theorem ofLine?_eq_some_iff :
    ofLine? line = some h ↔ ∃ after, Text.splitCaseless? keyword line = some (h.before, after) ∧
      after = h.name ++ '\x7b' :: h.rest ∧ '\x7b' ∉ h.name := by
  simp only [ofLine?, Option.bind_eq_bind, Option.bind_eq_some_iff, Option.pure_def,
    Option.some.injEq, Prod.exists, Text.splitOnce_eq_some_iff]
  constructor
  · rintro ⟨before, after, hsplit, name, rest, hname, rfl⟩
    exact ⟨after, hsplit, hname⟩
  · rintro ⟨after, hsplit, hname⟩
    exact ⟨h.before, after, hsplit, h.name, h.rest, hname, rfl⟩

/-- A header line is its header, and what follows it. -/
theorem exists_line_eq (hh : ofLine? line = some h) :
    ∃ part, Text.Spells keyword part ∧
      line = (h.before ++ (part ++ (h.name ++ ['\x7b']))) ++ h.rest ∧
      (h.before ++ (part ++ (h.name ++ ['\x7b']))).length = h.length := by
  obtain ⟨after, hsplit, rfl, -⟩ := ofLine?_eq_some_iff.mp hh
  obtain ⟨part, hpart, hline⟩ := Text.splitCaseless?_eq_some hsplit
  refine ⟨part, hpart, by simp [hline], ?_⟩
  simp only [length, List.length_append, List.length_singleton, hpart.length_eq]
  omega

/-- What follows the header on its line. -/
theorem drop_length (hh : ofLine? line = some h) : line.drop h.length = h.rest := by
  obtain ⟨part, -, rfl, hlength⟩ := exists_line_eq hh
  rw [← hlength, List.drop_left]

theorem length_le (hh : ofLine? line = some h) : h.length ≤ line.length := by
  obtain ⟨part, -, rfl, hlength⟩ := exists_line_eq hh
  rw [List.length_append, hlength]
  exact Nat.le_add_right _ _

/-- A header line that is cut behind its brace has the same header. -/
theorem ofLine?_take (hh : ofLine? line = some h) (hn : h.length ≤ n) :
    ofLine? (line.take n) = some { h with rest := h.rest.take (n - h.length) } := by
  obtain ⟨after, hsplit, rfl, hbrace⟩ := ofLine?_eq_some_iff.mp hh
  rw [length] at hn
  have hkeyword : h.before.length + keyword.length ≤ n := by omega
  refine ofLine?_eq_some_iff.mpr ⟨_, Text.splitCaseless?_take hsplit hkeyword, ?_, hbrace⟩
  show (h.name ++ '\x7b' :: h.rest).take (n - (h.before.length + keyword.length)) =
    h.name ++ '\x7b' :: h.rest.take (n - h.length)
  rw [List.take_append, List.take_of_length_le (by omega), length]
  obtain ⟨k, hk⟩ := Nat.exists_eq_add_of_le hn
  have hfirst : n - (h.before.length + keyword.length) - h.name.length = k + 1 := by omega
  have hrest : n - (h.before.length + keyword.length + h.name.length + 1) = k := by omega
  rw [hfirst, hrest, List.take_succ_cons]

/-- A header line that is cut before its brace is no header line. -/
theorem ofLine?_take_of_lt (hh : ofLine? line = some h) (hn : n < h.length) :
    ofLine? (line.take n) = none := by
  obtain ⟨after, hsplit, rfl, hbrace⟩ := ofLine?_eq_some_iff.mp hh
  rw [ofLine?]
  by_cases hkeyword : n < h.before.length + keyword.length
  · rw [Text.splitCaseless?_take_of_lt hsplit hkeyword]
    rfl
  · have hnone : '\x7b' ∉ (h.name ++ '\x7b' :: h.rest).take
        (n - (h.before.length + keyword.length)) := by
      rw [length] at hn
      rw [List.take_append_of_le_length (by omega)]
      exact fun hmem => hbrace (List.mem_of_mem_take hmem)
    rw [Text.splitCaseless?_take hsplit (Nat.le_of_not_lt hkeyword)]
    simp only [Option.bind_eq_bind, Option.bind_some, Text.splitOnce_eq_none_iff.mpr hnone,
      Option.bind_none]

theorem ofLine?_append (hh : ofLine? line = some h) (more : Text) :
    ofLine? (line ++ more) = some { h with rest := h.rest ++ more } := by
  obtain ⟨after, hsplit, rfl, hbrace⟩ := ofLine?_eq_some_iff.mp hh
  refine ofLine?_eq_some_iff.mpr ⟨_, Text.splitCaseless?_append hsplit more, ?_, hbrace⟩
  rw [List.append_assoc, List.cons_append]

/-- Another character at the end makes no header line, unless it is a brace. -/
theorem ofLine?_concat {c : Char} (hc : c ≠ '\x7b') (line : Text) :
    ofLine? (line ++ [c]) = (ofLine? line).map fun h => { h with rest := h.rest ++ [c] } := by
  cases hline : ofLine? line with
  | some h => rw [ofLine?_append hline, Option.map_some]
  | none =>
    rw [Option.map_none, Option.eq_none_iff_forall_ne_some]
    intro h hh
    by_cases hlength : h.length ≤ line.length
    · have htake := ofLine?_take hh hlength
      rw [List.take_left, hline] at htake
      cases htake
    · -- The header takes up the whole line, so the brace is the character at the end.
      obtain ⟨part, -, hparts, hpartsLength⟩ := exists_line_eq hh
      have hwhole := congrArg List.length hparts
      rw [List.length_append, List.length_append, hpartsLength, List.length_singleton] at hwhole
      have hrest : h.rest = [] := List.length_eq_zero_iff.mp (by omega)
      rw [hrest, List.append_nil, ← List.append_assoc, ← List.append_assoc] at hparts
      exact hc (List.singleton_inj.mp (List.append_inj' hparts rfl).2)

end Header

/-- What follows the first line of a text: nothing, or a newline and more. -/
def FollowsLine (rest : Text) : Prop := rest = [] ∨ rest.head? = some '\n'

theorem FollowsLine.take {rest : Text} (h : FollowsLine rest) (n : Nat) :
    FollowsLine (rest.take n) := by
  rcases h with rfl | h
  · exact .inl List.take_nil
  · cases n with
    | zero => exact .inl rfl
    | succ n =>
      right
      rw [List.head?_take, if_neg (Nat.succ_ne_zero n), h]

theorem withoutHeader_of_some {line rest : Text} {h : Header} (hline : '\n' ∉ line)
    (hrest : FollowsLine rest) (hh : Header.ofLine? line = some h) :
    withoutHeader (line ++ rest) = h.rest ++ rest := by
  rcases hrest with rfl | hrest
  · rw [List.append_nil, withoutHeader, Text.lines, Text.splitAll_of_notMem hline, dropHeader, hh]
    simp [Text.join_singleton]
  · obtain ⟨more, rfl⟩ := List.head?_eq_some_iff.mp hrest
    have hmore := Text.splitAll_ne_nil '\n' more
    rw [withoutHeader, Text.lines, Text.splitAll_append_mark, Text.splitAll_of_notMem hline,
      List.singleton_append, dropHeader, hh]
    simp only
    rw [Text.join_cons _ _ hmore, Text.join_splitAll, List.singleton_append]

theorem withoutHeader_of_none {line : Text} (hline : '\n' ∉ line)
    (hh : Header.ofLine? line = none) : withoutHeader line = line := by
  rw [withoutHeader, Text.lines, Text.splitAll_of_notMem hline, dropHeader, hh]
  exact Text.join_singleton _ _

/-- Dropping the header of a text that starts with a header line and is cut at `n`. -/
theorem withoutHeader_take {line rest : Text} {h : Header} (hline : '\n' ∉ line)
    (hrest : FollowsLine rest) (hh : Header.ofLine? line = some h) (n : Nat) :
    withoutHeader ((line ++ rest).take n) =
      if h.length ≤ n then ((line ++ rest).take n).drop h.length else (line ++ rest).take n := by
  have hcut : '\n' ∉ line.take n := fun hmem => hline (List.mem_of_mem_take hmem)
  have hlength := Header.length_le hh
  split
  · next hn =>
    have htake := Header.ofLine?_take hh hn
    have hdrop := Header.drop_length htake
    have hle : h.length ≤ (line.take n).length := by
      rw [List.length_take]
      omega
    rw [List.take_append, withoutHeader_of_some hcut (hrest.take _) htake,
      List.drop_append_of_le_length hle, ← hdrop]
    rfl
  · next hn =>
    rw [List.take_append_of_le_length (by omega),
      withoutHeader_of_none hcut (Header.ofLine?_take_of_lt hh (Nat.lt_of_not_le hn))]

end Declaration

end NamespaceMerge
