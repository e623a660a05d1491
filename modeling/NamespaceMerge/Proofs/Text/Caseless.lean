import Mathlib.Data.List.Forall2
import Mathlib.Data.List.Infix
import NamespaceMerge.Proofs.Text.Basic
import NamespaceMerge.Text.Caseless

/-! Words that stand in a text in any case. A word is found exactly if some part of the text spells
it (`splitCaseless?_eq_none_iff`), and a character that is in no spelling of the word keeps the
text on its two sides apart (`holdsCaseless_append_cons`). -/

namespace NamespaceMerge.Text

/-- Whether `part` is the word, case ignored. -/
def Spells (word part : Text) : Prop :=
  List.Forall₂ (fun letter c => matchesCaseless letter c = true) word part

/-- Whether the word stands somewhere in the text, case ignored. -/
def HoldsCaseless (word text : Text) : Prop := ∃ part, Spells word part ∧ part <:+: text

/-- How often the word stands in the text, case ignored. -/
def countCaseless (word text : Text) : Nat :=
  text.tails.countP fun rest => (dropCaseless? word rest).isSome

theorem spells_lower (word : Text) : Spells (lower word) word := by
  induction word with
  | nil => exact .nil
  | cons c word ih => exact .cons (by simp [matchesCaseless]) ih

theorem dropCaseless?_eq_some_iff {word text rest : Text} :
    dropCaseless? word text = some rest ↔ ∃ part, Spells word part ∧ text = part ++ rest := by
  induction word generalizing text with
  | nil =>
    simp only [dropCaseless?, Option.some.injEq, Spells, List.forall₂_nil_left_iff,
      exists_eq_left, List.nil_append]
  | cons letter word ih =>
    cases text with
    | nil =>
      simp only [dropCaseless?, reduceCtorEq, false_iff, not_exists, not_and]
      intro part hpart heq
      cases hpart
      cases heq
    | cons c text =>
      rw [dropCaseless?]
      split
      · next hc =>
        rw [ih]
        constructor
        · rintro ⟨part, hpart, rfl⟩
          exact ⟨c :: part, .cons hc hpart, rfl⟩
        · rintro ⟨part, hpart, heq⟩
          cases hpart with
          | cons hfirst hrest =>
            cases heq
            exact ⟨_, hrest, rfl⟩
      · next hc =>
        simp only [reduceCtorEq, false_iff, not_exists, not_and]
        intro part hpart heq
        cases hpart with
        | cons hfirst hrest =>
          cases heq
          exact hc hfirst

theorem splitCaseless?_of_dropCaseless? {word text rest : Text}
    (h : dropCaseless? word text = some rest) : splitCaseless? word text = some ([], rest) := by
  cases text with
  | nil => rw [splitCaseless?, h, Option.map_some]
  | cons c text => rw [splitCaseless?, h]

theorem dropCaseless?_eq_none_iff {word text : Text} :
    dropCaseless? word text = none ↔ ∀ part, Spells word part → ¬ part <+: text := by
  rw [Option.eq_none_iff_forall_ne_some]
  constructor
  · rintro h part hpart ⟨rest, rfl⟩
    exact h rest (dropCaseless?_eq_some_iff.mpr ⟨part, hpart, rfl⟩)
  · intro h rest hrest
    obtain ⟨part, hpart, rfl⟩ := dropCaseless?_eq_some_iff.mp hrest
    exact h part hpart (List.prefix_append _ _)

theorem splitCaseless?_eq_none_iff {word text : Text} :
    splitCaseless? word text = none ↔ ¬ HoldsCaseless word text := by
  simp only [HoldsCaseless, not_exists, not_and]
  induction text with
  | nil =>
    rw [splitCaseless?, Option.map_eq_none_iff, dropCaseless?_eq_none_iff]
    simp only [List.prefix_nil, List.infix_nil]
  | cons c text ih =>
    simp only [List.infix_cons_iff, not_or]
    rw [splitCaseless?]
    split
    · next rest h =>
      obtain ⟨part, hpart, heq⟩ := dropCaseless?_eq_some_iff.mp h
      simp only [reduceCtorEq, false_iff, not_forall]
      exact ⟨part, hpart, fun hnone => hnone.1 (heq ▸ List.prefix_append _ _)⟩
    · next h =>
      rw [Option.map_eq_none_iff, ih]
      rw [dropCaseless?_eq_none_iff] at h
      exact forall₂_congr fun part hpart => (and_iff_right (h part hpart)).symm

instance (word text : Text) : Decidable (HoldsCaseless word text) :=
  decidable_of_iff (splitCaseless? word text ≠ none)
    (by rw [ne_eq, splitCaseless?_eq_none_iff, Classical.not_not])

theorem HoldsCaseless.mono {word a b : Text} (h : HoldsCaseless word a) (hab : a <:+: b) :
    HoldsCaseless word b := by
  obtain ⟨part, hpart, hinfix⟩ := h
  exact ⟨part, hpart, hinfix.trans hab⟩

theorem Spells.notMem {word part : Text} {c : Char} (h : Spells word part)
    (hc : ∀ letter ∈ word, matchesCaseless letter c = false) : c ∉ part := by
  induction h with
  | nil => exact List.not_mem_nil
  | cons hfirst _ ih =>
    rw [List.forall_mem_cons] at hc
    rw [List.mem_cons, not_or]
    refine ⟨?_, ih hc.2⟩
    rintro rfl
    rw [hc.1] at hfirst
    cases hfirst

private theorem infix_of_append_cons {part a b : Text} {c : Char} (hc : c ∉ part)
    (h : part <:+: a ++ c :: b) : part <:+: a ∨ part <:+: b := by
  obtain ⟨before, after, h⟩ := h
  rw [List.append_assoc, List.append_eq_append_iff] at h
  rcases h with ⟨x, rfl, h⟩ | ⟨x, rfl, h⟩
  · rw [List.append_eq_append_iff] at h
    rcases h with ⟨y, rfl, -⟩ | ⟨y, rfl, h⟩
    · exact .inl ⟨before, y, by simp⟩
    · cases y with
      | nil => exact .inl ⟨before, [], by simp⟩
      | cons d y =>
        cases h
        simp at hc
  · cases x with
    | nil =>
      cases part with
      | nil => exact .inl List.nil_infix
      | cons d part =>
        cases h
        simp at hc
    | cons d x =>
      cases h
      exact .inr ⟨x, after, by simp⟩

/-- A word that holds no `c` in any spelling stands on one of the sides of a `c`. -/
theorem holdsCaseless_append_cons {word a b : Text} {c : Char}
    (hc : ∀ letter ∈ word, matchesCaseless letter c = false) :
    HoldsCaseless word (a ++ c :: b) ↔ HoldsCaseless word a ∨ HoldsCaseless word b := by
  constructor
  · rintro ⟨part, hpart, hinfix⟩
    rcases infix_of_append_cons (hpart.notMem hc) hinfix with h | h
    · exact .inl ⟨part, hpart, h⟩
    · exact .inr ⟨part, hpart, h⟩
  · rintro (h | h)
    · exact h.mono (List.prefix_append _ _).isInfix
    · exact h.mono ((List.suffix_cons _ _).trans (List.suffix_append _ _)).isInfix

theorem not_holdsCaseless_join {word : Text} {c : Char} {parts : List Text} (hword : word ≠ [])
    (hc : ∀ letter ∈ word, matchesCaseless letter c = false)
    (h : ∀ part ∈ parts, ¬ HoldsCaseless word part) : ¬ HoldsCaseless word (join [c] parts) := by
  induction parts with
  | nil =>
    rintro ⟨part, hpart, hinfix⟩
    rw [List.infix_nil.mp hinfix] at hpart
    cases hpart
    exact hword rfl
  | cons part parts ih =>
    rw [List.forall_mem_cons] at h
    by_cases hparts : parts = []
    · rw [hparts, join_singleton]
      exact h.1
    · rw [join_cons _ _ hparts, List.singleton_append, holdsCaseless_append_cons hc, not_or]
      exact ⟨h.1, ih h.2⟩

/-! ### How often a word stands in a text -/

theorem countCaseless_cons (word : Text) (c : Char) (text : Text) :
    countCaseless word (c :: text) =
      countCaseless word text + if (dropCaseless? word (c :: text)).isSome then 1 else 0 := by
  rw [countCaseless, List.tails_cons, List.countP_cons]
  rfl

theorem countCaseless_le_append (word a b : Text) :
    countCaseless word b ≤ countCaseless word (a ++ b) := by
  induction a with
  | nil => exact Nat.le_refl _
  | cons c a ih =>
    rw [List.cons_append, countCaseless_cons]
    exact Nat.le_add_right_of_le ih

theorem holdsCaseless_iff_countCaseless_pos {word text : Text} :
    HoldsCaseless word text ↔ 0 < countCaseless word text := by
  simp only [countCaseless, List.countP_pos_iff, List.mem_tails, Option.isSome_iff_exists,
    dropCaseless?_eq_some_iff]
  constructor
  · rintro ⟨part, hpart, a, b, rfl⟩
    exact ⟨part ++ b, ⟨a, (List.append_assoc _ _ _).symm⟩, b, part, hpart, rfl⟩
  · rintro ⟨_, ⟨a, rfl⟩, b, part, hpart, rfl⟩
    exact ⟨part, hpart, a, b, List.append_assoc _ _ _⟩

/-- A word that stands once in a text does not stand there again. -/
theorem not_holdsCaseless_of_countCaseless {word before part after : Text} (hword : word ≠ [])
    (hpart : Spells word part) (h : countCaseless word (before ++ (part ++ after)) ≤ 1) :
    ¬ HoldsCaseless word after := by
  intro hholds
  rw [holdsCaseless_iff_countCaseless_pos] at hholds
  have hdrop : (dropCaseless? word (part ++ after)).isSome = true :=
    Option.isSome_iff_exists.mpr ⟨after, dropCaseless?_eq_some_iff.mpr ⟨part, hpart, rfl⟩⟩
  have hbehind := countCaseless_le_append word before (part ++ after)
  cases hpart with
  | nil => exact hword rfl
  | @cons letter c letters part _ _ =>
    have hafter := countCaseless_le_append (letter :: letters) part after
    rw [List.cons_append] at hdrop hbehind
    rw [countCaseless_cons, if_pos hdrop] at hbehind
    rw [List.cons_append] at h
    omega

end NamespaceMerge.Text
