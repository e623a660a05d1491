import NamespaceMerge.Proofs.Declaration.Source
import NamespaceMerge.Proofs.Text.Braces

/-! Namespace blocks as they occur in a text: a block starts on a line of its own and goes on to
the brace that closes it (`BlockAt`). A text that is put together from blocks and text without the
keyword (`HasBlocks`) holds these blocks, each in one place, and no other. -/

namespace NamespaceMerge.Declaration

/-- A block of namespace `name` stands in a text, right behind `before`, and holds `inside`; `last`
is the character before the text. -/
def BlockAt (last : Char) (text before name inside : Text) : Prop :=
  EndsLine (last :: before) ∧ Text.Balanced inside ∧
    ∃ after, text = before ++ (opening name ++ (inside ++ '\x7d' :: after))

/-- A text with the given blocks, and nothing else that could be taken for one. -/
inductive HasBlocks : Char → Text → List (Text × Text) → Prop
  | none {last : Char} {text : Text} (free : ¬ Text.HoldsCaseless keyword text) :
      HasBlocks last text []
  | block {last : Char} {before name inside after : Text} {blocks : List (Text × Text)}
      (start : EndsLine (last :: before)) (beforeFree : ¬ Text.HoldsCaseless keyword before)
      (brace : '\x7b' ∉ name) (newline : '\n' ∉ name)
      (balanced : Text.Balanced inside) (insideFree : ¬ Text.HoldsCaseless keyword inside)
      (rest : HasBlocks '\x7d' after blocks) :
      HasBlocks last (before ++ (opening name ++ (inside ++ '\x7d' :: after)))
        ((name, inside) :: blocks)

theorem endsLine_append_cons {a b : Text} {c : Char} :
    EndsLine (a ++ c :: b) ↔ EndsLine (c :: b) := by
  rw [EndsLine, EndsLine, List.getLast?_append_cons]

theorem endsLine_cons_append_cons {a b : Text} {c d : Char} :
    EndsLine (c :: (a ++ d :: b)) ↔ EndsLine (d :: b) := by
  rw [← List.cons_append, endsLine_append_cons]

theorem EndsLine.append (a : Text) {b : Text} (h : EndsLine b) : EndsLine (a ++ b) := by
  rw [EndsLine, List.getLast?_append, h]
  rfl

theorem EndsLine.eq_nil_or {c : Char} {text : Text} (h : EndsLine (c :: text)) :
    text = [] ∨ EndsLine text := by
  cases text with
  | nil => exact .inl rfl
  | cons d text =>
    rw [EndsLine, List.getLast?_cons_cons] at h
    exact .inr h

theorem EndsLine.of_cons {c : Char} {text : Text} (h : EndsLine (c :: text)) (hc : c ≠ '\n') :
    EndsLine text := by
  rcases h.eq_nil_or with rfl | hline
  · exact (hc (Option.some.inj h)).elim
  · exact hline

/-! ### Where a keyword can stand -/

theorem holdsCaseless_keyword (a b : Text) : Text.HoldsCaseless keyword (a ++ (keyword ++ b)) :=
  ⟨keyword, Text.spells_lower keyword, a, b, List.append_assoc a keyword b⟩

/-- A keyword does not begin before the end of a text without it. -/
theorem exists_of_append_cons_eq {a b before rest : Text} {c : Char}
    (hfree : ¬ Text.HoldsCaseless keyword a) (hc : c ∉ keyword)
    (h : a ++ c :: b = before ++ (keyword ++ rest)) :
    ∃ further, before = a ++ c :: further ∧ b = further ++ (keyword ++ rest) := by
  rw [List.append_eq_append_iff] at h
  rcases h with ⟨x, rfl, h⟩ | ⟨x, rfl, h⟩
  · cases x with
    | nil =>
      cases h
      exact (hc List.mem_cons_self).elim
    | cons d x =>
      cases h
      exact ⟨x, rfl, rfl⟩
  · rw [List.append_eq_append_iff] at h
    rcases h with ⟨y, rfl, h⟩ | ⟨y, hkeyword, h⟩
    · exact (hfree (holdsCaseless_keyword _ _)).elim
    · cases y with
      | nil =>
        rw [List.append_nil] at hkeyword
        rw [← hkeyword, ← List.append_nil keyword] at hfree
        exact (hfree (holdsCaseless_keyword _ _)).elim
      | cons d y =>
        cases h
        rw [hkeyword] at hc
        exact (hc (List.mem_append_right _ List.mem_cons_self)).elim

theorem exists_of_append_eq {last : Char} {a b before rest : Text} (hstart : EndsLine (last :: a))
    (hfree : ¬ Text.HoldsCaseless keyword a) (h : a ++ b = before ++ (keyword ++ rest)) :
    ∃ further, before = a ++ further ∧ b = further ++ (keyword ++ rest) := by
  rcases hstart.eq_nil_or with rfl | hline
  · exact ⟨before, rfl, h⟩
  · obtain ⟨line, rfl⟩ := hline.exists_eq
    have hfree' : ¬ Text.HoldsCaseless keyword line := fun hholds =>
      hfree (hholds.mono (List.prefix_append _ _).isInfix)
    rw [List.append_assoc, List.singleton_append] at h
    obtain ⟨further, rfl, rfl⟩ := exists_of_append_cons_eq hfree' (by decide) h
    exact ⟨further, by rw [List.append_assoc, List.singleton_append], rfl⟩

/-- No line starts within an opening. -/
theorem exists_of_opening_append_eq {name a before b : Text} (hname : '\n' ∉ name)
    (hbefore : EndsLine before) (h : opening name ++ a = before ++ b) :
    ∃ further, before = opening name ++ further ∧ a = further ++ b := by
  rw [List.append_eq_append_iff] at h
  rcases h with ⟨further, rfl, h⟩ | ⟨x, hopening, -⟩
  · exact ⟨further, rfl, h⟩
  · have hmem : '\n' ∈ opening name := by
      rw [hopening]
      exact List.mem_append_left _ (List.mem_of_getLast? hbefore)
    exact (newline_notMem_opening hname hmem).elim

/-- Openings of names without braces are the same if what begins with them is. -/
theorem opening_append_inj {name name' a b : Text} (hname : '\x7b' ∉ name) (hname' : '\x7b' ∉ name')
    (h : opening name ++ a = opening name' ++ b) : name = name' ∧ a = b := by
  have hspace : '\x7b' ∉ name ++ [' '] := by simp [hname]
  have hspace' : '\x7b' ∉ name' ++ [' '] := by simp [hname']
  rw [opening_append, opening_append, List.append_cancel_left_eq] at h
  have hsplit := congrArg (Text.splitOnce '\x7b') h
  rw [Text.splitOnce_append_cons hspace, Text.splitOnce_append_cons hspace', Option.some.injEq,
    Prod.mk.injEq] at hsplit
  exact ⟨List.append_cancel_right hsplit.1, hsplit.2⟩

/-- A block that stands in a text is the first one of the text, or stands behind it. -/
theorem BlockAt.cases {last : Char} {before name inside after before' name' inside' : Text}
    (hstart : EndsLine (last :: before)) (hbefore : ¬ Text.HoldsCaseless keyword before)
    (hbrace : '\x7b' ∉ name) (hline : '\n' ∉ name) (hbalanced : Text.Balanced inside)
    (hinside : ¬ Text.HoldsCaseless keyword inside) (hbrace' : '\x7b' ∉ name')
    (h : BlockAt last (before ++ (opening name ++ (inside ++ '\x7d' :: after)))
      before' name' inside') :
    (before' = before ∧ name' = name ∧ inside' = inside) ∨
      ∃ further, before' = before ++ (opening name ++ (inside ++ '\x7d' :: further)) ∧
        BlockAt '\x7d' after further name' inside' := by
  obtain ⟨hstart', hbalanced', after', htext⟩ := h
  rw [opening_append name'] at htext
  obtain ⟨x, rfl, hx⟩ := exists_of_append_eq hstart hbefore htext
  cases x with
  | nil =>
    rw [← opening_append, List.nil_append] at hx
    obtain ⟨rfl, hrest⟩ := opening_append_inj hbrace hbrace' hx
    exact .inl ⟨List.append_nil _, rfl, (hbalanced.eq_of_append_cons hbalanced' hrest).symm⟩
  | cons c x =>
    rw [endsLine_cons_append_cons] at hstart'
    obtain ⟨y, hy, hrest⟩ := exists_of_opening_append_eq hline hstart' hx
    obtain ⟨further, rfl, rfl⟩ := exists_of_append_cons_eq hinside (by decide) hrest
    rw [hy]
    refine .inr ⟨further, rfl, ?_, hbalanced', after', ?_⟩
    · rwa [hy, ← List.append_assoc, endsLine_append_cons] at hstart'
    · rw [← opening_append]

theorem HasBlocks.exists_blockAt {last : Char} {text name inside : Text}
    {blocks : List (Text × Text)} (h : HasBlocks last text blocks)
    (hmem : (name, inside) ∈ blocks) :
    ∃ before, BlockAt last text before name inside := by
  induction h with
  | none => cases hmem
  | @block last before name' inside' after blocks start _ _ _ balanced _ _ ih =>
    rcases List.mem_cons.mp hmem with heq | hmem
    · cases heq
      exact ⟨before, start, balanced, after, rfl⟩
    · obtain ⟨further, hstart, hbalanced, after', hafter⟩ := ih hmem
      refine ⟨before ++ (opening name' ++ (inside' ++ '\x7d' :: further)), ?_, hbalanced,
        after', ?_⟩
      · rwa [← List.append_assoc, ← List.append_assoc, endsLine_cons_append_cons]
      · rw [hafter]
        simp

theorem HasBlocks.mem_of_blockAt {last : Char} {text before name inside : Text}
    {blocks : List (Text × Text)} (h : HasBlocks last text blocks) (hname : '\x7b' ∉ name)
    (hat : BlockAt last text before name inside) : (name, inside) ∈ blocks := by
  induction h generalizing before with
  | none free =>
    obtain ⟨_, _, after, rfl⟩ := hat
    rw [opening_append] at free
    exact (free (holdsCaseless_keyword _ _)).elim
  | block start beforeFree brace newline balanced insideFree _ ih =>
    rcases hat.cases start beforeFree brace newline balanced insideFree hname with
      ⟨-, rfl, rfl⟩ | ⟨further, -, hfurther⟩
    · exact List.mem_cons_self
    · exact List.mem_cons_of_mem _ (ih hfurther)

/-- Of blocks with different names, each stands in one place. -/
theorem HasBlocks.before_unique {last : Char} {text before before' name inside inside' : Text}
    {blocks : List (Text × Text)} (h : HasBlocks last text blocks)
    (hnodup : (blocks.map (·.1)).Nodup) (hname : '\x7b' ∉ name)
    (hat : BlockAt last text before name inside) (hat' : BlockAt last text before' name inside') :
    before = before' := by
  induction h generalizing before before' with
  | none free =>
    obtain ⟨_, _, after, rfl⟩ := hat
    rw [opening_append] at free
    exact (free (holdsCaseless_keyword _ _)).elim
  | @block last first own held after blocks start beforeFree brace newline balanced insideFree rest
      ih =>
    rw [List.map_cons, List.nodup_cons] at hnodup
    have hother : ∀ {further inside}, ¬ BlockAt '\x7d' after further own inside := fun hfurther =>
      hnodup.1 (List.mem_map.mpr ⟨_, rest.mem_of_blockAt brace hfurther, rfl⟩)
    rcases hat.cases start beforeFree brace newline balanced insideFree hname with
      ⟨rfl, rfl, -⟩ | ⟨further, rfl, hfurther⟩ <;>
    rcases hat'.cases start beforeFree brace newline balanced insideFree hname with
      ⟨rfl, heq, -⟩ | ⟨further', rfl, hfurther'⟩
    · rfl
    · exact (hother hfurther').elim
    · rw [heq] at hfurther
      exact (hother hfurther).elim
    · rw [ih hnodup.2 hfurther hfurther']

end NamespaceMerge.Declaration
