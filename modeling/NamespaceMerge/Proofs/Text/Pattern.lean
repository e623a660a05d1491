import NamespaceMerge.Proofs.Text.Placed
import NamespaceMerge.Text.Caseless

/-! Patterns of characters and where they stand in a text. A pattern may read the start of a text
in several ways. They are listed in the order in which a backtracking matcher comes to them, so
that the first one counts (`readings`). A search goes through the text from left to right, and goes
on behind what it has found (`pieces`). A pattern that is anchored to the start of a line is looked
for once on each line: a line on which it is not found is passed over as a whole
(`pieces_line_of_none`), and so is what follows it on its line (`pieces_of_first?`). -/

namespace NamespaceMerge

inductive Pattern where
  | empty
  | one (accepts : Char → Bool)
  /-- Any number of characters, the most that can be. -/
  | most (accepts : Char → Bool)
  /-- Any number of characters, the fewest that can be. -/
  | fewest (accepts : Char → Bool)
  | lineStart
  | lineEnd
  | seq (first second : Pattern)
  /-- The second pattern only where the first leads to nothing. -/
  | either (first second : Pattern)
  /-- What the pattern takes is kept under a number. -/
  | group (number : Nat) (part : Pattern)

namespace Pattern

def literal (word : Text) : Pattern := word.foldr (fun c p => seq (one (· == c)) p) empty

/-- The word in any case; `word` is in small letters. -/
def caseless (word : Text) : Pattern :=
  word.foldr (fun letter p => seq (one (matchesCaseless letter)) p) empty

def atLeastOne (accepts : Char → Bool) : Pattern := seq (one accepts) (most accepts)

def optional (part : Pattern) : Pattern := either part empty

/-! ### Reading the start of a text -/

/-- One way in which a pattern reads the start of a text. -/
structure Reading where
  taken : Text
  rest : Text
  groups : List (Nat × Text)

namespace Reading

/-- One reading, and then another of what it leaves. -/
def append (r s : Reading) : Reading := ⟨r.taken ++ s.taken, s.rest, r.groups ++ s.groups⟩

/-- The character in front of what a reading leaves, if `previous` stands in front of the text. -/
def last? (r : Reading) (previous : Option Char) : Option Char := r.taken.getLast?.or previous

def group? (r : Reading) (number : Nat) : Option Text := r.groups.lookup number

end Reading

/-- A text cut behind a run of accepted characters, from none of them to as many as there are. -/
def runs (accepts : Char → Bool) : Text → List (Text × Text)
  | [] => [([], [])]
  | c :: text =>
    ([], c :: text) ::
      if accepts c then (runs accepts text).map fun (taken, rest) => (c :: taken, rest) else []

/-- A line starts at the start of the text and behind a newline. -/
def StartsLine (previous : Option Char) : Prop := previous.all (· == '\n') = true

/-- A line ends at the end of the text and in front of a newline. -/
def BehindLine (rest : Text) : Prop := rest.head?.all (· == '\n') = true

theorem BehindLine.eq_newline {c : Char} {rest : Text} (h : BehindLine (c :: rest)) : c = '\n' := by
  simpa [BehindLine] using h

/-- The ways to read the start of a text, with `previous` in front of it, in the order in which
they are tried. -/
def readings : Pattern → Option Char → Text → List Reading
  | empty, _, text => [⟨[], text, []⟩]
  | one _, _, [] => []
  | one accepts, _, c :: text => if accepts c then [⟨[c], text, []⟩] else []
  | most accepts, _, text => (runs accepts text).reverse.map fun (taken, rest) => ⟨taken, rest, []⟩
  | fewest accepts, _, text => (runs accepts text).map fun (taken, rest) => ⟨taken, rest, []⟩
  | lineStart, previous, text => if previous.all (· == '\n') then [⟨[], text, []⟩] else []
  | lineEnd, _, text => if text.head?.all (· == '\n') then [⟨[], text, []⟩] else []
  | seq first second, previous, text =>
    (first.readings previous text).flatMap fun r =>
      (second.readings (r.last? previous) r.rest).map r.append
  | either first second, previous, text =>
    first.readings previous text ++ second.readings previous text
  | group number part, previous, text =>
    (part.readings previous text).map fun r => { r with groups := (number, r.taken) :: r.groups }

attribute [local simp] readings

/-- The reading that counts. One that takes nothing is passed over. -/
def first? (p : Pattern) (previous : Option Char) (text : Text) : Option Reading :=
  (p.readings previous text).find? (!·.taken.isEmpty)

/-! ### Searching a text -/

inductive Piece where
  | other (c : Char)
  | found (start : Nat) (reading : Reading)

namespace Piece

def other? : Piece → Option Char
  | other c => some c
  | found _ _ => none

def found? : Piece → Option (Nat × Reading)
  | other _ => none
  | found start reading => some (start, reading)

end Piece

/-- What is found in a text that starts at `offset`, and the characters in between. The first
`skip` characters belong to what was found before. -/
def pieces (p : Pattern) (previous : Option Char) (offset skip : Nat) : Text → List Piece
  | [] => []
  | c :: text =>
    match skip with
    | skip + 1 => p.pieces (some c) (offset + 1) skip text
    | 0 =>
      match p.first? previous (c :: text) with
      | some r => .found offset r :: p.pieces (some c) (offset + 1) (r.taken.length - 1) text
      | none => .other c :: p.pieces (some c) (offset + 1) 0 text

/-- All that is found, with its offsets. -/
def findAll (p : Pattern) (text : Text) : List (Nat × Reading) :=
  (p.pieces none 0 0 text).filterMap Piece.found?

/-- The text without what is found. -/
def removeAll (p : Pattern) (text : Text) : Text := (p.pieces none 0 0 text).filterMap Piece.other?

theorem filterMap_other?_map (text : Text) :
    (text.map Piece.other).filterMap Piece.other? = text := by
  rw [List.filterMap_map]
  exact List.filterMap_some

theorem filterMap_found?_map {β : Type} (f : Nat × Reading → β) (text : Text) :
    (text.map Piece.other).filterMap (fun piece => piece.found?.map f) = [] := by
  rw [List.filterMap_map]
  exact List.filterMap_eq_nil_iff.mpr fun _ _ => rfl

/-! ### Which readings there are -/

section Readings

variable {accepts : Char → Bool} {previous : Option Char} {text : Text} {p q : Pattern}
  {r : Reading}

theorem mem_runs {taken rest : Text} :
    (taken, rest) ∈ runs accepts text ↔
      (∀ c ∈ taken, accepts c = true) ∧ text = taken ++ rest := by
  induction text generalizing taken with
  | nil =>
    rw [runs, List.mem_singleton, Prod.mk.injEq]
    constructor
    · rintro ⟨rfl, rfl⟩
      exact ⟨nofun, rfl⟩
    · rintro ⟨-, htext⟩
      exact List.append_eq_nil_iff.mp htext.symm
  | cons c text ih =>
    rw [runs, List.mem_cons, Prod.mk.injEq]
    constructor
    · rintro (⟨rfl, rfl⟩ | hr)
      · exact ⟨nofun, rfl⟩
      · split at hr
        · next hc =>
          obtain ⟨⟨inner, rest'⟩, hs, heq⟩ := List.mem_map.mp hr
          cases heq
          obtain ⟨hinner, rfl⟩ := ih.mp hs
          exact ⟨List.forall_mem_cons.mpr ⟨hc, hinner⟩, rfl⟩
        · cases hr
    · rintro ⟨htaken, htext⟩
      cases taken with
      | nil => exact .inl ⟨rfl, htext.symm⟩
      | cons d taken =>
        obtain ⟨rfl, rfl⟩ := List.cons_eq_cons.mp htext
        rw [List.forall_mem_cons] at htaken
        right
        rw [if_pos htaken.1]
        exact List.mem_map.mpr ⟨(taken, rest), ih.mpr ⟨htaken.2, rfl⟩, rfl⟩

theorem findSome?_runs_cons {β : Type} (f : Text × Text → Option β) (c : Char) (text : Text) :
    (runs accepts (c :: text)).findSome? f =
      (f ([], c :: text)).or (if accepts c then
        (runs accepts text).findSome? fun run => f (c :: run.1, run.2) else none) := by
  rw [runs, List.findSome?_cons]
  cases f ([], c :: text) with
  | some b => rfl
  | none =>
    rw [Option.none_or]
    by_cases hc : accepts c = true
    · rw [if_pos hc, if_pos hc, List.findSome?_map]
      rfl
    · rw [if_neg hc, if_neg hc, List.findSome?_nil]

theorem mem_readings_empty : r ∈ empty.readings previous text ↔ r = ⟨[], text, []⟩ := by
  rw [readings, List.mem_singleton]

theorem mem_readings_one : r ∈ (one accepts).readings previous text ↔
    ∃ c rest, text = c :: rest ∧ accepts c ∧ r = ⟨[c], rest, []⟩ := by
  cases text with
  | nil => simp
  | cons c text =>
    rw [readings]
    split
    · next hc =>
      rw [List.mem_singleton]
      constructor
      · rintro rfl
        exact ⟨c, text, rfl, hc, rfl⟩
      · rintro ⟨d, rest, htext, -, rfl⟩
        cases htext
        rfl
    · next hc => simp [hc]

theorem mem_readings_fewest : r ∈ (fewest accepts).readings previous text ↔
    ((∀ c ∈ r.taken, accepts c = true) ∧ r.groups = []) ∧ text = r.taken ++ r.rest := by
  rw [readings, List.mem_map]
  constructor
  · rintro ⟨⟨taken, rest⟩, hrun, rfl⟩
    obtain ⟨htaken, htext⟩ := mem_runs.mp hrun
    exact ⟨⟨htaken, rfl⟩, htext⟩
  · rintro ⟨⟨htaken, hgroups⟩, htext⟩
    exact ⟨(r.taken, r.rest), mem_runs.mpr ⟨htaken, htext⟩, by rw [← hgroups]⟩

/-- Whether many or few are taken first is a matter of order only. -/
theorem mem_readings_most : r ∈ (most accepts).readings previous text ↔
    r ∈ (fewest accepts).readings previous text := by
  rw [readings, readings, List.map_reverse, List.mem_reverse]

theorem mem_readings_lineStart : r ∈ lineStart.readings previous text ↔
    StartsLine previous ∧ r = ⟨[], text, []⟩ := by
  rw [readings, StartsLine]
  split <;> simp_all

theorem mem_readings_lineEnd : r ∈ lineEnd.readings previous text ↔
    BehindLine text ∧ r = ⟨[], text, []⟩ := by
  rw [readings, BehindLine]
  split <;> simp_all

theorem mem_readings_seq : r ∈ (seq p q).readings previous text ↔
    ∃ s ∈ p.readings previous text, ∃ t ∈ q.readings (s.last? previous) s.rest,
      r = s.append t := by
  simp only [readings, List.mem_flatMap, List.mem_map, eq_comm]

theorem mem_readings_either : r ∈ (either p q).readings previous text ↔
    r ∈ p.readings previous text ∨ r ∈ q.readings previous text := by
  rw [readings, List.mem_append]

theorem mem_readings_group {number : Nat} : r ∈ (group number p).readings previous text ↔
    ∃ s ∈ p.readings previous text, r = { s with groups := (number, s.taken) :: s.groups } := by
  simp only [readings, List.mem_map, eq_comm]

/-- A reading takes what stands at the start of the text, and leaves what follows. -/
theorem taken_append_rest (h : r ∈ p.readings previous text) : r.taken ++ r.rest = text := by
  induction p generalizing previous text r with
  | empty =>
    obtain rfl := mem_readings_empty.mp h
    rfl
  | one accepts =>
    obtain ⟨c, rest, rfl, -, rfl⟩ := mem_readings_one.mp h
    rfl
  | most accepts => exact (mem_readings_fewest.mp (mem_readings_most.mp h)).2.symm
  | fewest accepts => exact (mem_readings_fewest.mp h).2.symm
  | lineStart =>
    obtain ⟨-, rfl⟩ := mem_readings_lineStart.mp h
    rfl
  | lineEnd =>
    obtain ⟨-, rfl⟩ := mem_readings_lineEnd.mp h
    rfl
  | seq first second ihfirst ihsecond =>
    obtain ⟨s, hs, t, ht, rfl⟩ := mem_readings_seq.mp h
    rw [← ihfirst hs, ← ihsecond ht, Reading.append, List.append_assoc]
  | either first second ihfirst ihsecond =>
    rcases mem_readings_either.mp h with h | h
    · exact ihfirst h
    · exact ihsecond h
  | group number part ih =>
    obtain ⟨s, hs, rfl⟩ := mem_readings_group.mp h
    exact ih (r := s) hs

end Readings

/-! ### Patterns without anchors -/

/-- Whether a pattern reads a text whatever stands around what it takes. -/
def plain : Pattern → Bool
  | lineStart | lineEnd => false
  | seq first second | either first second => first.plain && second.plain
  | group _ part => part.plain
  | empty | one _ | most _ | fewest _ => true

/-- What a pattern without anchors may take, with its groups. -/
def Takes : Pattern → Text → List (Nat × Text) → Prop
  | empty, taken, groups => taken = [] ∧ groups = []
  | one accepts, taken, groups => ∃ c, accepts c = true ∧ taken = [c] ∧ groups = []
  | most accepts, taken, groups | fewest accepts, taken, groups =>
    (∀ c ∈ taken, accepts c = true) ∧ groups = []
  | lineStart, _, _ | lineEnd, _, _ => False
  | seq first second, taken, groups =>
    ∃ a as, first.Takes a as ∧ ∃ b bs, second.Takes b bs ∧ taken = a ++ b ∧ groups = as ++ bs
  | either first second, taken, groups => first.Takes taken groups ∨ second.Takes taken groups
  | group number part, taken, groups =>
    ∃ inner, part.Takes taken inner ∧ groups = (number, taken) :: inner

/-- The readings of a pattern without anchors are those that take what it may take. -/
theorem mem_readings_iff {p : Pattern} (hp : p.plain = true) {previous : Option Char} {text : Text}
    {r : Reading} :
    r ∈ p.readings previous text ↔ p.Takes r.taken r.groups ∧ text = r.taken ++ r.rest := by
  induction p generalizing previous text r with
  | empty =>
    obtain ⟨taken, rest, groups⟩ := r
    simp only [mem_readings_empty, Takes, Reading.mk.injEq]
    constructor
    · rintro ⟨rfl, rfl, rfl⟩
      exact ⟨⟨rfl, rfl⟩, rfl⟩
    · rintro ⟨⟨rfl, rfl⟩, rfl⟩
      exact ⟨rfl, rfl, rfl⟩
  | one accepts =>
    obtain ⟨taken, rest, groups⟩ := r
    simp only [mem_readings_one, Takes, Reading.mk.injEq]
    constructor
    · rintro ⟨c, rest, rfl, hc, rfl, rfl, rfl⟩
      exact ⟨⟨c, hc, rfl, rfl⟩, rfl⟩
    · rintro ⟨⟨c, hc, rfl, rfl⟩, rfl⟩
      exact ⟨c, rest, rfl, hc, rfl, rfl, rfl⟩
  | most accepts => rw [mem_readings_most, mem_readings_fewest, Takes]
  | fewest accepts => rw [mem_readings_fewest, Takes]
  | lineStart => cases hp
  | lineEnd => cases hp
  | seq first second ihfirst ihsecond =>
    obtain ⟨hfirst, hsecond⟩ := Bool.and_eq_true_iff.mp hp
    rw [mem_readings_seq, Takes]
    constructor
    · rintro ⟨s, hs, t, ht, rfl⟩
      obtain ⟨hs, htext⟩ := (ihfirst hfirst).mp hs
      obtain ⟨ht, hrest⟩ := (ihsecond hsecond).mp ht
      refine ⟨⟨s.taken, s.groups, hs, t.taken, t.groups, ht, rfl, rfl⟩, ?_⟩
      rw [htext, hrest, Reading.append, List.append_assoc]
    · obtain ⟨taken, rest, groups⟩ := r
      rintro ⟨⟨a, as, ha, b, bs, hb, rfl, rfl⟩, rfl⟩
      exact ⟨⟨a, b ++ rest, as⟩, (ihfirst hfirst).mpr ⟨ha, List.append_assoc a b rest⟩,
        ⟨b, rest, bs⟩, (ihsecond hsecond).mpr ⟨hb, rfl⟩, rfl⟩
  | either first second ihfirst ihsecond =>
    obtain ⟨hfirst, hsecond⟩ := Bool.and_eq_true_iff.mp hp
    rw [mem_readings_either, ihfirst hfirst, ihsecond hsecond, Takes, or_and_right]
  | group number part ih =>
    rw [mem_readings_group, Takes]
    constructor
    · rintro ⟨s, hs, rfl⟩
      obtain ⟨hs, htext⟩ := (ih hp).mp hs
      exact ⟨⟨s.groups, hs, rfl⟩, htext⟩
    · rintro ⟨⟨inner, hinner, hgroups⟩, htext⟩
      exact ⟨⟨r.taken, r.rest, inner⟩, (ih hp).mpr ⟨hinner, htext⟩, by rw [← hgroups]⟩

/-- What stands in front of a text does not matter to a pattern without anchors. -/
theorem readings_of_plain {p : Pattern} (hp : p.plain = true) (previous previous' : Option Char)
    (text : Text) : p.readings previous text = p.readings previous' text := by
  induction p generalizing previous previous' text with
  | empty => rfl
  | one accepts => cases text <;> rfl
  | most accepts => rfl
  | fewest accepts => rfl
  | lineStart => cases hp
  | lineEnd => cases hp
  | seq first second ihfirst ihsecond =>
    obtain ⟨hfirst, hsecond⟩ := Bool.and_eq_true_iff.mp hp
    rw [readings, readings, ihfirst hfirst previous previous']
    congr 1
    funext r
    rw [ihsecond hsecond (r.last? previous) (r.last? previous')]
  | either first second ihfirst ihsecond =>
    obtain ⟨hfirst, hsecond⟩ := Bool.and_eq_true_iff.mp hp
    rw [readings, readings, ihfirst hfirst previous previous',
      ihsecond hsecond previous previous']
  | group number part ih => rw [readings, readings, ih hp previous previous']

theorem takes_literal {word taken : Text} {groups : List (Nat × Text)} :
    (literal word).Takes taken groups ↔ taken = word ∧ groups = [] := by
  induction word generalizing taken groups with
  | nil => rfl
  | cons c word ih =>
    constructor
    · rintro ⟨_, _, ⟨d, hd, rfl, rfl⟩, _, _, hword, rfl, rfl⟩
      obtain ⟨rfl, rfl⟩ := ih.mp hword
      rw [beq_iff_eq.mp hd]
      exact ⟨rfl, rfl⟩
    · rintro ⟨rfl, rfl⟩
      exact ⟨[c], [], ⟨c, beq_self_eq_true c, rfl, rfl⟩, word, [], ih.mpr ⟨rfl, rfl⟩, rfl, rfl⟩

theorem takes_atLeastOne {accepts : Char → Bool} {taken : Text} {groups : List (Nat × Text)} :
    (atLeastOne accepts).Takes taken groups ↔
      (taken ≠ [] ∧ ∀ c ∈ taken, accepts c = true) ∧ groups = [] := by
  constructor
  · rintro ⟨_, _, ⟨c, hc, rfl, rfl⟩, more, _, ⟨hmore, rfl⟩, rfl, rfl⟩
    exact ⟨⟨List.cons_ne_nil c more, List.forall_mem_cons.mpr ⟨hc, hmore⟩⟩, rfl⟩
  · rintro ⟨⟨hne, hall⟩, rfl⟩
    obtain ⟨c, more, rfl⟩ := List.exists_cons_of_ne_nil hne
    rw [List.forall_mem_cons] at hall
    exact ⟨[c], [], ⟨c, hall.1, rfl, rfl⟩, more, [], ⟨hall.2, rfl⟩, rfl, rfl⟩

theorem Takes.seq {p q : Pattern} {a b : Text} {as bs : List (Nat × Text)} (ha : p.Takes a as)
    (hb : q.Takes b bs) : (p.seq q).Takes (a ++ b) (as ++ bs) :=
  ⟨a, as, ha, b, bs, hb, rfl, rfl⟩

/-! ### Patterns at the start of a line -/

/-- A pattern that reads nothing but the start of a line. -/
def Anchored (p : Pattern) : Prop := ∀ c ≠ '\n', ∀ text, p.readings (some c) text = []

theorem anchored_seq_lineStart (p : Pattern) : Anchored (seq lineStart p) := by
  intro c hc text
  have hstart : lineStart.readings (some c) text = [] := if_neg (by simpa using hc)
  rw [readings, hstart, List.flatMap_nil]

theorem Anchored.seq {p : Pattern} (hp : Anchored p) (q : Pattern) : Anchored (seq p q) := by
  intro c hc text
  rw [readings, hp c hc, List.flatMap_nil]

theorem Anchored.first?_eq_none {p : Pattern} (hp : Anchored p) {c : Char} (hc : c ≠ '\n')
    (text : Text) : p.first? (some c) text = none := by
  rw [first?, hp c hc, List.find?_nil]

/-- At the start of a line, the anchor adds nothing to a reading. -/
theorem readings_seq_lineStart {previous : Option Char} (h : StartsLine previous) (p : Pattern)
    (text : Text) : (seq lineStart p).readings previous text = p.readings previous text := by
  have hstart : lineStart.readings previous text = [⟨[], text, []⟩] := if_pos h
  rw [readings, hstart, List.flatMap_singleton]
  exact List.map_id _

/-! ### What is found line by line -/

section Pieces

variable {p : Pattern} {previous : Option Char} {text : Text}

theorem getLast?_cons_or (c : Char) (text : Text) (previous : Option Char) :
    (c :: text).getLast?.or previous = text.getLast?.or (some c) := by
  cases h : text.getLast? <;> simp [List.getLast?_cons, h]

theorem pieces_append_of_skip (taken rest : Text) (previous : Option Char) (offset : Nat) :
    p.pieces previous offset taken.length (taken ++ rest) =
      p.pieces (taken.getLast?.or previous) (offset + taken.length) 0 rest := by
  induction taken generalizing previous offset with
  | nil => rfl
  | cons c taken ih =>
    rw [List.cons_append, List.length_cons, pieces, ih, getLast?_cons_or, Nat.add_assoc,
      Nat.add_comm 1]

/-- The search goes on behind what is found. -/
theorem pieces_of_first? {r : Reading} (h : p.first? previous text = some r) (offset : Nat) :
    p.pieces previous offset 0 text =
      .found offset r :: p.pieces (r.last? previous) (offset + r.taken.length) 0 r.rest := by
  have htext : r.taken ++ r.rest = text := taken_append_rest (List.mem_of_find?_eq_some h)
  have htaken : r.taken ≠ [] := by simpa using List.find?_some h
  obtain ⟨c, taken, hcons⟩ := List.exists_cons_of_ne_nil htaken
  rw [hcons, List.cons_append] at htext
  rw [← htext] at h ⊢
  have hskip : r.taken.length - 1 = taken.length := by rw [hcons, List.length_cons]; rfl
  have hlength : offset + r.taken.length = offset + 1 + taken.length := by
    rw [hcons, List.length_cons]
    omega
  have hlast : r.last? previous = taken.getLast?.or (some c) := by
    rw [Reading.last?, hcons, getLast?_cons_or]
  rw [pieces, h]
  simp only [hskip, pieces_append_of_skip, hlength, hlast]

theorem pieces_of_first?_eq_none {c : Char} (h : p.first? previous (c :: text) = none)
    (offset : Nat) :
    p.pieces previous offset 0 (c :: text) = .other c :: p.pieces (some c) (offset + 1) 0 text := by
  rw [pieces, h]

/-- Characters up to the end of a line at most are left as they are if nothing is found at the
first of them, since behind it no line starts. -/
theorem Anchored.pieces_append (hp : Anchored p) {part rest : Text} (hpart : '\n' ∉ part.dropLast)
    (h : p.first? previous (part ++ rest) = none) (offset : Nat) :
    p.pieces previous offset 0 (part ++ rest) =
      part.map .other ++ p.pieces (part.getLast?.or previous) (offset + part.length) 0 rest := by
  induction part generalizing previous offset with
  | nil => rfl
  | cons c part ih =>
    rw [List.cons_append] at h
    rw [List.cons_append, pieces_of_first?_eq_none h, getLast?_cons_or, List.map_cons,
      List.cons_append, List.length_cons]
    cases part with
    | nil => rfl
    | cons next part =>
      rw [List.dropLast_cons_cons, List.mem_cons, not_or] at hpart
      rw [ih hpart.2 (hp.first?_eq_none (Ne.symm hpart.1) _), Nat.add_assoc, Nat.add_comm 1]

/-- Behind a line and its newline, the next line starts. -/
theorem pieces_next_line {line rest : Text} (hrest : BehindLine rest) (offset : Nat) :
    p.pieces ((line ++ rest.take 1).getLast?.or previous) (offset + (line ++ rest.take 1).length) 0
        (rest.drop 1) =
      p.pieces (some '\n') (offset + line.length + 1) 0 (rest.drop 1) := by
  cases rest with
  | nil => simp [pieces]
  | cons c rest =>
    obtain rfl := hrest.eq_newline
    simp [Nat.add_assoc]

/-- A line on which nothing is found is left as it is. -/
theorem Anchored.pieces_line (hp : Anchored p) {line rest : Text} (hline : '\n' ∉ line)
    (hrest : BehindLine rest) (h : p.first? previous (line ++ rest) = none) (offset : Nat) :
    p.pieces previous offset 0 (line ++ rest) =
      (line ++ rest.take 1).map .other ++
        p.pieces (some '\n') (offset + line.length + 1) 0 (rest.drop 1) := by
  have hend : '\n' ∉ (line ++ rest.take 1).dropLast := by
    cases rest with
    | nil =>
      rw [List.take_nil, List.append_nil]
      exact fun hmem => hline (List.dropLast_subset _ hmem)
    | cons c rest =>
      rw [List.take_one, List.head?_cons, Option.toList_some, List.dropLast_concat]
      exact hline
  have htext : line ++ rest = (line ++ rest.take 1) ++ rest.drop 1 := by
    rw [List.append_assoc, List.take_append_drop]
  rw [htext] at h ⊢
  rw [hp.pieces_append hend h, pieces_next_line hrest]

/-- Behind something that is found, the rest of its line is left as it is. -/
theorem Anchored.pieces_rest (hp : Anchored p) {c : Char} (hc : c ≠ '\n') {line rest : Text}
    (hline : '\n' ∉ line) (hrest : BehindLine rest) (offset : Nat) :
    p.pieces (some c) offset 0 (line ++ rest) =
      (line ++ rest.take 1).map .other ++
        p.pieces (some '\n') (offset + line.length + 1) 0 (rest.drop 1) :=
  hp.pieces_line hline hrest (hp.first?_eq_none hc _) offset

/-- What a search does is known from what it does on each line. -/
theorem filterMap_pieces {β : Type} {f : Piece → Option β} {step : PlacedLine → List β}
    (hstep : ∀ previous line rest, StartsLine previous → '\n' ∉ line → BehindLine rest →
      ∀ offset, (p.pieces previous offset 0 (line ++ rest)).filterMap f =
        step ⟨offset, line, rest.take 1⟩ ++
          (p.pieces (some '\n') (offset + line.length + 1) 0 (rest.drop 1)).filterMap f)
    (text : Text) :
    (p.pieces none 0 0 text).filterMap f = (Text.placedLines text).flatMap step := by
  have hlines : ∀ lines : List Text, (∀ line ∈ lines, '\n' ∉ line) → ∀ previous,
      StartsLine previous → ∀ offset,
      (p.pieces previous offset 0 (Text.join ['\n'] lines)).filterMap f =
        (Text.placedFrom offset lines).flatMap step := by
    intro lines h
    induction lines with
    | nil =>
      intro previous _ offset
      rfl
    | cons line rest ih =>
      intro previous hprevious offset
      rw [List.forall_mem_cons] at h
      cases rest with
      | nil =>
        have hlast := hstep previous line [] hprevious h.1 rfl offset
        rw [List.append_nil] at hlast
        rw [Text.join_singleton, hlast]
        simp [pieces, Text.placedFrom]
      | cons next rest =>
        have hfirst := hstep previous line ('\n' :: Text.join ['\n'] (next :: rest)) hprevious h.1
          rfl offset
        rw [Text.join_cons _ _ (List.cons_ne_nil _ _), List.singleton_append, hfirst,
          List.drop_one, List.tail_cons, ih h.2 (some '\n') rfl, Text.placedFrom,
          List.flatMap_cons]
        rfl
  have htext := hlines (Text.splitAll '\n' text) (fun _ => Text.notMem_of_mem_splitAll) none rfl 0
  rwa [Text.join_splitAll] at htext

end Pieces

end Pattern

end NamespaceMerge
