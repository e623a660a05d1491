import NamespaceMerge.Proofs.Json.Keyed

/-! Documents that are nested deeper than their reader goes. A reader with a limit reads what a
reader without one reads, unless the nesting stops it (`read_within`). Without a limit that never
happens (`not_stops_none`), and with one there are documents to which it does
(`stops_brackets`). -/

namespace NamespaceMerge.Json

variable {α β : Type}

/-! ### Outcomes with a limit and without -/

/-- The outcome is no stop by the nesting. -/
def Unstopped (outcome : Except Refusal α) : Prop :=
  ∀ refusal, outcome = .error refusal → refusal.cause ≠ .nesting

namespace Unstopped

variable {outcome : Except Refusal α}

theorem ok (a : α) : Unstopped (.ok a) := fun _ h => by cases h

theorem error {refusal : Refusal} (h : refusal.cause ≠ .nesting) :
    Unstopped (.error refusal : Except Refusal α) := by
  rintro _ heq
  cases heq
  exact h

theorem map (h : Unstopped outcome) (f : α → β) : Unstopped (outcome.map f) := by
  cases outcome with
  | ok a => exact .ok _
  | error refusal => exact .error (h _ rfl)

end Unstopped

/-- The outcome of a reader with a limit, if there is one, is that of a reader without, or else the
nesting has stopped it. -/
def Agrees (levels : Option Nat) (limited whole : Except Refusal α) : Prop :=
  limited = whole ∧ Unstopped whole ∨ levels ≠ none ∧ ∃ rest, limited = .error ⟨.nesting, rest⟩

namespace Agrees

variable {levels : Option Nat} {limited whole : Except Refusal α}

theorem refl (h : Unstopped whole) : Agrees levels whole whole := .inl ⟨rfl, h⟩

theorem ok (a : α) : Agrees levels (.ok a) (.ok a) := .refl (.ok a)

theorem error {refusal : Refusal} (h : refusal.cause ≠ .nesting) :
    Agrees levels (.error refusal : Except Refusal α) (.error refusal) :=
  .refl (.error h)

/-- Where no level is left, a reader is stopped. -/
theorem stopped (h : levels = some 0) (rest : Text) :
    Agrees levels (.error ⟨.nesting, rest⟩) whole :=
  .inr ⟨by simp [h], rest, rfl⟩

/-- What holds a level further down. -/
theorem below (h : Agrees (levels.map (· - 1)) limited whole) : Agrees levels limited whole := by
  refine h.imp_right fun hstop => ⟨fun hnone => hstop.1 ?_, hstop.2⟩
  rw [hnone]
  rfl

theorem map (h : Agrees levels limited whole) (f : α → β) :
    Agrees levels (limited.map f) (whole.map f) := by
  rcases h with ⟨rfl, hwhole⟩ | ⟨hlevels, rest, rfl⟩
  · exact .refl (hwhole.map f)
  · exact .inr ⟨hlevels, rest, rfl⟩

theorem bind (h : Agrees levels limited whole) {f g : α → Except Refusal β}
    (hnext : ∀ a, Agrees levels (f a) (g a)) : Agrees levels (limited >>= f) (whole >>= g) := by
  rcases h with ⟨rfl, hwhole⟩ | ⟨hlevels, rest, rfl⟩
  · cases limited with
    | error refusal => exact .error (hwhole _ rfl)
    | ok a => exact hnext a
  · exact .inr ⟨hlevels, rest, rfl⟩

end Agrees

/-! ### One step of reading, from the steps below it -/

theorem unstopped_readUnits (opening text : Text) : Unstopped (readUnits opening text) := by
  fun_induction readUnits opening text with
  | case1 | case3 | case4 | case6 | case8 => exact .error (by simp)
  | case2 => exact .ok _
  | case5 | case7 | case9 => exact .map ‹_› _

section

variable {depth : Nat}
  (hvalue : ∀ levels text, Agrees levels (readValue levels depth text) (readValue none depth text))
  (hitems : ∀ levels text, Agrees levels (readItems levels depth text) (readItems none depth text))
  (hmembers : ∀ levels text,
    Agrees levels (readMembers levels depth text) (readMembers none depth text))

include hitems hmembers in
theorem agrees_readValue_succ (levels : Option Nat) (text : Text) :
    Agrees levels (readValue levels (depth + 1) text) (readValue none (depth + 1) text) := by
  rw [readValue.eq_def, readValue.eq_def none]
  simp only [reduceCtorEq, if_false, Option.map_none]
  split
  case h_1 => exact .refl ((unstopped_readUnits _ _).map _)
  case h_2 =>
    split
    · next hlevels => exact .stopped hlevels _
    · split
      · exact .ok _
      · exact ((hitems _ _).map _).below
  case h_3 =>
    split
    · next hlevels => exact .stopped hlevels _
    · split
      · exact .ok _
      · exact ((hmembers _ _).map _).below
  case h_4 =>
    split
    · exact .ok _
    · split
      · exact .ok _
      · exact .error (by simp)

include hvalue hitems in
theorem agrees_readItems_succ (levels : Option Nat) (text : Text) :
    Agrees levels (readItems levels (depth + 1) text) (readItems none (depth + 1) text) := by
  rw [readItems, readItems]
  refine (hvalue levels text).bind fun read => ?_
  obtain ⟨item, rest⟩ := read
  simp only
  split
  · exact .ok _
  · exact (hitems _ _).map _
  · exact .error (by simp)

include hvalue hmembers in
theorem agrees_readMembers_succ (levels : Option Nat) (text : Text) :
    Agrees levels (readMembers levels (depth + 1) text) (readMembers none (depth + 1) text) := by
  rw [readMembers.eq_def, readMembers.eq_def none]
  simp only
  split
  case h_2 => exact .error (by simp)
  case h_1 =>
    refine (Agrees.refl (unstopped_readUnits _ _)).bind fun read => ?_
    obtain ⟨key, rest⟩ := read
    simp only
    split
    · refine (hvalue _ _).bind fun read => ?_
      obtain ⟨value, rest⟩ := read
      simp only
      split
      · exact .ok _
      · exact (hmembers _ _).map _
      · exact .error (by simp)
    · exact .error (by simp)

end

/-! ### Whole documents -/

theorem agrees_readValue (depth : Nat) :
    (∀ levels text,
      Agrees levels (readValue levels depth text) (readValue none depth text)) ∧
    (∀ levels text,
      Agrees levels (readItems levels depth text) (readItems none depth text)) ∧
    (∀ levels text,
      Agrees levels (readMembers levels depth text) (readMembers none depth text)) := by
  induction depth with
  | zero =>
    refine ⟨fun levels text => ?_, fun levels text => ?_, fun levels text => ?_⟩
    · rw [readValue, readValue]
      exact .error (by simp)
    · rw [readItems, readItems]
      exact .error (by simp)
    · rw [readMembers, readMembers]
      exact .error (by simp)
  | succ depth ih =>
    obtain ⟨hvalue, hitems, hmembers⟩ := ih
    exact ⟨agrees_readValue_succ hitems hmembers, agrees_readItems_succ hvalue hitems,
      agrees_readMembers_succ hvalue hmembers⟩

theorem agrees_readDocument (document : Text) (levels : Option Nat) :
    Agrees levels (readDocument document levels) (readDocument document) := by
  rw [readDocument, readDocument]
  split
  · exact .error (by simp)
  · refine ((agrees_readValue _).1 levels _).bind fun read => ?_
    obtain ⟨value, rest⟩ := read
    simp only
    split
    · exact .ok _
    · exact .error (by simp)

/-- The nesting of a document stops a reader that goes down to `levels` levels. -/
def Stops (levels : Option Nat) (document : Text) : Prop :=
  ∃ error, read document levels = .error error ∧ error.cause = .nesting

/-- A reader that goes down to so many levels reads what every reader reads, unless it is stopped by
the nesting. -/
theorem read_within (document : Text) (levels : Option Nat) :
    read document levels = read document ∨ Stops levels document := by
  rcases agrees_readDocument document levels with ⟨heq, -⟩ | ⟨-, rest, heq⟩
  · exact .inl (by rw [read, read, heq])
  · exact .inr ⟨_, by rw [read, heq]; rfl, rfl⟩

/-- Without a limit, a reader is stopped by no nesting. -/
theorem not_stops_none (document : Text) : ¬ Stops none document := by
  rintro ⟨error, hread, hcause⟩
  rcases agrees_readDocument document none with ⟨-, hwhole⟩ | ⟨hnone, -⟩
  · rw [read] at hread
    cases hdocument : readDocument document with
    | ok value =>
      rw [hdocument] at hread
      cases hread
    | error refusal =>
      rw [hdocument] at hread
      cases hread
      exact hwhole refusal hdocument hcause
  · exact hnone rfl

/-- Brackets that open one behind the other stop every reader that goes less deep. -/
theorem readValue_brackets {levels count depth : Nat} (hcount : levels < count)
    (hdepth : 2 * levels < depth) :
    ∃ rest, readValue (some levels) depth (List.replicate count '[') = .error ⟨.nesting, rest⟩ := by
  obtain ⟨count, rfl⟩ := Nat.exists_eq_add_one_of_ne_zero (Nat.ne_of_gt (Nat.zero_lt_of_lt hcount))
  obtain ⟨depth, rfl⟩ := Nat.exists_eq_add_one_of_ne_zero (Nat.ne_of_gt (Nat.zero_lt_of_lt hdepth))
  induction levels generalizing count depth with
  | zero =>
    refine ⟨'[' :: List.replicate count '[', ?_⟩
    rw [List.replicate_succ, readValue, if_pos rfl]
  | succ levels ih =>
    obtain ⟨count, rfl⟩ := Nat.exists_eq_add_one_of_ne_zero (show count ≠ 0 by omega)
    obtain ⟨depth, rfl⟩ := Nat.exists_eq_add_one_of_ne_zero (show depth ≠ 0 by omega)
    obtain ⟨depth, rfl⟩ := Nat.exists_eq_add_one_of_ne_zero (show depth ≠ 0 by omega)
    obtain ⟨rest, hrest⟩ := ih count (by omega) depth (by omega)
    refine ⟨rest, ?_⟩
    have hskip : skipSpace (List.replicate (count + 1) '[') = List.replicate (count + 1) '[' := by
      rw [List.replicate_succ, skipSpace, List.dropWhile_cons_of_neg (by decide)]
    have hitems : readItems (some levels) (depth + 2) (List.replicate (count + 1) '[') =
        .error ⟨.nesting, rest⟩ := by
      rw [readItems, hrest]
      rfl
    rw [List.replicate_succ, readValue, if_neg (by simp), hskip]
    split
    case h_1 heq =>
      rw [List.replicate_succ] at heq
      cases heq
    case h_2 =>
      rw [Option.map_some, Nat.add_sub_cancel, hitems]
      rfl

/-- For every reader with a limit there is a document that it does not get through. -/
theorem stops_brackets {levels count : Nat} (h : levels < count) :
    Stops (some levels) (List.replicate count '[') := by
  obtain ⟨rest, hread⟩ := readValue_brackets h
    (show 2 * levels < 2 * (List.replicate count '[').length + 2 by
      rw [List.length_replicate]
      omega)
  obtain ⟨count, rfl⟩ := Nat.exists_eq_add_one_of_ne_zero (Nat.ne_of_gt (Nat.zero_lt_of_lt h))
  have hskip : skipSpace (List.replicate (count + 1) '[') = List.replicate (count + 1) '[' := by
    rw [List.replicate_succ, skipSpace, List.dropWhile_cons_of_neg (by decide)]
  have hmark : (List.replicate (count + 1) '[').head? ≠ some '\ufeff' := by
    rw [List.replicate_succ, List.head?_cons]
    decide
  have hdocument : readDocument (List.replicate (count + 1) '[') (some levels) =
      .error ⟨.nesting, rest⟩ := by
    rw [readDocument, if_neg hmark, hskip, hread]
    rfl
  exact ⟨_, by rw [read, hdocument]; rfl, rfl⟩

end NamespaceMerge.Json
