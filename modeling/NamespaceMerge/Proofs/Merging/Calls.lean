import NamespaceMerge.Proofs.Merging.Steps

/-! A merger that is called again and again. No step of a merge looks at what was said and asked
for before (`Step.Framed`), and what else the last call left behind is forgotten at the start, so a
merge gives the same after any calls as at first (`outcome_afterCalls`). What is there after a
merge that ends without a script comes from the way in which each step ends (`Step.Ends`). -/

namespace NamespaceMerge.ScriptMerger

open SourceMap (Loaded)

variable {ε α β : Type}

/-! ### What was said and asked for before -/

/-- The merger, with what was said and asked for before. -/
def behind (m past : ScriptMerger) : ScriptMerger :=
  { m with asked := past.asked ++ m.asked, journal := past.journal ++ m.journal }

/-- The result of a step, with what was said and asked for before. -/
def Step.resultBehind (past : ScriptMerger) :
    EStateM.Result (ScriptFault ⊕ ε) ScriptMerger α →
      EStateM.Result (ScriptFault ⊕ ε) ScriptMerger α
  | .ok a after => .ok a (after.behind past)
  | .error fault after => .error fault (after.behind past)

/-- A step takes no notice of what was said and asked for before. -/
def Step.Framed (x : Step ε α) : Prop :=
  ∀ past m, x.run (m.behind past) = resultBehind past (x.run m)

namespace Step.Framed

theorem pure (a : α) : Framed (pure a : Step ε α) := fun _ _ => rfl

theorem throw (e : ScriptFault ⊕ ε) : Framed (throw e : Step ε α) := fun _ _ => rfl

theorem modifyGet {f : ScriptMerger → α × ScriptMerger}
    (h : ∀ past m, f (m.behind past) = ((f m).1, (f m).2.behind past)) :
    Framed (modifyGet f : Step ε α) := by
  intro past m
  rw [EStateM.run_modifyGet, EStateM.run_modifyGet, h, resultBehind]

theorem modify {f : ScriptMerger → ScriptMerger}
    (h : ∀ past m, f (m.behind past) = (f m).behind past) : Framed (modify f : Step ε Unit) :=
  modifyGet fun past m => by rw [h]

theorem bind {x : Step ε α} {f : α → Step ε β} (hx : Framed x) (hf : ∀ a, Framed (f a)) :
    Framed (x >>= f) := by
  intro past m
  rw [EStateM.run_bind, EStateM.run_bind, hx]
  cases x.run m with
  | ok a m => exact hf a past m
  | error e m => rfl

/-- A step may look at all but what was said and asked for before. -/
theorem get_bind {f : ScriptMerger → Step ε α} (hf : ∀ m, Framed (f m))
    (hsame : ∀ past m, f (m.behind past) = f m) : Framed (get >>= f) := by
  intro past m
  rw [EStateM.run_bind, EStateM.run_bind, EStateM.run_get, EStateM.run_get]
  simp only [hsame]
  exact hf m past m

end Step.Framed

namespace Step

variable (loader : Option (Text → Except ε Loaded)) (statements : List Script.Statement)

theorem framed_forget : Framed (forget (ε := ε)) := .modify fun _ _ => rfl

theorem framed_say (entries : List Entry) : Framed (say (ε := ε) entries) :=
  .modify fun past m => by simp only [behind, Journal.append_assoc]

theorem framed_parse : Framed (parse (ε := ε)) := by
  refine .get_bind (fun m => ?_) fun _ _ => rfl
  split
  · exact .throw _
  · split
    · exact .pure _
    · exact .throw _
    · exact .bind (.modify fun past m => by
          simp only [behind, Journal.fail_append])
        fun _ => .throw _

theorem framed_optimize : Framed (optimize (ε := ε) statements) :=
  .modifyGet fun past m => by
    simp only [behind, ScriptMerger.optimize, Prod.swap, Journal.append_assoc]

theorem framed_print : Framed (print (ε := ε) statements) := by
  refine .get_bind (fun m => ?_) fun _ _ => rfl
  split
  · exact .throw _
  · split
    · exact .throw _
    · exact .pure _

theorem framed_original : Framed (original loader) := by
  refine .get_bind (fun m => ?_) fun _ _ => rfl
  split
  · exact .pure _
  · split
    · exact .throw _
    · refine .bind (.modify fun past m => by simp only [behind, List.append_assoc]) fun _ => ?_
      split
      · exact .throw _
      · exact .bind (framed_say _) fun _ => .pure _

theorem framed_create : Framed (create loader statements) :=
  .bind (framed_print statements) fun _ => .bind (framed_original loader) fun _ =>
    .get_bind (fun _ => .bind (.modify fun _ _ => rfl) fun _ => .pure _) fun _ _ => rfl

theorem framed_finish : Framed (finish loader statements) :=
  .bind (framed_optimize statements) fun _ =>
    .get_bind (fun _ => .bind (framed_say _) fun _ => framed_create loader _) fun _ _ => rfl

end Step

theorem framed_mergeWith (loader : Option (Text → Except ε Loaded)) :
    Step.Framed (mergeWith loader) := by
  refine .bind Step.framed_forget fun _ => .get_bind (fun m => ?_) fun _ _ => rfl
  split
  · exact .pure _
  · exact .bind (Step.framed_say _) fun _ => .bind Step.framed_parse fun _ =>
      .bind (Step.framed_finish loader _) fun _ => .pure _

/-- The merger as it was before its first call. -/
def fresh (m : ScriptMerger) : ScriptMerger :=
  { settings := m.settings, loader := m.loader, file := m.file }

/-- A merge of a used merger is one of a fresh merger, behind what was said and asked for before. -/
theorem run_mergeWith (loader : Option (Text → Except ε Loaded)) (m : ScriptMerger) :
    (mergeWith loader).run m = Step.resultBehind m ((mergeWith loader).run m.fresh) := by
  have hforget : (Step.forget (ε := ε)).run m = Step.forget.run (m.fresh.behind m) := by
    simp only [Step.forget, EStateM.run_modify, behind, fresh, List.append_nil,
      Journal.append_empty]
  rw [← framed_mergeWith loader m m.fresh, mergeWith, EStateM.run_bind, EStateM.run_bind, hforget]

/-! ### What a merge leaves behind -/

/-- A step ends well with `done`, or else with `failed`. -/
def Step.Ends (x : Step ε α) (m : ScriptMerger) (done : α → ScriptMerger → Prop)
    (failed : ScriptFault ⊕ ε → ScriptMerger → Prop) : Prop :=
  match x.run m with
  | .ok a after => done a after
  | .error fault after => failed fault after

/-- A merge failed: there is no map, and nothing is counted if the script could not be parsed. -/
structure Failed (start : ScriptMerger) (fault : ScriptFault ⊕ ε) (after : ScriptMerger) :
    Prop where
  fresh : after.fresh = start
  map : after.map = none
  joins : ∀ path cause, fault = .inl (.unparsable path cause) → after.joins = 0

namespace Step

section

variable {m : ScriptMerger} {done : β → ScriptMerger → Prop}
  {failed : ScriptFault ⊕ ε → ScriptMerger → Prop}

theorem Ends.bind {x : Step ε α} {f : α → Step ε β} {between : α → ScriptMerger → Prop}
    (hx : Ends x m between failed)
    (hf : ∀ a after, between a after → Ends (f a) after done failed) :
    Ends (x >>= f) m done failed := by
  rw [Ends, EStateM.run_bind]
  rw [Ends] at hx
  cases hrun : x.run m with
  | ok a after =>
    rw [hrun] at hx
    exact hf a after hx
  | error fault after =>
    rw [hrun] at hx
    exact hx

theorem Ends.get_bind {f : ScriptMerger → Step ε β} (hf : Ends (f m) m done failed) :
    Ends (get >>= f) m done failed := hf

theorem Ends.modifyGet_bind {g : ScriptMerger → α × ScriptMerger} {f : α → Step ε β}
    (hf : Ends (f (g m).1) (g m).2 done failed) : Ends (modifyGet g >>= f) m done failed := hf

theorem Ends.modify_bind {g : ScriptMerger → ScriptMerger} {f : Unit → Step ε β}
    (hf : Ends (f ()) (g m) done failed) : Ends (modify g >>= f) m done failed := hf

end

variable {m : ScriptMerger} (loader : Option (Text → Except ε Loaded))
  (statements : List Script.Statement)

theorem ends_parse (hjoins : m.joins = 0) (hmap : m.map = none) :
    Ends (parse (ε := ε)) m (fun _ after => after = m) (Failed m.fresh) := by
  refine .get_bind ?_
  split
  · exact ⟨rfl, hmap, fun _ _ h => nomatch h⟩
  · split
    · exact rfl
    · exact ⟨rfl, hmap, fun _ _ h => nomatch h⟩
    · exact ⟨rfl, hmap, fun _ _ _ => hjoins⟩

theorem ends_print (hmap : m.map = none) :
    Ends (print (ε := ε) statements) m (fun _ after => after = m) (Failed m.fresh) := by
  refine .get_bind ?_
  split
  · exact ⟨rfl, hmap, fun _ _ h => nomatch h⟩
  · split
    · exact ⟨rfl, hmap, fun _ _ h => nomatch h⟩
    · exact rfl

theorem ends_original (hmap : m.map = none) :
    Ends (original loader) m (fun _ after => after.fresh = m.fresh) (Failed m.fresh) := by
  refine .get_bind ?_
  split
  · exact rfl
  · split
    · exact ⟨rfl, hmap, fun _ _ h => nomatch h⟩
    · refine .modify_bind ?_
      split
      · next hload =>
        refine ⟨rfl, hmap, fun path cause h => ?_⟩
        rcases SourceMap.Reference.loadWith_eq_error hload with rfl | ⟨thrown, rfl⟩ <;> cases h
      · exact rfl

theorem ends_create (hmap : m.map = none) :
    Ends (create loader statements) m (fun _ after => after.fresh = m.fresh) (Failed m.fresh) := by
  refine .bind (ends_print statements hmap) fun _ _ h => ?_
  subst h
  exact .bind (ends_original loader hmap) fun _ _ h => h

theorem ends_finish (hmap : m.map = none) :
    Ends (finish loader statements) m (fun _ after => after.fresh = m.fresh) (Failed m.fresh) :=
  .modifyGet_bind (.get_bind (.modify_bind (ends_create loader _ hmap)))

end Step

/-- A merge keeps what a fresh merger has; a script that is skipped leaves nothing behind. -/
theorem ends_mergeWith (loader : Option (Text → Except ε Loaded)) (m : ScriptMerger) :
    Step.Ends (mergeWith loader) m
      (fun script after => after.fresh = m.fresh ∧
        (script = none → after.map = none ∧ after.joins = 0)) (Failed m.fresh) := by
  refine .modify_bind (.get_bind ?_)
  split
  · exact ⟨rfl, fun _ => ⟨rfl, rfl⟩⟩
  · refine .modify_bind (.bind (Step.ends_parse rfl rfl) fun statements after h => ?_)
    subst h
    exact .bind (Step.ends_finish loader statements rfl) fun _ _ h => ⟨h, fun h => nomatch h⟩

/-! ### Calls -/

/-- A call of a merger. -/
inductive MergerCall
  | merge
  | optimize (statements : List Script.Statement)

variable (loader : Option (Text → Except ε Loaded))

/-- The merger after a call. -/
def afterCall (m : ScriptMerger) : MergerCall → ScriptMerger
  | .merge =>
    match (mergeWith loader).run m with
    | .ok _ after | .error _ after => after
  | .optimize statements => (m.optimize statements).1

/-- The merger after calls, one after the other. -/
def afterCalls (m : ScriptMerger) (calls : List MergerCall) : ScriptMerger :=
  calls.foldl (afterCall loader) m

theorem fresh_afterCall (m : ScriptMerger) (call : MergerCall) :
    (m.afterCall loader call).fresh = m.fresh := by
  cases call with
  | optimize statements => rfl
  | merge =>
    have hends := ends_mergeWith loader m
    rw [Step.Ends] at hends
    rw [afterCall]
    cases hrun : (mergeWith loader).run m with
    | ok script after =>
      rw [hrun] at hends
      exact hends.1
    | error fault after =>
      rw [hrun] at hends
      exact hends.fresh

theorem fresh_afterCalls (m : ScriptMerger) (calls : List MergerCall) :
    (m.afterCalls loader calls).fresh = m.fresh := by
  induction calls generalizing m with
  | nil => rfl
  | cons call calls ih => exact (ih _).trans (fresh_afterCall loader m call)

/-- What a caller sees of a merge. -/
structure MergeOutcome (ε : Type) where
  result : Except (ScriptFault ⊕ ε) (Option File)
  map : Option File
  joins : Nat

/-- What the next merge gives. -/
def outcome (m : ScriptMerger) : MergeOutcome ε :=
  match (mergeWith loader).run m with
  | .ok script after => ⟨.ok script, after.map, after.joins⟩
  | .error fault after => ⟨.error fault, after.map, after.joins⟩

/-- No map and no count of joins is there that is not of the merge itself. -/
structure MergeOutcome.Tidy (o : MergeOutcome ε) : Prop where
  skipped : o.result = .ok none → o.map = none ∧ o.joins = 0
  unparsable : ∀ path fault, o.result = .error (.inl (.unparsable path fault)) →
    o.map = none ∧ o.joins = 0
  failed : ∀ fault, o.result = .error fault → o.map = none

theorem tidy_outcome (m : ScriptMerger) : (m.outcome loader).Tidy := by
  have hends := ends_mergeWith loader m
  rw [Step.Ends] at hends
  rw [outcome]
  cases hrun : (mergeWith loader).run m with
  | ok script after =>
    rw [hrun] at hends
    exact ⟨fun h => hends.2 (Except.ok.inj h), fun _ _ h => (nomatch h), fun _ h => (nomatch h)⟩
  | error fault after =>
    rw [hrun] at hends
    exact ⟨fun h => (nomatch h),
      fun path cause h => ⟨hends.map, hends.joins path cause (Except.error.inj h)⟩,
      fun _ _ => hends.map⟩

theorem outcome_fresh (m : ScriptMerger) : m.outcome loader = m.fresh.outcome loader := by
  rw [outcome, outcome, run_mergeWith]
  cases (mergeWith loader).run m.fresh <;> rfl

/-- With a loader that throws nothing, it is the merge in one piece. -/
theorem outcome_returning (m : ScriptMerger) :
    m.outcome (m.loader.map (·.returning (ε := ε))) =
      ⟨m.merge.2.mapError .inl, m.merge.1.map, m.merge.1.joins⟩ := by
  rw [outcome, mergeWith_returning, ended, merge]
  cases (m.settings.mergeScript m.loader m.file).script <;> rfl

/-- Calls do not influence each other. After any calls, a merge gives the script or the fault, the
map and the count of joins that the first merge of a fresh merger gives, and the file is as it was.
A script that is skipped or that cannot be parsed leaves no map and no count, any other fault no
map. -/
theorem outcome_afterCalls (m : ScriptMerger) (calls : List MergerCall) :
    let used := m.afterCalls loader calls
    used.outcome loader = m.fresh.outcome loader ∧ (used.outcome loader).Tidy ∧
      used.file = m.file ∧
      used.outcome (used.loader.map (·.returning (ε := ε))) =
        ⟨used.merge.2.mapError .inl, used.merge.1.map, used.merge.1.joins⟩ := by
  intro used
  have hfresh : used.fresh = m.fresh := fresh_afterCalls loader m calls
  have hfile : used.fresh.file = m.fresh.file := by rw [hfresh]
  refine ⟨?_, tidy_outcome loader used, hfile, outcome_returning used⟩
  rw [outcome_fresh loader used, hfresh]

end NamespaceMerge.ScriptMerger
