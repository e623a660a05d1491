import NamespaceMerge.Proofs.Merging.SourceMaps

/-! A merge of a script, step by step: it forgets what the last call left behind, counts joins,
reads the count again when it makes the map, and keeps the map. That is the merge in one piece
(`mergeWith_returning`). The loader of maps may also throw here: `ε` is what it throws beyond the
failures that the log tells of. -/

namespace NamespaceMerge

open SourceMap (Loaded LoadFault Reference)

variable {ε : Type}

/-- The map that a reference leads to, with a loader that may throw. -/
def SourceMap.Reference.loadWith (levels : Option Nat) (loader : Option (Text → Except ε Loaded))
    (r : Reference) : Except (ScriptFault ⊕ ε) (Except LoadFault (Option Json.Members)) :=
  match r, loader with
  | .url value, some loader =>
    match loader value with
    | .error thrown => .error (.inr thrown)
    | .ok loaded =>
      ((Reference.url value).loadWithin levels (some fun _ => loaded)).mapError
        fun _ => .inl .nesting
  | r, _ => (r.loadWithin levels none).mapError fun _ => .inl .nesting

/-- Loading a map fails with what the loader throws, or as the map is nested too deeply. -/
theorem SourceMap.Reference.loadWith_eq_error {levels : Option Nat}
    {loader : Option (Text → Except ε Loaded)} {r : Reference} {fault : ScriptFault ⊕ ε}
    (h : r.loadWith levels loader = .error fault) :
    fault = .inl .nesting ∨ ∃ thrown, fault = .inr thrown := by
  have hnesting : ∀ {α : Type} {outcome : Except MapFault α},
      (outcome.mapError fun _ => .inl .nesting : Except (ScriptFault ⊕ ε) α) = .error fault →
        fault = .inl .nesting := by
    intro α outcome heq
    cases outcome with
    | ok a => cases heq
    | error e => exact (Except.error.inj heq).symm
  rw [loadWith.eq_def] at h
  split at h
  · split at h
    · exact .inr ⟨_, (Except.error.inj h).symm⟩
    · exact .inl (hnesting h)
  · exact .inl (hnesting h)

/-- A loader that throws nothing. -/
def SourceMap.Loader.returning (loader : SourceMap.Loader) : Text → Except ε Loaded :=
  fun url => .ok (loader url)

theorem SourceMap.Reference.loadWith_returning (levels : Option Nat)
    (loader : Option SourceMap.Loader) (r : Reference) :
    r.loadWith levels (loader.map (·.returning (ε := ε))) =
      (r.loadWithin levels loader).mapError fun _ => .inl .nesting := by
  cases r <;> cases loader <;> rfl

namespace ScriptMerger

/-! ### The steps of a merge -/

/-- A step of a merge. It may end the merge with a fault of the script or with what the loader
throws; the changes to the merger up to there stay. -/
abbrev Step (ε : Type) := EStateM (ScriptFault ⊕ ε) ScriptMerger

namespace Step

/-- Forgets what the last merge left behind. -/
def forget : Step ε Unit := modify fun m => { m with joins := 0, map := none }

def say (entries : List Entry) : Step ε Unit :=
  modify fun m => { m with journal := m.journal ++ { entries } }

def parse : Step ε (List Script.Statement) := do
  let m ← get
  match m.settings.reading with
  | none => throw (.inl .unknownOption)
  | some reading =>
    match m.settings.toolkit.parse reading.keepComments m.file.contents.toList with
    | .ok statements => return statements
    | .error (.stopped cause) => throw (.inl (.stopped cause))
    | .error (.refused message) =>
      modify fun m => { m with journal := m.journal.fail (.unparsable m.file.fullPath message) }
      throw (.inl (.unparsable m.file.fullPath message))

def optimize (statements : List Script.Statement) : Step ε (List Script.Statement) :=
  modifyGet fun m => (m.optimize statements).swap

def print (statements : List Script.Statement) : Step ε Printed := do
  let m ← get
  match m.settings.printing with
  | none => throw (.inl .unknownOption)
  | some printing =>
    match m.settings.toolkit.print printing.unit statements with
    | .error cause => throw (.inl (.stopped cause))
    | .ok printed => return printed

/-- The kind of the reference of the script and the map that it leads to, unless the settings skip
source maps. -/
def original (loader : Option (Text → Except ε Loaded)) :
    Step ε (SourceMap.Kind × Option Json.Members) := do
  let m ← get
  if m.settings.skipSourceMaps then return (.none, none)
  match Reference.ofTextWithin m.settings.toolkit.levels m.file.contents.toList with
  | .error _ => throw (.inl .nesting)
  | .ok reference =>
    modify fun m =>
      { m with
        asked := m.asked ++
          if loader.isSome && reference.isLookedUp then reference.value?.toList else [] }
    match reference.loadWith m.settings.toolkit.levels loader with
    | .error fault => throw fault
    | .ok loaded =>
      say (reference.entries m.file.fullPath loaded)
      return (reference.kind, loaded.toOption.join)

/-- Makes the merged script and keeps its map, if there is one. The joins counted so far decide on
the mappings of the map. -/
def create (loader : Option (Text → Except ε Loaded)) (statements : List Script.Statement) :
    Step ε File := do
  let printed ← print statements
  let (kind, input) ← original loader
  let m ← get
  let merged := m.settings.mergedScript m.file printed m.joins kind input
  modify fun m => { m with map := merged.map.or m.map }
  return merged.script

/-- Merges the modules among the statements and makes the merged script. -/
def finish (loader : Option (Text → Except ε Loaded)) (statements : List Script.Statement) :
    Step ε File := do
  let merged ← optimize statements
  let m ← get
  say [{ message := s!"Total block merges for '{m.file.fullPath}': {m.joins}" }]
  create loader merged

end Step

/-- Merges the script of the merger, step by step. -/
def mergeWith (loader : Option (Text → Except ε Loaded)) : Step ε (Option File) := do
  Step.forget
  let m ← get
  if m.settings.skipScripts then return none
  Step.say [{ message := s!"Initializing merging of file '{m.file.fullPath}'" }]
  return some (← Step.finish loader (← Step.parse))

/-! ### A merge in one piece -/

/-- The merger after a merge with the outcome. -/
def record (m : ScriptMerger) (outcome : ScriptOutcome) : ScriptMerger :=
  { m with
    joins := outcome.joins
    map := outcome.map?
    asked := m.asked ++ outcome.asked
    journal := m.journal ++ outcome.journal }

/-- The end of a merge with the outcome. -/
def ended (m : ScriptMerger) (outcome : ScriptOutcome) :
    EStateM.Result (ScriptFault ⊕ ε) ScriptMerger (Option File) :=
  match outcome.script with
  | .ok script => .ok script (m.record outcome)
  | .error fault => .error (.inl fault) (m.record outcome)

theorem ended_ok {m : ScriptMerger} {outcome : ScriptOutcome} {made : MergedScript}
    (h : outcome.result = .ok (some made)) (hjoins : outcome.joins = m.joins) :
    m.ended (ε := ε) outcome = .ok (some made.script)
      { m with
        map := made.map
        asked := m.asked ++ outcome.asked
        journal := m.journal ++ outcome.journal } := by
  rw [ended, ScriptOutcome.script, record, ScriptOutcome.map?, h, hjoins]
  rfl

theorem ended_error {m : ScriptMerger} {outcome : ScriptOutcome} {fault : ScriptFault}
    (h : outcome.result = .error fault) (hjoins : outcome.joins = m.joins) (hmap : m.map = none) :
    m.ended (ε := ε) outcome = .error (.inl fault)
      { m with
        asked := m.asked ++ outcome.asked
        journal := m.journal ++ outcome.journal } := by
  rw [ended, ScriptOutcome.script, record, ScriptOutcome.map?, h, hjoins]
  simp only [← hmap]
  rfl

theorem ended_congr {m m' : ScriptMerger} {outcome outcome' : ScriptOutcome}
    (hscript : outcome.script = outcome'.script) (hrecord : m.record outcome = m'.record outcome') :
    m.ended (ε := ε) outcome = m'.ended outcome' := by
  rw [ended, ended, hscript, hrecord]

/-- The merger with the modules among the statements merged, when nothing was joined before. -/
def joined (m : ScriptMerger) (statements : List Script.Statement) : ScriptMerger :=
  let merged := Script.merge statements
  { m with
    joins := merged.joins
    journal := m.journal ++ { entries := merged.entries ++
      [{ message := s!"Total block merges for '{m.file.fullPath}': {merged.joins}" }] } }

namespace Step

theorem run_finish {m : ScriptMerger} (hjoins : m.joins = 0)
    (loader : Option (Text → Except ε Loaded)) (statements : List Script.Statement) :
    (finish loader statements).run m =
      (create loader (Script.merge statements).statements).run (m.joined statements) := by
  simp only [finish, optimize, say, EStateM.run_bind, EStateM.run_modifyGet, EStateM.run_get,
    EStateM.run_modify, ScriptMerger.optimize, Prod.swap, hjoins, Nat.zero_add,
    Journal.append_assoc]
  rfl

theorem run_print {m : ScriptMerger} {printing : PrintingOptions} {printed : Printed}
    {statements : List Script.Statement} (hprinting : m.settings.printing = some printing)
    (hprint : m.settings.toolkit.print printing.unit statements = .ok printed) :
    (print (ε := ε) statements).run m = .ok printed m := by
  rw [print, EStateM.run_bind, EStateM.run_get]
  simp only [hprinting, hprint]
  rfl

/-- Nothing is recovered if the settings skip source maps. -/
theorem run_original_of_skip {m : ScriptMerger} (h : m.settings.skipSourceMaps = true)
    (loader : Option (Text → Except ε Loaded)) :
    (original loader).run m = .ok (.none, none) m := by
  rw [original, EStateM.run_bind, EStateM.run_get]
  simp only [if_pos h]
  rfl

theorem run_original_of_error {m : ScriptMerger} (h : m.settings.skipSourceMaps = false)
    {fault : SourceMap.MapFault}
    (hreference : Reference.ofTextWithin m.settings.toolkit.levels m.file.contents.toList =
      .error fault) (loader : Option (Text → Except ε Loaded)) :
    (original loader).run m = .error (.inl .nesting) m := by
  rw [original, EStateM.run_bind, EStateM.run_get]
  simp only [h, Bool.false_eq_true, if_false, hreference]
  rfl

theorem run_original_returning {m : ScriptMerger} (h : m.settings.skipSourceMaps = false)
    {reference : Reference}
    (hreference : Reference.ofTextWithin m.settings.toolkit.levels m.file.contents.toList =
      .ok reference) :
    let after : ScriptMerger := { m with
      asked := m.asked ++
        if m.loader.isSome && reference.isLookedUp then reference.value?.toList else [] }
    (original (m.loader.map fun loader => loader.returning (ε := ε))).run m =
      match reference.loadWithin m.settings.toolkit.levels m.loader with
      | .error _ => .error (.inl .nesting) after
      | .ok loaded => .ok (reference.kind, loaded.toOption.join)
        { after with
          journal := m.journal ++ { entries := reference.entries m.file.fullPath loaded } } := by
  intro after
  rw [original, EStateM.run_bind, EStateM.run_get]
  simp only [h, Bool.false_eq_true, if_false, hreference, Reference.loadWith_returning,
    Option.isSome_map]
  cases reference.loadWithin m.settings.toolkit.levels m.loader <;> rfl

/-- A script is made and its map kept as it is in one piece. -/
theorem run_create_returning {m : ScriptMerger} {statements : List Script.Statement}
    (hjoins : (Script.merge statements).joins = m.joins) (hmap : m.map = none)
    (printing : PrintingOptions) (hprinting : m.settings.printing = some printing) :
    (create (m.loader.map fun loader => loader.returning (ε := ε))
        (Script.merge statements).statements >>= fun script => pure (some script)).run m =
      m.ended (m.settings.finishScript m.loader m.file printing (Script.merge statements)) := by
  rw [EStateM.run_bind, create, EStateM.run_bind, Settings.finishScript]
  cases hprint : m.settings.toolkit.print printing.unit (Script.merge statements).statements with
  | error cause =>
    simp only
    rw [ended_error rfl hjoins hmap, print, EStateM.run_bind, EStateM.run_get]
    simp only [hprinting, hprint, List.append_nil, Journal.append_empty]
    rfl
  | ok printed =>
    rw [run_print hprinting hprint]
    simp only [EStateM.run_bind, Settings.createScript]
    cases hskip : m.settings.skipSourceMaps with
    | true =>
      simp only [run_original_of_skip hskip, EStateM.run_get, EStateM.run_modify, if_true]
      rw [ended_ok rfl hjoins, hmap, hjoins, Option.or_none]
      simp only [List.append_nil, Journal.append_empty]
      rfl
    | false =>
      cases hreference : Reference.ofTextWithin m.settings.toolkit.levels
          m.file.contents.toList with
      | error fault =>
        simp only [run_original_of_error hskip hreference, Bool.false_eq_true, if_false]
        rw [ended_error rfl hjoins hmap]
        simp only [List.append_nil, Journal.append_empty]
      | ok reference =>
        rw [run_original_returning hskip hreference]
        simp only [Bool.false_eq_true, if_false]
        cases reference.loadWithin m.settings.toolkit.levels m.loader with
        | error fault =>
          simp only
          rw [ended_error rfl hjoins hmap, Journal.append_empty]
        | ok loaded =>
          simp only [EStateM.run_get, EStateM.run_modify]
          rw [ended_ok rfl hjoins, hmap, hjoins, Option.or_none]
          rfl

end Step

/-- Taken step by step, a merge is what it is in one piece. -/
theorem mergeWith_returning (m : ScriptMerger) :
    (mergeWith (m.loader.map (·.returning (ε := ε)))).run m =
      m.ended (m.settings.mergeScript m.loader m.file) := by
  generalize houtcome : m.settings.mergeScript m.loader m.file = outcome
  rw [Settings.mergeScript] at houtcome
  simp only [mergeWith, EStateM.run_bind, Step.forget, EStateM.run_modify, EStateM.run_get]
  cases hskip : m.settings.skipScripts with
  | true =>
    rw [hskip, if_pos rfl] at houtcome
    subst houtcome
    simp only [if_true, ended, record, List.append_nil, Journal.append_empty]
    rfl
  | false =>
    rw [hskip, if_neg Bool.false_ne_true] at houtcome
    simp only [Bool.false_eq_true, if_false, EStateM.run_bind, Step.say, Step.parse,
      EStateM.run_modify, EStateM.run_get]
    cases hreading : m.settings.reading with
    | none =>
      rw [hreading] at houtcome
      subst houtcome
      simp only [ended, record, List.append_nil]
      rfl
    | some reading =>
      rw [hreading] at houtcome
      cases hparse : m.settings.toolkit.parse reading.keepComments m.file.contents.toList with
      | error stop =>
        cases stop <;>
        · simp only [hparse] at houtcome
          subst houtcome
          simp only [hparse, EStateM.run_bind, EStateM.run_modify, ended, record, List.append_nil,
            Journal.fail_append]
          rfl
      | ok statements =>
        simp only [hparse] at houtcome
        simp only [hparse, EStateM.run_pure]
        rw [Step.run_finish rfl]
        cases hprinting : m.settings.printing with
        | none =>
          rw [hprinting] at houtcome
          subst houtcome
          simp only [Step.create, Step.print, hprinting, EStateM.run_bind, EStateM.run_get,
            ended, record, joined, List.append_nil, Journal.append_assoc]
          rfl
        | some printing =>
          rw [hprinting] at houtcome
          subst houtcome
          refine (Step.run_create_returning ?_ ?_ printing ?_).trans (ended_congr rfl ?_)
          · rfl
          · rfl
          · exact hprinting
          · simp only [record, joined, Journal.append_assoc]
            rfl

end ScriptMerger

end NamespaceMerge
