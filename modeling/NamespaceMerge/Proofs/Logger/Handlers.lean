import Mathlib.Data.List.DropRight
import Mathlib.Logic.Function.Basic
import NamespaceMerge.Logger.Registry

/-! The handler of the base logger, whatever a process asks of its loggers. After setups, resets and
calls of factories in any order the base logger has at most one handler, that of the first setup
since the last reset, and the level of the last setup (`Logging.reflects_run`). -/

namespace NamespaceMerge

/-- What the base logger is set up with. -/
structure Setup where
  formatter : Formatter
  level : Severity
  stream : Nat

/-- What may happen to the base logger. -/
inductive LoggerEvent
  | setup (setup : Setup)
  | reset

namespace LoggerEvent

def isReset : LoggerEvent → Bool
  | setup _ => false
  | reset => true

def setup? : LoggerEvent → Option Setup
  | setup s => some s
  | reset => none

/-- The setups among events. -/
def setups (history : List LoggerEvent) : List Setup := history.filterMap setup?

/-- The events since the last reset, or all of them if there was none. -/
def sinceReset (history : List LoggerEvent) : List LoggerEvent :=
  history.rtakeWhile fun event => !event.isReset

variable (history : List LoggerEvent)

theorem setups_eq_nil_iff : setups history = [] ↔ ¬ ∃ s, .setup s ∈ history := by
  rw [setups, List.filterMap_eq_nil_iff, not_exists]
  constructor
  · intro h s hs
    cases h _ hs
  · rintro h (s | _) hevent
    · exact absurd hevent (h s)
    · rfl

theorem setups_concat_setup (s : Setup) : setups (history ++ [.setup s]) = setups history ++ [s] :=
  List.filterMap_append

theorem setups_concat_reset : setups (history ++ [.reset]) = setups history := by
  rw [setups, List.filterMap_append]
  exact List.append_nil _

theorem sinceReset_concat_setup (s : Setup) :
    sinceReset (history ++ [.setup s]) = sinceReset history ++ [.setup s] :=
  List.rtakeWhile_concat_pos _ _ _ rfl

theorem sinceReset_concat_reset : sinceReset (history ++ [.reset]) = [] :=
  List.rtakeWhile_concat_neg _ _ _ Bool.false_ne_true

end LoggerEvent

open LoggerEvent (setups sinceReset)

/-- The base logger as its history wants it. It has one handler if there was a setup since the last
reset, by the first such setup, and else none; its level is that of the last setup of all, or the
one that it started with. -/
structure Reflects (start : Severity) (history : List LoggerEvent) (r : Registry) : Prop where
  length_le : r.handlers.length ≤ 1
  ne_nil_iff : r.handlers ≠ [] ↔ ∃ s, .setup s ∈ sinceReset history
  first : ∀ h ∈ r.handlers, ∃ s ∈ (setups (sinceReset history)).head?,
    h.formatter = s.formatter ∧ h.stream = s.stream
  level : r.level = ((setups history).getLast?.map Setup.level).getD start

def Registry.apply (r : Registry) : LoggerEvent → Registry
  | .setup s => r.setup s.formatter s.level s.stream
  | .reset => r.reset

namespace Reflects

variable {start : Severity} {history : List LoggerEvent} {r : Registry}

theorem nil (h : r.handlers = []) : Reflects r.level [] r where
  length_le := by simp [h]
  ne_nil_iff := by simp [h, sinceReset]
  first := by simp [h]
  level := rfl

theorem reset (h : Reflects start history r) : Reflects start (history ++ [.reset]) r.reset where
  length_le := Nat.zero_le 1
  ne_nil_iff := by simp [LoggerEvent.sinceReset_concat_reset, Registry.reset]
  first := nofun
  level := by
    rw [LoggerEvent.setups_concat_reset]
    exact h.level

theorem setup (h : Reflects start history r) (s : Setup) :
    Reflects start (history ++ [.setup s]) (r.setup s.formatter s.level s.stream) := by
  have hlevel :
      s.level = ((setups (history ++ [.setup s])).getLast?.map Setup.level).getD start := by
    rw [LoggerEvent.setups_concat_setup, List.getLast?_concat]
    rfl
  have hset : ∃ s', LoggerEvent.setup s' ∈ sinceReset (history ++ [.setup s]) := by
    rw [LoggerEvent.sinceReset_concat_setup]
    exact ⟨s, List.mem_append_right _ (List.mem_singleton_self _)⟩
  rw [Registry.setup]
  split
  · -- The first setup since the last reset: its handler is put in.
    next hempty =>
    have hnone : setups (sinceReset history) = [] := by
      rw [LoggerEvent.setups_eq_nil_iff, ← h.ne_nil_iff, not_not]
      exact List.isEmpty_iff.mp hempty
    refine ⟨Nat.le_refl 1, iff_of_true (List.cons_ne_nil _ _) hset, ?_, hlevel⟩
    intro handler hhandler
    rw [List.mem_singleton.mp hhandler]
    refine ⟨s, ?_, rfl, rfl⟩
    rw [LoggerEvent.sinceReset_concat_setup, LoggerEvent.setups_concat_setup, hnone]
    rfl
  · -- There was one before it, whose handler stays.
    next hfull =>
    have hne : r.handlers ≠ [] := fun hnil => hfull (List.isEmpty_iff.mpr hnil)
    refine ⟨h.length_le, iff_of_true hne hset, ?_, hlevel⟩
    intro handler hhandler
    obtain ⟨first, hfirst, hsame⟩ := h.first handler hhandler
    refine ⟨first, ?_, hsame⟩
    rw [LoggerEvent.sinceReset_concat_setup, LoggerEvent.setups_concat_setup, List.head?_append,
      Option.mem_def.mp hfirst]
    rfl

/-- What one event does. -/
theorem apply (h : Reflects start history r) (event : LoggerEvent) :
    Reflects start (history ++ [event]) (r.apply event) := by
  cases event with
  | setup s => exact h.setup s
  | reset => exact h.reset

theorem foldl_apply (h : Reflects start history r) (events : List LoggerEvent) :
    Reflects start (history ++ events) (events.foldl Registry.apply r) := by
  induction events generalizing history r with
  | nil => rwa [List.append_nil]
  | cons event events ih =>
    rw [List.append_cons]
    exact ih (h.apply event)

end Reflects

/-! ### Calls -/

/-- What a process may ask of its loggers, where `ι` names its factories. -/
inductive LoggerCall (ι : Type)
  | setup (setup : Setup)
  | reset
  | logger (factory : ι) (name : String)

/-- A factory that has made no logger. -/
def LoggerFactory.ofSetup (s : Setup) : LoggerFactory :=
  { formatter := s.formatter, level := s.level, stream := s.stream }

/-- The loggers of a process and its factories. -/
structure Logging (ι : Type) where
  registry : Registry
  factories : ι → LoggerFactory

namespace Logging

variable {ι : Type} [DecidableEq ι] {setupOf : ι → Setup} {called : List ι} {l : Logging ι}

def start (r : Registry) (setupOf : ι → Setup) : Logging ι :=
  { registry := r, factories := fun i => .ofSetup (setupOf i) }

def call (l : Logging ι) : LoggerCall ι → Logging ι
  | .setup s => { l with registry := l.registry.setup s.formatter s.level s.stream }
  | .reset => { l with registry := l.registry.reset }
  | .logger i name =>
    let (_, factory, registry) := (l.factories i).logger l.registry name
    { registry, factories := Function.update l.factories i factory }

def run (l : Logging ι) (calls : List (LoggerCall ι)) : Logging ι := calls.foldl call l

/-- What calls do to the base logger, if the factories `called` were called before: the first call
of a factory resets it and sets it up, and further ones do nothing to it. -/
def eventsOf (setupOf : ι → Setup) (called : List ι) : List (LoggerCall ι) → List LoggerEvent
  | [] => []
  | .setup s :: calls => .setup s :: eventsOf setupOf called calls
  | .reset :: calls => .reset :: eventsOf setupOf called calls
  | .logger i _ :: calls =>
    if i ∈ called then eventsOf setupOf called calls
    else .reset :: .setup (setupOf i) :: eventsOf setupOf (i :: called) calls

/-- The factories are as they were made, but for the note of those that were called. -/
def Remembers (setupOf : ι → Setup) (called : List ι) (l : Logging ι) : Prop :=
  ∀ i, l.factories i = { LoggerFactory.ofSetup (setupOf i) with configured := decide (i ∈ called) }

theorem Remembers.call_again (h : Remembers setupOf called l) {i : ι} (hi : i ∈ called)
    (name : String) : l.call (.logger i name) = l := by
  have hconfigured : (l.factories i).configured = true := by
    rw [h i]
    exact decide_eq_true hi
  simp only [call, LoggerFactory.logger, LoggerFactory.configure, hconfigured, if_true,
    Function.update_eq_self]

theorem Remembers.registry_call (h : Remembers setupOf called l) {i : ι} (hi : i ∉ called)
    (name : String) : (l.call (.logger i name)).registry =
      (l.registry.apply .reset).apply (.setup (setupOf i)) := by
  simp [call, LoggerFactory.logger, LoggerFactory.configure, h i, hi, LoggerFactory.ofSetup,
    Registry.apply]

theorem Remembers.call (h : Remembers setupOf called l) {i : ι} (hi : i ∉ called) (name : String) :
    Remembers setupOf (i :: called) (l.call (.logger i name)) := by
  intro j
  by_cases hj : j = i
  · subst hj
    simp [Logging.call, LoggerFactory.logger, LoggerFactory.configure, h j, hi]
  · simp [Logging.call, h j, hj]

theorem Remembers.registry_run (h : Remembers setupOf called l) (calls : List (LoggerCall ι)) :
    (l.run calls).registry = (eventsOf setupOf called calls).foldl Registry.apply l.registry := by
  induction calls generalizing called l with
  | nil => rfl
  | cons c calls ih =>
    cases c with
    | setup s => exact ih (l := l.call (.setup s)) h
    | reset => exact ih (l := l.call .reset) h
    | logger i name =>
      rw [run, List.foldl_cons, eventsOf]
      split
      · next hi =>
        rw [h.call_again hi]
        exact ih h
      · next hi =>
        rw [List.foldl_cons, List.foldl_cons, ← h.registry_call hi name]
        exact ih (h.call hi name)

/-- However a process mixes setups, resets and calls of its factories, the base logger has at most
one handler. There is one exactly if there was a setup since the last reset, and it is that of the
first such setup. The level is that of the last setup. -/
theorem reflects_run {r : Registry} (h : r.handlers = []) (setupOf : ι → Setup)
    (calls : List (LoggerCall ι)) :
    Reflects r.level (eventsOf setupOf [] calls) ((start r setupOf).run calls).registry := by
  have hremembers : Remembers setupOf [] (start r setupOf) := fun i => rfl
  rw [hremembers.registry_run calls]
  exact (Reflects.nil h).foldl_apply _

/-- Two factories take turns, with a reset between them: the second one's handler stays when the
first is called again and when there is another setup. -/
theorem reflects_run_takingTurns :
    let setupOf (i : Bool) : Setup := if i then ⟨.json, 10, 1⟩ else ⟨.plain, 20, 0⟩
    let calls : List (LoggerCall Bool) := [.logger false "cli", .setup ⟨.json, 40, 2⟩, .reset,
      .logger true "cli", .logger false "merge", .setup ⟨.plain, 30, 3⟩]
    let r := ((start {} setupOf).run calls).registry
    ({} : Registry).handlers = [] ∧ Reflects 0 (eventsOf setupOf [] calls) r ∧
      r.handlers = [⟨.json, 1⟩] ∧ r.level = 30 :=
  ⟨rfl, reflects_run (r := {}) rfl _ _, rfl, rfl⟩

end Logging

end NamespaceMerge
