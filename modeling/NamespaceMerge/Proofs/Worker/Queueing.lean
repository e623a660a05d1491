import NamespaceMerge.Proofs.Worker.Making

/-! What patterns bring into the queues of a worker: paths that were found under a name without the
marker (`Worker.addPatterns_induction`), and nothing else changes (`Worker.gathers_addPatterns`). -/

namespace NamespaceMerge

namespace Glob

/-- The files that a pattern stands for, as they are found. -/
def candidates? (d : Disk) (pattern : Text) : Option (List (List Text)) := do
  let components := FileName.components pattern
  let isFixed (component : Text) : Bool := !component.any Wildcard.isMagic
  let base := components.takeWhile isFixed
  let steps ← (components.dropWhile isFixed).mapM Component.ofText?
  let found :=
    if steps.isEmpty then [base]
    else if isDirectory d base then select d steps base
    else []
  return (found.filter fun path => d.isFile (FileName.ofComponents path)).eraseDups

theorem expand?_eq (d : Disk) (pattern : Text) :
    expand? d pattern = (candidates? d pattern).map (·.mergeSort pathBefore) := by
  simp only [expand?, candidates?]
  cases (List.dropWhile (fun component => !component.any Wildcard.isMagic)
    (FileName.components pattern)).mapM Component.ofText? <;> rfl

/-- Files that are found in order stay in order. -/
theorem expand?_of_pairwise {d : Disk} {pattern : Text} {paths : List (List Text)}
    (h : candidates? d pattern = some paths)
    (hpairwise : paths.Pairwise fun a b => pathBefore a b = true) :
    expand? d pattern = some paths := by
  rw [expand?_eq, h, Option.map_some, List.mergeSort_of_pairwise hpairwise]

end Glob

/-- Whether a path or a name is one of a file of the kind. -/
def FileKind.accepts : FileKind → Text → Bool
  | .declaration => FileName.isDeclarationPath
  | .script => FileName.isScriptPath

namespace Worker

variable {found : Disk} {w w' : Worker}

/-- A worker to which paths were queued. -/
structure Gathers (w w' : Worker) : Prop where
  settings : w'.settings = w.settings
  failFast : w'.failFast = w.failFast
  failed : w'.failed = w.failed
  queue : ∀ kind, ∀ item ∈ w'.queue kind, item ∈ w.queue kind ∨ ∃ path, item = .path path

namespace Gathers

theorem refl (w : Worker) : Gathers w w := ⟨rfl, rfl, rfl, fun _ _ h => .inl h⟩

theorem trans {w'' : Worker} (h : Gathers w w') (h' : Gathers w' w'') : Gathers w w'' where
  settings := h'.settings.trans h.settings
  failFast := h'.failFast.trans h.failFast
  failed := h'.failed.trans h.failed
  queue kind item hitem := by
    rcases h'.queue kind item hitem with hitem | hpath
    · exact h.queue kind item hitem
    · exact .inr hpath

end Gathers

/-- A worker with an item in the queue of a kind that its name is of. -/
structure Enqueues (w : Worker) (name : Text) (item : Item) (w' : Worker) : Prop where
  settings : w'.settings = w.settings
  failFast : w'.failFast = w.failFast
  failed : w'.failed = w.failed
  queue : ∀ kind, ∀ other ∈ w'.queue kind,
    other ∈ w.queue kind ∨ kind.accepts name = true ∧ other = item

theorem enqueues_queue? {name : Text} {item : Item} (h : w.queue? name item = some w') :
    Enqueues w name item w' := by
  rw [queue?] at h
  split at h
  · next hname =>
    cases h
    refine ⟨rfl, rfl, rfl, fun kind other hother => ?_⟩
    cases kind with
    | declaration =>
      refine (List.mem_append.mp hother).imp_right fun hlast => ?_
      exact ⟨hname, List.mem_singleton.mp hlast⟩
    | script => exact .inl hother
  · split at h
    · next hname =>
      cases h
      refine ⟨rfl, rfl, rfl, fun kind other hother => ?_⟩
      cases kind with
      | declaration => exact .inl hother
      | script =>
        refine (List.mem_append.mp hother).imp_right fun hlast => ?_
        exact ⟨hname, List.mem_singleton.mp hlast⟩
    · cases h

theorem Enqueues.gathers {name : Text} {path : String} (h : Enqueues w name (.path path) w') :
    Gathers w w' where
  settings := h.settings
  failFast := h.failFast
  failed := h.failed
  queue kind item hitem := by
    rcases h.queue kind item hitem with hitem | ⟨-, hpath⟩
    · exact .inl hitem
    · exact .inr ⟨path, hpath⟩

/-! ### Looking up patterns -/

/-- The item for a path that was found. -/
def foundItem (components : List Text) : Item :=
  .path (String.ofList (FileName.ofComponents components))

section Induction

variable {P : Worker → Prop}
  (hqueue : ∀ {w w' : Worker} {components : List Text},
    FileName.hasMarker (components.getLast?.getD []) w.settings.marker = false →
    w.queue? (FileName.ofComponents components) (foundItem components) = some w' → P w → P w')

include hqueue

theorem addFound_induction (counted : Worker × Nat) (components : List Text) (h : P counted.1) :
    P (addFound counted components).1 := by
  simp only [addFound]
  split
  · exact h
  · next hkept =>
    rw [Bool.or_eq_true, not_or, Bool.not_eq_true, Bool.not_eq_true] at hkept
    split
    · next hqueued => exact hqueue hkept.2 hqueued h
    · exact h

theorem addPatternsFrom_induction (expand : Text → Option (List (List Text)))
    (counted : Worker × Nat) (patterns : List Text) (h : P counted.1) :
    P (addPatternsFrom expand counted patterns).1 := by
  induction patterns generalizing counted with
  | nil => exact h
  | cons pattern patterns ih =>
    rw [addPatternsFrom]
    split
    · exact h
    · next paths _ =>
      exact ih _ (paths.foldlRecOn addFound h fun counted h path _ =>
        addFound_induction hqueue counted path h)

/-- What holds of a worker holds when it has looked up patterns, if it is kept where a path is
queued that was found without the marker, and where something is logged. -/
theorem addPatterns_induction (hlog : ∀ {w : Worker} {message : String} {level : Level},
      P w → P (w.log message level))
    (found : Disk) (patterns : List String) (root : String) (h : P w) :
    P (w.addPatterns found patterns root).1 := by
  have hfrom (texts : List Text) :=
    addPatternsFrom_induction hqueue (Glob.expand? found) (w, 0) texts h
  simp only [addPatterns, addExpanded]
  split
  · next w' heq => exact (congrArg (P ·.1) heq).mp (hfrom _)
  · next w' count heq => exact hlog ((congrArg (P ·.1) heq).mp (hfrom _))

end Induction

theorem gathers_addPatterns (w : Worker) (found : Disk) (patterns : List String) (root : String) :
    Gathers w (w.addPatterns found patterns root).1 :=
  addPatterns_induction (P := Gathers w)
    (fun _ hqueued h => h.trans (enqueues_queue? hqueued).gathers)
    (fun h => h.trans ⟨rfl, rfl, rfl, fun _ _ hitem => .inl hitem⟩) found patterns root (.refl w)

/-- What one pattern brings. -/
theorem addPatterns_singleton {pattern : Text} {paths : List (List Text)}
    (h : Glob.expand? found pattern = some paths) (w : Worker) :
    let counted := paths.foldl addFound (w, 0)
    w.addPatterns found [String.ofList pattern] "" =
      (counted.1.log s!"Added {counted.2} file(s) to the queue" .information, some counted.2) := by
  have hbelow : below "" (String.ofList pattern) = pattern := by
    rw [below, if_pos (.inl rfl), String.toList_ofList]
  simp only [addPatterns, addExpanded, List.map_cons, List.map_nil, hbelow, addPatternsFrom, h]

end Worker

end NamespaceMerge
