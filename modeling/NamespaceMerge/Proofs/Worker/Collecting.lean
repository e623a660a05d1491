import Mathlib.Logic.Function.Basic
import NamespaceMerge.Proofs.Worker.Queueing

/-! What a search by patterns brings into the queues, whatever the patterns stand for. Each match
without the marker that is a declaration or a script is in a queue afterwards, and is put there
once, in the order of the first matches; nothing else is put there
(`Worker.collects_addExpanded`). -/

namespace NamespaceMerge

/-- What a name says that a file is: a declaration before all, else a script. -/
def FileKind.ofName? (name : Text) : Option FileKind :=
  if FileName.isDeclarationPath name then some .declaration
  else if FileName.isScriptPath name then some .script
  else none

namespace Worker

variable {w w' : Worker} {matched : List (List Text)} {entries : FileKind → List String}

/-! ### Queues -/

theorem queue?_eq (w : Worker) (name : Text) (item : Item) :
    w.queue? name item = (FileKind.ofName? name).map (w.enqueue · item) := by
  rw [queue?, FileKind.ofName?]
  split
  · rfl
  · split <;> rfl

theorem queue_enqueue (w : Worker) (kind other : FileKind) (item : Item) :
    (w.enqueue kind item).queue other = w.queue other ++ if other = kind then [item] else [] := by
  cases kind <;> cases other <;> simp [enqueue, queueDeclaration, queueScript, queue]

theorem mem_paths_iff {path : String} : path ∈ w.paths ↔ ∃ kind, .path path ∈ w.queue kind := by
  have hitem (item : Item) : item.path? = some path ↔ item = .path path := by
    cases item <;> simp [Item.path?]
  rw [paths, List.mem_filterMap]
  constructor
  · rintro ⟨item, hmem, hpath⟩
    rw [(hitem item).mp hpath] at hmem
    exact (List.mem_append.mp hmem).elim (⟨.declaration, ·⟩) (⟨.script, ·⟩)
  · rintro ⟨kind, hmem⟩
    refine ⟨_, List.mem_append.mpr ?_, (hitem _).mpr rfl⟩
    cases kind with
    | declaration => exact .inl hmem
    | script => exact .inr hmem

/-! ### Matches -/

/-- The path of a match. -/
def pathOf (components : List Text) : String := String.ofList (FileName.ofComponents components)

/-- Whether the name of a match carries the marker. -/
def isMarked (marker : Text) (components : List Text) : Bool :=
  FileName.hasMarker (components.getLast?.getD []) marker

/-- The index of the first match with a path, if none but those without the marker count. -/
def firstMatch (marker : Text) (matched : List (List Text)) (path : String) : Nat :=
  matched.findIdx fun m => !isMarked marker m && pathOf m == path

/-- The matches of patterns, up to a pattern that cannot be. -/
def matchesOf (expand : Text → Option (List (List Text))) (patterns : List Text) :
    List (List Text) :=
  ((patterns.map expand).takeWhile Option.isSome).flatMap fun found => found.getD []

/-- The number of entries of both queues. -/
def count (entries : FileKind → List String) : Nat :=
  (entries .declaration).length + (entries .script).length

theorem count_update (entries : FileKind → List String) (kind : FileKind) (path : String) :
    count (Function.update entries kind (entries kind ++ [path])) = count entries + 1 := by
  cases kind <;> simp [count, Function.update] <;> omega

/-- What one match does: nothing, if it is queued already, is marked or is of no kind; else it goes
to the end of the queue of its kind. -/
theorem addFound_eq (w : Worker) (count : Nat) (m : List Text) :
    addFound (w, count) m =
      if pathOf m ∈ w.paths ∨ isMarked w.settings.marker m = true then (w, count)
      else match FileKind.ofName? (pathOf m).toList with
        | some kind => (w.enqueue kind (.path (pathOf m)), count + 1)
        | none => (w, count) := by
  simp only [addFound, queue?_eq, Bool.or_eq_true, List.contains_iff_mem, isMarked, pathOf,
    String.toList_ofList]
  refine if_congr Iff.rfl rfl ?_
  cases FileKind.ofName? (FileName.ofComponents m) <;> rfl

/-- A worker after a search, with what it brought to each queue. -/
structure Collects (w : Worker) (matched : List (List Text)) (entries : FileKind → List String)
    (w' : Worker) : Prop where
  queue : ∀ kind, w'.queue kind = w.queue kind ++ (entries kind).map .path
  /-- Nothing but the queues and the journal has changed. -/
  others : { w' with
    declarations := w.declarations, scripts := w.scripts, journal := w.journal } = w
  notMem : ∀ kind, ∀ path ∈ entries kind, path ∉ w.paths
  ofName? : ∀ kind, ∀ path ∈ entries kind, FileKind.ofName? path.toList = some kind
  found : ∀ kind, ∀ path ∈ entries kind,
    ∃ m ∈ matched, pathOf m = path ∧ isMarked w.settings.marker m = false
  complete : ∀ m ∈ matched, isMarked w.settings.marker m = false →
    (FileKind.ofName? (pathOf m).toList).isSome = true → pathOf m ∈ w'.paths
  ordered : ∀ kind, (entries kind).Pairwise fun a b =>
    firstMatch w.settings.marker matched a < firstMatch w.settings.marker matched b

namespace Collects

theorem nil (w : Worker) : Collects w [] (fun _ => []) w where
  queue _ := (List.append_nil _).symm
  others := rfl
  notMem := nofun
  ofName? := nofun
  found := nofun
  complete := nofun
  ordered _ := .nil

theorem settings_eq (h : Collects w matched entries w') : w'.settings = w.settings := by
  rw [← h.others]

theorem mem_paths_iff (h : Collects w matched entries w') {path : String} :
    path ∈ w'.paths ↔ path ∈ w.paths ∨ ∃ kind, path ∈ entries kind := by
  simp only [Worker.mem_paths_iff, h.queue, List.mem_append, exists_or]
  simp

/-- What is brought to the two queues together has no path twice: in a queue the paths follow their
first matches, and one path is not in both. -/
theorem nodup (h : Collects w matched entries w') :
    (entries .declaration ++ entries .script).Nodup := by
  have hqueue (kind : FileKind) : (entries kind).Nodup :=
    (h.ordered kind).imp fun hlt heq => by
      rw [heq] at hlt
      exact Nat.lt_irrefl _ hlt
  refine List.nodup_append.mpr ⟨hqueue _, hqueue _, ?_⟩
  rintro path hdeclaration _ hscript rfl
  have hkind := (h.ofName? _ _ hdeclaration).symm.trans (h.ofName? _ _ hscript)
  cases hkind

/-! ### One match more -/

section

variable {m : List Text}

theorem firstMatch_lt (h : Collects w matched entries w') {kind : FileKind} {path : String}
    (hpath : path ∈ entries kind) : firstMatch w.settings.marker matched path < matched.length := by
  obtain ⟨m, hm, rfl, hmarked⟩ := h.found kind path hpath
  exact List.findIdx_lt_length_of_exists ⟨m, hm, by simp [hmarked]⟩

theorem firstMatch_concat (h : Collects w matched entries w') {kind : FileKind} {path : String}
    (hpath : path ∈ entries kind) (m : List Text) :
    firstMatch w.settings.marker (matched ++ [m]) path =
      firstMatch w.settings.marker matched path := by
  rw [firstMatch, List.findIdx_append]
  exact if_pos (h.firstMatch_lt hpath)

/-- A path that is not queued has no match so far that could have been queued. -/
theorem length_le_firstMatch (h : Collects w matched entries w') (hnew : pathOf m ∉ w'.paths)
    (hname : (FileKind.ofName? (pathOf m).toList).isSome = true) :
    matched.length ≤ firstMatch w.settings.marker (matched ++ [m]) (pathOf m) := by
  have hnone : ¬ matched.findIdx (fun m' => !isMarked w.settings.marker m' && pathOf m' == pathOf m)
      < matched.length := by
    rw [List.findIdx_lt_length]
    rintro ⟨m', hm', hmatch⟩
    rw [Bool.and_eq_true, Bool.not_eq_true', beq_iff_eq] at hmatch
    exact hnew (hmatch.2 ▸ h.complete m' hm' hmatch.1 (hmatch.2.symm ▸ hname))
  rw [firstMatch, List.findIdx_append, if_neg hnone]
  exact Nat.le_add_left _ _

theorem ordered_concat (h : Collects w matched entries w') (m : List Text) (kind : FileKind) :
    (entries kind).Pairwise fun a b => firstMatch w.settings.marker (matched ++ [m]) a <
      firstMatch w.settings.marker (matched ++ [m]) b :=
  (h.ordered kind).imp_of_mem fun ha hb hlt => by
    rwa [h.firstMatch_concat ha, h.firstMatch_concat hb]

theorem found_concat (h : Collects w matched entries w') {kind : FileKind} {path : String}
    (hpath : path ∈ entries kind) (m : List Text) :
    ∃ m' ∈ matched ++ [m], pathOf m' = path ∧ isMarked w.settings.marker m' = false := by
  obtain ⟨m', hm', hpath⟩ := h.found kind path hpath
  exact ⟨m', List.mem_append_left _ hm', hpath⟩

/-- A match that is queued already, is marked or is of no kind changes nothing. -/
theorem skip (h : Collects w matched entries w')
    (hm : isMarked w.settings.marker m = false →
      (FileKind.ofName? (pathOf m).toList).isSome = true → pathOf m ∈ w'.paths) :
    Collects w (matched ++ [m]) entries w' where
  queue := h.queue
  others := h.others
  notMem := h.notMem
  ofName? := h.ofName?
  found _ _ hpath := h.found_concat hpath m
  complete m' hm' := by
    rcases List.mem_append.mp hm' with hm' | hm'
    · exact h.complete m' hm'
    · rwa [List.mem_singleton.mp hm']
  ordered := h.ordered_concat m

/-- Any other match goes to the end of a queue. -/
theorem add (h : Collects w matched entries w') {kind : FileKind} (hnew : pathOf m ∉ w'.paths)
    (hmarked : isMarked w.settings.marker m = false)
    (hkind : FileKind.ofName? (pathOf m).toList = some kind) :
    Collects w (matched ++ [m]) (Function.update entries kind (entries kind ++ [pathOf m]))
      (w'.enqueue kind (.path (pathOf m))) := by
  have hmem {other : FileKind} {path : String}
      (hpath : path ∈ Function.update entries kind (entries kind ++ [pathOf m]) other) :
      path ∈ entries other ∨ other = kind ∧ path = pathOf m := by
    by_cases hother : other = kind
    · subst hother
      rw [Function.update_self] at hpath
      exact (List.mem_append.mp hpath).imp_right fun hlast => ⟨rfl, List.mem_singleton.mp hlast⟩
    · rw [Function.update_of_ne hother] at hpath
      exact .inl hpath
  constructor
  case queue =>
    intro other
    rw [queue_enqueue, h.queue]
    by_cases hother : other = kind
    · subst hother
      rw [Function.update_self, if_pos rfl, List.map_append, List.append_assoc]
      rfl
    · rw [Function.update_of_ne hother, if_neg hother, List.append_nil]
  case others =>
    rw [← h.others]
    cases kind <;> rfl
  case notMem =>
    intro other path hpath
    rcases hmem hpath with hpath | ⟨-, rfl⟩
    · exact h.notMem other path hpath
    · exact fun hbefore => hnew (h.mem_paths_iff.mpr (.inl hbefore))
  case ofName? =>
    intro other path hpath
    rcases hmem hpath with hpath | ⟨rfl, rfl⟩
    · exact h.ofName? other path hpath
    · exact hkind
  case found =>
    intro other path hpath
    rcases hmem hpath with hpath | ⟨-, rfl⟩
    · exact h.found_concat hpath m
    · exact ⟨m, List.mem_append_right _ (List.mem_singleton_self m), rfl, hmarked⟩
  case complete =>
    intro m' hm' hunmarked hname
    rw [Worker.mem_paths_iff]
    rcases List.mem_append.mp hm' with hm' | hm'
    · obtain ⟨other, hother⟩ := Worker.mem_paths_iff.mp (h.complete m' hm' hunmarked hname)
      exact ⟨other, queue_enqueue .. ▸ List.mem_append_left _ hother⟩
    · rw [List.mem_singleton.mp hm']
      refine ⟨kind, queue_enqueue .. ▸ List.mem_append_right _ ?_⟩
      rw [if_pos rfl]
      exact List.mem_singleton_self _
  case ordered =>
    intro other
    by_cases hother : other = kind
    · subst hother
      rw [Function.update_self, List.pairwise_append]
      refine ⟨h.ordered_concat m other, List.pairwise_singleton .., ?_⟩
      -- The new path has no match before this one, and all that were queued have.
      intro path hpath _ hlast
      rw [List.mem_singleton.mp hlast, h.firstMatch_concat hpath]
      exact (h.firstMatch_lt hpath).trans_le (h.length_le_firstMatch hnew (by rw [hkind]; rfl))
    · rw [Function.update_of_ne hother]
      exact h.ordered_concat m other

/-- One match more, and one entry more if it is queued. -/
theorem addFound (h : Collects w matched entries w') (m : List Text) :
    ∃ more w'', Collects w (matched ++ [m]) more w'' ∧
      addFound (w', count entries) m = (w'', count more) := by
  rw [addFound_eq, h.settings_eq]
  split
  · next hskip =>
    refine ⟨entries, w', h.skip fun hunmarked _ => hskip.resolve_right ?_, rfl⟩
    rw [hunmarked]
    exact Bool.false_ne_true
  · next hkept =>
    obtain ⟨hnew, hmarked⟩ := not_or.mp hkept
    split
    · next kind hkind =>
      refine ⟨_, _, h.add hnew (Bool.eq_false_iff.mpr hmarked) hkind, ?_⟩
      rw [count_update]
    · next hkind =>
      refine ⟨entries, w', h.skip fun _ hname => ?_, rfl⟩
      rw [hkind] at hname
      cases hname

end

/-! ### The whole search -/

theorem foldl_addFound (h : Collects w matched entries w') (found : List (List Text)) :
    ∃ more w'', Collects w (matched ++ found) more w'' ∧
      found.foldl Worker.addFound (w', count entries) = (w'', count more) := by
  induction found generalizing matched entries w' with
  | nil => exact ⟨entries, w', (List.append_nil matched).symm ▸ h, rfl⟩
  | cons m found ih =>
    obtain ⟨next, w₁, hnext, hadd⟩ := h.addFound m
    rw [List.foldl_cons, List.append_cons, hadd]
    exact ih hnext

theorem addPatternsFrom (h : Collects w matched entries w')
    (expand : Text → Option (List (List Text))) (patterns : List Text) :
    ∃ more w'', Collects w (matched ++ matchesOf expand patterns) more w'' ∧
      addPatternsFrom expand (w', count entries) patterns =
        (w'',
          if ∀ pattern ∈ patterns, (expand pattern).isSome then some (count more) else none) := by
  induction patterns generalizing matched entries w' with
  | nil =>
    refine ⟨entries, w', (List.append_nil matched).symm ▸ h, ?_⟩
    rw [Worker.addPatternsFrom, if_pos (List.forall_mem_nil _)]
  | cons pattern patterns ih =>
    cases hpattern : expand pattern with
    | none =>
      have hmatches : matchesOf expand (pattern :: patterns) = [] := by simp [matchesOf, hpattern]
      refine ⟨entries, w', ?_, ?_⟩
      · rwa [hmatches, List.append_nil]
      · simp [Worker.addPatternsFrom, hpattern]
    | some found =>
      have hmatches : matchesOf expand (pattern :: patterns) =
          found ++ matchesOf expand patterns := by
        simp [matchesOf, hpattern]
      obtain ⟨next, w₁, hnext, hadd⟩ := h.foldl_addFound found
      obtain ⟨more, w₂, hmore, hrest⟩ := ih hnext
      refine ⟨more, w₂, ?_, ?_⟩
      · rwa [hmatches, ← List.append_assoc]
      · simp only [Worker.addPatternsFrom, hpattern, hadd, hrest, List.forall_mem_cons,
          Option.isSome_some, true_and]

theorem log (h : Collects w matched entries w') (message : String) (level : Level) :
    Collects w matched entries (w'.log message level) :=
  ⟨h.queue, h.others, h.notMem, h.ofName?, h.found, h.complete, h.ordered⟩

end Collects

/-- A search by patterns, whatever the patterns stand for: what it brings to the queues, each path
once, and that this is counted, if every pattern stands for something. -/
theorem collects_addExpanded (w : Worker) (expand : Text → Option (List (List Text)))
    (patterns : List String) (root : String) :
    ∃ entries, Collects w (matchesOf expand (patterns.map (below root))) entries
        (w.addExpanded expand patterns root).1 ∧
      (entries .declaration ++ entries .script).Nodup ∧
      (w.addExpanded expand patterns root).2 =
        if ∀ pattern ∈ patterns, (expand (below root pattern)).isSome then
          some ((entries .declaration).length + (entries .script).length)
        else none := by
  obtain ⟨entries, w', hcollects, hrun⟩ :=
    (Collects.nil w).addPatternsFrom expand (patterns.map (below root))
  have hstart : count (fun _ => []) = 0 := rfl
  simp only [List.forall_mem_map, hstart] at hrun
  by_cases hall : ∀ pattern ∈ patterns, (expand (below root pattern)).isSome
  · rw [if_pos hall] at hrun
    simp only [addExpanded, hrun, if_pos hall]
    exact ⟨entries, hcollects.log _ _, hcollects.nodup, rfl⟩
  · rw [if_neg hall] at hrun
    simp only [addExpanded, hrun, if_neg hall]
    exact ⟨entries, hcollects, hcollects.nodup, trivial⟩

end Worker

end NamespaceMerge
