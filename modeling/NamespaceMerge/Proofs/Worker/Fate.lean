import NamespaceMerge.Proofs.Worker.Making

/-! What becomes of the items of a worker. It follows from the disk and the settings, whatever else
is in the queues (`Settings.fateOf`): files are made of an item, or it fails, for a reason that is
recorded (`Settings.failureOf?`), or it ends the work. -/

namespace NamespaceMerge

/-- What becomes of an item: files are made of it, its fault is recorded, or its fault ends the
work. -/
inductive Fate
  | made (files : List File)
  | failed (fault : WorkFault)
  | stopped (fault : WorkFault)

namespace Fate

/-- The part of the item in what the work comes to. -/
def result : Fate → Except WorkFault (List File)
  | made files => .ok files
  | failed _ => .ok []
  | stopped fault => .error fault

def isFailed : Fate → Bool
  | failed _ => true
  | _ => false

def isStopped : Fate → Bool
  | stopped _ => true
  | _ => false

/-- The files that are made. -/
def files : Fate → List File
  | made files => files
  | _ => []

theorem result_of_isStopped {fate : Fate} (h : fate.isStopped = false) :
    fate.result = .ok fate.files := by
  cases fate with
  | stopped fault => cases h
  | _ => rfl

theorem isStopped_of_result {fate : Fate} {made : List File} (h : fate.result = .ok made) :
    fate.isStopped = false := by
  cases fate with
  | stopped fault => cases h
  | _ => rfl

/-- What a fate comes to for a worker: if it fails fast, a failure ends the work. -/
def resultFor (failFast : Bool) : Fate → Except WorkFault (List File)
  | made files => .ok files
  | failed fault => if failFast then .error fault else .ok []
  | stopped fault => .error fault

theorem resultFor_false (fate : Fate) : fate.resultFor false = fate.result := by
  cases fate <;> rfl

theorem of_resultFor {fate : Fate} {failFast : Bool} {made : List File}
    (h : fate.resultFor failFast = .ok made) : fate.isStopped = false ∧ fate.files = made := by
  cases fate with
  | made files => exact ⟨rfl, Except.ok.inj h⟩
  | failed fault => cases failFast with
    | true => cases h
    | false => exact ⟨rfl, Except.ok.inj h⟩
  | stopped fault => cases h

end Fate

/-- The failure that comes with the outcome of a script that cannot be parsed. -/
def ScriptOutcome.failure? (o : ScriptOutcome) : Option Failure :=
  match o.result with
  | .error (.unparsable path fault) => some (.unparsable path fault)
  | _ => none

namespace Settings

variable {s : Settings} {d : Disk} {kind : FileKind} {item : Item} {f g : File}

/-- Whether files of a kind are left out. -/
def skips (s : Settings) : FileKind → Bool
  | .declaration => s.skipDeclarations
  | .script => s.skipScripts

/-- What becomes of a file that was read. A merged script comes with its map right behind it. -/
def fateOfFile (s : Settings) (d : Disk) (kind : FileKind) (f : File) : Fate :=
  match kind with
  | .declaration => .made (s.mergeDeclarations f).2.toList
  | .script =>
    match (s.mergeScript (some (d.mapLoader f.path.toList)) f).result with
    | .ok none => .made []
    | .ok (some merged) => .made (merged.script :: merged.map.toList)
    | .error (.unparsable path fault) => .failed (.script (.unparsable path fault))
    | .error fault => .stopped (.script fault)

def fateOf (s : Settings) (d : Disk) (kind : FileKind) (item : Item) : Fate :=
  match Worker.readItem d item with
  | .ok f => s.fateOfFile d kind f.measured
  | .error (.disk fault) => .failed (.unreadable fault)
  | .error (.encoding error) => .stopped (.undecodable error)

theorem fateOf_of_read (h : Worker.readItem d item = .ok f) :
    s.fateOf d kind item = s.fateOfFile d kind f.measured := by
  rw [fateOf, h]

theorem fateOfFile_of_skips (h : s.skips kind = true) : s.fateOfFile d kind f = .made [] := by
  cases kind with
  | declaration =>
    have hskip : s.skipDeclarations = true := h
    simp only [fateOfFile, mergeDeclarations, hskip, if_true, Option.toList_none]
  | script =>
    have hskip : s.skipScripts = true := h
    simp only [fateOfFile, mergeScript, hskip, if_true]

theorem filesOf_of_fate {files : List File} (h : s.fateOfFile d kind f = .made files) :
    s.filesOf d kind f = files := by
  cases kind with
  | declaration =>
    cases h
    rfl
  | script =>
    rw [fateOfFile] at h
    rw [filesOf]
    split at h
    · next hresult =>
      cases h
      rw [hresult]
    · next hresult =>
      cases h
      rw [hresult]
    · cases h
    · cases h

/-- Files are made of what was read. -/
theorem exists_of_mem_files (h : g ∈ (s.fateOf d kind item).files) :
    ∃ f, Worker.readItem d item = .ok f ∧ g ∈ s.filesOf d kind f.measured := by
  rw [fateOf] at h
  split at h
  · next f hread =>
    refine ⟨f, hread, ?_⟩
    cases hfate : s.fateOfFile d kind f.measured with
    | made files =>
      rw [hfate] at h
      rwa [filesOf_of_fate hfate]
    | failed fault =>
      rw [hfate] at h
      cases h
    | stopped fault =>
      rw [hfate] at h
      cases h
  · cases h
  · cases h

/-- The failure that is recorded of a file that was read, if it is one. -/
def failureOfFile? (s : Settings) (d : Disk) (kind : FileKind) (f : File) : Option Failure :=
  match kind with
  | .declaration => none
  | .script => (s.mergeScript (some (d.mapLoader f.path.toList)) f).failure?

/-- The failure that is recorded of an item, if it is one: there is no file that can be read, or
its script cannot be parsed. -/
def failureOf? (s : Settings) (d : Disk) (kind : FileKind) (item : Item) : Option Failure :=
  match Worker.readItem d item with
  | .ok f => s.failureOfFile? d kind f.measured
  | .error (.disk fault) => some (.unreadable item.describe fault)
  | .error (.encoding _) => none

theorem isFailed_fateOfFile (s : Settings) (d : Disk) (kind : FileKind) (f : File) :
    (s.fateOfFile d kind f).isFailed = (s.failureOfFile? d kind f).isSome := by
  cases kind with
  | declaration => rfl
  | script =>
    simp only [fateOfFile, failureOfFile?, ScriptOutcome.failure?]
    cases (s.mergeScript (some (d.mapLoader f.path.toList)) f).result with
    | ok merged? => cases merged? <;> rfl
    | error fault => cases fault <;> rfl

theorem isFailed_fateOf (s : Settings) (d : Disk) (kind : FileKind) (item : Item) :
    (s.fateOf d kind item).isFailed = (s.failureOf? d kind item).isSome := by
  rw [fateOf, failureOf?]
  cases Worker.readItem d item with
  | ok f => exact s.isFailed_fateOfFile d kind f.measured
  | error fault => cases fault <;> rfl

end Settings

namespace Worker

variable {d : Disk} {w : Worker} {kind : FileKind} {item : Item}

/-- The items among `items` that fail. -/
def failing (d : Disk) (s : Settings) (items : List (FileKind × Item)) : List Item :=
  (items.filter fun q => (s.fateOf d q.1 q.2).isFailed).map (·.2)

theorem failing_append (d : Disk) (s : Settings) (items items' : List (FileKind × Item)) :
    failing d s (items ++ items') = failing d s items ++ failing d s items' := by
  rw [failing, List.filter_append, List.map_append]
  rfl

/-- The kinds of the items from which a file is read. -/
def kindsRead (d : Disk) (items : List (FileKind × Item)) : List FileKind :=
  (items.filter fun q => (readItem d q.2).isOk).map (·.1)

theorem kindsRead_append (d : Disk) (items items' : List (FileKind × Item)) :
    kindsRead d (items ++ items') = kindsRead d items ++ kindsRead d items' := by
  rw [kindsRead, List.filter_append, List.map_append]
  rfl

theorem kindsRead_singleton (d : Disk) (kind : FileKind) (item : Item) :
    kindsRead d [(kind, item)] = if (readItem d item).isOk then [kind] else [] := by
  rw [kindsRead, List.filter_singleton]
  cases (readItem d item).isOk <;> rfl

/-- The failures of items, in the order in which they are worked through. -/
def failuresOf (d : Disk) (s : Settings) (items : List (FileKind × Item)) :
    List (Item × Failure) :=
  items.flatMap fun q => (s.failureOf? d q.1 q.2).toList.map (q.2, ·)

theorem failuresOf_append (d : Disk) (s : Settings) (items items' : List (FileKind × Item)) :
    failuresOf d s (items ++ items') = failuresOf d s items ++ failuresOf d s items' :=
  List.flatMap_append

theorem failuresOf_singleton (d : Disk) (s : Settings) (kind : FileKind) (item : Item) :
    failuresOf d s [(kind, item)] = (s.failureOf? d kind item).toList.map (item, ·) :=
  List.flatMap_singleton _ _

theorem map_failuresOf (d : Disk) (s : Settings) (items : List (FileKind × Item)) :
    (failuresOf d s items).map (·.1) = failing d s items := by
  induction items with
  | nil => rfl
  | cons q items ih =>
    have hone : (failuresOf d s [q]).map (·.1) = failing d s [q] := by
      rw [failuresOf_singleton, failing, List.filter_singleton, s.isFailed_fateOf]
      cases s.failureOf? d q.1 q.2 <;> rfl
    rw [← List.singleton_append, failuresOf_append, failing_append, List.map_append, ih, hone]

/-- The items of both queues, in the order in which they are worked through. -/
def queued (w : Worker) : List (FileKind × Item) :=
  w.declarations.map (.declaration, ·) ++ w.scripts.map (.script, ·)

theorem mem_queued {q : FileKind × Item} : q ∈ w.queued ↔ q.2 ∈ w.queue q.1 := by
  obtain ⟨kind, item⟩ := q
  cases kind <;> simp [queued, queue]

/-- The files that are made of the queued items. -/
def made (d : Disk) (w : Worker) : List File :=
  w.queued.flatMap fun q => (w.settings.fateOf d q.1 q.2).files

end Worker

end NamespaceMerge
