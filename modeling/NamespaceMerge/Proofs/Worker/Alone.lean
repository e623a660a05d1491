import NamespaceMerge.Proofs.Json.Keyed
import NamespaceMerge.Proofs.Worker.Accounts

/-! Items alone. A worker that goes on after failures comes to what its items come to alone, one
after the other (`work_eq_alone`). -/

namespace NamespaceMerge

namespace Worker

variable {d : Disk} {w w' : Worker} {kind : FileKind} {item : Item} {f : File}

/-! ### Items one after the other -/

/-- What items come to one after the other: their files, or the first fault. -/
def resultOf (d : Disk) (s : Settings) (items : List (FileKind × Item)) :
    Except WorkFault (List File) :=
  (items.mapM fun q => (s.fateOf d q.1 q.2).result).map List.flatten

theorem resultOf_cons (d : Disk) (s : Settings) (q : FileKind × Item)
    (items : List (FileKind × Item)) :
    resultOf d s (q :: items) =
      (s.fateOf d q.1 q.2).result.bind fun files => (resultOf d s items).map (files ++ ·) := by
  rw [resultOf, resultOf, List.mapM_cons]
  cases (s.fateOf d q.1 q.2).result with
  | error fault => rfl
  | ok files => cases items.mapM fun q => (s.fateOf d q.1 q.2).result <;> rfl

theorem resultOf_append (d : Disk) (s : Settings) (items items' : List (FileKind × Item)) :
    resultOf d s (items ++ items') =
      (resultOf d s items).bind fun files => (resultOf d s items').map (files ++ ·) := by
  induction items with
  | nil => cases h : resultOf d s items' <;> exact h
  | cons first items ih =>
    rw [List.cons_append, resultOf_cons, resultOf_cons, ih]
    cases (s.fateOf d first.1 first.2).result with
    | error fault => rfl
    | ok files =>
      cases resultOf d s items with
      | error fault => rfl
      | ok more =>
        cases resultOf d s items' with
        | error fault => rfl
        | ok rest => exact congrArg Except.ok (List.append_assoc files more rest).symm

/-- Items come to their files if none of them ends the work. -/
theorem resultOf_eq_ok_iff {items : List (FileKind × Item)} {s : Settings} {files : List File} :
    resultOf d s items = .ok files ↔
      (∀ q ∈ items, (s.fateOf d q.1 q.2).isStopped = false) ∧
        files = items.flatMap fun q => (s.fateOf d q.1 q.2).files := by
  induction items generalizing files with
  | nil => exact ⟨fun h => ⟨by simp, (Except.ok.inj h).symm⟩, fun h => h.2 ▸ rfl⟩
  | cons first items ih =>
    rw [resultOf_cons, List.forall_mem_cons, List.flatMap_cons]
    constructor
    · intro h
      obtain ⟨made, hmade, h⟩ := bind_eq_ok_iff.mp h
      have hgoes := Fate.isStopped_of_result hmade
      rw [Fate.result_of_isStopped hgoes] at hmade
      cases hmade
      cases hrest : resultOf d s items with
      | error fault =>
        rw [hrest] at h
        cases h
      | ok more =>
        rw [hrest] at h
        cases h
        obtain ⟨hall, rfl⟩ := ih.mp hrest
        exact ⟨⟨hgoes, hall⟩, rfl⟩
    · rintro ⟨⟨hgoes, hall⟩, rfl⟩
      rw [Fate.result_of_isStopped hgoes, ih.mpr ⟨hall, rfl⟩]
      rfl

/-- A run through a queue, by the step for one item. -/
theorem processAll_of_lenient (hlenient : w.failFast = false) (d : Disk) (kind : FileKind)
    (items : List Item) :
    (processAll d kind w items).2 = resultOf d w.settings (items.map (kind, ·)) := by
  induction items generalizing w with
  | nil => rfl
  | cons item items ih =>
    obtain ⟨haccounts, hresult⟩ := accounts_process d kind w item
    rw [hlenient, Fate.resultFor_false] at hresult
    have hrest := ih (haccounts.failFast.trans hlenient)
    rw [haccounts.continues.settings] at hrest
    rw [List.map_cons, resultOf_cons, ← hresult, ← hrest, processAll]
    split
    · next w₁ fault hfirst =>
      rw [hfirst]
      rfl
    · next w₁ made hfirst =>
      rw [hfirst]
      rfl

/-- The work comes to what the items come to, and records those that fail in a new report. -/
theorem work_of_lenient (hlenient : w.failFast = false) :
    (work d w).2 = resultOf d w.settings w.queued ∧
      ∀ files, (work d w).2 = .ok files →
        Records { w with timing := .start w.timing.clock } (failing d w.settings w.queued)
          (work d w).1 := by
  constructor
  · let renewed : Worker := { w with timing := .start w.timing.clock }
    have hrenewed : renewed.failFast = false := hlenient
    have hfirst : (processAll d .declaration renewed w.declarations).2 =
        resultOf d w.settings (w.declarations.map (.declaration, ·)) :=
      processAll_of_lenient hrenewed d .declaration w.declarations
    obtain ⟨_, -, haccounts, -⟩ := exists_accounts_processAll d .declaration renewed w.declarations
    rw [queued, resultOf_append, ← hfirst]
    simp only [work]
    split
    · next w₁ fault h =>
      rw [show processAll d .declaration renewed w.declarations = _ from h]
      rfl
    · next w₁ merged h =>
      rw [show processAll d .declaration renewed w.declarations = _ from h] at haccounts ⊢
      have hsecond := processAll_of_lenient (haccounts.failFast.trans hlenient) d .script w.scripts
      rw [show w₁.settings = w.settings from haccounts.continues.settings] at hsecond
      rw [show w₁.scripts = w.scripts from haccounts.continues.queue .script, ← hsecond]
      split
      · next w₂ fault h' =>
        rw [h']
        rfl
      · next w₂ more h' =>
        rw [h']
        rfl
  · intro files h
    obtain ⟨done, -, haccounts, hall⟩ := exists_accounts_work d w
    rw [← (hall files h).done, ← map_failuresOf]
    exact haccounts.toRecords

/-! ### One item alone -/

/-- What an item comes to that is worked on alone, by a new worker. -/
def alone (d : Disk) (s : Settings) (clock : Clock) (kind : FileKind) (item : Item) :
    Except WorkFault (List File) :=
  (work d ((start s false clock).enqueue kind item)).2

theorem alone_eq (d : Disk) (s : Settings) (clock : Clock) (kind : FileKind) (item : Item) :
    alone d s clock kind item = (s.fateOf d kind item).result := by
  have hqueued : ((start s false clock).enqueue kind item).queued = [(kind, item)] := by
    cases kind <;> rfl
  have hstart : ((start s false clock).enqueue kind item).failFast = false ∧
      ((start s false clock).enqueue kind item).settings = s := by
    cases kind <;> exact ⟨rfl, rfl⟩
  rw [alone, (work_of_lenient hstart.1).1, hstart.2, hqueued, resultOf_cons]
  cases (s.fateOf d kind item).result with
  | error fault => rfl
  | ok files => exact congrArg Except.ok (List.append_nil files)

/-- A worker that goes on after failures comes to what its items come to alone, in the order of its
queues and up to the first fault that ends the work; if there is none, it returns. An item that
fails or is skipped adds nothing; a merged script comes with its map right behind it. -/
theorem work_eq_alone (hlenient : w.failFast = false) (clock : Clock) :
    (work d w).2 =
        (w.queued.mapM fun q => alone d w.settings clock q.1 q.2).map List.flatten ∧
      ((∀ q ∈ w.queued, (w.settings.fateOf d q.1 q.2).isStopped = false) →
        ∃ files, (work d w).2 = .ok files) ∧
      ∀ kind item,
        ((w.settings.fateOf d kind item).isFailed → alone d w.settings clock kind item = .ok []) ∧
        ∀ f, readItem d item = .ok f →
          (w.settings.skips kind → alone d w.settings clock kind item = .ok []) ∧
          ∀ merged, kind = .script →
            (w.settings.mergeScript (some (d.mapLoader f.path.toList)) f.measured).result =
              .ok (some merged) →
            alone d w.settings clock kind item = .ok (merged.script :: merged.map.toList) := by
  refine ⟨?_, fun hgoes => ?_, fun kind item => ⟨fun hfailed => ?_, fun f hread => ⟨?_, ?_⟩⟩⟩
  · simp only [alone_eq]
    exact (work_of_lenient hlenient).1
  · exact ⟨_, (work_of_lenient hlenient).1.trans (resultOf_eq_ok_iff.mpr ⟨hgoes, rfl⟩)⟩
  · rw [alone_eq]
    cases hfate : w.settings.fateOf d kind item with
    | failed fault => rfl
    | made files =>
      rw [hfate] at hfailed
      cases hfailed
    | stopped fault =>
      rw [hfate] at hfailed
      cases hfailed
  · intro hskips
    rw [alone_eq, Settings.fateOf_of_read hread, Settings.fateOfFile_of_skips hskips]
    rfl
  · rintro merged rfl hresult
    rw [alone_eq, Settings.fateOf_of_read hread, Settings.fateOfFile,
      show f.measured.path = f.path from rfl, hresult]
    rfl

/-- A script that does not parse, and one with a map. -/
def scriptsDisk : Disk where
  files := [(["bad.js".toList], Utf8.encode "var = ;".toList),
    (["good.js".toList], Utf8.encode "a;\n//# sourceMappingURL=m\n".toList),
    (["m".toList], Utf8.encode ['\x7b', '\x7d'])]

/-- A worker for a path that leads nowhere, a record, and scripts of which the first one fails. -/
def mixedWorker : Worker :=
  { start .standard false (.still (.integer 0)) with
    declarations := [.path "gone.d.ts", .record (.ofDeclarations "declare namespace A \x7b\x7d")]
    scripts := [.path "bad.js", .path "good.js"] }

theorem work_eq_alone_mixed :
    mixedWorker.failFast = false ∧
      (work scriptsDisk mixedWorker).2 =
        (mixedWorker.queued.mapM fun q =>
          alone scriptsDisk mixedWorker.settings (.still (.integer 1)) q.1 q.2).map List.flatten ∧
      (work scriptsDisk mixedWorker).2.toOption.map (List.map (·.name)) =
        some ["unnamed-00000000.merged.d.ts", "good.merged.js", "good.merged.js.map"] :=
  ⟨rfl, (work_eq_alone rfl _).1, by decide +kernel⟩

end Worker

end NamespaceMerge
