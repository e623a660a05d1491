import NamespaceMerge.Proofs.Worker.Alone

/-! The books of a worker. Whatever ends its work, each failure of an item stands in the list of
failed items, in the report, in the journal and in the log alike, and if the work returns, every
other queued item was skipped or has added its merged file (`agrees_work`). The report counts the
files that were read; these are all queued ones only if each can be read
(`countsQueued_work_iff`). -/

namespace NamespaceMerge

namespace Settings

variable {s : Settings} {d : Disk} {kind : FileKind} {item : Item} {f g : File}

/-- What a queued item adds to the files of the work. -/
inductive Adds (s : Settings) (d : Disk) (kind : FileKind) (item : Item) : List File → Prop
  | failed {failure : Failure} (failure_eq : s.failureOf? d kind item = some failure) :
      Adds s d kind item []
  | skipped (skips : s.skips kind = true) : Adds s d kind item []
  /-- One merged file, and behind it the map of a script if there is one. -/
  | merged {f merged : File} {map : Option File} (read : Worker.readItem d item = .ok f)
      (files : s.filesOf d kind f.measured = merged :: map.toList)
      (name : merged.name = s.outputName kind f.name)
      (companion : ∀ g, map = some g → kind = .script ∧
        g.name = String.ofList (FileName.sourceMap merged.name.toList)) :
      Adds s d kind item (merged :: map.toList)

/-- Only a script that is skipped is merged to nothing. -/
theorem skipScripts_of_result {loader : Option SourceMap.Loader}
    (h : (s.mergeScript loader f).result = .ok none) : s.skipScripts = true := by
  rw [mergeScript] at h
  split at h
  · next hskip => exact hskip
  · simp only at h
    split at h
    · cases h
    · split at h
      · cases h
      · cases h
      · split at h
        · cases h
        · simp only [finishScript] at h
          split at h
          · cases h
          · next printed _ =>
            rcases s.result_createScript_cases loader f printed _ with ⟨merged, heq⟩ | heq <;>
            · rw [heq] at h
              cases h

theorem made_of_fateOf {files : List File} (h : s.fateOf d kind item = .made files) :
    ∃ f, Worker.readItem d item = .ok f ∧ s.fateOfFile d kind f.measured = .made files := by
  rw [fateOf] at h
  split at h
  · next f hread => exact ⟨f, hread, h⟩
  · cases h
  · cases h

/-- A file that was read and not skipped is merged to one file. -/
theorem adds_of_made {files : List File} (hread : Worker.readItem d item = .ok f)
    (hskips : s.skips kind = false) (h : s.fateOfFile d kind f.measured = .made files) :
    s.Adds d kind item files := by
  have hfiles := filesOf_of_fate h
  cases kind with
  | declaration =>
    have hskip : s.skipDeclarations = false := hskips
    have hmerged : files = [s.mergedDeclarations f.measured] := by
      rw [← hfiles, filesOf, mergeDeclarations, hskip]
      rfl
    subst hmerged
    show s.Adds d .declaration item
      (s.mergedDeclarations f.measured :: (none : Option File).toList)
    exact .merged hread hfiles (s.named_mergedDeclarations f.measured).1 fun g hg => by cases hg
  | script =>
    rw [fateOfFile] at h
    split at h
    · next hresult =>
      rw [skips, skipScripts_of_result hresult] at hskips
      cases hskips
    · next merged hresult =>
      cases h
      obtain ⟨printed, joins, kind, input, rfl⟩ := result_mergeScript hresult
      obtain ⟨hname, -, hmap⟩ := s.named_mergedScript f.measured printed joins kind input
      exact .merged hread hfiles hname fun g hg => ⟨rfl, hname ▸ (hmap g hg).1⟩
    · cases h
    · cases h

theorem adds_files (h : (s.fateOf d kind item).isStopped = false) :
    s.Adds d kind item (s.fateOf d kind item).files := by
  cases hfate : s.fateOf d kind item with
  | made files =>
    obtain ⟨f, hread, hmade⟩ := made_of_fateOf hfate
    cases hskips : s.skips kind with
    | true =>
      rw [fateOfFile_of_skips hskips] at hmade
      cases hmade
      exact .skipped hskips
    | false => exact adds_of_made hread hskips hmade
  | failed fault =>
    have hfailed := s.isFailed_fateOf d kind item
    rw [hfate] at hfailed
    obtain ⟨failure, hfailure⟩ := Option.isSome_iff_exists.mp hfailed.symm
    exact .failed hfailure
  | stopped fault =>
    rw [hfate] at h
    cases h

end Settings

namespace Worker

variable {d : Disk} {w : Worker} {files : List File}

/-! ### Failures -/

/-- The failures of the work, recorded in all places alike: as failed items, as counted and
described by its report, and in what the journal is extended by. -/
structure Agrees (w : Worker) (failures : List (Item × Failure)) (w' : Worker) : Prop where
  failed : w'.failed = w.failed ++ failures.map (·.1)
  count : w'.report.failed = failures.length
  errors : w'.report.errors = failures.map (·.2.message)
  journal : ∃ more, w'.journal = w.journal ++ more ∧ more.Keeps (failures.map (·.2))

/-- The work records the failures of the items that it has done, whatever was recorded before and
whatever ends it. If it returns, it has done all of them, and each one has failed, was skipped or
has added one merged file. -/
theorem agrees_work (d : Disk) (w : Worker) :
    ∃ done, done <+: w.queued ∧ Agrees w (failuresOf d w.settings done) (work d w).1 ∧
      ∀ files, (work d w).2 = .ok files → done = w.queued ∧
        ∃ parts, List.Forall₂ (fun q part => w.settings.Adds d q.1 q.2 part) w.queued parts ∧
          files = parts.flatten := by
  obtain ⟨done, hdone, haccounts, hall⟩ := exists_accounts_work d w
  refine ⟨done, hdone, ⟨haccounts.failed, ?count, haccounts.errors, haccounts.journal⟩,
    fun files h => ?_⟩
  case count =>
    rw [haccounts.count, List.length_map]
    exact Nat.zero_add _
  · have hcompletes := hall files h
    let part (q : FileKind × Item) : List File := (w.settings.fateOf d q.1 q.2).files
    refine ⟨hcompletes.done, w.queued.map part, ?_, hcompletes.files⟩
    rw [List.forall₂_map_right_iff, List.forall₂_same]
    exact fun q hq => Settings.adds_files (hcompletes.goes q hq)

/-- Of two items that fail, a worker that fails fast records the first one, and another both. -/
theorem agrees_work_mixed :
    (∃ failures, Agrees { mixedWorker with failFast := true } failures
        (work scriptsDisk { mixedWorker with failFast := true }).1 ∧
      failures.map (·.2.message) =
        ["Unable to read 'gone.d.ts': [Errno 2] No such file or directory: 'gone.d.ts'"]) ∧
      ∃ failures, Agrees mixedWorker failures (work scriptsDisk mixedWorker).1 ∧
        failures.length = 2 := by
  obtain ⟨done, -, hstrict, -⟩ := agrees_work scriptsDisk { mixedWorker with failFast := true }
  obtain ⟨done', -, hlenient, -⟩ := agrees_work scriptsDisk mixedWorker
  exact ⟨⟨_, hstrict, hstrict.errors.symm.trans (by decide +kernel)⟩,
    ⟨_, hlenient, hlenient.count.symm.trans (by decide +kernel)⟩⟩

/-! ### Counts -/

/-- The number of items from which a file is read. -/
def readable (d : Disk) (items : List Item) : Nat :=
  items.countP fun item => (readItem d item).isOk

/-- The report counts all queued files, and no more of them as failed. -/
structure CountsQueued (w : Worker) (report : Report) : Prop where
  total : report.total = w.declarations.length + w.scripts.length
  byKind : report.byKind =
    [("declaration", w.declarations.length), ("script", w.scripts.length)]
  failed : report.failed ≤ report.total

theorem kindsRead_map (d : Disk) (kind : FileKind) (items : List Item) :
    kindsRead d (items.map (kind, ·)) = List.replicate (readable d items) kind := by
  rw [kindsRead, List.filter_map, List.map_map, readable, List.countP_eq_length_filter]
  exact List.eq_replicate_iff.mpr ⟨by rw [List.length_map]; rfl, by simp⟩

theorem countKinds_eq (read : List FileKind) (declarations scripts : Nat) :
    countKinds read [("declaration", declarations), ("script", scripts)] =
      [("declaration", declarations + read.count .declaration),
        ("script", scripts + read.count .script)] := by
  induction read generalizing declarations scripts with
  | nil => rfl
  | cons kind read ih =>
    cases kind with
    | declaration =>
      have hstep : countKinds (.declaration :: read)
          [("declaration", declarations), ("script", scripts)] =
            countKinds read [("declaration", declarations + 1), ("script", scripts)] := rfl
      rw [hstep, ih, List.count_cons_self, List.count_cons_of_ne (by decide), Nat.add_assoc,
        Nat.add_comm 1]
    | script =>
      have hstep : countKinds (.script :: read)
          [("declaration", declarations), ("script", scripts)] =
            countKinds read [("declaration", declarations), ("script", scripts + 1)] := rfl
      rw [hstep, ih, List.count_cons_self, List.count_cons_of_ne (by decide), Nat.add_assoc,
        Nat.add_comm 1]

theorem length_failuresOf_le (d : Disk) (s : Settings) (items : List (FileKind × Item)) :
    (failuresOf d s items).length ≤ items.length := by
  have hle := List.length_filter_le (fun q => (s.fateOf d q.1 q.2).isFailed) items
  rwa [← List.length_map (f := Prod.snd), ← failing, ← map_failuresOf, List.length_map] at hle

/-- The report of work that returns counts the files that were read, which are all queued ones
exactly if each of them can be read. -/
theorem countsQueued_work_iff (h : (work d w).2 = .ok files) :
    (work d w).1.report.total = readable d w.declarations + readable d w.scripts ∧
      (work d w).1.report.byKind =
        [("declaration", readable d w.declarations), ("script", readable d w.scripts)] ∧
      (CountsQueued w (work d w).1.report ↔ ∀ q ∈ w.queued, (readItem d q.2).isOk = true) := by
  obtain ⟨done, -, haccounts, hall⟩ := exists_accounts_work d w
  rw [(hall files h).done] at haccounts
  have hread : kindsRead d w.queued =
      .replicate (readable d w.declarations) .declaration ++
        .replicate (readable d w.scripts) .script := by
    rw [queued, kindsRead_append, kindsRead_map, kindsRead_map]
  have htotal : (work d w).1.report.total = readable d w.declarations + readable d w.scripts := by
    rw [haccounts.total, hread, List.length_append, List.length_replicate, List.length_replicate]
    exact Nat.zero_add _
  have hkinds : (work d w).1.report.byKind =
      [("declaration", readable d w.declarations), ("script", readable d w.scripts)] := by
    have hnew : countKinds (kindsRead d w.queued) [("declaration", 0), ("script", 0)] =
        (work d w).1.report.byKind := haccounts.byKind.symm
    rw [← hnew, hread, countKinds_eq]
    simp [List.count_replicate]
  refine ⟨htotal, hkinds, ?_⟩
  have hdeclarations : readable d w.declarations ≤ w.declarations.length := List.countP_le_length
  have hscripts : readable d w.scripts ≤ w.scripts.length := List.countP_le_length
  have hqueued : (∀ q ∈ w.queued, (readItem d q.2).isOk = true) ↔
      readable d w.declarations = w.declarations.length ∧
        readable d w.scripts = w.scripts.length := by
    rw [readable, readable, List.countP_eq_length, List.countP_eq_length]
    simp only [queued, List.forall_mem_append, List.forall_mem_map]
  rw [hqueued]
  constructor
  · intro hcounts
    have hall := hcounts.total
    omega
  · rintro ⟨hdeclarations, hscripts⟩
    refine ⟨by rw [htotal, hdeclarations, hscripts], by rw [hkinds, hdeclarations, hscripts], ?_⟩
    have hfailed := length_failuresOf_le d w.settings w.queued
    have hlength : w.queued.length = w.declarations.length + w.scripts.length := by simp [queued]
    have hcount : (work d w).1.report.failed = (failuresOf d w.settings w.queued).length := by
      rw [haccounts.count, List.length_map]
      exact Nat.zero_add _
    omega

/-- A script that fails does not hinder the counts. -/
theorem countsQueued_work_iff_mixed :
    let w : Worker := { mixedWorker with declarations := [.record (.ofDeclarations "")] }
    (∃ files, (work scriptsDisk w).2 = .ok files) ∧
      CountsQueued w (work scriptsDisk w).1.report ∧ (work scriptsDisk w).1.report.failed = 1 := by
  intro w
  have hgoes : ∀ q ∈ w.queued, (w.settings.fateOf scriptsDisk q.1 q.2).isStopped = false := by
    decide +kernel
  have hfiles := (work_of_lenient (d := scriptsDisk) (w := w) rfl).1.trans
    (resultOf_eq_ok_iff.mpr ⟨hgoes, rfl⟩)
  exact ⟨⟨_, hfiles⟩, (countsQueued_work_iff hfiles).2.2.mpr (by decide +kernel),
    by decide +kernel⟩

/-- A worker for a path that leads nowhere. -/
def lostWorker : Worker :=
  { start .standard false (.still (.integer 0)) with declarations := [.path "gone.d.ts"] }

/-- The path is queued and counted as failed, but not counted. -/
theorem not_countsQueued_work :
    ¬ (∀ d w files, (work d w).2 = .ok files → CountsQueued w (work d w).1.report) ∧
      (work {} lostWorker).1.report.total = 0 ∧ (work {} lostWorker).1.report.failed = 1 := by
  have hgoes : ∀ q ∈ lostWorker.queued,
      (lostWorker.settings.fateOf {} q.1 q.2).isStopped = false := by decide +kernel
  have hfiles : (work {} lostWorker).2 = _ :=
    (work_of_lenient rfl).1.trans (resultOf_eq_ok_iff.mpr ⟨hgoes, rfl⟩)
  have htotal : (work {} lostWorker).1.report.total = 0 := by decide +kernel
  refine ⟨fun h => ?_, htotal, by decide +kernel⟩
  have hcounts := (h _ _ _ hfiles).total
  rw [htotal] at hcounts
  cases hcounts

end Worker

end NamespaceMerge
