import NamespaceMerge.Proofs.Worker.Fate

/-! What a worker records while it works. Each failure of an item is entered in the list of failed
items, in the report and in the journal alike, and each file that is read is counted (`Accounts`);
one item does so (`accounts_process`), and hence the whole work, up to what ends it
(`exists_accounts_work`). -/

namespace NamespaceMerge

/-! ### Journals of failures -/

/-- A journal of failures: they are recorded, and the entries of errors are their messages. -/
structure Journal.Keeps (j : Journal) (failures : List Failure) : Prop where
  recorded : j.failures = failures
  logged : (j.entries.filter Entry.isError).map (·.message) = failures.map Failure.message

namespace Journal.Keeps

variable {j k : Journal} {failures failures' : List Failure}

theorem append (h : j.Keeps failures) (h' : k.Keeps failures') :
    (j ++ k).Keeps (failures ++ failures') where
  recorded := by rw [failures_append, h.recorded, h'.recorded]
  logged := by
    rw [entries_append, List.filter_append, List.map_append, h.logged, h'.logged, List.map_append]

/-- A journal without errors keeps no failure. -/
theorem of_entries {entries : List Entry} (h : ∀ e ∈ entries, e.isError = false) :
    Journal.Keeps { entries } [] where
  recorded := rfl
  logged := by
    rw [List.filter_eq_nil_iff.mpr fun e he => by simp [h e he]]
    rfl

theorem fail (h : j.Keeps failures) (failure : Failure) :
    (j.fail failure).Keeps (failures ++ [failure]) where
  recorded := by rw [Journal.fail, h.recorded]
  logged := by
    rw [Journal.fail, List.filter_append, List.map_append, h.logged, List.map_append]
    rfl

end Journal.Keeps

theorem Script.Merged.isError_entries (m : Script.Merged) : ∀ e ∈ m.entries, e.isError = false := by
  intro e he
  obtain ⟨found, -, rfl⟩ := List.mem_map.mp he
  rfl

theorem SourceMap.Reference.isError_entries (reference : Reference) (fullPath : String)
    (loaded : Except LoadFault (Option Json.Members)) :
    ∀ e ∈ reference.entries fullPath loaded, e.isError = false := by
  intro e he
  unfold entries at he
  split at he
  · cases he
  · rw [List.mem_singleton.mp he]
    rfl
  · rw [List.mem_singleton.mp he]
    rfl
  · rw [List.mem_singleton.mp he]
    rfl
  · cases he

theorem isError_declarationEntries (f : File) :
    ∀ e ∈ Settings.declarationEntries f, e.isError = false := by
  intro e he
  rw [Settings.declarationEntries, List.mem_cons, List.mem_singleton] at he
  rcases he with rfl | rfl <;> rfl

namespace Settings

theorem keeps_createScript (s : Settings) (loader : Option SourceMap.Loader) (f : File)
    (printed : Printed) (joins : Nat) :
    (s.createScript loader f printed joins).journal.Keeps [] := by
  rw [createScript]
  split
  · exact .of_entries (by simp)
  · split
    · exact .of_entries (by simp)
    · simp only
      split
      · exact .of_entries (by simp)
      · exact .of_entries (SourceMap.Reference.isError_entries _ _ _)

theorem keeps_finishScript (s : Settings) (loader : Option SourceMap.Loader) (f : File)
    (options : PrintingOptions) (merged : Script.Merged) :
    (s.finishScript loader f options merged).journal.Keeps [] := by
  rw [finishScript]
  split
  · exact .of_entries (by simp)
  · exact s.keeps_createScript loader f _ _

/-- A script that is parsed has no failure, whatever else ends its merge. -/
theorem failure?_finishScript (s : Settings) (loader : Option SourceMap.Loader) (f : File)
    (options : PrintingOptions) (merged : Script.Merged) :
    (s.finishScript loader f options merged).failure? = none := by
  rw [finishScript]
  split
  · rfl
  · next printed _ =>
    rcases s.result_createScript_cases loader f printed merged.joins with ⟨made, h⟩ | h
    · rw [ScriptOutcome.failure?, h]
    · rw [ScriptOutcome.failure?, h]

/-- The journal of a script keeps its failure if it cannot be parsed. -/
theorem keeps_mergeScript (s : Settings) (loader : Option SourceMap.Loader) (f : File) :
    (s.mergeScript loader f).journal.Keeps (s.mergeScript loader f).failure?.toList := by
  have hstart : Journal.Keeps
      { entries := [{ message := s!"Initializing merging of file '{f.fullPath}'" }] } [] :=
    .of_entries (by simp [Entry.isError])
  cases hskip : s.skipScripts with
  | true =>
    simp only [mergeScript, hskip, if_true]
    exact .of_entries (by simp)
  | false =>
    cases hreading : s.reading with
    | none =>
      simp only [mergeScript, hskip, hreading, Bool.false_eq_true, if_false]
      exact hstart
    | some reading =>
      cases hparse : s.toolkit.parse reading.keepComments f.contents.toList with
      | error fault =>
        simp only [mergeScript, hskip, hreading, hparse, Bool.false_eq_true, if_false]
        cases fault with
        | refused message => exact hstart.fail _
        | stopped cause => exact hstart
      | ok statements =>
        have hsaid (message : String) :
            Journal.Keeps { entries := (Script.merge statements).entries ++ [{ message }] } [] :=
          .of_entries (List.forall_mem_append.mpr
            ⟨(Script.merge statements).isError_entries, by simp [Entry.isError]⟩)
        have hmerged := hstart.append (hsaid
          s!"Total block merges for '{f.fullPath}': {(Script.merge statements).joins}")
        cases hprinting : s.printing with
        | none =>
          simp only [mergeScript, hskip, hreading, hparse, hprinting, Bool.false_eq_true, if_false]
          exact hmerged
        | some printing =>
          simp only [mergeScript, hskip, hreading, hparse, hprinting, Bool.false_eq_true, if_false]
          have hnone := s.failure?_finishScript loader f printing (Script.merge statements)
          rw [ScriptOutcome.failure?] at hnone ⊢
          rw [hnone]
          exact hmerged.append (s.keeps_finishScript loader f printing _)

end Settings

namespace Worker

variable {d : Disk} {w w' : Worker} {items items' : List Item} {read read' : List FileKind}
  {failures failures' : List (Item × Failure)}

/-! ### What is recorded -/

/-- A worker that has gone on and recorded the failures of `items`. -/
structure Records (w : Worker) (items : List Item) (w' : Worker) : Prop where
  continues : Continues w w'
  failFast : w'.failFast = w.failFast
  failed : w'.failed = w.failed ++ items
  count : w'.report.failed = w.report.failed + items.length

namespace Records

theorem trans {w'' : Worker} (h : Records w items w') (h' : Records w' items' w'') :
    Records w (items ++ items') w'' where
  continues := h.continues.trans h'.continues
  failFast := h'.failFast.trans h.failFast
  failed := by rw [h'.failed, h.failed, List.append_assoc]
  count := by rw [h'.count, h.count, List.length_append, Nat.add_assoc]

/-- What is done between failures records nothing. -/
theorem of_eq (hcontinues : Continues w w') (hfailFast : w'.failFast = w.failFast)
    (hfailed : w'.failed = w.failed) (hcount : w'.report.failed = w.report.failed) :
    Records w [] w' :=
  ⟨hcontinues, hfailFast, by rw [hfailed, List.append_nil], hcount⟩

theorem refl (w : Worker) : Records w [] w := of_eq (.refl w) rfl rfl rfl

end Records

/-- Counts files of these kinds. -/
def countKinds (read : List FileKind) (t : Tally Nat) : Tally Nat :=
  read.foldl (fun t kind => t.change kind.name 0 (· + 1)) t

/-- A worker that has read files of the kinds `read` and recorded `failures`, each in the list of
failed items, in the report and in the journal. -/
structure Accounts (w : Worker) (read : List FileKind) (failures : List (Item × Failure))
    (w' : Worker) : Prop extends Records w (failures.map (·.1)) w' where
  journal : ∃ more, w'.journal = w.journal ++ more ∧ more.Keeps (failures.map (·.2))
  errors : w'.report.errors = w.report.errors ++ failures.map (·.2.message)
  total : w'.report.total = w.report.total + read.length
  byKind : w'.report.byKind = countKinds read w.report.byKind

theorem Accounts.trans {w'' : Worker} (h : Accounts w read failures w')
    (h' : Accounts w' read' failures' w'') :
    Accounts w (read ++ read') (failures ++ failures') w'' where
  toRecords := by
    rw [List.map_append]
    exact h.toRecords.trans h'.toRecords
  journal := by
    obtain ⟨more, hmore, hkeeps⟩ := h.journal
    obtain ⟨more', hmore', hkeeps'⟩ := h'.journal
    refine ⟨more ++ more', by rw [hmore', hmore, Journal.append_assoc], ?_⟩
    rw [List.map_append]
    exact hkeeps.append hkeeps'
  errors := by rw [h'.errors, h.errors, List.map_append, List.append_assoc]
  total := by rw [h'.total, h.total, List.length_append, Nat.add_assoc]
  byKind := by rw [h'.byKind, h.byKind, countKinds, countKinds, countKinds, List.foldl_append]

/-- What changes nothing that is recorded. -/
theorem Accounts.of_records (h : Records w [] w') (hjournal : w'.journal = w.journal)
    (herrors : w'.report.errors = w.report.errors) (htotal : w'.report.total = w.report.total)
    (hkind : w'.report.byKind = w.report.byKind) : Accounts w [] [] w' where
  toRecords := h
  journal := ⟨{}, by rw [hjournal, Journal.append_empty], rfl, rfl⟩
  errors := by rw [herrors, List.map_nil, List.append_nil]
  total := htotal
  byKind := hkind

theorem Accounts.refl (w : Worker) : Accounts w [] [] w :=
  .of_records (.refl w) rfl rfl rfl rfl

theorem accounts_enter (w : Worker) (stage : String) : Accounts w [] [] (w.enter stage) :=
  .of_records (.of_eq (continues_of_eq rfl rfl rfl) rfl rfl rfl) rfl rfl rfl rfl

theorem accounts_leave (w : Worker) (stage : String) : Accounts w [] [] (w.leave stage) := by
  have hreport : (w.leave stage).report = w.report ∨
      ∃ seconds, (w.leave stage).report = w.report.addTime stage seconds := by
    simp only [leave, report, Timing.leave]
    split
    · exact .inl rfl
    · exact .inr ⟨_, rfl⟩
  refine .of_records (.of_eq (continues_of_eq rfl rfl rfl) rfl rfl ?_) rfl ?_ ?_ ?_ <;>
    rcases hreport with h | ⟨seconds, h⟩ <;> rw [h] <;> rfl

theorem accounts_addFile (w : Worker) (kind : FileKind) (size : Int) :
    Accounts w [kind] [] (w.changeReport (·.addFile kind.name size)) where
  toRecords := .of_eq (continues_of_eq rfl rfl rfl) rfl rfl rfl
  journal := ⟨{}, (Journal.append_empty _).symm, rfl, rfl⟩
  errors := (List.append_nil _).symm
  total := rfl
  byKind := rfl

theorem accounts_journalled {more : Journal} (h : more.Keeps []) (w : Worker) :
    Accounts w [] [] (w.journalled more) where
  toRecords := .of_eq (continues_of_eq rfl rfl rfl) rfl rfl rfl
  journal := ⟨more, rfl, h⟩
  errors := (List.append_nil _).symm
  total := rfl
  byKind := rfl

/-- A failure is counted together with the journal that keeps it. -/
theorem accounts_countFailed {more : Journal} {failure : Failure} (h : more.Keeps [failure])
    (w : Worker) (item : Item) :
    Accounts w [] [(item, failure)] ((w.journalled more).countFailed item failure.message) where
  toRecords := ⟨continues_of_eq rfl rfl rfl, rfl, rfl, rfl⟩
  journal := ⟨more, rfl, h⟩
  errors := rfl
  total := rfl
  byKind := rfl

/-! ### One item -/

theorem accounts_mergeFile (d : Disk) (w : Worker) (kind : FileKind) (item : Item) (f : File) :
    Accounts w [] ((w.settings.failureOfFile? d kind f).toList.map (item, ·))
        (mergeFile d w kind item f).1 ∧
      (mergeFile d w kind item f).2 = (w.settings.fateOfFile d kind f).resultFor w.failFast := by
  cases kind with
  | declaration =>
    refine ⟨accounts_journalled (.of_entries fun e he => ?_) w, rfl⟩
    have he : e ∈ (w.settings.mergeDeclarations f).1 := he
    rw [Settings.mergeDeclarations] at he
    split at he
    · cases he
    · exact isError_declarationEntries f e he
  | script =>
    have hkeeps := w.settings.keeps_mergeScript (some (d.mapLoader f.path.toList)) f
    simp only [mergeFile, Settings.fateOfFile, Settings.failureOfFile?]
    rw [ScriptOutcome.failure?] at hkeeps ⊢
    cases hresult : (w.settings.mergeScript (some (d.mapLoader f.path.toList)) f).result with
    | ok merged? =>
      rw [hresult] at hkeeps
      cases merged? <;> exact ⟨accounts_journalled hkeeps w, rfl⟩
    | error fault =>
      rw [hresult] at hkeeps
      cases fault with
      | unparsable path fault => exact ⟨accounts_countFailed hkeeps w item, rfl⟩
      | stopped | nesting | unknownOption => exact ⟨accounts_journalled hkeeps w, rfl⟩

/-- One item. -/
theorem accounts_process (d : Disk) (kind : FileKind) (w : Worker) (item : Item) :
    Accounts w (kindsRead d [(kind, item)]) (failuresOf d w.settings [(kind, item)])
        (process d kind w item).1 ∧
      (process d kind w item).2 = (w.settings.fateOf d kind item).resultFor w.failFast := by
  have henter := w.accounts_enter "read"
  rw [kindsRead_singleton, failuresOf_singleton, process, Settings.fateOf, Settings.failureOf?]
  cases readItem d item with
  | error fault =>
    cases fault with
    | encoding error => exact ⟨henter.trans (accounts_leave _ "read"), rfl⟩
    | disk fault =>
      have hempty : Journal.Keeps {} [] := ⟨rfl, rfl⟩
      have hkeeps := hempty.fail (.unreadable item.describe fault)
      have hfailed := (henter.trans (accounts_countFailed hkeeps _ item)).trans
        (accounts_leave _ "read")
      exact ⟨hfailed, rfl⟩
  | ok f =>
    have hstage := ((henter.trans (accounts_leave _ "read")).trans
      (accounts_addFile _ kind f.measured.length)).trans (accounts_enter _ kind.stage)
    obtain ⟨hmerged, hresult⟩ := accounts_mergeFile d _ kind item f.measured
    have hdone := (hstage.trans hmerged).trans (accounts_leave _ kind.stage)
    simp only [List.nil_append, List.append_nil] at hdone
    exact ⟨hdone, hresult⟩

/-! ### All items -/

/-- What a run through items comes to if nothing ends it: all items are done, and none of them was
to end it. -/
structure Completes (d : Disk) (s : Settings) (items done : List (FileKind × Item))
    (files : List File) : Prop where
  done : done = items
  goes : ∀ q ∈ items, (s.fateOf d q.1 q.2).isStopped = false
  files : files = items.flatMap fun q => (s.fateOf d q.1 q.2).files

theorem Completes.append {s : Settings} {items items' done done' : List (FileKind × Item)}
    {files files' : List File} (h : Completes d s items done files)
    (h' : Completes d s items' done' files') :
    Completes d s (items ++ items') (done ++ done') (files ++ files') where
  done := by rw [h.done, h'.done]
  goes := List.forall_mem_append.mpr ⟨h.goes, h'.goes⟩
  files := by rw [h.files, h'.files, List.flatMap_append]

/-- A run through a queue, by the step for one item. It records what the items come to that are
done up to its end. -/
theorem exists_accounts_processAll (d : Disk) (kind : FileKind) (w : Worker) (items : List Item) :
    ∃ done, done <+: items.map (kind, ·) ∧
      Accounts w (kindsRead d done) (failuresOf d w.settings done)
        (processAll d kind w items).1 ∧
      ∀ files, (processAll d kind w items).2 = .ok files →
        Completes d w.settings (items.map (kind, ·)) done files := by
  induction items generalizing w with
  | nil =>
    refine ⟨[], List.nil_prefix, .refl w, fun files h => ?_⟩
    cases h
    exact ⟨rfl, by simp, rfl⟩
  | cons item items ih =>
    obtain ⟨hfirst, hresult⟩ := accounts_process d kind w item
    obtain ⟨done, hdone, hrest, hall⟩ := ih (process d kind w item).1
    rw [hfirst.continues.settings] at hrest hall
    rw [List.map_cons, processAll]
    split
    · next w₁ fault h =>
      rw [h] at hfirst
      exact ⟨[(kind, item)], by simp, hfirst, fun files h => by cases h⟩
    · next w₁ made h =>
      rw [h] at hfirst hresult hrest hall
      obtain ⟨hgoes, hmade⟩ := Fate.of_resultFor hresult.symm
      have hone : Completes d w.settings [(kind, item)] [(kind, item)] made :=
        ⟨rfl, by simpa using hgoes, by simp [hmade]⟩
      refine ⟨[(kind, item)] ++ done, List.cons_prefix_cons.mpr ⟨rfl, hdone⟩, ?_, fun files h => ?_⟩
      · rw [kindsRead_append, failuresOf_append]
        exact hfirst.trans hrest
      · cases hmore : (processAll d kind w₁ items).2 with
        | error fault =>
          simp only [hmore] at h
          cases h
        | ok more =>
          simp only [hmore] at h
          cases h
          exact hone.append (hall more hmore)

/-- The work through both queues, under a new report. -/
theorem exists_accounts_work (d : Disk) (w : Worker) :
    ∃ done, done <+: w.queued ∧
      Accounts { w with timing := .start w.timing.clock } (kindsRead d done)
        (failuresOf d w.settings done) (work d w).1 ∧
      ∀ files, (work d w).2 = .ok files → Completes d w.settings w.queued done files := by
  obtain ⟨done, hdone, hfirst, hall⟩ := exists_accounts_processAll d .declaration
    { w with timing := .start w.timing.clock } w.declarations
  simp only [work]
  split
  · next w₁ fault h =>
    rw [h] at hfirst
    exact ⟨done, hdone.trans (List.prefix_append _ _), hfirst, fun files h => by cases h⟩
  · next w₁ merged h =>
    rw [h] at hfirst hall
    have hmerged := hall merged rfl
    obtain rfl := hmerged.done
    have hsettings : w₁.settings = w.settings := hfirst.continues.settings
    have hscripts : w₁.scripts = w.scripts := hfirst.continues.queue .script
    obtain ⟨done', hdone', hsecond, hall'⟩ := exists_accounts_processAll d .script w₁ w₁.scripts
    rw [hsettings] at hsecond hall'
    rw [hscripts] at hdone' hall' hsecond ⊢
    have hboth := hfirst.trans hsecond
    rw [← kindsRead_append, ← failuresOf_append] at hboth
    have hprefix : w.declarations.map (.declaration, ·) ++ done' <+: w.queued :=
      (List.prefix_append_right_inj _).mpr hdone'
    split
    · next w₂ fault h' =>
      rw [h'] at hboth
      exact ⟨_, hprefix, hboth, fun files h => by cases h⟩
    · next w₂ more h' =>
      rw [h'] at hboth hall'
      have hfinish : Accounts w₂ [] [] { w₂ with timing := w₂.timing.finish } :=
        .of_records (.of_eq (continues_of_eq rfl rfl rfl) rfl rfl rfl) rfl rfl rfl rfl
      have hdone := hboth.trans hfinish
      rw [List.append_nil, List.append_nil] at hdone
      refine ⟨_, hprefix, hdone, fun files h => ?_⟩
      cases h
      exact hmerged.append (hall' more rfl)

end Worker

end NamespaceMerge
