import NamespaceMerge.Proofs.File.Name
import NamespaceMerge.Proofs.Merging.SourceMaps
import NamespaceMerge.Worker.Work

/-! Where the files come from that a worker returns: each is made of an item of one of its queues,
read from the disk as it was (`mem_work`), under a name and in a directory that follow from those
of the item (`Settings.name_of_mem_filesOf`). -/

namespace NamespaceMerge

/-- The extension of the files of a kind. -/
def FileKind.extension : FileKind → Text
  | declaration => FileName.declarationExtension
  | script => FileName.scriptExtension

/-- What a merged file is. -/
inductive OutputKind
  | declaration
  | script
  | map

namespace OutputKind

/-- The kind of the files that it is made of. -/
def kind : OutputKind → FileKind
  | declaration => .declaration
  | script | map => .script

/-- What stands behind the stem in the name of the merged file. -/
def tail (marker : Text) : OutputKind → Text
  | declaration => FileName.markedExtension marker FileName.declarationExtension
  | script => FileName.markedExtension marker FileName.scriptExtension
  | map => FileName.sourceMap (FileName.markedExtension marker FileName.scriptExtension)

/-- The last two characters of the name, by which the kinds differ. -/
def ending : OutputKind → Text
  | declaration => ['t', 's']
  | script => ['j', 's']
  | map => ['a', 'p']

theorem suffix_tail (marker : Text) (o : OutputKind) : o.ending <:+ o.tail marker := by
  cases o with
  | declaration =>
    exact FileName.suffix_markedExtension (by decide) marker ".d.".toList 's'
  | script => exact FileName.suffix_markedExtension (by decide) marker ".".toList 's'
  | map =>
    refine List.IsSuffix.trans ?_ (List.suffix_append _ _)
    exact ⟨".m".toList, rfl⟩

theorem notMem_tail {marker : Text} (h : '/' ∉ marker) (o : OutputKind) : '/' ∉ o.tail marker := by
  cases o with
  | declaration => exact FileName.notMem_markedExtension (by decide) h (by decide)
  | script => exact FileName.notMem_markedExtension (by decide) h (by decide)
  | map =>
    have hscript : '/' ∉ FileName.markedExtension marker FileName.scriptExtension :=
      FileName.notMem_markedExtension (by decide) h (by decide)
    exact fun hmem => (List.mem_append.mp hmem).elim hscript (by decide)

/-- The name of a merged file tells what it is, and the stem of the file it is made of. -/
theorem append_tail_inj {marker stem stem' : Text} {o o' : OutputKind}
    (h : stem ++ o.tail marker = stem' ++ o'.tail marker) : stem = stem' ∧ o = o' := by
  have hending : o.ending <:+ stem ++ o.tail marker :=
    (o.suffix_tail marker).trans (List.suffix_append _ _)
  have hending' : o'.ending <:+ stem ++ o.tail marker :=
    h ▸ (o'.suffix_tail marker).trans (List.suffix_append _ _)
  have hlength : o.ending.length = o'.ending.length := by cases o <;> cases o' <;> rfl
  have heq := (List.suffix_of_suffix_length_le hending hending' hlength.le).eq_of_length hlength
  have hkind : o = o' := by cases o <;> cases o' <;> first | rfl | cases heq
  subst hkind
  exact ⟨List.append_cancel_right h, rfl⟩

end OutputKind

namespace Settings

variable {s : Settings} {d : Disk} {kind : FileKind} {file f g : File}

/-- The name of the merged file of a file. -/
def outputName (s : Settings) (kind : FileKind) (name : String) : String :=
  String.ofList (FileName.output name.toList kind.extension s.marker)

/-- What a file is merged to: the merged file, and the map that comes with a script. -/
def filesOf (s : Settings) (d : Disk) (kind : FileKind) (f : File) : List File :=
  match kind with
  | .declaration => (s.mergeDeclarations f).2.toList
  | .script =>
    match (s.mergeScript (some (d.mapLoader f.path.toList)) f).result with
    | .ok (some merged) => merged.script :: merged.map.toList
    | _ => []

theorem named_mergedDeclarations (s : Settings) (f : File) :
    (s.mergedDeclarations f).name = s.outputName .declaration f.name ∧
      (s.mergedDeclarations f).path = s.directoryFor f.path := by
  unfold mergedDeclarations
  dsimp only
  split <;> exact ⟨rfl, rfl⟩

theorem named_mergedScript (s : Settings) (f : File) (printed : Printed) (joins : Nat)
    (kind : SourceMap.Kind) (input : Option Json.Members) :
    let merged := s.mergedScript f printed joins kind input
    merged.script.name = s.outputName .script f.name ∧
      merged.script.path = s.directoryFor f.path ∧
      ∀ map, merged.map = some map →
        map.name = String.ofList (FileName.sourceMap (s.outputName .script f.name).toList) ∧
          map.path = s.directoryFor f.path := by
  cases input with
  | none => exact ⟨rfl, rfl, fun _ h => by cases h⟩
  | some input =>
    refine ⟨rfl, rfl, fun map h => ?_⟩
    cases h
    exact ⟨rfl, rfl⟩

theorem result_mergeScript {loader : Option SourceMap.Loader} {merged : MergedScript}
    (h : (s.mergeScript loader f).result = .ok (some merged)) :
    ∃ printed joins kind input, merged = s.mergedScript f printed joins kind input := by
  obtain ⟨statements, printed, hreads, hrecovers⟩ := reads_of_result h
  rw [(hreads.mergeScript loader).2, result_createScript hrecovers] at h
  cases h
  exact ⟨printed, _, _, _, rfl⟩

/-- The files that a file is merged to are in its directory, or in the one for all, and they have
the name of the merged file or, if it is the map of a script, that name with an ending. -/
theorem name_of_mem_filesOf (h : g ∈ s.filesOf d kind f) :
    g.path = s.directoryFor f.path ∧
      (g.name = s.outputName kind f.name ∨ kind = .script ∧
        g.name = String.ofList (FileName.sourceMap (s.outputName .script f.name).toList)) := by
  unfold filesOf at h
  split at h
  · rw [Option.mem_toList, mergeDeclarations] at h
    split at h
    · cases h
    · cases h
      obtain ⟨hname, hpath⟩ := s.named_mergedDeclarations f
      exact ⟨hpath, .inl hname⟩
  · split at h
    · next merged hresult =>
      obtain ⟨printed, joins, kind, input, rfl⟩ := result_mergeScript hresult
      obtain ⟨hname, hpath, hmap⟩ := s.named_mergedScript f printed joins kind input
      rcases List.mem_cons.mp h with rfl | h
      · exact ⟨hpath, .inl hname⟩
      · obtain ⟨hname, hpath⟩ := hmap g (Option.mem_toList.mp h)
        exact ⟨hpath, .inr ⟨rfl, hname⟩⟩
    · cases h

/-- The names of the files that a file with its proper extension is merged to. -/
theorem name_of_extension {stem : Text} (h : g ∈ s.filesOf d kind f)
    (hname : f.name = String.ofList (stem ++ kind.extension)) :
    ∃ o : OutputKind, o.kind = kind ∧ g.name = String.ofList (stem ++ o.tail s.marker) := by
  obtain ⟨-, hg⟩ := name_of_mem_filesOf h
  rw [outputName, outputName, hname, String.toList_ofList] at hg
  rcases hg with hg | ⟨rfl, hg⟩
  · rw [FileName.output_of_extension] at hg
    cases kind with
    | declaration => exact ⟨.declaration, rfl, hg⟩
    | script => exact ⟨.script, rfl, hg⟩
  · refine ⟨.map, rfl, ?_⟩
    rw [hg, String.toList_ofList, FileName.output_of_extension, FileName.sourceMap,
      List.append_assoc]
    rfl

theorem sourceMap_ne (name : String) :
    String.ofList (FileName.sourceMap name.toList) ≠ name := by
  intro h
  have hlength := congrArg (fun text => text.toList.length) h
  simp [FileName.sourceMap] at hlength

/-- The files that a file is merged to have different names. -/
theorem eq_of_mem_filesOf (h : f ∈ s.filesOf d kind file) (h' : g ∈ s.filesOf d kind file)
    (hname : f.name = g.name) : f = g := by
  unfold filesOf at h h'
  split at h
  · exact Option.some.inj ((Option.mem_toList.mp h).symm.trans (Option.mem_toList.mp h'))
  · split at h
    · next merged hresult =>
      rw [hresult] at h'
      obtain ⟨printed, joins, kind, input, rfl⟩ := result_mergeScript hresult
      obtain ⟨hscript, -, hmap⟩ := s.named_mergedScript file printed joins kind input
      rcases List.mem_cons.mp h with rfl | h
      · rcases List.mem_cons.mp h' with rfl | h'
        · rfl
        · have hother := (hmap g (Option.mem_toList.mp h')).1
          rw [← hname, hscript] at hother
          exact (sourceMap_ne _ hother.symm).elim
      · rcases List.mem_cons.mp h' with rfl | h'
        · have hother := (hmap f (Option.mem_toList.mp h)).1
          rw [hname, hscript] at hother
          exact (sourceMap_ne _ hother.symm).elim
        · exact Option.some.inj ((Option.mem_toList.mp h).symm.trans (Option.mem_toList.mp h'))
    · cases h

/-- The files that a script is merged to, if it is read and printed and its map recovered. -/
theorem filesOf_script {statements : List Script.Statement} {printed : Printed}
    (h : s.Reads f statements printed)
    (hrecovers : s.Recovers (some (d.mapLoader f.path.toList)) f) :
    s.filesOf d .script f =
      let (kind, input) := s.original (some (d.mapLoader f.path.toList)) f
      let merged := s.mergedScript f printed (Script.merge statements).joins kind input
      merged.script :: merged.map.toList := by
  rw [filesOf, (h.mergeScript _).2, result_createScript hrecovers]

/-- Any other script makes no files. -/
theorem filesOf_script_eq_nil (h : ¬ ∃ statements printed, s.Reads f statements printed ∧
    s.Recovers (some (d.mapLoader f.path.toList)) f) : s.filesOf d .script f = [] := by
  rw [filesOf]
  split
  · next merged hresult => exact (h (reads_of_result hresult)).elim
  · rfl

/-- What a file is called and what is in it. -/
def entry (f : File) : String × String := (f.name, f.contents)

theorem entry_mergedDeclarations (s : Settings) (f : File) (path : String) :
    entry (s.mergedDeclarations { f with path }) = entry (s.mergedDeclarations f) := by
  simp only [mergedDeclarations]
  cases hmerge : Declaration.merge? f.contents.toList <;>
    simp only [File.measured, hmerge] <;> rfl

theorem entries_mergedScript (s : Settings) (f : File) (path : String) (printed : Printed)
    (joins : Nat) (kind : SourceMap.Kind) (input : Option Json.Members) :
    let merged := s.mergedScript f printed joins kind input
    let merged' := s.mergedScript { f with path } printed joins kind input
    (merged'.script :: merged'.map.toList).map entry =
      (merged.script :: merged.map.toList).map entry := by
  obtain ⟨contents, name, directory, size, source⟩ := f
  cases input with
  | none => rfl
  | some input => cases source <;> rfl

/-- Where a file is does not matter for what it is merged to, as long as the same maps are found
from there. -/
theorem entries_filesOf {path : String} (h : d.mapLoader path.toList = d.mapLoader f.path.toList) :
    (s.filesOf d kind { f with path }).map entry = (s.filesOf d kind f).map entry := by
  cases kind with
  | declaration =>
    simp only [filesOf, mergeDeclarations]
    split
    · rfl
    · simp only [Option.toList_some, List.map_cons, List.map_nil, entry_mergedDeclarations]
  | script =>
    by_cases hreads : ∃ statements printed, s.Reads f statements printed ∧
        s.Recovers (some (d.mapLoader f.path.toList)) f
    · obtain ⟨statements, printed, hreads, hrecovers⟩ := hreads
      have hreads' : s.Reads { f with path } statements printed :=
        ⟨hreads.notSkipped, hreads.parsed, hreads.printed⟩
      have hrecovers' : s.Recovers (some (d.mapLoader path.toList)) { f with path } := by
        rw [h]
        exact hrecovers
      rw [filesOf_script hreads hrecovers, filesOf_script hreads' hrecovers']
      dsimp only
      rw [h]
      exact s.entries_mergedScript f path printed _ _ _
    · have hreads' : ¬ ∃ statements printed, s.Reads { f with path } statements printed ∧
          s.Recovers (some (d.mapLoader path.toList)) { f with path } := by
        rintro ⟨statements, printed, hreads', hrecovers⟩
        refine hreads ⟨statements, printed,
          ⟨hreads'.notSkipped, hreads'.parsed, hreads'.printed⟩, ?_⟩
        rw [← h]
        exact hrecovers
      rw [filesOf_script_eq_nil hreads, filesOf_script_eq_nil hreads']

end Settings

namespace Worker

variable {d : Disk} {w w' : Worker} {kind : FileKind} {item : Item} {items : List Item} {f g : File}
  {files : List File}

/-- The queue of the files of a kind. -/
def queue (w : Worker) : FileKind → List Item
  | .declaration => w.declarations
  | .script => w.scripts

/-- Puts an item at the end of the queue of a kind. -/
def enqueue (w : Worker) : FileKind → Item → Worker
  | .declaration => w.queueDeclaration
  | .script => w.queueScript

/-- A worker that has gone on, with the same settings and the same queues. -/
structure Continues (w w' : Worker) : Prop where
  settings : w'.settings = w.settings
  queue : ∀ kind, w'.queue kind = w.queue kind

theorem Continues.refl (w : Worker) : Continues w w := ⟨rfl, fun _ => rfl⟩

theorem Continues.trans {w'' : Worker} (h : Continues w w') (h' : Continues w' w'') :
    Continues w w'' :=
  ⟨h'.settings.trans h.settings, fun kind => (h'.queue kind).trans (h.queue kind)⟩

theorem continues_of_eq (hsettings : w'.settings = w.settings)
    (hdeclarations : w'.declarations = w.declarations) (hscripts : w'.scripts = w.scripts) :
    Continues w w' := by
  refine ⟨hsettings, fun kind => ?_⟩
  cases kind
  · exact hdeclarations
  · exact hscripts

theorem afterFailure_eq_ok {fault : WorkFault} (h : w.afterFailure fault = (w', .ok files)) :
    w' = w ∧ files = [] := by
  unfold afterFailure at h
  split at h
  · cases h
  · cases h
    exact ⟨rfl, rfl⟩

theorem mergeFile_eq_ok (h : mergeFile d w kind item f = (w', .ok files)) :
    Continues w w' ∧ ∀ g ∈ files, g ∈ w.settings.filesOf d kind f := by
  unfold mergeFile at h
  split at h
  · cases h
    exact ⟨continues_of_eq rfl rfl rfl, fun g hg => hg⟩
  · dsimp only at h
    split at h
    · cases h
      exact ⟨continues_of_eq rfl rfl rfl, fun g hg => by cases hg⟩
    · next hresult =>
      cases h
      rw [Settings.filesOf, hresult]
      exact ⟨continues_of_eq rfl rfl rfl, fun g hg => hg⟩
    · obtain ⟨rfl, rfl⟩ := afterFailure_eq_ok h
      exact ⟨continues_of_eq rfl rfl rfl, fun g hg => by cases hg⟩
    · cases h

/-- An item that cannot be read makes no file. -/
theorem process_eq_ok (h : process d kind w item = (w', .ok files)) :
    Continues w w' ∧
      ∀ g ∈ files, ∃ f, readItem d item = .ok f ∧ g ∈ w.settings.filesOf d kind f.measured := by
  unfold process at h
  dsimp only at h
  split at h
  · cases h
  · obtain ⟨rfl, rfl⟩ := afterFailure_eq_ok h
    exact ⟨continues_of_eq rfl rfl rfl, fun g hg => by cases hg⟩
  · next f hread =>
    rw [Prod.mk.injEq] at h
    obtain ⟨rfl, hresult⟩ := h
    obtain ⟨hmerged, hfiles⟩ := mergeFile_eq_ok (Prod.ext rfl hresult)
    refine ⟨?_, fun g hg => ⟨f, hread, hfiles g hg⟩⟩
    exact continues_of_eq hmerged.settings (hmerged.queue .declaration) (hmerged.queue .script)

theorem processAll_eq_ok (h : processAll d kind w items = (w', .ok files)) :
    Continues w w' ∧
      ∀ g ∈ files, ∃ item ∈ items, ∃ f, readItem d item = .ok f ∧
        g ∈ w.settings.filesOf d kind f.measured := by
  induction items generalizing w files with
  | nil =>
    cases h
    exact ⟨.refl _, fun g hg => by cases hg⟩
  | cons item items ih =>
    rw [processAll] at h
    split at h
    · cases h
    · next w₁ made hfirst =>
      rw [Prod.mk.injEq] at h
      obtain ⟨rfl, hresult⟩ := h
      cases hrest : (processAll d kind w₁ items).2 with
      | error fault =>
        rw [hrest] at hresult
        cases hresult
      | ok more =>
        rw [hrest] at hresult
        cases hresult
        obtain ⟨hcontinues, hmade⟩ := process_eq_ok hfirst
        obtain ⟨hcontinues', hmore⟩ := ih (Prod.ext rfl hrest)
        refine ⟨hcontinues.trans hcontinues', fun g hg => ?_⟩
        rcases List.mem_append.mp hg with hg | hg
        · exact ⟨item, List.mem_cons_self, hmade g hg⟩
        · obtain ⟨other, hother, f, hread, hg⟩ := hmore g hg
          exact ⟨other, List.mem_cons_of_mem _ hother, f, hread, hcontinues.settings ▸ hg⟩

/-- Every file that the work makes is made of an item of a queue. -/
theorem mem_work (h : work d w = (w', .ok files)) (hg : g ∈ files) :
    ∃ kind, ∃ item ∈ w.queue kind, ∃ f, readItem d item = .ok f ∧
      g ∈ w.settings.filesOf d kind f.measured := by
  unfold work at h
  dsimp only at h
  split at h
  · cases h
  · next w₁ merged hmerged =>
    split at h
    · cases h
    · next w₂ more hmore =>
      cases h
      obtain ⟨hcontinues, hmerged⟩ := processAll_eq_ok hmerged
      obtain ⟨-, hmore⟩ := processAll_eq_ok hmore
      rcases List.mem_append.mp hg with hg | hg
      · exact ⟨.declaration, hmerged g hg⟩
      · obtain ⟨item, hitem, f, hread, hg⟩ := hmore g hg
        exact ⟨.script, item, hcontinues.queue .script ▸ hitem, f, hread,
          hcontinues.settings ▸ hg⟩

end Worker

end NamespaceMerge
