import NamespaceMerge.Proofs.Disk.Reading
import NamespaceMerge.Proofs.File.Marker
import NamespaceMerge.Proofs.Worker.Queueing
import NamespaceMerge.Proofs.Worker.Written

/-! Whether a worker knows the files again that were made under its settings. With a marker that has
no doubled points between points, and no separator in it, every merged file carries the marker in
its name, and patterns do not bring it into a queue (`Worker.sparesOutputs`). -/

namespace NamespaceMerge

namespace FileKind

open FileName (IsExtension hasExtension)

theorem isExtension : ∀ kind : FileKind, IsExtension kind.extension
  | .declaration => FileName.isExtension_declaration
  | .script => FileName.isExtension_script

theorem hasExtension_of_accepts {kind : FileKind} {name : Text} (h : kind.accepts name = true)
    (hslash : '/' ∉ name) : hasExtension kind.extension name = true := by
  cases kind with
  | declaration => exact h
  | script => exact FileName.hasExtension_of_isScriptPath h hslash

theorem accepts_last {kind : FileKind} {path : Text} (h : kind.accepts path = true) :
    ∃ name ∈ (FileName.components path).getLast?, kind.accepts name = true := by
  cases kind with
  | declaration => exact FileName.isDeclarationPath_last h
  | script => exact FileName.isScriptPath_last h

end FileKind

/-! ### Marked names -/

/-- Every merged file carries the marker in its name. -/
def FileName.MarksOutputs (marker : Text) : Prop :=
  ∀ (kind : FileKind) (name : Text), '/' ∉ name → kind.accepts name = true →
    hasMarker (output name kind.extension marker) marker = true

theorem FileName.marksOutputs_iff {marker : Text} : MarksOutputs marker ↔ Undoubled marker := by
  constructor
  · intro h
    exact undoubled_of_hasMarker_output (h .script "a.js".toList (by decide) (by decide))
  · intro h kind name hslash hkind
    exact hasMarker_output (kind.hasExtension_of_accepts hkind hslash) kind.isExtension h

namespace Worker

variable {d found : Disk} {w w' : Worker} {kind : FileKind} {f : File} {files : List File}

/-! ### What is queued -/

/-- The queues of a worker hold nothing but paths that were found: each is one of a file of the
kind, under a name without the marker. -/
def QueuesFound (w : Worker) : Prop :=
  ∀ kind, ∀ item ∈ w.queue kind, ∃ components, item = foundItem components ∧
    kind.accepts (FileName.ofComponents components) = true ∧
    FileName.hasMarker (components.getLast?.getD []) w.settings.marker = false

theorem QueuesFound.queue? {components : List Text}
    (hmarker : FileName.hasMarker (components.getLast?.getD []) w.settings.marker = false)
    (hqueued : w.queue? (FileName.ofComponents components) (foundItem components) = some w')
    (h : QueuesFound w) : QueuesFound w' := by
  have henqueues := enqueues_queue? hqueued
  intro kind item hitem
  rw [henqueues.settings]
  rcases henqueues.queue kind item hitem with hitem | ⟨hkind, rfl⟩
  · exact h kind item hitem
  · exact ⟨components, rfl, hkind, hmarker⟩

theorem QueuesFound.exists_of_mem_paths {path : String} (h : QueuesFound w)
    (hpath : path ∈ w.paths) :
    ∃ components, path = String.ofList (FileName.ofComponents components) ∧
      FileName.hasMarker (components.getLast?.getD []) w.settings.marker = false := by
  obtain ⟨item, hitem, hitemPath⟩ := List.mem_filterMap.mp hpath
  have hqueue : ∃ kind, item ∈ w.queue kind :=
    (List.mem_append.mp hitem).elim (⟨.declaration, ·⟩) (⟨.script, ·⟩)
  obtain ⟨kind, hitem⟩ := hqueue
  obtain ⟨components, rfl, -, hmarker⟩ := h kind item hitem
  exact ⟨components, (Option.some.inj hitemPath).symm, hmarker⟩

/-- The workers that were started under settings and have looked up patterns. -/
inductive Searching (s : Settings) : Worker → Prop
  | start (failFast : Bool) (clock : Clock) : Searching s (start s failFast clock)
  | addPatterns {w : Worker} (h : Searching s w) (found : Disk) (patterns : List String)
      (root : String) : Searching s (w.addPatterns found patterns root).1

namespace Searching

variable {s : Settings}

theorem settings_eq (h : Searching s w) : w.settings = s := by
  induction h with
  | start => rfl
  | addPatterns _ found patterns root ih =>
    exact (gathers_addPatterns _ found patterns root).settings.trans ih

theorem queuesFound (h : Searching s w) : QueuesFound w := by
  induction h with
  | start => exact fun kind item hitem => by cases kind <;> cases hitem
  | addPatterns _ found patterns root ih =>
    exact addPatterns_induction (P := QueuesFound)
      (fun hmarker hqueued h => h.queue? hmarker hqueued) (fun h => h) found patterns root ih

end Searching

/-! ### What is made of it -/

/-- A file that carries the marker in its name, and is written under this name. -/
structure Marked (marker : Text) (f : File) : Prop where
  hasMarker : FileName.hasMarker f.name.toList marker = true
  notMem : '/' ∉ f.name.toList

/-- What a file is merged to is marked, if its name is one of its kind. -/
theorem marked_of_mem_filesOf {s : Settings} {g : File} (hmarker : FileName.Undoubled s.marker)
    (hslash : '/' ∉ s.marker) (hname : '/' ∉ f.name.toList)
    (hkind : kind.accepts f.name.toList = true) (hg : g ∈ s.filesOf d kind f) :
    Marked s.marker g := by
  have hextension := kind.hasExtension_of_accepts hkind hname
  have hoff : '/' ∉ kind.extension := by cases kind <;> decide
  have houtput : FileName.hasMarker (s.outputName kind f.name).toList s.marker = true := by
    rw [Settings.outputName, String.toList_ofList]
    exact FileName.hasMarker_output hextension kind.isExtension hmarker
  have hseparator : '/' ∉ (s.outputName kind f.name).toList := by
    rw [Settings.outputName, String.toList_ofList]
    exact FileName.notMem_output hextension (by decide) hname hoff hslash
  obtain ⟨-, hgname | ⟨rfl, hgname⟩⟩ := Settings.name_of_mem_filesOf hg
  · exact ⟨hgname ▸ houtput, hgname ▸ hseparator⟩
  · have hmap : g.name.toList = (s.outputName .script f.name).toList ++ ".map".toList := by
      rw [hgname, String.toList_ofList]
      rfl
    constructor
    · exact hmap ▸ FileName.hasMarker_of_infix houtput (List.prefix_append _ _).isInfix
    · rw [hmap, List.mem_append, not_or]
      exact ⟨hseparator, by decide⟩

/-- Whatever is made of files that were found is marked. -/
theorem marked_of_work (h : QueuesFound w) (hmarker : FileName.Undoubled w.settings.marker)
    (hslash : '/' ∉ w.settings.marker) (hwork : work d w = (w', .ok files)) (hf : f ∈ files) :
    Marked w.settings.marker f := by
  obtain ⟨kind, item, hitem, source, hread, hf⟩ := mem_work hwork hf
  obtain ⟨components, rfl, hkind, -⟩ := h kind item hitem
  obtain ⟨place, bytes, text, -, -, hsource⟩ := Disk.readFile_eq_ok hread
  obtain ⟨name, hlast, hname⟩ := kind.accepts_last hkind
  have hsourceName : source.measured.name.toList = name := by
    rw [String.toList_ofList, Option.mem_def.mp hlast] at hsource
    rw [hsource]
    exact String.toList_ofList
  have hnotMem : '/' ∉ name := by
    refine (FileName.eq_root_or_notMem (List.mem_of_getLast? hlast)).resolve_left ?_
    rintro rfl
    cases kind <;> cases hname
  exact marked_of_mem_filesOf hmarker hslash (hsourceName ▸ hnotMem) (hsourceName ▸ hname) hf

/-! ### Where it stands -/

/-- The place that a path leads to, if a file is there. -/
def fileAt? (d : Disk) (path : String) : Option Place :=
  match d.find path.toList with
  | .ok (.file place _) => some place
  | _ => none

theorem getLast?_placeOf? {marker : Text} {place : Place} (h : Marked marker f)
    (hplace : d.placeOf? f = some place) : place.getLast? = some f.name.toList := by
  have hlength : 2 ≤ f.name.toList.length := by
    have hinfix := (FileName.hasMarker_iff.mp h.hasMarker).2.length_le
    simp only [List.length_cons, List.length_append, List.length_nil] at hinfix
    omega
  obtain ⟨bytes, hfind⟩ := Disk.placeOf?_eq_some_iff.mp hplace
  rw [File.components, target, FileName.components_of_notMem h.notMem hlength] at hfind
  obtain ⟨above, component, directory, hpath, -, -, rfl, -⟩ := Disk.findFrom_file_cases hfind
  rw [List.getLast?_concat, (List.singleton_inj.mp (List.append_inj' hpath rfl).2)]

/-- A file that a found path leads to has a name that the last component ends with. -/
theorem getLast?_fileAt? {components : List Text} {place : Place}
    (h : fileAt? d (String.ofList (FileName.ofComponents components)) = some place) :
    ∃ name, place.getLast? = some name ∧ name <:+ components.getLast?.getD [] := by
  unfold fileAt? at h
  split at h
  · next place' bytes hfind =>
    cases h
    rw [String.toList_ofList, Disk.find] at hfind
    obtain ⟨above, component, directory, hpath, -, hname, rfl, -⟩ := Disk.findFrom_file_cases hfind
    refine ⟨component, List.getLast?_concat, ?_⟩
    rcases List.eq_nil_or_concat components with rfl | ⟨front, last, rfl⟩
    · have hmem : component ∈ FileName.split ['.'] := hpath ▸ List.mem_concat_self
      exact (hname.ne_here (List.mem_singleton.mp hmem)).elim
    · rw [List.concat_eq_append] at hpath hfind ⊢
      have hlast : last ≠ FileName.root := by
        rintro rfl
        rw [FileName.ofComponents_concat_root] at hfind
        cases hfind
      have hsplit := FileName.getLast?_split_ofComponents front hlast
      rw [hpath, List.getLast?_concat] at hsplit
      rw [List.getLast?_concat]
      exact Text.suffix_of_getLast?_splitAll hsplit.symm
  · cases h

/-! ### A second search -/

/-- Whether a path in a queue leads to where a file stands. -/
def Queues (d : Disk) (w : Worker) (f : File) : Prop :=
  ∃ path ∈ w.paths, (d.placeOf? f).isSome ∧ fileAt? d path = d.placeOf? f

instance (d : Disk) (w : Worker) (f : File) : Decidable (Queues d w f) :=
  inferInstanceAs (Decidable (∃ path ∈ w.paths, _ ∧ _))

/-- Whether a worker has, on a disk as it may be later, one of the files in a queue that another
worker has made of a disk. -/
def QueuesOutput (d : Disk) (w : Worker) (later : Disk) (w' : Worker) : Prop :=
  ∃ f ∈ (work d w).2.toOption.getD [], Queues later w' f

instance (d : Disk) (w : Worker) (later : Disk) (w' : Worker) :
    Decidable (QueuesOutput d w later w') :=
  inferInstanceAs (Decidable (∃ f ∈ _, Queues later w' f))

/-- What was made of the files that were found under settings is not found again under them. -/
def SparesOutputs (s : Settings) : Prop :=
  ∀ {w w' : Worker}, Searching s w → Searching s w' → ∀ d later, ¬ QueuesOutput d w later w'

/-- Every merged file carries the marker exactly if the marker has no doubled points between points,
and if it has no separator either, a second search does not bring the merged files into a queue. -/
theorem sparesOutputs (s : Settings) :
    (FileName.MarksOutputs s.marker ↔ FileName.Undoubled s.marker) ∧
      (FileName.Undoubled s.marker → '/' ∉ s.marker → SparesOutputs s) := by
  refine ⟨FileName.marksOutputs_iff, fun hmarker hslash w w' h h' d later => ?_⟩
  rintro ⟨f, hf, path, hpath, hplaced, hsame⟩
  match hwork : work d w with
  | (_, .error fault) =>
    rw [hwork] at hf
    cases hf
  | (w₁, .ok files) =>
    rw [hwork] at hf
    obtain ⟨place, hplace⟩ := Option.isSome_iff_exists.mp hplaced
    have hmarked : Marked s.marker f := by
      have := h.settings_eq
      subst this
      exact marked_of_work h.queuesFound hmarker hslash hwork hf
    obtain ⟨components, rfl, hunmarked⟩ := h'.queuesFound.exists_of_mem_paths hpath
    obtain ⟨name, hname, hsuffix⟩ := getLast?_fileAt? (hsame.trans hplace)
    rw [getLast?_placeOf? hmarked hplace, Option.some.injEq] at hname
    have hcarried := FileName.hasMarker_of_infix hmarked.hasMarker (hname ▸ hsuffix).isInfix
    rw [h'.settings_eq, hcarried] at hunmarked
    cases hunmarked

/-- A worker that has queued paths as one pattern finds them. -/
def gathered (s : Settings) (paths : List (List Text)) : Worker :=
  let counted := paths.foldl addFound (start s false (.still (.integer 0)), 0)
  counted.1.log s!"Added {counted.2} file(s) to the queue" .information

theorem searching_gathered {s : Settings} {paths : List (List Text)} (found : Disk)
    (pattern : Text) (h : Glob.candidates? found pattern = some paths)
    (hpairwise : paths.Pairwise fun a b => Glob.pathBefore a b = true) :
    Searching s (gathered s paths) := by
  have hsearching := Searching.addPatterns (.start (s := s) false (.still (.integer 0))) found
    [String.ofList pattern] ""
  rwa [addPatterns_singleton (Glob.expand?_of_pairwise h hpairwise)] at hsearching

/-- A disk with one file, and a directory. -/
def besideDirectory (name : String) : Disk where
  files := [namespaceFile ["a.d.ts"] "A"]
  directories := [[name.toList]]

theorem sparesOutputs_merged :
    let first := gathered .standard [["a.d.ts".toList]]
    let later := (workAndWrite (besideDirectory "b") first).1
    let second := gathered .standard [["a.d.ts".toList], ["a.merged.d.ts".toList]]
    FileName.MarksOutputs "merged".toList ∧ Searching .standard first ∧ Searching .standard second ∧
      later.files.map (·.1) = [["a.d.ts".toList], ["a.merged.d.ts".toList]] ∧
      ¬ QueuesOutput (besideDirectory "b") first later second := by
  intro first later second
  obtain ⟨hmarks, hspares⟩ := sparesOutputs .standard
  have hmarker : FileName.Undoubled Settings.standard.marker := by decide +kernel
  have hfirst : Searching .standard first := searching_gathered (besideDirectory "b") ['*']
    (by decide +kernel) (by decide +kernel)
  have hsecond : Searching .standard second := searching_gathered later ['*']
    (by decide +kernel) (by decide +kernel)
  exact ⟨hmarks.mpr hmarker, hfirst, hsecond, by decide +kernel,
    hspares hmarker (by decide) hfirst hsecond _ _⟩

/-- A marker that starts with a point is not found again in `a.v2.d.ts`, and one that leads into a
directory not in the last component of `a.v/2.d.ts`. -/
theorem not_sparesOutputs :
    ¬ FileName.MarksOutputs ".v2".toList ∧
      ¬ SparesOutputs { Settings.standard with marker := ".v2".toList } ∧
      ¬ SparesOutputs { Settings.standard with marker := "v/2".toList } := by
  refine ⟨fun h => ?_, fun h => ?_, fun h => ?_⟩
  · have hmarked := h .declaration "a.d.ts".toList (by decide) (by decide)
    revert hmarked
    decide +kernel
  · let first := gathered { Settings.standard with marker := ".v2".toList } [["a.d.ts".toList]]
    let later := (workAndWrite (besideDirectory "b") first).1
    let second := gathered { Settings.standard with marker := ".v2".toList }
      [["a.d.ts".toList], ["a.v2.d.ts".toList]]
    have hfirst : Searching _ first := searching_gathered (besideDirectory "b") ['*']
      (by decide +kernel) (by decide +kernel)
    have hsecond : Searching _ second := searching_gathered later ['*']
      (by decide +kernel) (by decide +kernel)
    exact h hfirst hsecond (besideDirectory "b") later (by decide +kernel)
  · let first := gathered { Settings.standard with marker := "v/2".toList } [["a.d.ts".toList]]
    let later := (workAndWrite (besideDirectory "a.v") first).1
    let second := gathered { Settings.standard with marker := "v/2".toList }
      [["a.v".toList, "2.d.ts".toList]]
    have hfirst : Searching _ first := searching_gathered (besideDirectory "a.v") ['*']
      (by decide +kernel) (by decide +kernel)
    have hsecond : Searching _ second := searching_gathered later "*/*".toList
      (by decide +kernel) (by decide +kernel)
    exact h hfirst hsecond (besideDirectory "a.v") later (by decide +kernel)

end Worker

end NamespaceMerge
