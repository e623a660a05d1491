import NamespaceMerge.Proofs.Disk.Reading
import NamespaceMerge.Proofs.Worker.Making
import NamespaceMerge.Proofs.Worker.Writing

/-! What is on the disk when a worker has worked and written. Where several files have one place, it
is the last of them. Files of different paths have one if all are written to one directory, if
their names differ in the case of an extension only, or if the marker leads out of a directory
(`not_keepsOutputs`). Merged files that stand beside what they are made of stand apart
(`holds_workAndWrite`). -/

namespace NamespaceMerge

/-! ### Places -/

theorem File.bytes_written (f : File) : f.written.bytes = f.bytes := by
  unfold written
  split <;> rfl

theorem File.name_written (f : File) : f.written.name = f.name := by
  unfold written
  split <;> rfl

theorem File.components_written (f : File) : f.written.components = f.components := by
  unfold written
  split <;> rfl

theorem Disk.placeOf?_written (d : Disk) (f : File) : d.placeOf? f.written = d.placeOf? f := by
  rw [placeOf?, placeOf?, File.components_written]

theorem Disk.filesAt_map_written (d : Disk) (place : Place) (files : List File) :
    d.filesAt place (files.map File.written) = (d.filesAt place files).map File.written := by
  rw [filesAt, filesAt, List.filter_map]
  congr 1
  refine List.filter_congr fun f _ => ?_
  simp only [Function.comp_apply, File.name_written, placeOf?_written]

namespace Worker

variable {d d' : Disk} {w w' : Worker} {files : List File}

/-- What a worker has done that worked and wrote without a fault. -/
theorem workAndWrite_eq_ok (h : workAndWrite d w = (d', w', .ok files)) :
    ∃ w₁ made, work d w = (w₁, .ok made) ∧ files = made.map File.written ∧ Disk.Grows d d' ∧
      (∀ f ∈ made, f.name ≠ "" → (d'.placeOf? f).isSome) ∧
      ∀ place, d'.files.lookup place =
        ((d'.filesAt place made).getLast?.map File.bytes).or (d.files.lookup place) := by
  unfold workAndWrite at h
  split at h
  · cases h
  · next w₁ made hwork =>
    split at h
    · next d₁ w₂ hwrite =>
      cases h
      simp only [write, Prod.mk.injEq] at hwrite
      obtain ⟨hd, -, hfault⟩ := hwrite
      have hall : writeAll d (w₁.enter "write") made =
          (d', (writeAll d (w₁.enter "write") made).2.1, none) :=
        Prod.ext hd (Prod.ext rfl hfault)
      exact ⟨w₁, made, hwork, rfl, writeAll_eq_none hall⟩
    · cases h

/-- At the place of every returned file with a name stand the contents of the last returned file
with that place. -/
theorem holds_last (h : workAndWrite d w = (d', w', .ok files)) {f : File} (hf : f ∈ files)
    (hname : f.name ≠ "") :
    ∃ place last, d'.follow f.components = .ok (.file place last.bytes) ∧
      (d'.filesAt place files).getLast? = some last := by
  obtain ⟨w₁, made, -, rfl, -, hplaces, hlookup⟩ := workAndWrite_eq_ok h
  obtain ⟨g, hg, rfl⟩ := List.mem_map.mp hf
  rw [File.name_written] at hname
  obtain ⟨place, hplace⟩ := Option.isSome_iff_exists.mp (hplaces g hg hname)
  obtain ⟨bytes, hfind⟩ := Disk.placeOf?_eq_some_iff.mp hplace
  have hmem : g ∈ d'.filesAt place made := by
    rw [Disk.filesAt, List.mem_filter]
    simp [hg, hname, hplace]
  obtain ⟨last, hlast⟩ :=
    Option.isSome_iff_exists.mp (List.getLast?_isSome.mpr (List.ne_nil_of_mem hmem))
  have hbytes := Disk.lookup_of_findFrom_file hfind
  rw [hlookup, hlast, Option.map_some, Option.some_or, Option.some.injEq] at hbytes
  refine ⟨place, last.written, ?_, ?_⟩
  · rw [File.components_written, File.bytes_written, hbytes, hfind]
  · rw [Disk.filesAt_map_written, List.getLast?_map, hlast]
    rfl

/-! ### Files beside what they are made of -/

/-- Merged files stand beside the files that they are made of, and these are queued by paths that
end with the extension of their kind. -/
structure WritesBeside (w : Worker) : Prop where
  outDirectory : w.settings.outDirectory = ""
  marker : '/' ∉ w.settings.marker
  queued : ∀ kind, ∀ item ∈ w.queue kind,
    ∃ path, item = .path path ∧ kind.extension <:+ path.toList

/-- A file that is read from a path with an extension: the directory and the file that the path
leads to. -/
theorem readItem_path_eq_ok {path : String} {extension : Text} {f : File}
    (h : readItem d (.path path) = .ok f) (hextension : extension <:+ path.toList)
    (hslash : '/' ∉ extension) (hlength : 2 ≤ extension.length) :
    ∃ directory stem bytes text, '/' ∉ stem ∧
      d.follow (FileName.components f.path.toList) = .ok (.directory directory) ∧
      d.files.lookup (directory ++ [stem ++ extension]) = some bytes ∧
      Disk.textOf bytes = .ok text ∧
      f = { contents := String.ofList text, name := String.ofList (stem ++ extension)
            path := f.path, size := some text.length } := by
  obtain ⟨stem, hcomponents, hstem⟩ := FileName.components_of_suffix hextension hslash hlength
  obtain ⟨place, bytes, text, hfind, htext, rfl⟩ := Disk.readFile_eq_ok h
  rw [Disk.find_normalize, hcomponents] at hfind
  obtain ⟨directory, habove, hlast⟩ := Disk.findFrom_concat hfind
  obtain ⟨-, rfl, -, hlookup⟩ := Disk.findFrom_singleton_file_iff.mp hlast
  refine ⟨directory, stem, bytes, text, hstem, ?_, hlookup, htext, ?_⟩
  · rw [String.toList_ofList]
    exact habove
  · rw [hcomponents, List.getLast?_append_of_ne_nil _ (List.cons_ne_nil _ _)]
    rfl

/-- Where a file is written that is made of a file with its extension. -/
theorem WritesBeside.place_eq (h : WritesBeside w) {kind : FileKind} {f g : File} {stem : Text}
    {directory place : Place} (hg : g ∈ w.settings.filesOf d kind f)
    (hname : f.name = String.ofList (stem ++ kind.extension)) (hstem : '/' ∉ stem)
    (hdirectory : d.follow (FileName.components f.path.toList) = .ok (.directory directory))
    (hgrows : Disk.Grows d d') (hplace : d'.placeOf? g = some place) :
    ∃ o : OutputKind, o.kind = kind ∧ g.name = String.ofList (stem ++ o.tail w.settings.marker) ∧
      place = directory ++ [stem ++ o.tail w.settings.marker] := by
  obtain ⟨o, ho, hgname⟩ := Settings.name_of_extension hg hname
  refine ⟨o, ho, hgname, ?_⟩
  have hgpath : g.path = f.path := by
    rw [(Settings.name_of_mem_filesOf hg).1, Settings.directoryFor, h.outDirectory]
    rfl
  have hcomponents : FileName.components (stem ++ o.tail w.settings.marker) =
      [stem ++ o.tail w.settings.marker] := by
    have hslash : '/' ∉ stem ++ o.tail w.settings.marker :=
      fun hmem => (List.mem_append.mp hmem).elim hstem (o.notMem_tail h.marker)
    have htail := (o.suffix_tail w.settings.marker).length_le
    have hending : o.ending.length = 2 := by cases o <;> rfl
    refine FileName.components_of_notMem hslash ?_
    rw [List.length_append]
    omega
  obtain ⟨bytes, hfind⟩ := Disk.placeOf?_eq_some_iff.mp hplace
  rw [File.components, target, hgname, hgpath, String.toList_ofList, hcomponents, Disk.follow,
    Disk.findFrom_append (hgrows.follow_directory hdirectory)] at hfind
  exact (Disk.findFrom_singleton_file_iff.mp hfind).2.1

/-- Files that are written to one place have the same contents: they are made of the same file. -/
theorem WritesBeside.bytes_eq (h : WritesBeside w) (hgrows : Disk.Grows d d') {w₁ : Worker}
    (hwork : work d w = (w₁, .ok files)) {f g : File} (hf : f ∈ files) (hg : g ∈ files)
    {place : Place} (hplace : d'.placeOf? f = some place) (hplace' : d'.placeOf? g = some place) :
    f.bytes = g.bytes := by
  obtain ⟨kind, item, hitem, file, hread, hf⟩ := mem_work hwork hf
  obtain ⟨kind', item', hitem', file', hread', hg⟩ := mem_work hwork hg
  obtain ⟨path, rfl, hextension⟩ := h.queued kind item hitem
  obtain ⟨path', rfl, hextension'⟩ := h.queued kind' item' hitem'
  obtain ⟨directory, stem, bytes, text, hstem, hdirectory, hlookup, htext, hfile⟩ :=
    readItem_path_eq_ok hread hextension (by cases kind <;> decide) (by cases kind <;> decide)
  obtain ⟨directory', stem', bytes', text', hstem', hdirectory', hlookup', htext', hfile'⟩ :=
    readItem_path_eq_ok hread' hextension' (by cases kind' <;> decide) (by cases kind' <;> decide)
  obtain ⟨o, rfl, hname, rfl⟩ :=
    h.place_eq hf (congrArg File.name hfile) hstem hdirectory hgrows hplace
  obtain ⟨o', rfl, hname', hsame⟩ :=
    h.place_eq hg (congrArg File.name hfile') hstem' hdirectory' hgrows hplace'
  obtain ⟨rfl, hlast⟩ := List.append_inj' hsame rfl
  obtain ⟨rfl, rfl⟩ := OutputKind.append_tail_inj (List.cons.inj hlast).1
  obtain rfl := Option.some.inj (hlookup.symm.trans hlookup')
  obtain rfl := Except.ok.inj (htext.symm.trans htext')
  have hmeasured : file'.measured = { file.measured with path := file'.path } := by
    rw [hfile', hfile]
    rfl
  have hentries : (w.settings.filesOf d o.kind file'.measured).map Settings.entry =
      (w.settings.filesOf d o.kind file.measured).map Settings.entry := by
    rw [hmeasured]
    exact Settings.entries_filesOf (Disk.mapLoader_eq hdirectory' hdirectory)
  obtain ⟨other, hother, hentry⟩ := List.mem_map.mp (hentries ▸ List.mem_map_of_mem hg)
  have hnames : other.name = f.name := (congrArg Prod.fst hentry).trans (hname'.trans hname.symm)
  obtain rfl := Settings.eq_of_mem_filesOf hother hf hnames
  have hcontents : other.contents = g.contents := congrArg Prod.snd hentry
  rw [File.bytes, File.bytes, hcontents]

/-! ### What is on the disk -/

/-- Every returned file with a name is at its place on the disk, with its own contents or those of
the last returned file that has the same place. It has its own contents if merged files stand beside
the files that they are made of, and these are named by their proper extensions. -/
theorem holds_workAndWrite (h : workAndWrite d w = (d', w', .ok files)) :
    (∀ f ∈ files, f.name ≠ "" →
      ∃ place last, d'.follow f.components = .ok (.file place last.bytes) ∧
        (d'.filesAt place files).getLast? = some last) ∧
    (WritesBeside w → ∀ f ∈ files, f.name ≠ "" → d'.Holds f) := by
  refine ⟨fun f hf hname => holds_last h hf hname, fun hbeside f hf hname => ?_⟩
  obtain ⟨place, last, hfind, hlast⟩ := holds_last h hf hname
  obtain ⟨w₁, made, hwork, rfl, hgrows, -, -⟩ := workAndWrite_eq_ok h
  obtain ⟨g, hg, rfl⟩ := List.mem_map.mp hf
  rw [Disk.filesAt_map_written, List.getLast?_map, Option.map_eq_some_iff] at hlast
  obtain ⟨other, hlast, rfl⟩ := hlast
  have hplace : d'.placeOf? g = some place := by
    rw [← Disk.placeOf?_written]
    exact Disk.placeOf?_eq_some_iff.mpr ⟨_, hfind⟩
  have hmem := List.mem_of_getLast? hlast
  rw [Disk.filesAt, List.mem_filter, Bool.and_eq_true, beq_iff_eq] at hmem
  have hbytes := hbeside.bytes_eq hgrows hwork hg hmem.1 hplace hmem.2.2
  rw [File.bytes_written, ← hbytes, ← File.bytes_written g] at hfind
  exact ⟨place, hfind⟩

/-- A file that holds one namespace. -/
def namespaceFile (place : List String) (name : String) : Place × Utf8.Bytes :=
  (place.map String.toList,
    Utf8.encode ("declare namespace " ++ name ++ " \x7b\n    a;\n\x7d\n").toList)

/-- Two files of one name. -/
def twoDirectories : Disk where
  files := [namespaceFile ["a", "x.d.ts"] "A", namespaceFile ["b", "x.d.ts"] "B"]
  directories := [["a".toList], ["b".toList]]

/-- A worker for declarations. -/
def declaring (settings : Settings) (paths : List String) : Worker :=
  { start settings false (.still (.integer 0)) with declarations := paths.map Item.path }

theorem holds_workAndWrite_twoDirectories :
    let w := declaring .standard ["a/x.d.ts", "b/x.d.ts"]
    WritesBeside w ∧ ∃ d' w' files, workAndWrite twoDirectories w = (d', w', .ok files) ∧
      files.map (fun f => (f.path, f.name)) = [("a", "x.merged.d.ts"), ("b", "x.merged.d.ts")] ∧
      ∀ f ∈ files, d'.Holds f := by
  intro w
  have hbeside : WritesBeside w := by
    refine ⟨rfl, by decide, fun kind item hitem => ?_⟩
    cases kind with
    | declaration =>
      rcases List.mem_pair.mp hitem with rfl | rfl
      · exact ⟨_, rfl, by decide⟩
      · exact ⟨_, rfl, by decide⟩
    | script => cases hitem
  have hnames : (workAndWrite twoDirectories w).2.2.toOption.map
      (List.map fun f => (f.path, f.name)) =
        some [("a", "x.merged.d.ts"), ("b", "x.merged.d.ts")] := by
    decide +kernel
  match hrun : workAndWrite twoDirectories w with
  | (d', w', .error fault) =>
    rw [hrun] at hnames
    cases hnames
  | (d', w', .ok files) =>
    rw [hrun] at hnames
    have hnames := Option.some.inj hnames
    refine ⟨hbeside, d', w', files, rfl, hnames, fun f hf => ?_⟩
    refine (holds_workAndWrite hrun).2 hbeside f hf fun hname => ?_
    have hmem : (f.path, f.name) ∈ files.map fun f => (f.path, f.name) := List.mem_map_of_mem hf
    rw [hnames, hname] at hmem
    simp at hmem

/-- Paths that are different, and lead to something. -/
def QueuesPaths (d : Disk) (w : Worker) : Prop :=
  (∀ item ∈ w.declarations ++ w.scripts, item.path?.isSome) ∧ w.paths.Nodup ∧
    ∀ path ∈ w.paths, exists? d path

instance (d : Disk) (w : Worker) : Decidable (QueuesPaths d w) :=
  inferInstanceAs (Decidable (_ ∧ _ ∧ _))

/-- If a worker with different paths and a marker works and writes, all returned files with a name
are on the disk. -/
def KeepsOutputs (d : Disk) (w : Worker) : Prop :=
  QueuesPaths d w → w.settings.marker ≠ [] → ∀ files ∈ (workAndWrite d w).2.2.toOption,
    ∀ f ∈ files, f.name ≠ "" → (workAndWrite d w).1.Holds f

instance (d : Disk) (w : Worker) : Decidable (KeepsOutputs d w) :=
  inferInstanceAs (Decidable (_ → _ → _))

/-- Two names that differ in the case of the extension. -/
def twoSpellings : Disk where
  files := [namespaceFile ["x.d.ts"] "A", namespaceFile ["x.D.TS"] "B"]

/-- Two files, each with a directory that a marker can lead into. -/
def twoStems : Disk where
  files := [namespaceFile ["x.d.ts"] "A", namespaceFile ["y.d.ts"] "B"]
  directories := [["x.".toList], ["y.".toList]]

/-- Merged files may have one place if all go to one directory, if an extension is written in two
ways, or if the marker leads up again. -/
theorem not_keepsOutputs :
    ¬ KeepsOutputs twoDirectories
        (declaring { Settings.standard with outDirectory := "out" } ["a/x.d.ts", "b/x.d.ts"]) ∧
      ¬ KeepsOutputs twoSpellings (declaring .standard ["x.d.ts", "x.D.TS"]) ∧
      ¬ KeepsOutputs twoStems
        (declaring { Settings.standard with marker := "/.../m".toList } ["x.d.ts", "y.d.ts"]) := by
  decide +kernel

end Worker

end NamespaceMerge
