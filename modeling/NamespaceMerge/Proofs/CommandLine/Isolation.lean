import NamespaceMerge.CommandLine.Session
import NamespaceMerge.Proofs.Worker.Admission
import NamespaceMerge.Proofs.Worker.Alone
import NamespaceMerge.Proofs.Worker.Ending
import NamespaceMerge.Proofs.Worker.Queueing
import NamespaceMerge.Proofs.Worker.Written

/-! Runs on files of which some are bad: they cannot be read, decoded or parsed. Where none of them
ends the work, a run names them all and writes what is made of the others, and only there
(`isolates_iff`): a file that is not in UTF-8 ends the work, and so does a script with a map that is
nested too deeply (`not_isolates`). -/

namespace NamespaceMerge

/-- Whether nothing was made of an item, by a fault of its own. -/
def Fate.isBad (fate : Fate) : Bool := fate.isFailed || fate.isStopped

namespace Worker

variable {d : Disk} {w w' : Worker} {s : Settings} {kind : FileKind} {path : String} {f : File}

/-- What is made of a path goes to a directory that is there, unless there is one for all. -/
theorem directory_of_made (hf : f ∈ (s.fateOf d kind (.path path)).files)
    (hplace : (d.placeFor? f).isSome) :
    (s.outDirectory = "" → ∃ base, d.follow (target f).1 = .ok (.directory base)) ∧
      (s.outDirectory ≠ "" → (target f).1 = FileName.components s.outDirectory.toList) := by
  obtain ⟨file, hread, hfile⟩ := Settings.exists_of_mem_files hf
  obtain ⟨hpath, -⟩ := Settings.name_of_mem_filesOf hfile
  refine ⟨fun hout => ?_, fun hout => ?_⟩
  · obtain ⟨place, bytes, text, hfind, -, rfl⟩ := Disk.readFile_eq_ok hread
    have hsame : f.path = String.ofList (FileName.directory path.toList) := by
      rw [hpath, Settings.directoryFor, hout]
      rfl
    have hfrom : d.follow (FileName.components path.toList) = .ok (.file place bytes) := by
      rwa [Disk.find_normalize] at hfind
    rw [target, hsame, String.toList_ofList]
    rcases FileName.components_directory path.toList with hnone | ⟨last, hlast⟩
    · -- the directory of the path is a file, and cannot be made
      obtain ⟨p, hp⟩ := Option.isSome_iff_exists.mp hplace
      obtain ⟨made, hmade, hready⟩ := Disk.ready_of_placeFor? hp
      obtain ⟨base, hbase⟩ := hready.directory
      have hgrows := (d.ensureDirectories_grows (target f).1.reverse).1
      rw [hmade] at hgrows
      obtain ⟨bytes', hfile'⟩ := hgrows.follow_file hfrom
      rw [target, hsame, String.toList_ofList, ← hnone, hfile'] at hbase
      cases hbase
    · rw [hlast] at hfrom
      obtain ⟨directory, hdirectory, -⟩ := Disk.findFrom_concat hfrom
      exact ⟨directory, hdirectory⟩
  · rw [target, hpath, Settings.directoryFor, if_neg (by simpa using hout)]

end Worker

namespace CommandLine

/-- The worker for the files that the patterns find, and their number. -/
def gather (t : Toolkit) (found : Disk) (clock : Clock) (a : Arguments) : Worker × Option Nat :=
  let w := Worker.start (a.settings t) a.failFast clock
  w.addPatterns found (a.patterns.map String.ofList) ""

/-- A run for what the patterns found; the disk may have changed since. -/
def mergeFound (t : Toolkit) (found d : Disk) (clock : Clock) (a : Arguments) :
    Disk × Worker × Option RunFault :=
  match gather t found clock a with
  | (w, none) => (d, w, some .pattern)
  | (w, some _) =>
    match Worker.workAndWrite d w with
    | (d, w, .ok _) => (d, summarize w, none)
    | (d, w, .error (.inl fault)) => (d, w, some (.work fault))
    | (d, w, .error (.inr fault)) => (d, w, some (.write fault))

theorem mergeFound_self (t : Toolkit) (d : Disk) (clock : Clock) (a : Arguments) :
    mergeFound t d d clock a = mergeFiles t d clock a := rfl

/-- The exit code of a run that comes to its end. -/
def exitCode (w : Worker) : Nat := if w.report.failed = 0 then 0 else 1

/-- Bad files stop nothing: the run comes to its end, its exit code is 1 if there is a bad file, it
records the bad files, and the files that are made of the others are on the disk. -/
def Isolates (t : Toolkit) (found d : Disk) (clock : Clock) (a : Arguments) : Prop :=
  let w := (gather t found clock a).1
  let isBad (q : FileKind × Item) : Bool := (w.settings.fateOf d q.1 q.2).isBad
  ∃ d' w', mergeFound t found d clock a = (d', w', none) ∧
    exitCode w' = (if w.queued.any isBad then 1 else 0) ∧
    w'.failed = (w.queued.filter isBad).map (·.2) ∧
    ∀ q ∈ w.queued, ∀ f ∈ (w.settings.fateOf d q.1 q.2).files, d'.Holds f

variable {t : Toolkit} {found d : Disk} {clock : Clock} {a : Arguments}

/-- What is made of paths is written, if the disk takes it. -/
theorem write_of_takes {w : Worker} (hpaths : ∀ q ∈ w.queued, ∃ path, q.2 = .path path)
    (htakes : d.Takes (w.made d)) (w₁ : Worker) :
    ∃ d' w₂, Worker.write d w₁ (w.made d) = (d', w₂, none) ∧ ∀ f ∈ w.made d, d'.Holds f := by
  have hmade (f : File) (hf : f ∈ w.made d) :
      (w.settings.outDirectory = "" →
          ∃ base, d.follow (Worker.target f).1 = .ok (.directory base)) ∧
        (w.settings.outDirectory ≠ "" →
          (Worker.target f).1 = FileName.components w.settings.outDirectory.toList) := by
    obtain ⟨⟨kind, item⟩, hq, hfate⟩ := List.mem_flatMap.mp hf
    obtain ⟨path, rfl⟩ := hpaths _ hq
    exact Worker.directory_of_made hfate (htakes.1 f hf)
  have hdirectories :
      (∀ f ∈ w.made d, ∃ base, d.follow (Worker.target f).1 = .ok (.directory base)) ∨
        ∃ directory, ∀ f ∈ w.made d, (Worker.target f).1 = directory := by
    by_cases hout : w.settings.outDirectory = ""
    · exact .inl fun f hf => (hmade f hf).1 hout
    · exact .inr ⟨_, fun f hf => (hmade f hf).2 hout⟩
  obtain ⟨d', w₂, hall, hholds⟩ := Worker.writeAll_of_takes htakes hdirectories (w₁.enter "write")
  refine ⟨d', w₂.leave "write", ?_, hholds⟩
  rw [Worker.write, hall]

theorem sameFailures_logs (w : Worker) (messages : List String) :
    Worker.SameFailures w (messages.foldl (fun w message => w.log message .error) w) := by
  induction messages generalizing w with
  | nil => exact ⟨rfl, rfl⟩
  | cons message messages ih => exact (w.sameFailures_log message .error).trans (ih _)

theorem sameFailures_summarize (w : Worker) : Worker.SameFailures w (summarize w) := by
  have hcounts (message counts : String) :
      Worker.SameFailures w ((w.log message .information).log counts .information) :=
    (w.sameFailures_log _ _).trans (Worker.sameFailures_log _ _ _)
  have hskipped (message counts skipped : String) : Worker.SameFailures w
      (((w.log message .information).log counts .information).log skipped .verbose) :=
    (hcounts message counts).trans (Worker.sameFailures_log _ _ _)
  simp only [summarize]
  split
  · refine .trans (.trans ?_ (sameFailures_logs _ _)) (Worker.sameFailures_log _ _ _)
    split
    · exact hcounts _ _
    · exact hskipped _ _ _
  · refine .trans ?_ (sameFailures_logs _ _)
    split
    · exact hcounts _ _
    · exact hskipped _ _ _

/-- A run to its end: what it records, and what is on the disk. -/
theorem exists_workAndWrite {w : Worker} (hlenient : w.failFast = false)
    (hpaths : ∀ q ∈ w.queued, ∃ path, q.2 = .path path) (htakes : d.Takes (w.made d))
    (hgoes : ∀ q ∈ w.queued, (w.settings.fateOf d q.1 q.2).isStopped = false) :
    ∃ d' w' files, Worker.workAndWrite d w = (d', w', .ok files) ∧
      w'.failed = w.failed ++ Worker.failing d w.settings w.queued ∧
      w'.report.failed = (Worker.failing d w.settings w.queued).length ∧
      ∀ f ∈ w.made d, d'.Holds f := by
  obtain ⟨hresult, hrecords⟩ := Worker.work_of_lenient (d := d) hlenient
  have hresult : (Worker.work d w).2 = .ok (w.made d) :=
    hresult.trans (Worker.resultOf_eq_ok_iff.mpr ⟨hgoes, rfl⟩)
  have hrecords := hrecords _ hresult
  have hwork : Worker.work d w = ((Worker.work d w).1, .ok (w.made d)) := Prod.ext rfl hresult
  obtain ⟨d', w₂, hwrite, hholds⟩ := write_of_takes hpaths htakes (Worker.work d w).1
  have hsame := Worker.sameFailures_write d (Worker.work d w).1 (w.made d)
  rw [hwrite] at hsame
  refine ⟨d', w₂, (w.made d).map File.written, ?_, hsame.failed.trans hrecords.failed, ?_, hholds⟩
  · rw [Worker.workAndWrite, hwork]
    simp only [hwrite]
  · rw [hsame.count, hrecords.count]
    exact Nat.zero_add _

theorem configure_eq (s : Session) (json : Bool) :
    (s.configure json).toolkit = s.toolkit ∧ (s.configure json).disk = s.disk ∧
      (s.configure json).clock = s.clock := by
  rw [Session.configure]
  split <;> exact ⟨rfl, rfl, rfl⟩

/-- The exit code of a process whose run comes to its end. -/
theorem exit_run {s : Session} {words : List Text} {d' : Disk} {w' : Worker}
    (hwords : Arguments.ofWords words = .ok a) (hpatterns : a.patterns ≠ [])
    (h : mergeFiles s.toolkit s.disk s.clock a = (d', w', none)) (e : Environment) :
    (s.run e none words).2.exit = .ok (exitCode w') := by
  obtain ⟨htoolkit, hdisk, hclock⟩ :=
    configure_eq s (words.contains "--json-logs".toList || e.jsonLogs)
  have hsome : a.patterns.isEmpty = false := by simpa using hpatterns
  simp only [Session.run, hwords, Session.runArguments, hsome, htoolkit, hdisk, hclock, h]
  rfl

/-! ### What was gathered, and what becomes of it -/

theorem gathers_gather (t : Toolkit) (found : Disk) (clock : Clock) (a : Arguments) :
    Worker.Gathers (Worker.start (a.settings t) a.failFast clock) (gather t found clock a).1 :=
  Worker.gathers_addPatterns _ found (a.patterns.map String.ofList) ""

theorem settings_gather (t : Toolkit) (found : Disk) (clock : Clock) (a : Arguments) :
    (gather t found clock a).1.settings = a.settings t :=
  (gathers_gather t found clock a).settings

/-- Nothing but paths is gathered. -/
theorem path_of_mem_queued {q : FileKind × Item} (hq : q ∈ (gather t found clock a).1.queued) :
    ∃ path, q.2 = .path path := by
  have hqueue := (gathers_gather t found clock a).queue q.1 q.2 (Worker.mem_queued.mp hq)
  rcases hqueue with hstart | hpath
  · cases hkind : q.1 <;> rw [hkind] at hstart <;> cases hstart
  · exact hpath

theorem mergeFound_eq (hpatterns : (gather t found clock a).2.isSome) (d : Disk) :
    mergeFound t found d clock a =
      match Worker.workAndWrite d (gather t found clock a).1 with
      | (d, w, .ok _) => (d, summarize w, none)
      | (d, w, .error (.inl fault)) => (d, w, some (.work fault))
      | (d, w, .error (.inr fault)) => (d, w, some (.write fault)) := by
  obtain ⟨count, hcount⟩ := Option.isSome_iff_exists.mp hpatterns
  rw [mergeFound, show gather t found clock a = ((gather t found clock a).1, some count) from
    Prod.ext rfl hcount]

/-- What fails is what is bad, where nothing ends the work. -/
theorem failing_eq {w : Worker}
    (hgoes : ∀ q ∈ w.queued, (w.settings.fateOf d q.1 q.2).isStopped = false) :
    Worker.failing d w.settings w.queued =
      (w.queued.filter fun q => (w.settings.fateOf d q.1 q.2).isBad).map (·.2) := by
  refine congrArg _ (List.filter_congr fun q hq => ?_)
  rw [Fate.isBad, hgoes q hq, Bool.or_false]

/-- A run that isolates bad files comes to its end. -/
theorem goes_of_isolates (hlenient : a.failFast = false)
    (hpatterns : (gather t found clock a).2.isSome) (h : Isolates t found d clock a) :
    ∀ q ∈ (gather t found clock a).1.queued,
      ((gather t found clock a).1.settings.fateOf d q.1 q.2).isStopped = false := by
  obtain ⟨d', w', hrun, -⟩ := h
  rw [mergeFound_eq hpatterns] at hrun
  have hlenient := (gathers_gather t found clock a).failFast.trans hlenient
  generalize (gather t found clock a).1 = w at *
  have hfiles : ∃ files, (Worker.work d w).2 = .ok files := by
    cases hwork : (Worker.work d w).2 with
    | ok files => exact ⟨files, rfl⟩
    | error fault =>
      rw [Worker.workAndWrite, show Worker.work d w = (_, .error fault) from Prod.ext rfl hwork]
        at hrun
      cases hrun
  obtain ⟨files, hfiles⟩ := hfiles
  rw [(Worker.work_of_lenient hlenient).1] at hfiles
  exact (Worker.resultOf_eq_ok_iff.mp hfiles).1

theorem isolates_of_goes (hlenient : a.failFast = false)
    (hpatterns : (gather t found clock a).2.isSome)
    (htakes : d.Takes ((gather t found clock a).1.made d))
    (hgoes : ∀ q ∈ (gather t found clock a).1.queued,
      ((gather t found clock a).1.settings.fateOf d q.1 q.2).isStopped = false) :
    Isolates t found d clock a := by
  have hgathers := gathers_gather t found clock a
  have hpaths (q : FileKind × Item) (hq : q ∈ (gather t found clock a).1.queued) :=
    path_of_mem_queued hq
  rw [Isolates, mergeFound_eq hpatterns]
  generalize (gather t found clock a).1 = w at *
  obtain ⟨d', w', files, hworked, hfailed, hcount, hholds⟩ :=
    exists_workAndWrite (hgathers.failFast.trans hlenient) hpaths htakes hgoes
  have hsame := sameFailures_summarize w'
  refine ⟨d', summarize w', by rw [hworked], ?_, ?_, fun q hq f hf => ?_⟩
  · rw [exitCode, hsame.count, hcount, failing_eq hgoes, List.length_map]
    simp only [List.length_eq_zero_iff, List.filter_eq_nil_iff]
    cases hany : w.queued.any fun q => (w.settings.fateOf d q.1 q.2).isBad with
    | true =>
      obtain ⟨q, hq, hbad⟩ := List.any_eq_true.mp hany
      exact if_neg fun hnone => hnone q hq hbad
    | false => exact if_pos fun q hq => List.any_eq_false.mp hany q hq
  · rw [hsame.failed, hfailed, hgathers.failed, failing_eq hgoes]
    rfl
  · exact hholds f (List.mem_flatMap.mpr ⟨q, hq, hf⟩)

theorem isolates_iff_of_gather (hlenient : a.failFast = false)
    (hpatterns : (gather t found clock a).2.isSome)
    (htakes : d.Takes ((gather t found clock a).1.made d)) :
    Isolates t found d clock a ↔ ∀ q ∈ (gather t found clock a).1.queued,
      ((gather t found clock a).1.settings.fateOf d q.1 q.2).isStopped = false :=
  ⟨goes_of_isolates hlenient hpatterns, isolates_of_goes hlenient hpatterns htakes⟩

/-- Nothing in the queues ends the work. -/
theorem forall_not_ends_iff :
    (∀ q ∈ (gather t found clock a).1.queued, ¬ (a.settings t).Ends d q) ↔
      ∀ q ∈ (gather t found clock a).1.queued,
        ((gather t found clock a).1.settings.fateOf d q.1 q.2).isStopped = false := by
  rw [settings_gather]
  exact forall₂_congr fun q _ => Settings.not_ends_iff rfl rfl

/-- A run isolates bad files exactly if none of them ends the work: each file is in UTF-8 or cannot
be read at all, neither the parser nor the printer breaks down on a script, and no map is nested
deeper than it is read. The process then exits with 0 or, if there is a bad file, with 1. -/
theorem isolates_iff (hlenient : a.failFast = false) (hpatterns : (gather t found clock a).2.isSome)
    (htakes : d.Takes ((gather t found clock a).1.made d)) :
    (Isolates t found d clock a ↔
      ∀ q ∈ (gather t found clock a).1.queued, ¬ (a.settings t).Ends d q) ∧
    ∀ (s : Session) (e : Environment) (words : List Text), Arguments.ofWords words = .ok a →
      a.patterns ≠ [] → s.toolkit = t → s.disk = d → s.clock = clock → found = d →
      Isolates t found d clock a →
      (s.run e none words).2.exit = .ok (if (gather t found clock a).1.queued.any fun q =>
        ((a.settings t).fateOf d q.1 q.2).isBad then 1 else 0) := by
  constructor
  · rw [isolates_iff_of_gather hlenient hpatterns htakes]
    exact forall_not_ends_iff.symm
  · rintro s e words hwords hsome rfl rfl rfl rfl ⟨d', w', hrun, hexit, -, -⟩
    rw [mergeFound_self] at hrun
    rw [exit_run hwords hsome hrun, hexit, settings_gather]

/-- A run on everything in the working directory. -/
def everything : Arguments where
  patterns := [['*']]

/-- The worker for a run of the program on everything, when files are found in order. -/
theorem gather_everything (found : Disk) (paths : List (List Text)) (clock : Clock)
    (h : Glob.candidates? found ['*'] = some paths)
    (hpairwise : paths.Pairwise fun a b => Glob.pathBefore a b = true) :
    let start := Worker.start (everything.settings .program) false clock
    let counted := paths.foldl Worker.addFound (start, 0)
    gather .program found clock everything =
      (counted.1.log s!"Added {counted.2} file(s) to the queue" .information, some counted.2) :=
  Worker.addPatterns_singleton (Glob.expand?_of_pairwise h hpairwise) _

/-- A disk with a file of declarations, and another file before it. -/
def beforeNamespace (name : String) (bytes : Utf8.Bytes) : Disk where
  files := [([name.toList], bytes), Worker.namespaceFile ["b.d.ts"] "B"]

/-- A script that does not parse. -/
def unparsableDisk : Disk := beforeNamespace "a.js" (Utf8.encode "var = ;".toList)

/-- The same with one more file. -/
def fullerDisk : Disk :=
  { unparsableDisk with files := unparsableDisk.files ++ [(["c.d.ts".toList], [])] }

theorem isolates_iff_unparsable :
    let clock : Clock := .still (.integer 0)
    let session : Session := { toolkit := .program, disk := unparsableDisk, clock }
    Isolates .program fullerDisk unparsableDisk clock everything ∧
      (session.run {} none [['*']]).2.exit = .ok 1 := by
  intro clock session
  have hfuller := gather_everything fullerDisk
    [["a.js".toList], ["b.d.ts".toList], ["c.d.ts".toList]] clock
    (by decide +kernel) (by decide +kernel)
  have hunparsable := gather_everything unparsableDisk
    [["a.js".toList], ["b.d.ts".toList]] clock
    (by decide +kernel) (by decide +kernel)
  constructor
  · refine (isolates_iff rfl ?_ ?_).1.mpr (forall_not_ends_iff.mpr ?_) <;> rw [hfuller] <;>
      decide +kernel
  · have hsome : (gather .program unparsableDisk clock everything).2.isSome := by
      rw [hunparsable]
      rfl
    have htakes : unparsableDisk.Takes
        ((gather .program unparsableDisk clock everything).1.made unparsableDisk) := by
      rw [hunparsable]
      decide +kernel
    obtain ⟨hiff, hexit⟩ := isolates_iff (a := everything) rfl hsome htakes
    have hisolates := hiff.mpr (forall_not_ends_iff.mpr (by rw [hunparsable]; decide +kernel))
    rw [hexit session {} [['*']] rfl (List.cons_ne_nil _ _) rfl rfl rfl rfl hisolates, hunparsable]
    exact congrArg Except.ok (if_pos (by decide +kernel))

/-- A file that is not in UTF-8. -/
def undecodableDisk : Disk := beforeNamespace "a.d.ts" [0xff]

/-- A script with a map that is nested too deeply. -/
def nestedDisk : Disk :=
  let disk := beforeNamespace "a.js.map" (Utf8.encode (List.replicate 100000 '['))
  let script := Utf8.encode ScriptMerger.referringText
  { disk with files := (["a.js".toList], script) :: disk.files }

theorem mapLoader_nestedDisk :
    nestedDisk.mapLoader [] "a.js.map".toList = .text (List.replicate 100000 '[') := by
  have hfind : nestedDisk.find (Disk.mapPath [] "a.js.map".toList) =
      .ok (.file ["a.js.map".toList] (Utf8.encode (List.replicate 100000 '['))) := rfl
  have htext : Disk.textOf (Utf8.encode (List.replicate 100000 '[')) =
      .ok (List.replicate 100000 '[') :=
    Disk.textOf_encode fun hmem => absurd (List.eq_of_mem_replicate hmem) (by decide)
  have hread : nestedDisk.readMap? [] "a.js.map".toList =
      .ok (some (List.replicate 100000 '[')) := by
    rw [Disk.readMap?, if_neg (by decide), hfind]
    simp only [htext]
    rfl
  rw [Disk.mapLoader, hread]

/-- The script with the nested map ends the work. -/
theorem isStopped_nested : ((everything.settings .program).fateOf nestedDisk .script
    (.path "a.js")).isStopped = true := by
  let script : File :=
    { contents := String.ofList ScriptMerger.referringText, name := "a.js", size := some 33 }
  have hread : Worker.readItem nestedDisk (.path "a.js") = .ok script := by
    have htext : Disk.textOf (Utf8.encode ScriptMerger.referringText) =
        .ok ScriptMerger.referringText := Disk.textOf_encode (by decide)
    have hbytes : nestedDisk.read (FileName.normalize "a.js".toList) =
        .ok (Utf8.encode ScriptMerger.referringText) := rfl
    rw [Worker.readItem, Disk.readFile, hbytes]
    simp only [Except.mapError, bind, Except.bind, htext]
    rfl
  obtain ⟨statements, printed, hreads⟩ :=
    ScriptMerger.reads_referring (List.replicate 100000 '[')
  have hreads : (everything.settings .program).Reads script.measured statements printed :=
    ⟨rfl, hreads.parsed, hreads.printed⟩
  have hcomes : SourceMap.ComesFrom (some (nestedDisk.mapLoader []))
      ScriptMerger.referringText (List.replicate 100000 '[') :=
    .loaded (by rfl) (by rfl) rfl mapLoader_nestedDisk
  exact (Settings.isStopped_fateOf_iff rfl rfl).mpr
    (.script hread (.nesting hreads rfl hcomes (Json.stops_brackets (by norm_num))))

/-- What is made on the disk with a nested map: the script adds nothing. -/
theorem made_nestedDisk {w : Worker} (hsettings : w.settings = everything.settings .program)
    (hqueued : w.queued = [(.declaration, .path "b.d.ts"), (.script, .path "a.js")]) :
    w.made nestedDisk =
      (w.settings.fateOf nestedDisk .declaration (.path "b.d.ts")).files := by
  have hscript : (w.settings.fateOf nestedDisk .script (.path "a.js")).files = [] := by
    have hstopped := isStopped_nested
    rw [← hsettings] at hstopped
    cases hfate : w.settings.fateOf nestedDisk .script (.path "a.js") with
    | stopped fault => rfl
    | made files | failed fault =>
      rw [hfate] at hstopped
      cases hstopped
  rw [Worker.made, hqueued, List.flatMap_cons, List.flatMap_cons, List.flatMap_nil, hscript,
    List.append_nil, List.append_nil]

/-- Where the disk takes what is made, a file that is not in UTF-8 stops the others all the same,
and so does a script with a map that is nested too deeply. -/
theorem not_isolates :
    let clock : Clock := .still (.integer 0)
    let made (d : Disk) : List File := (gather .program d clock everything).1.made d
    (undecodableDisk.Takes (made undecodableDisk) ∧
        ¬ Isolates .program undecodableDisk undecodableDisk clock everything) ∧
      nestedDisk.Takes (made nestedDisk) ∧
        ¬ Isolates .program nestedDisk nestedDisk clock everything := by
  intro clock made
  have hundecodable := gather_everything undecodableDisk
    [["a.d.ts".toList], ["b.d.ts".toList]] clock
    (by decide +kernel) (by decide +kernel)
  have hnested := gather_everything nestedDisk
    [["a.js".toList], ["a.js.map".toList], ["b.d.ts".toList]] clock
    (by decide +kernel) (by decide +kernel)
  constructor
  · have htakes : undecodableDisk.Takes (made undecodableDisk) := by
      simp only [made, hundecodable]
      decide +kernel
    refine ⟨htakes, ?_⟩
    rw [isolates_iff_of_gather rfl (by rw [hundecodable]; rfl) htakes, hundecodable]
    decide +kernel
  · have hqueued : (gather .program nestedDisk clock everything).1.queued =
        [(.declaration, .path "b.d.ts"), (.script, .path "a.js")] := by
      rw [hnested]
      rfl
    have hsettings : (gather .program nestedDisk clock everything).1.settings =
        everything.settings .program := by
      rw [hnested]
      rfl
    have htakes : nestedDisk.Takes (made nestedDisk) := by
      simp only [made, made_nestedDisk hsettings hqueued, hsettings]
      decide +kernel
    refine ⟨htakes, ?_⟩
    rw [isolates_iff_of_gather rfl (by rw [hnested]; rfl) htakes, hqueued, hsettings]
    intro hgoes
    cases (hgoes _ (List.mem_cons_of_mem _ List.mem_cons_self)).symm.trans isStopped_nested

end CommandLine

end NamespaceMerge
