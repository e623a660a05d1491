import NamespaceMerge.Disk.Reading
import NamespaceMerge.Merging.Declarations
import NamespaceMerge.Merging.Scripts
import NamespaceMerge.Worker.Basic

/-! The work of a worker: all items of the queues are read and merged, declarations before
scripts. A file that cannot be read or parsed is recorded as a failure, and the others go on. -/

namespace NamespaceMerge

/-- What ends the work before the queues are through. -/
inductive WorkFault
  | unreadable (fault : DiskFault)
  | undecodable (error : Utf8.DecodeError)
  | script (fault : ScriptFault)

inductive FileKind
  | declaration
  | script
deriving DecidableEq

namespace FileKind

def name : FileKind → String
  | declaration => "declaration"
  | script => "script"

/-- The name of the stage in which files of the kind are merged. -/
def stage : FileKind → String
  | declaration => "declarations"
  | script => "scripts"

end FileKind

namespace Worker

def enter (w : Worker) (stage : String) : Worker := { w with timing := w.timing.enter stage }

def leave (w : Worker) (stage : String) : Worker := { w with timing := w.timing.leave stage }

/-- The end of a stage counts nothing as failed. -/
theorem failed_report_leave (w : Worker) (stage : String) :
    (w.leave stage).report.failed = w.report.failed := by
  simp only [leave, report, Timing.leave]
  split <;> rfl

def changeReport (w : Worker) (f : Report → Report) : Worker :=
  { w with timing := w.timing.change f }

def journalled (w : Worker) (journal : Journal) : Worker :=
  { w with journal := w.journal ++ journal }

/-- Counts an item as failed. -/
def countFailed (w : Worker) (item : Item) (message : String) : Worker :=
  { w.changeReport (·.addError message) with failed := w.failed ++ [item] }

/-- The outcome of a part of the work: the worker after it, and the files it made. -/
abbrev Outcome := Worker × Except WorkFault (List File)

/-- What a failure of one item comes to: no file, or the end of the work. -/
def afterFailure (w : Worker) (fault : WorkFault) : Outcome :=
  (w, if w.failFast then .error fault else .ok [])

def readItem (d : Disk) : Item → Except ReadFault File
  | .path path => d.readFile path.toList
  | .record file => .ok file

/-- Merges a file that was read from `item`. -/
def mergeFile (d : Disk) (w : Worker) (kind : FileKind) (item : Item) (f : File) : Outcome :=
  match kind with
  | .declaration =>
    let (entries, merged) := w.settings.mergeDeclarations f
    (w.journalled { entries }, .ok merged.toList)
  | .script =>
    let outcome := w.settings.mergeScript (some (d.mapLoader f.path.toList)) f
    let w := w.journalled outcome.journal
    match outcome.result with
    | .ok none => (w, .ok [])
    | .ok (some merged) => (w, .ok (merged.script :: merged.map.toList))
    | .error (.unparsable path message) =>
      (w.countFailed item (Failure.unparsable path message).message).afterFailure
        (.script (.unparsable path message))
    | .error fault => (w, .error (.script fault))

/-- Reads and merges an item of a queue. -/
def process (d : Disk) (kind : FileKind) (w : Worker) (item : Item) : Outcome :=
  let w := w.enter "read"
  match readItem d item with
  | .error (.encoding error) => (w.leave "read", .error (.undecodable error))
  | .error (.disk fault) =>
    let failure := Failure.unreadable item.describe fault
    let w := { w with journal := w.journal.fail failure }.countFailed item failure.message
    (w.leave "read").afterFailure (.unreadable fault)
  | .ok f =>
    let f := f.measured
    let w := (w.leave "read").changeReport (·.addFile kind.name f.length)
    let (w, result) := mergeFile d (w.enter kind.stage) kind item f
    (w.leave kind.stage, result)

/-- Works through a queue. The first fault ends it. -/
def processAll (d : Disk) (kind : FileKind) (w : Worker) : List Item → Outcome
  | [] => (w, .ok [])
  | item :: items =>
    match process d kind w item with
    | (w, .error fault) => (w, .error fault)
    | (w, .ok files) =>
      let (w, result) := processAll d kind w items
      (w, result.map (files ++ ·))

/-- Works through both queues, under a new report. -/
def work (d : Disk) (w : Worker) : Outcome :=
  let w := { w with timing := .start w.timing.clock }
  match processAll d .declaration w w.declarations with
  | (w, .error fault) => (w, .error fault)
  | (w, .ok merged) =>
    match processAll d .script w w.scripts with
    | (w, .error fault) => (w, .error fault)
    | (w, .ok more) => ({ w with timing := w.timing.finish }, .ok (merged ++ more))

end Worker

end NamespaceMerge
