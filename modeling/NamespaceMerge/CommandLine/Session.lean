import NamespaceMerge.CommandLine.Usage
import NamespaceMerge.Logger.Registry
import NamespaceMerge.Worker.Write

/-! Runs of the command line, one after the other in one process: they share the disk and the
loggers. All that is written to standard error goes through one stream, the merge log among it. -/

namespace NamespaceMerge.CommandLine

/-- What the environment asks for. -/
structure Environment where
  /-- Failures are passed on and not reported. -/
  debug : Bool := false
  jsonLogs : Bool := false

/-- What may come in place of a run from outside. -/
inductive Interruption
  | byUser
  | closedPipe
  | failure (message : String)

/-- What ends a run early. -/
inductive RunFault
  | interrupted (interruption : Interruption)
  | pattern
  | work (fault : WorkFault)
  | write (fault : DiskFault)
  | droppedValue

structure Session where
  toolkit : Toolkit
  disk : Disk
  /-- Its first stream is standard error. -/
  registry : Registry := { streams := [[]] }
  clock : Clock := .still (.real 0)
  /-- Whether records are written as JSON, once a run has decided. -/
  json : Option Bool := none

/-- What a run comes to: an exit code, or a fault that is passed on. -/
structure RunOutcome where
  exit : Except RunFault Nat
  output : String := ""

namespace Session

/-- Sets the loggers up, unless they are set up in the same way. -/
def configure (s : Session) (json : Bool) : Session :=
  if s.json = some json then s
  else
    let factory : LoggerFactory :=
      { formatter := if json then .json else .plain, level := Severity.information, stream := 0 }
    { s with registry := (factory.configure s.registry).2, json := some json }

def writeError (s : Session) (text : String) : Session :=
  { s with registry := s.registry.writeTo 0 text.toList }

/-- Reports an error through the base logger. -/
def reportError (s : Session) (message : String) : Session :=
  let record : Record :=
    { logger := Logger.baseName, severity := Severity.error, message := message.toList }
  { s with registry := s.registry.emit record }

/-- Shows entries of the merge log through the logger for merging. -/
def showLog (s : Session) (entries : List Entry) : Session :=
  let records := entries.filterMap (·.record? (Logger.fullName "merge"))
  { s with registry := records.foldl Registry.emit s.registry }

end Session

namespace Arguments

def settings (a : Arguments) (toolkit : Toolkit) : Settings :=
  { toolkit
    marker := a.marker
    outDirectory := String.ofList (a.outDirectory.getD [])
    skipDeclarations := a.skipDeclarations
    skipScripts := a.skipScripts
    skipSourceMaps := a.skipSourceMaps }

/-- Whether the merge log is shown. -/
def showsLog (a : Arguments) : Bool := a.logger = "console".toList

end Arguments

/-- What is logged when the work is done. -/
def summarize (w : Worker) : Worker :=
  let r := w.report
  let elapsed := String.ofList (((w.timing.elapsed?).1).getD [])
  let w := w.log s!"Files processed in {elapsed}" .information
  let counts := s!"{r.written} file(s) written, {r.skipped} skipped, {r.failed} failed"
  let w := w.log (counts ++ s!" (from {r.total} queued)") .information
  let w := if w.unsaved.isEmpty then w
    else w.log s!"Skipped {w.unsaved.length} files due to unknown file name" .verbose
  let w := r.errors.foldl (fun w message => w.log message .error) w
  if r.failed = 0 then w.log "Done" .success else w

/-- A run from patterns to written files: the disk and the worker after it. -/
def mergeFiles (toolkit : Toolkit) (d : Disk) (clock : Clock) (a : Arguments) :
    Disk × Worker × Option RunFault :=
  let w := Worker.start (a.settings toolkit) a.failFast clock
  match w.addPatterns d (a.patterns.map String.ofList) "" with
  | (w, none) => (d, w, some .pattern)
  | (w, some _) =>
    match Worker.workAndWrite d w with
    | (d, w, .ok _) => (d, summarize w, none)
    | (d, w, .error (.inl fault)) => (d, w, some (.work fault))
    | (d, w, .error (.inr fault)) => (d, w, some (.write fault))

/-- The message of a fault that is reported as an error. The others are passed on. -/
def RunFault.reported? : RunFault → Option String
  | interrupted (.failure message) => some message
  | work (.unreadable fault) => some fault.message
  | work (.script (.unparsable path message)) => some (Failure.unparsable path message).message
  | write fault => some fault.message
  | _ => none

/-- What a fault of a run comes to. -/
def Session.endWith (s : Session) (e : Environment) (fault : RunFault) : Session × RunOutcome :=
  match fault with
  | .interrupted .byUser => (s.reportError "Interrupted by user.", { exit := .ok 130 })
  | .interrupted .closedPipe => (s, { exit := .ok 0 })
  | fault =>
    match fault.reported? with
    | some message =>
      if e.debug then (s, { exit := .error fault })
      else (s.reportError message, { exit := .ok 1 })
    | none => (s, { exit := .error fault })

/-- A run for some arguments. -/
def Session.runArguments (s : Session) (e : Environment) (interruption : Option Interruption)
    (a : Arguments) : Session × RunOutcome :=
  match interruption with
  | some interruption => s.endWith e (.interrupted interruption)
  | none =>
    if a.patterns.isEmpty then (s, { exit := .ok 0, output := help })
    else
      let (disk, w, fault) := mergeFiles s.toolkit s.disk s.clock a
      let s := { s with disk }
      let s := if a.showsLog then s.showLog w.journal.entries else s
      match fault with
      | some fault => s.endWith e fault
      | none =>
        let output := if a.report then String.ofList (w.report.text (some 2)) ++ "\n" else ""
        (s, { exit := .ok (if w.report.failed = 0 then 0 else 1), output })

/-- A run of the command line for the words after its name. -/
def Session.run (s : Session) (e : Environment) (interruption : Option Interruption)
    (words : List Text) : Session × RunOutcome :=
  let s := s.configure (words.contains "--json-logs".toList || e.jsonLogs)
  match Arguments.ofWords words with
  | .ok a => s.runArguments e interruption a
  | .error .help => (s, { exit := .ok 0, output := help })
  | .error .version => (s, { exit := .ok 0, output := versionLine })
  | .error (.refused refusal) => (s.writeError refusal.text, { exit := .ok 2 })
  | .error .droppedValue => (s, { exit := .error .droppedValue })

end NamespaceMerge.CommandLine
