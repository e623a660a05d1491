import NamespaceMerge.Disk.Glob
import NamespaceMerge.File.Basic
import NamespaceMerge.Log.Journal
import NamespaceMerge.Options.Settings
import NamespaceMerge.Report.Timing

/-! A worker merges the files of two queues, declarations and scripts. This module holds its state
and how files come into the queues. -/

namespace NamespaceMerge

/-- What waits in a queue: the path of a file, or a file. -/
inductive Item
  | path (path : String)
  | record (file : File)

namespace Item

def path? : Item → Option String
  | .path p => some p
  | .record _ => none

/-- The text by which messages name the item. -/
def describe : Item → String
  | .path p => p
  | .record file => file.fullPath

end Item

structure Worker where
  settings : Settings
  /-- Whether the first failure ends the work. -/
  failFast : Bool := false
  declarations : List Item := []
  scripts : List Item := []
  /-- The files that were not written since they have no name. -/
  unsaved : List File := []
  failed : List Item := []
  journal : Journal := {}
  timing : Timing

namespace Worker

def start (settings : Settings) (failFast : Bool) (clock : Clock) : Worker :=
  { settings, failFast, timing := .start clock }

def report (w : Worker) : Report := w.timing.report

def log (w : Worker) (message : String) (level : Level) : Worker :=
  { w with journal := w.journal.log { message, level } }

/-- The paths in both queues. -/
def paths (w : Worker) : List String := (w.declarations ++ w.scripts).filterMap Item.path?

def queueDeclaration (w : Worker) (item : Item) : Worker :=
  { w with declarations := w.declarations ++ [item] }

def queueScript (w : Worker) (item : Item) : Worker := { w with scripts := w.scripts ++ [item] }

/-- Queues an item as what its name says it is, if it says so. -/
def queue? (w : Worker) (name : Text) (item : Item) : Option Worker :=
  if FileName.isDeclarationPath name then some (w.queueDeclaration item)
  else if FileName.isScriptPath name then some (w.queueScript item)
  else none

def exists? (d : Disk) (path : String) : Bool := d.includes (FileName.normalize path.toList)

/-- Queues a path as declarations if it exists, whatever its name. -/
def addDeclaration (w : Worker) (d : Disk) (path : String) : Worker :=
  if !exists? d path then w.log s!"File '{path}' does not exist. Skipping" .warning
  else
    let w := if FileName.isDeclarationPath path.toList then w
      else w.log s!"File '{path}' extension is not d.ts" .warning
    w.queueDeclaration (.path path)

/-- Queues a path as a script if it exists, whatever its name. -/
def addScript (w : Worker) (d : Disk) (path : String) : Worker :=
  if !exists? d path then w.log s!"File '{path}' does not exist. Skipping" .warning
  else
    let w := if FileName.isScriptPath path.toList then w
      else w.log s!"File '{path}' extension is not js" .warning
    w.queueScript (.path path)

/-- Queues a path as what its name says it is. -/
def addPath (w : Worker) (d : Disk) (path : String) : Worker :=
  if FileName.isDeclarationPath path.toList then w.addDeclaration d path
  else if FileName.isScriptPath path.toList then w.addScript d path
  else w.log s!"File '{path}' is neither d.ts nor js. Ignoring" .verbose

/-- Queues files as what their names say they are. -/
def addFiles (w : Worker) (files : List File) : Worker :=
  files.foldl (fun w f => (w.queue? f.name.toList (.record f)).getD w) w

/-- Queues a path that a pattern found, and counts it: unless it is queued already, its name
carries the marker of merged files, or it is neither a declaration nor a script. -/
def addFound (counted : Worker × Nat) (components : List Text) : Worker × Nat :=
  let (w, count) := counted
  let path := FileName.ofComponents components
  let name := components.getLast?.getD []
  if w.paths.contains (String.ofList path) || FileName.hasMarker name w.settings.marker then
    (w, count)
  else
    match w.queue? path (.path (String.ofList path)) with
    | some w => (w, count + 1)
    | none => (w, count)

/-- Queues what patterns stand for, one after the other. Fails at a pattern that cannot be, with
what the patterns before it have brought. -/
def addPatternsFrom (expand : Text → Option (List (List Text))) (counted : Worker × Nat) :
    List Text → Worker × Option Nat
  | [] => (counted.1, some counted.2)
  | pattern :: patterns =>
    match expand pattern with
    | none => (counted.1, none)
    | some found => addPatternsFrom expand (found.foldl addFound counted) patterns

/-- A pattern below a directory, if one is given; a pattern from the root on stays as it is. -/
def below (root pattern : String) : Text :=
  if root.isEmpty ∨ pattern.toList.head? = some '/' then pattern.toList
  else root.toList ++ '/' :: pattern.toList

/-- Queues what patterns stand for, below a directory if one is given, and logs how much it is. -/
def addExpanded (w : Worker) (expand : Text → Option (List (List Text))) (patterns : List String)
    (root : String) : Worker × Option Nat :=
  match addPatternsFrom expand (w, 0) (patterns.map (below root)) with
  | (w, none) => (w, none)
  | (w, some count) => (w.log s!"Added {count} file(s) to the queue" .information, some count)

/-- Queues the files on the disk that patterns stand for. -/
def addPatterns (w : Worker) (d : Disk) (patterns : List String) (root : String) :
    Worker × Option Nat :=
  w.addExpanded (Glob.expand? d) patterns root

end Worker

end NamespaceMerge
