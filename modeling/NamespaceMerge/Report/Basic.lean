import NamespaceMerge.Json.Writer
import NamespaceMerge.Report.Clock
import NamespaceMerge.Report.Duration

/-! The report of a run: how many files of which kind there were, what became of them, how much was
read and written, and where the time went. -/

namespace NamespaceMerge

/-- Amounts by name, in the order in which the names came up. -/
abbrev Tally (α : Type) := List (String × α)

/-- Changes the amount of a name, which is `start` if the name is new. -/
def Tally.change {α : Type} (t : Tally α) (name : String) (start : α) (f : α → α) : Tally α :=
  match t with
  | [] => [(name, f start)]
  | (key, amount) :: rest =>
    if key = name then (key, f amount) :: rest
    else (key, amount) :: Tally.change rest name start f

structure Report where
  startedAt : Number
  finishedAt : Option Number := none
  duration : Option Number := none
  total : Nat := 0
  byKind : Tally Nat := [("declaration", 0), ("script", 0)]
  written : Nat := 0
  skipped : Nat := 0
  failed : Nat := 0
  bytesIn : Int := 0
  bytesOut : Int := 0
  times : Tally Number :=
    [("read", .real 0), ("declarations", .real 0), ("scripts", .real 0), ("write", .real 0)]
  errors : List String := []

namespace Report

/-- Counts a file of some kind that was read. -/
def addFile (r : Report) (kind : String) (size : Int) : Report :=
  { r with
    total := r.total + 1
    byKind := Tally.change r.byKind kind 0 (· + 1)
    bytesIn := r.bytesIn + size }

def addWritten (r : Report) (size : Int) : Report :=
  { r with written := r.written + 1, bytesOut := r.bytesOut + size }

def addSkipped (r : Report) : Report := { r with skipped := r.skipped + 1 }

def addTime (r : Report) (stage : String) (seconds : Number) : Report :=
  { r with times := Tally.change r.times stage (.real 0) (·.add seconds) }

/-- Counts a file that failed, for the reason given. -/
def addError (r : Report) (message : String) : Report :=
  { r with failed := r.failed + 1, errors := r.errors ++ [message] }

def finish (r : Report) (now : Number) : Report :=
  { r with finishedAt := some now, duration := some (now.sub r.startedAt) }

/-- The duration as text: of the whole run, or up to now if it goes on. Fails if it is not
finite. -/
def elapsed? (r : Report) (now : Number) : Option Text :=
  (Duration.ofSeconds? (r.duration.getD (now.sub r.startedAt))).map Duration.text

def toJson (r : Report) : Json :=
  let field (name : String) (value : Json) : Utf16 × Json := (Utf16.ofString name, value)
  let number (n : Option Number) : Json := (n.map Json.number).getD .null
  .object
    [field "started_at" (.number r.startedAt), field "finished_at" (number r.finishedAt),
      field "duration_s" (number r.duration), field "files_total" (.ofNat r.total),
      field "files_by_kind" (.object (r.byKind.map fun (kind, count) => field kind (.ofNat count))),
      field "files_written" (.ofNat r.written), field "files_skipped" (.ofNat r.skipped),
      field "files_failed" (.ofNat r.failed), field "bytes_in" (.number (.integer r.bytesIn)),
      field "bytes_out" (.number (.integer r.bytesOut)),
      field "time_by_stage" (.object (r.times.map fun (stage, time) => field stage (.number time))),
      field "errors" (.array (r.errors.map Json.ofString))]

/-- The report as a document: indented by `width`, or on one line. -/
def text (r : Report) (width : Option Nat) : Text :=
  match width with
  | some width => r.toJson.writeIndented width
  | none => r.toJson.write

end Report

end NamespaceMerge
