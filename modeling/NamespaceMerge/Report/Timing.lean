import NamespaceMerge.Report.Basic

/-! A report with the clock that times it. -/

namespace NamespaceMerge

structure Timing where
  clock : Clock
  report : Report
  /-- When the stages that were entered began. -/
  begun : Tally Number := []

namespace Timing

/-- A new report, begun now. -/
def start (clock : Clock) : Timing :=
  let (now, clock) := clock.read
  { clock, report := { startedAt := now } }

def change (t : Timing) (f : Report → Report) : Timing := { t with report := f t.report }

def enter (t : Timing) (stage : String) : Timing :=
  let (now, clock) := t.clock.read
  { t with clock, begun := Tally.change t.begun stage now fun _ => now }

/-- Adds the time since a stage was entered; a stage that never was takes no time. -/
def leave (t : Timing) (stage : String) : Timing :=
  match t.begun.lookup stage with
  | none => t
  | some begin =>
    let (now, clock) := t.clock.read
    { t with clock, report := t.report.addTime stage (now.sub begin) }

def finish (t : Timing) : Timing :=
  let (now, clock) := t.clock.read
  { t with clock, report := t.report.finish now }

/-- The duration as text. The clock is read if the run goes on. -/
def elapsed? (t : Timing) : Option Text × Timing :=
  match t.report.duration with
  | some _ => (t.report.elapsed? t.report.startedAt, t)
  | none =>
    let (now, clock) := t.clock.read
    (t.report.elapsed? now, { t with clock })

end Timing

end NamespaceMerge
