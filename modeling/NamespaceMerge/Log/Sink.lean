import NamespaceMerge.Log.Journal
import NamespaceMerge.Options.Settings

/-! Where the merge log goes, and the context of a merge: its options, the sink of its log and its
journal. -/

namespace NamespaceMerge

/-- The choice of a sink: by a value, or by something that takes entries itself. -/
inductive SinkOption
  | value (value : Json)
  | function
  | object

inductive Sink
  | silent
  | console
  | function
  | object

namespace Sink

/-- The sink that an option chooses. -/
def choose : SinkOption → Except Options.Fault Sink
  | .value .null => .ok silent
  | .value (.string units) =>
    if units = Utf16.ofString "none" then .ok silent
    else if units = Utf16.ofString "console" then .ok console
    else .error (.logger (.string units))
  | .value value => .error (.logger value)
  | .function => .ok function
  | .object => .ok object

/-- Whether entries are handed on to who chose the sink. -/
def handsOn : Sink → Bool
  | silent | console => false
  | function | object => true

/-- The objection to an entry: on the console its level needs a name. -/
def objection? : Sink → Entry → Option String
  | console, entry => entry.level.objection?
  | _, _ => none

end Sink

structure Context where
  options : Json.Members
  sink : Sink
  journal : Journal := {}

namespace Context

/-- The context for some values of options. The logger among them is told apart by `sinkOption`. -/
def ofValues (sinkOption : Json → SinkOption) (values : Json.Members) :
    Except Options.Fault Context := do
  let options ← Options.ofValues values
  let sink ← Sink.choose (sinkOption ((options.get? (Utf16.ofString "logger")).getD .null))
  return { options, sink }

def settings (c : Context) (toolkit : Toolkit) : Settings := .ofOptions toolkit c.options

def log (c : Context) (entry : Entry) : Context := { c with journal := c.journal.log entry }

def fail (c : Context) (failure : Failure) : Context := { c with journal := c.journal.fail failure }

def hasFailed (c : Context) : Bool := !c.journal.failures.isEmpty

/-- The entries that the sink hands on. -/
def received (c : Context) : List Entry := if c.sink.handsOn then c.journal.entries else []

end Context

end NamespaceMerge
