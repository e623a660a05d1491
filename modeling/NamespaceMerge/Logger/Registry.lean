import NamespaceMerge.Log.Basic
import NamespaceMerge.Logger.Record

/-! The loggers of a process. All of them write through the handlers of the base logger, of which
there is at most one: setting up a second time changes the level only. -/

namespace NamespaceMerge

inductive Formatter
  | plain
  | json

def Formatter.text : Formatter → Record → Text
  | plain, r => r.plainText
  | json, r => r.jsonText

/-- What writes records, to the stream of the given number. -/
structure Handler where
  formatter : Formatter
  stream : Nat

namespace Logger

def baseName : String := "tsmerge"

/-- The full name of a logger. Names that start with the name of the base logger are full. -/
def fullName (name : String) : String :=
  if name.isEmpty then baseName
  else if baseName.toList.isPrefixOf name.toList then name
  else baseName ++ "." ++ name

/-- Whether records of a logger reach the base logger. -/
def isBelowBase (fullName : String) : Bool :=
  fullName == baseName || (baseName ++ ".").toList.isPrefixOf fullName.toList

end Logger

structure Registry where
  /-- The level of the base logger; at zero it is that of warnings. -/
  level : Severity := 0
  /-- Whether records of the base logger go on to where all loggers lead. -/
  propagates : Bool := true
  handlers : List Handler := []
  /-- What was written to the streams. -/
  streams : List Text := []

namespace Registry

/-- A registry with a new stream, and the number of the stream. -/
def openStream (r : Registry) : Registry × Nat :=
  ({ r with streams := r.streams ++ [[]] }, r.streams.length)

/-- Sets the base logger up to write to a stream, unless it has a handler already. -/
def setup (r : Registry) (formatter : Formatter) (level : Severity) (stream : Nat) : Registry :=
  if r.handlers.isEmpty then
    { r with level, propagates := false, handlers := [⟨formatter, stream⟩] }
  else { r with level }

def reset (r : Registry) : Registry := { r with handlers := [] }

def threshold (r : Registry) : Severity := if r.level = 0 then Severity.warning else r.level

def writeTo (r : Registry) (stream : Nat) (text : Text) : Registry :=
  { r with streams := r.streams.modify stream (· ++ text) }

/-- Writes a record as a line through all handlers, if it reaches them. -/
def emit (r : Registry) (record : Record) : Registry :=
  if Logger.isBelowBase record.logger ∧ r.threshold ≤ record.severity then
    r.handlers.foldl (fun r h => r.writeTo h.stream (h.formatter.text record ++ ['\n'])) r
  else r

end Registry

/-- A factory of loggers. It sets the base logger up anew when it makes its first logger. -/
structure LoggerFactory where
  formatter : Formatter
  level : Severity
  stream : Nat
  configured : Bool := false

namespace LoggerFactory

def configure (f : LoggerFactory) (r : Registry) : LoggerFactory × Registry :=
  if f.configured then (f, r)
  else ({ f with configured := true }, r.reset.setup f.formatter f.level f.stream)

/-- Makes a logger: its full name, the factory and the registry after it. -/
def logger (f : LoggerFactory) (r : Registry) (name : String) :
    String × LoggerFactory × Registry :=
  (Logger.fullName name, f.configure r)

end LoggerFactory

/-- The severity of a level of the merge log, if the level has a name. -/
def Level.severity? : Level → Option Severity
  | verbose => some Severity.debug
  | information | success => some Severity.information
  | warning => some Severity.warning
  | error => some Severity.error
  | unnamed _ => none

/-- The record by which a logger shows an entry of the merge log. -/
def Entry.record? (e : Entry) (logger : String) : Option Record :=
  e.level.severity?.map fun severity => { logger, severity, message := e.message.toList }

end NamespaceMerge
