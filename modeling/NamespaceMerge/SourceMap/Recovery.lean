import NamespaceMerge.SourceMap.Reference
import NamespaceMerge.SourceMap.DataUri

/-! The input map of a script, recovered from its reference: held inline, or loaded from where
the reference points. Whatever is wrong with a map, the script does without it; only a map that is
nested too deeply for its reader stops the recovery. -/

namespace NamespaceMerge.SourceMap

/-- The outcome of reading a map, where all failures but that of the nesting are caught. -/
def caught {α : Type} : Except MapFault α → Except MapFault (Except MapFault α)
  | .ok a => .ok (.ok a)
  | .error fault => if fault.isNesting then .error fault else .ok (.error fault)

inductive Kind
  | none
  | inline
  | url
deriving DecidableEq

inductive Reference
  | absent
  /-- A data URI that holds no map. -/
  | unreadable (value : Text)
  | inline (value : Text) (map : Json.Members)
  | url (value : Text)

namespace Reference

def kind : Reference → Kind
  | absent | unreadable _ => .none
  | inline .. => .inline
  | url _ => .url

/-- The text of the reference. -/
def value? : Reference → Option Text
  | absent => none
  | unreadable value | inline value _ | url value => some value

/-- The map that the reference holds itself. -/
def map? : Reference → Option Json.Members
  | inline _ map => some map
  | _ => none

/-- Whether the value of a reference is a data URI. -/
def isData (value : Text) : Bool := "data:".toList.isPrefixOf (Text.lower value)

/-- The data URI as a reference, by what was read from it. -/
def ofData (value : Text) : Except MapFault Json.Members → Reference
  | .ok map => inline value map
  | .error _ => unreadable value

/-- The reference of a script: a data URI is read at once. -/
def ofText (text : Text) : Reference :=
  match findReference text with
  | none => absent
  | some value => if isData value then ofData value (readDataUri value) else url value

/-- The reference of a script, where maps are read down to `levels` levels if there is a limit. A
map that is nested deeper stops the reading. -/
def ofTextWithin (levels : Option Nat) (text : Text) : Except MapFault Reference :=
  match findReference text with
  | none => .ok absent
  | some value =>
    if isData value then (caught (readDataUri value levels)).map (ofData value)
    else .ok (url value)

end Reference

/-- What a loader has for a url: nothing, a text, or the message of a failure. -/
inductive Loaded
  | missing
  | text (text : Text)
  | failed (message : String)

/-- Finds the text behind a url. -/
abbrev Loader := Text → Loaded

/-- Why no input map could be loaded. -/
inductive LoadFault
  | loader (message : String)
  | map (fault : MapFault)

def LoadFault.message : LoadFault → String
  | loader message => message
  | map fault => fault.message

/-- The map that a reference leads to; without a loader a url leads nowhere. -/
def Reference.load (loader : Option Loader) : Reference → Except LoadFault (Option Json.Members)
  | inline _ map => .ok (some map)
  | url value =>
    match loader with
    | none => .ok none
    | some loader =>
      match loader value with
      | .missing => .ok none
      | .text text => ((readMap text).map some).mapError .map
      | .failed message => .error (.loader message)
  | _ => .ok none

/-- The map that a reference leads to, where maps are read down to `levels` levels if there is a
limit. -/
def Reference.loadWithin (levels : Option Nat) (loader : Option Loader) :
    Reference → Except MapFault (Except LoadFault (Option Json.Members))
  | inline _ map => .ok (.ok (some map))
  | url value =>
    match loader with
    | none => .ok (.ok none)
    | some loader =>
      match loader value with
      | .missing => .ok (.ok none)
      | .text text =>
        (caught (readMap text levels)).map fun read => (read.map some).mapError .map
      | .failed message => .ok (.error (.loader message))
  | _ => .ok (.ok none)

/-- Whether the reference is looked up with a loader. -/
def Reference.isLookedUp : Reference → Bool
  | url _ => true
  | _ => false

end NamespaceMerge.SourceMap
