import NamespaceMerge.Json.Described
import NamespaceMerge.Json.Writer
import NamespaceMerge.Logger.Timestamp

/-! Records of loggers, as they are written: as plain lines, or as one JSON object a line. -/

namespace NamespaceMerge

/-- How severe a record is. Multiples of ten have names. -/
abbrev Severity := Int

namespace Severity

def debug : Severity := 10

def information : Severity := 20

def warning : Severity := 30

def error : Severity := 40

def name (s : Severity) : String :=
  match s with
  | 0 => "NOTSET"
  | 10 => "DEBUG"
  | 20 => "INFO"
  | 30 => "WARNING"
  | 40 => "ERROR"
  | 50 => "CRITICAL"
  | s => "Level " ++ String.ofList (Decimal.integer s)

end Severity

structure Record where
  logger : String
  severity : Severity
  /-- The name of the level; levels may be given names of their own. -/
  level : String := severity.name
  message : Text
  created : Timestamp := 0
  /-- What is known beside the message. -/
  context : Json := .null

namespace Record

/-- A message with each `%s` replaced by the next argument and `%%` by a percent sign. Fails
unless every argument is used, and on any other percent sign. -/
def fill? : Text → List Text → Option Text
  | '%' :: 's' :: rest, argument :: arguments => (fill? rest arguments).map (argument ++ ·)
  | '%' :: '%' :: rest, arguments => (fill? rest arguments).map ('%' :: ·)
  | '%' :: _, _ => none
  | c :: rest, arguments => (fill? rest arguments).map (c :: ·)
  | [], [] => some []
  | [], _ :: _ => none

/-- A message without arguments stays as it is. -/
def message? (message : Text) (arguments : List Text) : Option Text :=
  if arguments.isEmpty then some message else fill? message arguments

/-- The record as a plain line. Warnings and what is worse stand out. -/
def plainText (r : Record) : Text :=
  if Severity.warning ≤ r.severity then
    "⚠  ".toList ++ r.level.toList ++ ':' :: ' ' :: r.message
  else r.message

/-- The version that records name. -/
def version : String := "1.0.0"

/-- The record as an object. The context is left out unless it is an object with members. -/
def toJson (r : Record) : Json :=
  let field (name : String) (value : Json) : Utf16 × Json := (Utf16.ofString name, value)
  let context := match r.context with
    | .object (member :: members) => [field "ctx" (.object (member :: members))]
    | _ => []
  .object
    ([field "ts" (.string (Utf16.ofText r.created.text)), field "level" (.ofString r.level),
      field "module" (.ofString r.logger), field "msg" (.string (Utf16.ofText r.message)),
      field "version" (.ofString version)] ++ context)

/-- The record as a JSON object on one line. -/
def jsonText (r : Record) : Text := r.toJson.writeUnicode

end Record

end NamespaceMerge
