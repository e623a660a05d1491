import NamespaceMerge.Json.Reader
import NamespaceMerge.Json.Writer
import NamespaceMerge.Text.Base64
import NamespaceMerge.Text.Caseless
import NamespaceMerge.Text.Quoted
import NamespaceMerge.Text.WordCharacter

/-! Source maps inside data URIs: a JSON object in UTF-8 and base64. -/

namespace NamespaceMerge.SourceMap

/-- Why a text holds no source map. -/
inductive MapFault
  | unsupportedUri (uri : Text)
  | payloadNotAscii
  | payload (fault : Base64.Fault)
  | encoding (error : Utf8.DecodeError)
  | document (error : Json.ReadError)
  | notAnObject

def MapFault.message : MapFault → String
  | unsupportedUri uri =>
    s!"unsupported data URI: {String.ofList (Quoted.quote (uri.take 40))}"
  | payloadNotAscii => "string argument should contain only ASCII characters"
  | payload fault => s!"invalid base64 payload: {fault.message}"
  | encoding error => error.message
  | document error => error.message
  | notAnObject => "source map is not a JSON object"

/-- Whether the text is nested too deeply to be read. That is not a failure of the text, and goes
past those who expect one. -/
def MapFault.isNesting : MapFault → Bool
  | document error => error.cause = .nesting
  | _ => false

/-- The members of a JSON document that is an object. -/
def readMap (document : Text) (levels : Option Nat := none) : Except MapFault Json.Members :=
  match Json.read document levels with
  | .error e => .error (.document e)
  | .ok (.object members) => .ok members
  | .ok _ => .error .notAnObject

/-- What is left after the charset of a data URI, if it names one. -/
def dropCharset (text : Text) : Text :=
  match Text.dropCaseless? ";charset=".toList text with
  | none => text
  | some rest =>
    let (name, after) := rest.span fun c => isWordCharacter c || c == '-'
    if name.isEmpty then text else after

/-- The payload of a data URI of a JSON document: one line, of which a last newline is no part. -/
def payload? (uri : Text) : Option Text := do
  let rest ← Text.dropCaseless? "data:application/json".toList uri
  let payload ← Text.dropCaseless? ";base64,".toList (dropCharset rest)
  let (line, rest) := payload.span (· ≠ '\n')
  if rest = [] ∨ rest = ['\n'] then some line else none

def readDataUri (uri : Text) (levels : Option Nat := none) : Except MapFault Json.Members :=
  match payload? uri with
  | none => .error (.unsupportedUri uri)
  | some payload =>
    if payload.any (0x80 ≤ ·.toNat) then .error .payloadNotAscii
    else do
      let bytes ← (Base64.decode payload).mapError .payload
      let document ← (Utf8.decode bytes).mapError .encoding
      readMap document levels

def inlineStart : Text := "data:application/json;charset=utf-8;base64,".toList

/-- The data URI that holds a map. -/
def writeDataUri (map : Json.Members) : Text :=
  inlineStart ++ Base64.encode (Utf8.encode (Json.object map).write)

end NamespaceMerge.SourceMap
