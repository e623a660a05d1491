import NamespaceMerge.Disk.Basic
import NamespaceMerge.File.Basic
import NamespaceMerge.SourceMap.Recovery

/-! Files and source maps as they are read from the disk: text in UTF-8, with the line ends of all
systems taken for newlines. -/

namespace NamespaceMerge

inductive ReadFault
  | disk (fault : DiskFault)
  | encoding (error : Utf8.DecodeError)

namespace Disk

def textOf (bytes : Utf8.Bytes) : Except Utf8.DecodeError Text :=
  (Utf8.decode bytes).map Text.unifyLineEnds

/-- The file at a path, with its size. -/
def readFile (d : Disk) (path : Text) : Except ReadFault File := do
  let bytes ← (d.read (FileName.normalize path)).mapError .disk
  let text ← (textOf bytes).mapError .encoding
  return {
    contents := String.ofList text
    name := String.ofList ((FileName.components path).getLast?.getD [])
    path := String.ofList (FileName.directory path)
    size := some text.length }

/-- Where a url leads from a directory. A url that starts at the root leads on from there. -/
def mapPath (directory url : Text) : Text :=
  let base := if directory.isEmpty then ['.'] else directory
  if url.head? = some '/' then url
  else if base.getLast? = some '/' then base ++ url
  else base ++ '/' :: url

/-- The text behind the url of a map of a file in `directory`, if the url leads to a file. -/
def readMap? (d : Disk) (directory url : Text) : Except Utf8.DecodeError (Option Text) :=
  if Text.includes "://".toList url then .ok none
  else
    match d.find (mapPath directory url) with
    | .ok (.file _ bytes) => (textOf bytes).map some
    | _ => .ok none

/-- The loader of maps that looks on the disk. -/
def mapLoader (d : Disk) (directory : Text) : SourceMap.Loader := fun url =>
  match d.readMap? directory url with
  | .ok (some text) => .text text
  | .ok none => .missing
  | .error error => .failed error.message

end Disk

end NamespaceMerge
