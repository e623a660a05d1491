import NamespaceMerge.CommandLine.Session
import NamespaceMerge.Toolkit.Standard

/-! The command line as a program. It reads what is below the working directory, runs on that, and
writes what the run has changed. Of all else it knows only the way to the working directory. -/

namespace NamespaceMerge.CommandLine

def bytesOfArray (bytes : ByteArray) : Utf8.Bytes := bytes.toList

def arrayOfBytes (bytes : Utf8.Bytes) : ByteArray := ⟨bytes.toArray⟩

def pathOf (place : Place) : String :=
  String.ofList (FileName.ofComponents (FileName.root :: place))

/-- The disk with everything below the directory at a place. -/
partial def loadFrom (disk : Disk) (place : Place) : IO Disk := do
  let directory := (← IO.currentDir) / pathOf place
  let mut disk := disk
  for entry in ← directory.readDir do
    let place := place ++ [entry.fileName.toList]
    if ← entry.path.isDir then
      disk ← loadFrom { disk with directories := disk.directories ++ [place] } place
    else
      let bytes ← IO.FS.readBinFile entry.path
      disk := { disk with files := disk.files ++ [(place, bytesOfArray bytes)] }
  return disk

/-- The disk with everything below the working directory. -/
def load : IO Disk := do
  let start := FileName.names (← IO.currentDir).toString.toList
  loadFrom (.startingAt start) start

/-- Writes the directories and files that differ from those before. -/
def storeChanges (before after : Disk) : IO Unit := do
  for place in after.directories do
    unless before.directories.contains place do IO.FS.createDirAll (pathOf place)
  for (place, bytes) in after.files do
    unless before.files.lookup place == some bytes do
      IO.FS.writeBinFile (pathOf place) (arrayOfBytes bytes)

def RunFault.describe : RunFault → String
  | interrupted _ => "interrupted"
  | pattern => Glob.invalidPattern
  | work (.unreadable fault) | write fault => fault.message
  | work (.undecodable error) => error.message
  | work (.script (.unparsable path message)) => (Failure.unparsable path message).message
  | work (.script (.stopped cause)) => cause
  | work (.script .nesting) => "a source map is nested too deeply"
  | work (.script .unknownOption) => "an option is unknown"
  | droppedValue => "an option has no value"

def environment : IO Environment := do
  return {
    debug := (← IO.getEnv "DEBUG") == some "1"
    jsonLogs := (← IO.getEnv "TSMERGE_JSON_LOGS") == some "1" }

end NamespaceMerge.CommandLine

open NamespaceMerge NamespaceMerge.CommandLine in
def main (words : List String) : IO UInt32 := do
  let disk ← load
  let now := Binary64.ofFraction false (← IO.monoNanosNow) 1000000000
  let session : Session :=
    { toolkit := Toolkit.program, disk, clock := .still (.real now) }
  let (session, outcome) := session.run (← environment) none (words.map String.toList)
  storeChanges disk session.disk
  IO.eprint (String.ofList (session.registry.streams.headD []))
  IO.print outcome.output
  match outcome.exit with
  | .ok code => return code.toUInt32
  | .error fault =>
    IO.eprintln fault.describe
    return 1
