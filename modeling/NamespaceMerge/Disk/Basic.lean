import NamespaceMerge.Disk.Fault
import NamespaceMerge.File.Name
import NamespaceMerge.Text.Utf8

/-! Directories and files. A path leads on from the working directory, unless it starts at the
root. -/

namespace NamespaceMerge

open Utf8 (Bytes)

/-- A place below the root: the names of the directories on the way, then its own. -/
abbrev Place := List Text

structure Disk where
  files : List (Place × Bytes) := []
  /-- The directories below the root. -/
  directories : List Place := []
  /-- The working directory. -/
  start : Place := []

namespace FileName

/-- A path from its components. What stands before the root says nothing. -/
def ofComponents (components : List Text) : Text :=
  if components.contains root then
    '/' :: Text.join ['/'] (components.reverse.takeWhile (· ≠ root)).reverse
  else if components.isEmpty then ['.']
  else Text.join ['/'] components

/-- A path without the components that say nothing. -/
def normalize (path : Text) : Text := ofComponents (components path)

/-- What stands before the last separator, without further separators at its end. -/
def directory (path : Text) : Text :=
  let head := (path.reverse.dropWhile (· ≠ '/')).reverse
  if head.all (· == '/') then head else Text.dropTrailing '/' head

end FileName

namespace Disk

/-- A disk with nothing but a working directory and the directories above it. -/
def startingAt (start : Place) : Disk :=
  { start, directories := (List.range start.length).map fun n => start.take (n + 1) }

/-- What stands at the end of a path. -/
inductive Found
  | file (place : Place) (bytes : Bytes)
  | directory (place : Place)

/-- Why a path leads nowhere: a component is not there, or goes on from a file. -/
inductive Obstacle
  | missing
  | notDirectory

def Obstacle.fault (path : String) : Obstacle → DiskFault
  | missing => .missing path
  | notDirectory => .notDirectory path

def isDirectoryPlace (d : Disk) (place : Place) : Bool :=
  place.isEmpty || d.directories.contains place

/-- Follows components from the directory `here` on. Above the root there is only the root. -/
def findFrom (d : Disk) (here : Place) : List Text → Except Obstacle Found
  | [] => .ok (.directory here)
  | component :: rest =>
    if component = [] ∨ component = ['.'] then d.findFrom here rest
    else if component = FileName.root then d.findFrom [] rest
    else if component = ['.', '.'] then d.findFrom here.dropLast rest
    else
      let place := here ++ [component]
      if d.isDirectoryPlace place then d.findFrom place rest
      else
        match d.files.lookup place with
        | some bytes => if rest.isEmpty then .ok (.file place bytes) else .error .notDirectory
        | none => .error .missing

/-- Follows components from the working directory on. -/
def follow (d : Disk) (components : List Text) : Except Obstacle Found :=
  d.findFrom d.start components

def find (d : Disk) (path : Text) : Except Obstacle Found := d.follow (FileName.split path)

def includes (d : Disk) (path : Text) : Bool := (d.find path).isOk

def isFile (d : Disk) (path : Text) : Bool :=
  match d.find path with
  | .ok (.file ..) => true
  | _ => false

/-- The place of a directory. -/
def directory? (d : Disk) (path : Text) : Option Place :=
  match d.find path with
  | .ok (.directory place) => some place
  | _ => none

/-- The names of what stands directly in a directory. -/
def children (d : Disk) (place : Place) : List Text :=
  (d.directories ++ d.files.map (·.1)).filterMap fun other =>
    if other.dropLast = place then other.getLast? else none

/-- The bytes of a file. -/
def read (d : Disk) (path : Text) : Except DiskFault Bytes :=
  match d.find path with
  | .ok (.file _ bytes) => .ok bytes
  | .ok (.directory _) => .error (.isDirectory (String.ofList path))
  | .error obstacle => .error (obstacle.fault (String.ofList path))

/-- Puts a file at a place, over a file that is there. -/
def put (d : Disk) (place : Place) (bytes : Bytes) : Disk :=
  { d with files := d.files.filter (·.1 ≠ place) ++ [(place, bytes)] }

/-- The place at the end of a path whose directory is there. -/
def placeIn? (d : Disk) (components : List Text) : Option Place :=
  match d.follow components.dropLast, components.getLast? with
  | .ok (.directory place), some name => some (place ++ [name])
  | _, _ => none

/-- Writes a file whose directory is there. -/
def write (d : Disk) (components : List Text) (bytes : Bytes) : Except DiskFault Disk :=
  let path := String.ofList (FileName.ofComponents components)
  match d.follow components with
  | .ok (.file place _) => .ok (d.put place bytes)
  | .ok (.directory _) => .error (.isDirectory path)
  | .error .notDirectory => .error (.notDirectory path)
  | .error .missing =>
    match d.placeIn? components with
    | some place => .ok (d.put place bytes)
    | none => .error (.missing path)

/-- Makes a directory where nothing is yet. -/
def makeDirectory (d : Disk) (components : List Text) : Except DiskFault Disk :=
  let path := String.ofList (FileName.ofComponents components)
  match d.follow components with
  | .ok _ => .error (.taken path)
  | .error .notDirectory => .error (.notDirectory path)
  | .error .missing =>
    match d.placeIn? components with
    | some place => .ok { d with directories := d.directories ++ [place] }
    | none => .error (.missing path)

/-- Makes a directory unless it is there already. -/
def ensureDirectory (d : Disk) (components : List Text) : Except DiskFault Disk :=
  match d.makeDirectory components with
  | .error fault =>
    match d.follow components with
    | .ok (.directory _) => .ok d
    | _ => .error fault
  | ok => ok

/-- Makes a directory and those above it; the components are given from the last one on. What was
made stays, also when it comes to a fault. -/
def ensureDirectories (d : Disk) : List Text → Disk × Option DiskFault
  | [] => (d, none)
  | last :: above =>
    match d.ensureDirectory (last :: above).reverse with
    | .ok d => (d, none)
    | .error (.missing _) =>
      match d.ensureDirectories above with
      | (d, some fault) => (d, some fault)
      | (d, none) =>
        match d.ensureDirectory (last :: above).reverse with
        | .ok d => (d, none)
        | .error fault => (d, some fault)
    | .error fault => (d, some fault)

/-- Removes the file at a path. -/
def delete (d : Disk) (path : Text) : Disk :=
  match d.find path with
  | .ok (.file place _) => { d with files := d.files.filter (·.1 ≠ place) }
  | _ => d

/-- Puts a file at a path, in directories that are made for it. -/
def add (d : Disk) (path : Text) (bytes : Bytes) : Disk :=
  let components := FileName.components path
  let d := (d.ensureDirectories components.reverse.tail).1
  (d.write components bytes).toOption.getD d

/-- Makes the directory at a path. -/
def addDirectory (d : Disk) (path : Text) : Disk :=
  (d.ensureDirectories (FileName.components path).reverse).1

/-- The path to a place from the working directory, if the place is below it. -/
def pathTo? (d : Disk) (place : Place) : Option Text :=
  if d.start.isPrefixOf place && d.start ≠ place then
    some (FileName.ofComponents (place.drop d.start.length))
  else none

/-- Everything below the working directory by path: files, and directories that hold nothing. -/
def listing (d : Disk) : List (Text × Option Bytes) :=
  let files := d.files.filterMap fun (place, bytes) => (d.pathTo? place).map (·, some bytes)
  let bare := d.directories.filter fun place => (d.children place).isEmpty
  let directories := bare.filterMap fun place => (d.pathTo? place).map (· ++ ['/'], none)
  (files ++ directories).mergeSort fun a b => a.1.before b.1

end Disk

end NamespaceMerge
