import NamespaceMerge.Worker.Work

/-! Writing files to the disk. Files without a name are set aside. -/

namespace NamespaceMerge

/-- The file after it was written: its size and that of its source are recorded. -/
def File.written (f : File) : File :=
  if f.name.isEmpty then f else { f.measured with source := f.source.map File.measured }

/-- A waiting item, after the size of a source was recorded that may be the source of its file. -/
def Item.afterMeasuring (source : File) : Item → Item
  | .path p => .path p
  | .record file =>
    let measure (other : File) : File := if other.isSame source then other.measured else other
    .record { file with source := file.source.map measure }

namespace Worker

/-- The components of the path that a file is written to: of its directory, and of its name. -/
def target (f : File) : List Text × List Text :=
  (FileName.components f.path.toList, FileName.components f.name.toList)

/-- Says how large a file with a source is, and how large the source was. The size of the source
is recorded where the source is still waiting. -/
def announce (w : Worker) (f : File) : Worker :=
  match f.source with
  | none => w
  | some source =>
    let (directory, name) := target f
    let path := String.ofList (FileName.ofComponents (directory ++ name))
    let w := w.log s!"{path}: ({f.length} bytes (from {source.length} bytes))." .information
    { w with declarations := w.declarations.map (Item.afterMeasuring source) }

/-- Writes one file. -/
def writeFile (d : Disk) (w : Worker) (f : File) : Disk × Worker × Option DiskFault :=
  if f.name.isEmpty then
    (d, { w.changeReport (·.addSkipped) with unsaved := w.unsaved ++ [f] }, none)
  else
    let (directory, name) := target f
    let w := w.announce f
    match d.ensureDirectories directory.reverse with
    | (d, some fault) => (d, w, some fault)
    | (d, none) =>
      match d.write (directory ++ name) (Utf8.encode f.contents.toList) with
      | .error fault => (d, w, some fault)
      | .ok d => (d, w.changeReport (·.addWritten f.length), none)

/-- Writes files up to the first fault. -/
def writeAll (d : Disk) (w : Worker) : List File → Disk × Worker × Option DiskFault
  | [] => (d, w, none)
  | f :: files =>
    match writeFile d w f with
    | (d, w, none) => writeAll d w files
    | (d, w, some fault) => (d, w, some fault)

def write (d : Disk) (w : Worker) (files : List File) : Disk × Worker × Option DiskFault :=
  let (d, w, fault) := writeAll d (w.enter "write") files
  (d, w.leave "write", fault)

/-- Works through the queues and writes what comes of it. -/
def workAndWrite (d : Disk) (w : Worker) :
    Disk × Worker × Except (WorkFault ⊕ DiskFault) (List File) :=
  match work d w with
  | (w, .error fault) => (d, w, .error (.inl fault))
  | (w, .ok files) =>
    match write d w files with
    | (d, w, none) => (d, w, .ok (files.map File.written))
    | (d, w, some fault) => (d, w, .error (.inr fault))

end Worker

end NamespaceMerge
