import NamespaceMerge.File.Name

/-! Files as they are passed around: contents, name and directory, and the file they were made
from. -/

namespace NamespaceMerge

structure File where
  contents : String
  name : String
  /-- The directory; empty for the current one. -/
  path : String := ""
  /-- The size as it was recorded, whether it is right or not. -/
  size : Option Int := none
  source : Option File := none
deriving Inhabited

namespace File

/-- The recorded size, or else the length of the contents. -/
def length (f : File) : Int := f.size.getD f.contents.length

/-- The file with its size recorded. -/
def measured (f : File) : File := { f with size := some f.length }

/-- Whether two files agree in all but their sources. -/
def isSame (f g : File) : Bool :=
  f.contents == g.contents && f.name == g.name && f.path == g.path && f.size == g.size

def fullPath (f : File) : String :=
  if f.path.isEmpty then f.name
  else String.ofList (Text.dropTrailing '/' f.path.toList) ++ "/" ++ f.name

@[simp] theorem length_measured (f : File) : f.measured.length = f.length := rfl

theorem measured_measured (f : File) : f.measured.measured = f.measured := rfl

end File

end NamespaceMerge
