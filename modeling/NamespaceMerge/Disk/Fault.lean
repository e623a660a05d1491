import NamespaceMerge.Text.Quoted

/-! Why the disk refuses something. -/

namespace NamespaceMerge

inductive DiskFault
  | missing (path : String)
  | taken (path : String)
  | notDirectory (path : String)
  | isDirectory (path : String)

namespace DiskFault

/-- The number of the fault, as systems count them. -/
def code : DiskFault → Nat
  | missing _ => 2
  | taken _ => 17
  | notDirectory _ => 20
  | isDirectory _ => 21

def message (fault : DiskFault) : String :=
  let text (reason path : String) := s!"[Errno {fault.code}] {reason}: {quoted path}"
  match fault with
  | missing path => text "No such file or directory" path
  | taken path => text "File exists" path
  | notDirectory path => text "Not a directory" path
  | isDirectory path => text "Is a directory" path

end DiskFault

end NamespaceMerge
