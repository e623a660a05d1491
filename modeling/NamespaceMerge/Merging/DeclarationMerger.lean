import NamespaceMerge.Log.Journal
import NamespaceMerge.Merging.Declarations

/-! A merger of one file of declarations, which may be asked again and again. -/

namespace NamespaceMerge

structure DeclarationMerger where
  settings : Settings
  /-- The file. A merge records its size. -/
  file : File
  journal : Journal := {}

namespace DeclarationMerger

/-- Merges the file of the merger, unless the settings skip it. -/
def merge (m : DeclarationMerger) : DeclarationMerger × Option File :=
  let (entries, merged) := m.settings.mergeDeclarations m.file
  ({ m with
      file := if merged.isSome then m.file.measured else m.file
      journal := m.journal ++ { entries } },
    merged)

end DeclarationMerger

end NamespaceMerge
