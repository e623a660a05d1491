import NamespaceMerge.Merging.Scripts

/-! A merger of one script, which may be asked again and again. What one merge leaves behind, the
next one forgets, but for the journal. -/

namespace NamespaceMerge

structure ScriptMerger where
  settings : Settings
  loader : Option SourceMap.Loader := none
  file : File
  /-- The number of blocks that were joined to an earlier one since the last merge began. -/
  joins : Nat := 0
  /-- The map that came with the last merge. -/
  map : Option File := none
  /-- The urls that the loader was asked for. -/
  asked : List Text := []
  journal : Journal := {}

namespace ScriptMerger

/-- Merges the modules among statements. The joined blocks are added to the count. -/
def optimize (m : ScriptMerger) (statements : List Script.Statement) :
    ScriptMerger × List Script.Statement :=
  let merged := Script.merge statements
  ({ m with
      joins := m.joins + merged.joins
      journal := m.journal ++ { entries := merged.entries } },
    merged.statements)

/-- Merges the script of the merger. -/
def merge (m : ScriptMerger) : ScriptMerger × Except ScriptFault (Option File) :=
  let outcome := m.settings.mergeScript m.loader m.file
  ({ m with
      joins := outcome.joins
      map := outcome.map?
      asked := m.asked ++ outcome.asked
      journal := m.journal ++ outcome.journal },
    outcome.script)

end ScriptMerger

end NamespaceMerge
