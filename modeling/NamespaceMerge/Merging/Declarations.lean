import NamespaceMerge.Declaration.Render
import NamespaceMerge.File.Basic
import NamespaceMerge.Log.Basic
import NamespaceMerge.Options.Settings

/-! Merging the namespaces of a file of declarations. -/

namespace NamespaceMerge

/-- A file of declarations that is known by its contents only. -/
def File.ofDeclarations (contents : String) : File :=
  { contents, name := "unnamed-00000000.d.ts", path := "/work", size := some contents.length }

namespace Settings

def declarationName (s : Settings) (name : String) : String :=
  String.ofList (FileName.output name.toList FileName.declarationExtension s.marker)

/-- The merged file. A file without namespaces stays as it is, under the name of the merged one. -/
def mergedDeclarations (s : Settings) (f : File) : File :=
  let f := f.measured
  let name := s.declarationName f.name
  let path := s.directoryFor f.path
  match Declaration.merge? f.contents.toList with
  | none => { f with name, path }
  | some merged =>
    { contents := String.ofList merged.contents, name, path
      size := some merged.contents.length, source := some f }

/-- What the log says about merging a file. -/
def declarationEntries (f : File) : List Entry :=
  let summary := match Declaration.merge? f.contents.toList with
    | none => s!"'{f.fullPath}' has 0 mergeable declarations"
    | some merged =>
      s!"Total merged namespaces for '{f.fullPath}': {merged.groups} (from {merged.blocks})"
  [{ message := s!"Initializing merging of file '{f.fullPath}'" }, { message := summary }]

/-- Merges a file of declarations, unless the settings skip it. -/
def mergeDeclarations (s : Settings) (f : File) : List Entry × Option File :=
  if s.skipDeclarations then ([], none)
  else (declarationEntries f, some (s.mergedDeclarations f))

end Settings

end NamespaceMerge
