import NamespaceMerge.File.Basic
import NamespaceMerge.Log.Journal
import NamespaceMerge.Module.Merge
import NamespaceMerge.Options.Settings
import NamespaceMerge.SourceMap.Repair

/-! Merging the modules of a script. The merged script refers to a source map if one was recovered
for the script, and the repaired map comes with it as a file of its own. -/

namespace NamespaceMerge

/-- A script that is known by its contents only. -/
def File.ofScript (contents : String) : File :=
  { contents, name := "unnamed-00000000.js", size := some contents.length }

/-- Why a script is not merged. Only the first of these is a failure that callers expect. -/
inductive ScriptFault
  | unparsable (path message : String)
  /-- The parser or the printer breaks down. -/
  | stopped (cause : String)
  /-- The map of the script is nested too deeply to be read. -/
  | nesting
  | unknownOption

structure MergedScript where
  script : File
  map : Option File := none

/-- The outcome of merging a script. -/
structure ScriptOutcome where
  journal : Journal := {}
  /-- The number of blocks that were joined to the one before them. -/
  joins : Nat := 0
  /-- The urls that the loader was asked for. -/
  asked : List Text := []
  /-- Nothing for a script that is skipped. -/
  result : Except ScriptFault (Option MergedScript)

namespace ScriptOutcome

def script (o : ScriptOutcome) : Except ScriptFault (Option File) :=
  o.result.map fun merged => merged.map (·.script)

/-- The map that came with the script. -/
def map? (o : ScriptOutcome) : Option File :=
  match o.result with
  | .ok (some merged) => merged.map
  | _ => none

end ScriptOutcome

/-- What is said while modules are merged. -/
def Script.Merged.entries (m : Script.Merged) : List Entry :=
  m.found.map fun (name, index) =>
    { message := s!"IIFE block '{name}' found at statement {index}", level := .verbose }

/-- What is said about the input map of a script: nothing if it has none or a good one. -/
def SourceMap.Reference.entries (reference : Reference) (fullPath : String)
    (loaded : Except LoadFault (Option Json.Members)) : List Entry :=
  match reference, loaded with
  | .absent, _ => []
  | .unreadable _, _ =>
    [{ message := s!"Unreadable source map reference in '{fullPath}'", level := .warning }]
  | reference, .error fault =>
    let url := String.ofList (reference.value?.getD [])
    [{ message := s!"Unable to load source map '{url}': {fault.message}", level := .warning }]
  | _, .ok none =>
    [{ message := s!"No source map recovered for '{fullPath}'", level := .verbose }]
  | _, .ok (some _) => []

namespace Settings

def scriptName (s : Settings) (name : String) : String :=
  String.ofList (FileName.output name.toList FileName.scriptExtension s.marker)

/-- The merged script of a file, and its map if there is an input map to repair. -/
def mergedScript (s : Settings) (f : File) (printed : Printed) (joins : Nat)
    (kind : SourceMap.Kind) (input : Option Json.Members) : MergedScript :=
  let name := s.scriptName f.name
  let path := s.directoryFor f.path
  let code := SourceMap.stripReferences printed.text
  let file (contents : Text) (name : String) : File :=
    { contents := String.ofList contents, name, path, size := some contents.length
      source := some f }
  match input with
  | none => { script := file code name }
  | some input =>
    let mapName := FileName.sourceMap name.toList
    let map := SourceMap.repair (printed.map name) input joins name (f.source.getD f).name
    let ended := if code.getLast? = some '\n' then code else code ++ ['\n']
    { script := file (ended ++ SourceMap.referenceLine kind map mapName) name
      map := some (file (Json.object map).write (String.ofList mapName)) }

/-- The script that was printed, with a map if the settings want one. -/
def createScript (s : Settings) (loader : Option SourceMap.Loader) (f : File) (printed : Printed)
    (joins : Nat) : ScriptOutcome :=
  if s.skipSourceMaps then
    { joins, result := .ok (some (s.mergedScript f printed joins .none none)) }
  else
    match SourceMap.Reference.ofTextWithin s.toolkit.levels f.contents.toList with
    | .error _ => { joins, result := .error .nesting }
    | .ok reference =>
      let asked := if loader.isSome && reference.isLookedUp then reference.value?.toList else []
      match reference.loadWithin s.toolkit.levels loader with
      | .error _ => { joins, asked, result := .error .nesting }
      | .ok loaded =>
        let input := loaded.toOption.join
        { journal := { entries := reference.entries f.fullPath loaded }
          joins, asked
          result := .ok (some (s.mergedScript f printed joins reference.kind input)) }

/-- Prints merged statements and makes a script of them. -/
def finishScript (s : Settings) (loader : Option SourceMap.Loader) (f : File)
    (options : PrintingOptions) (merged : Script.Merged) : ScriptOutcome :=
  match s.toolkit.print options.unit merged.statements with
  | .error cause => { joins := merged.joins, result := .error (.stopped cause) }
  | .ok printed => s.createScript loader f printed merged.joins

/-- Merges a script, unless the settings skip it. -/
def mergeScript (s : Settings) (loader : Option SourceMap.Loader) (f : File) : ScriptOutcome :=
  if s.skipScripts then { result := .ok none }
  else
    let start : Journal :=
      { entries := [{ message := s!"Initializing merging of file '{f.fullPath}'" }] }
    match s.reading with
    | none => { journal := start, result := .error .unknownOption }
    | some reading =>
      match s.toolkit.parse reading.keepComments f.contents.toList with
      | .error (.refused message) =>
        { journal := start.fail (.unparsable f.fullPath message)
          result := .error (.unparsable f.fullPath message) }
      | .error (.stopped cause) => { journal := start, result := .error (.stopped cause) }
      | .ok statements =>
        let merged := Script.merge statements
        let journal := start ++ { entries := merged.entries ++
          [{ message := s!"Total block merges for '{f.fullPath}': {merged.joins}" }] }
        match s.printing with
        | none => { journal, joins := merged.joins, result := .error .unknownOption }
        | some printing =>
          let outcome := s.finishScript loader f printing merged
          { outcome with journal := journal ++ outcome.journal }

end Settings

end NamespaceMerge
