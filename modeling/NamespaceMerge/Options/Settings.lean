import NamespaceMerge.Options.Table
import NamespaceMerge.Toolkit.Basic

/-! The options of a merge as the merge uses them, and the toolkit that it works with. -/

namespace NamespaceMerge

/-- How scripts are read. -/
structure ReadingOptions where
  keepComments : Bool := true

/-- How scripts are printed. -/
structure PrintingOptions where
  /-- The indentation of one nesting level. -/
  unit : String := "    "

structure Settings where
  toolkit : Toolkit
  /-- The marker in the names of merged files; none if empty. -/
  marker : Text := "merged".toList
  /-- The directory of the merged files; if empty, that of each input. -/
  outDirectory : String := ""
  skipDeclarations : Bool := false
  skipScripts : Bool := false
  skipSourceMaps : Bool := false
  /-- Missing if there is an option for reading that nobody knows. -/
  reading : Option ReadingOptions := some {}
  /-- Missing if there is an option for printing that nobody knows. -/
  printing : Option PrintingOptions := some {}

namespace Settings

/-- The text that a value stands for; what does not count as present stands for none. -/
def textOf (value : Json) : Text :=
  match value with
  | .string units => units.toText
  | value => if value.isTruthy then value.describe else []

def membersOf : Json → Json.Members
  | .object members => members
  | _ => []

/-- The value of the only option of its kind, if no other one is set. -/
def onlyOption? (kind : Options.Kind) (name : String) (values : Json.Members) : Option Json :=
  let name := Utf16.ofString name
  if values.keys.all (· == name) then
    (Json.Members.update (Options.defaults kind) values).get? name
  else none

/-- An indentation that is missing or empty is two spaces wide. -/
def printingOf? (values : Json.Members) : Option PrintingOptions := do
  let value ← onlyOption? .generate "indent_str" values
  match value with
  | .string (unit :: units) => return { unit := Utf16.toString (unit :: units) }
  | _ => return { unit := "  " }

def readingOf? (values : Json.Members) : Option ReadingOptions := do
  return { keepComments := (← onlyOption? .parse "with_comments" values).isTruthy }

/-- The settings that the options of a merge amount to. -/
def ofOptions (toolkit : Toolkit) (options : Json.Members) : Settings :=
  let value (name : String) := (options.get? (Utf16.ofString name)).getD .null
  { toolkit
    marker := textOf (value "extension_prefix")
    outDirectory := String.ofList (textOf (value "out_dir"))
    skipDeclarations := (value "skip_declarations").isTruthy
    skipScripts := (value "skip_scripts").isTruthy
    skipSourceMaps := (value "skip_source_maps").isTruthy
    reading := readingOf? (membersOf (value "parse_options"))
    printing := printingOf? (membersOf (value "generate_options")) }

/-- The directory of the merged file of a file in `directory`. -/
def directoryFor (s : Settings) (directory : String) : String :=
  if s.outDirectory.isEmpty then directory else s.outDirectory

end Settings

end NamespaceMerge
