import NamespaceMerge.Json.Basic
import NamespaceMerge.Script.Syntax

/-! What a merge works with besides its options: a parser and a printer of scripts, an encoder of
source maps, and a reader of maps. A merge knows them by what they give, so that it can go with any
of them. -/

namespace NamespaceMerge

namespace SourceMap

/-- The map that an encoder makes for a script of the given name. -/
def encoded (sources names : List String) (mappings : Text) (name : String) : Json.Members :=
  [(Utf16.ofString "version", .ofNat 3),
    (Utf16.ofString "sources", .array (sources.map .ofString)),
    (Utf16.ofString "names", .array (names.map .ofString)),
    (Utf16.ofString "mappings", .string (Utf16.ofText mappings)),
    (Utf16.ofString "file", .ofString name)]

theorem keyed_encoded (sources names : List String) (mappings : Text) (name : String) :
    Json.Keyed (.object (encoded sources names mappings name)) := by
  have hkeys : (encoded sources names mappings name).keys =
      ["version", "sources", "names", "mappings", "file"].map Utf16.ofString := rfl
  have hstrings : ∀ texts : List String, Json.Keyed (.array (texts.map .ofString)) := by
    refine fun texts => .array fun item hitem => ?_
    obtain ⟨text, -, rfl⟩ := List.mem_map.mp hitem
    exact .string _
  refine .object (by rw [hkeys]; decide) fun member hmember => ?_
  simp only [encoded, List.mem_cons, List.not_mem_nil, or_false] at hmember
  rcases hmember with rfl | rfl | rfl | rfl | rfl
  · exact .number _
  · exact hstrings sources
  · exact hstrings names
  · exact .string _
  · exact .string _

end SourceMap

/-- A printed script. -/
structure Printed where
  text : Text
  /-- The source map of the text, for a script of the given name. -/
  map : String → Json.Members
  keyed : ∀ name, Json.Keyed (.object (map name))

/-- Why a script is not parsed: it is refused with a message, or the parser breaks down, which
nobody expects. -/
inductive ParseFault
  | refused (message : String)
  | stopped (cause : String)

structure Toolkit where
  /-- The statements of a script, with its comments if `keepComments`. -/
  parse (keepComments : Bool) (script : Text) : Except ParseFault (List Script.Statement)
  /-- The text of statements, where `unit` indents one level. It may break down as well. -/
  print (unit : String) (statements : List Script.Statement) : Except String Printed
  /-- How many levels deep a map may be nested to be read, if there is a limit. -/
  levels : Option Nat := none
  /-- A map is an object that holds arrays. -/
  two_le_levels : ∀ n ∈ levels, 2 ≤ n := by nofun

end NamespaceMerge
