import NamespaceMerge.Json.Described

/-! Tables of options: values by name, of which each kind has its own defaults. -/

namespace NamespaceMerge.Options

/-- What a table of options is for. -/
inductive Kind
  | generate
  | merge
  | parse

/-- Why options are refused. -/
inductive Fault
  /-- There is no table of this kind. -/
  | kind (name : String)
  | unknown (names : List Text)
  | logger (value : Json)

def Fault.message : Fault → String
  | kind name => s!"Invalid options type: '{name}'."
  | unknown names =>
    "Unknown merge option(s): " ++ String.ofList (Text.join [',', ' '] names)
  | logger value => s!"Invalid logger option: {String.ofList value.describe}"

def Kind.ofName? : String → Option Kind
  | "generate" => some .generate
  | "merge" => some .merge
  | "parse" => some .parse
  | _ => none

def member (name : String) (value : Json) : Utf16 × Json := (Utf16.ofString name, value)

def defaults : Kind → Json.Members
  | .generate => [member "indent_str" (.ofString "    ")]
  | .merge =>
    [member "extension_prefix" (.ofString "merged"), member "out_dir" .null,
      member "logger" (.ofString "console"), member "skip_declarations" (.bool false),
      member "skip_scripts" (.bool false), member "skip_source_maps" (.bool false)]
  | .parse => [member "with_comments" (.bool true)]

/-- The defaults of a kind, with the given values in their place. -/
def extend (kind : String) (values : Json.Members) : Except Fault Json.Members :=
  match Kind.ofName? kind with
  | some kind => .ok (Json.Members.update (defaults kind) values)
  | none => .error (.kind kind)

/-- All options of a merge: the defaults, and no options for reading and printing scripts. -/
def mergeDefaults : Json.Members :=
  defaults .merge ++ [member "generate_options" (.object []), member "parse_options" (.object [])]

/-- The order of names in messages: by code points. -/
def nameBefore (a b : Text) : Bool :=
  match a, b with
  | [], _ => true
  | _ :: _, [] => false
  | c :: a, d :: b => c.toNat < d.toNat || (c == d && nameBefore a b)

/-- The options of a merge. Names that no option has are refused. -/
def ofValues (values : Json.Members) : Except Fault Json.Members :=
  match values.keys.filter fun key => (Json.Members.get? mergeDefaults key).isNone with
  | [] => .ok (Json.Members.update mergeDefaults values)
  | unknown => .error (.unknown ((unknown.map Utf16.toText).mergeSort nameBefore))

end NamespaceMerge.Options
