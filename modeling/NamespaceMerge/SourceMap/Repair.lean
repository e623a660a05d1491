import NamespaceMerge.SourceMap.Recovery

/-! Repair of source maps. The map of a merged script takes its mappings from a fresh map and what
it says about the sources from the input map. -/

namespace NamespaceMerge.SourceMap

/-- The members taken over from the input map, each with its value where there is none. -/
def inherited (fileName sourceName : String) : Json.Members :=
  [(Utf16.ofString "file", .ofString fileName),
    (Utf16.ofString "names", .array [.ofString ""]),
    (Utf16.ofString "sourceRoot", .ofString ""),
    (Utf16.ofString "sources", .array [.ofString sourceName]),
    (Utf16.ofString "sourcesContent", .array [])]

/-- The mappings of a map, unless they are null. -/
def mappings? (map : Json.Members) : Option Json :=
  match map.get? (Utf16.ofString "mappings") with
  | some .null | none => none
  | some mappings => some mappings

/-- The fresh map with the members of the input map, or the values in their place. -/
def inherit (fresh input : Json.Members) (fileName sourceName : String) : Json.Members :=
  (inherited fileName sourceName).foldl
    (fun map (key, value) => map.set key ((input.get? key).getD value)) fresh

/-- Sets the version where there is none. -/
def withVersion (map : Json.Members) : Json.Members :=
  match map.get? (Utf16.ofString "version") with
  | some _ => map
  | none => map.set (Utf16.ofString "version") (.ofNat 3)

/-- The map of a merged script. Where nothing was joined, the mappings of the input hold. -/
def repair (fresh input : Json.Members) (joins : Nat) (fileName sourceName : String) :
    Json.Members :=
  let map := inherit fresh input fileName sourceName
  let map :=
    match joins, mappings? input with
    | 0, some mappings => map.set (Utf16.ofString "mappings") mappings
    | _, _ => map
  let contents := Utf16.ofString "sourcesContent"
  let map := if (map.get? contents).any Json.isTruthy then map else map.erase contents
  withVersion map

/-- The reference line for a map: inline, by its name, or none. -/
def referenceLine (kind : Kind) (map : Json.Members) (mapName : Text) : Text :=
  let line (value : Text) : Text := "//# sourceMappingURL=".toList ++ value ++ ['\n']
  match kind with
  | .inline => line (writeDataUri map)
  | .url => line mapName
  | .none => []

end NamespaceMerge.SourceMap
