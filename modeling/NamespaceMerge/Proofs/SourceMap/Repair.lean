import NamespaceMerge.Merging.Scripts
import NamespaceMerge.Proofs.Json.Keyed

/-! The map of a merged script. A repair brings in no value that is not in one of its two maps or
made by it, so what can be read stays so (`readable_repair`). A map as encoders make it is repaired
part by part, with the parts of the input map where that has them (`repair_encoded`), and as the
input map of the same script merged again the outcome is repaired to itself (`repair_repair`). -/

namespace NamespaceMerge.SourceMap

open Json (Readable)

/-! ### The steps of a repair -/

/-- Where nothing was joined, the mappings of the input map hold. -/
def withMappings (map input : Json.Members) (joins : Nat) : Json.Members :=
  match joins, mappings? input with
  | 0, some mappings => map.set (Utf16.ofString "mappings") mappings
  | _, _ => map

/-- Empty contents of the sources are left out. -/
def withContents (map : Json.Members) : Json.Members :=
  if (map.get? (Utf16.ofString "sourcesContent")).any Json.isTruthy then map
  else map.erase (Utf16.ofString "sourcesContent")

theorem repair_eq (fresh input : Json.Members) (joins : Nat) (fileName sourceName : String) :
    repair fresh input joins fileName sourceName =
      withVersion (withContents
        (withMappings (inherit fresh input fileName sourceName) input joins)) :=
  rfl

theorem withContents_concat {map : Json.Members}
    (h : Utf16.ofString "sourcesContent" ∉ map.keys) (contents : Json) :
    withContents (map ++ [(Utf16.ofString "sourcesContent", contents)]) =
      if contents.isTruthy then map ++ [(Utf16.ofString "sourcesContent", contents)] else map := by
  have hget : Json.Members.get? (map ++ [(Utf16.ofString "sourcesContent", contents)])
      (Utf16.ofString "sourcesContent") = some contents := by
    rw [← Json.Members.set_of_notMem h, Json.Members.get?_set_self]
  rw [withContents, hget, Json.Members.erase_concat h]
  rfl

/-! ### The parts of a repaired map -/

/-- What the map of a merged script says. -/
structure Parts where
  sources : Json
  names : Json
  mappings : Json
  file : Json
  sourceRoot : Json
  /-- Only what counts as present. -/
  sourcesContent : Option Json

namespace Parts

/-- The members that every map of a merged script has. -/
def front (p : Parts) : Json.Members :=
  [(Utf16.ofString "version", .ofNat 3), (Utf16.ofString "sources", p.sources),
    (Utf16.ofString "names", p.names), (Utf16.ofString "mappings", p.mappings),
    (Utf16.ofString "file", p.file), (Utf16.ofString "sourceRoot", p.sourceRoot)]

def members (p : Parts) : Json.Members :=
  p.front ++ p.sourcesContent.toList.map fun value => (Utf16.ofString "sourcesContent", value)

/-- The keys of the members that every map has. -/
def frontKeys : List Utf16 :=
  ["version", "sources", "names", "mappings", "file", "sourceRoot"].map Utf16.ofString

theorem keys_front (p : Parts) : p.front.keys = frontKeys := rfl

theorem sourcesContent_notMem_front (p : Parts) :
    Utf16.ofString "sourcesContent" ∉ p.front.keys := by
  rw [keys_front]
  decide

/-- The mappings of the input map where nothing was joined, else those that were encoded. -/
def chosenMappings (encoded : Text) (input : Json.Members) (joins : Nat) : Json :=
  match joins, mappings? input with
  | 0, some mappings => mappings
  | _, _ => .string (Utf16.ofText encoded)

/-- The parts of a map that is repaired with the encoded mappings. -/
def repaired (encoded : Text) (input : Json.Members) (joins : Nat)
    (fileName sourceName : String) : Parts where
  sources := (input.get? (Utf16.ofString "sources")).getD (.array [.ofString sourceName])
  names := (input.get? (Utf16.ofString "names")).getD (.array [.ofString ""])
  mappings := chosenMappings encoded input joins
  file := (input.get? (Utf16.ofString "file")).getD (.ofString fileName)
  sourceRoot := (input.get? (Utf16.ofString "sourceRoot")).getD (.ofString "")
  sourcesContent := (input.get? (Utf16.ofString "sourcesContent")).filter Json.isTruthy

end Parts

variable {input : Json.Members} {sources names : List String} {mappings : Text}

/-- The members of the fresh map in their order, then those that only the input map has. -/
theorem inherit_encoded (sources names : List String) (mappings : Text) (input : Json.Members)
    (name fileName sourceName : String) :
    inherit (encoded sources names mappings name) input fileName sourceName =
      [(Utf16.ofString "version", .ofNat 3),
        (Utf16.ofString "sources",
          (input.get? (Utf16.ofString "sources")).getD (.array [.ofString sourceName])),
        (Utf16.ofString "names",
          (input.get? (Utf16.ofString "names")).getD (.array [.ofString ""])),
        (Utf16.ofString "mappings", .string (Utf16.ofText mappings)),
        (Utf16.ofString "file", (input.get? (Utf16.ofString "file")).getD (.ofString fileName)),
        (Utf16.ofString "sourceRoot",
          (input.get? (Utf16.ofString "sourceRoot")).getD (.ofString "")),
        (Utf16.ofString "sourcesContent",
          (input.get? (Utf16.ofString "sourcesContent")).getD (.array []))] :=
  rfl

theorem withMappings_inherit (sources names : List String) (mappings : Text)
    (input : Json.Members) (joins : Nat) (name fileName sourceName : String) :
    withMappings (inherit (encoded sources names mappings name) input fileName sourceName) input
        joins =
      (Parts.repaired mappings input joins fileName sourceName).front ++
        [(Utf16.ofString "sourcesContent",
          (input.get? (Utf16.ofString "sourcesContent")).getD (.array []))] := by
  rw [inherit_encoded]
  unfold Parts.repaired withMappings Parts.chosenMappings
  cases joins with
  | zero => cases mappings? input <;> rfl
  | succ joins => rfl

/-- The repaired map has these parts, always in the same order. -/
theorem repair_encoded (sources names : List String) (mappings : Text) (input : Json.Members)
    (joins : Nat) (name fileName sourceName : String) :
    repair (encoded sources names mappings name) input joins fileName sourceName =
      (Parts.repaired mappings input joins fileName sourceName).members := by
  have hcontents : (Parts.repaired mappings input joins fileName sourceName).sourcesContent =
      (input.get? (Utf16.ofString "sourcesContent")).filter Json.isTruthy := rfl
  have hversion : ∀ (p : Parts) rest, withVersion (p.front ++ rest) = p.front ++ rest :=
    fun _ _ => rfl
  rw [repair_eq, withMappings_inherit, withContents_concat (Parts.sourcesContent_notMem_front _),
    Parts.members, hcontents]
  cases input.get? (Utf16.ofString "sourcesContent") with
  | none => exact hversion _ []
  | some contents =>
    rw [Option.getD_some, Option.filter_some]
    cases contents.isTruthy with
    | true => exact hversion _ _
    | false => exact hversion _ []

/-! ### Repairing again -/

theorem get?_of_mappings? {value : Json} (h : mappings? input = some value) :
    input.get? (Utf16.ofString "mappings") = some value := by
  rw [mappings?] at h
  split at h
  case h_1 | h_2 => cases h
  case h_3 found _ hget =>
    cases h
    exact hget

theorem chosenMappings_ne_null (mappings : Text) (input : Json.Members) (joins : Nat) :
    Parts.chosenMappings mappings input joins ≠ .null := by
  unfold Parts.chosenMappings
  split
  case h_1 value hvalue =>
    rintro rfl
    rw [mappings?, get?_of_mappings? hvalue] at hvalue
    cases hvalue
  case h_2 => exact nofun

theorem mappings?_members {p : Parts} (h : p.mappings ≠ .null) :
    mappings? p.members = some p.mappings := by
  have hget : p.members.get? (Utf16.ofString "mappings") = some p.mappings := rfl
  rw [mappings?, hget]
  split
  case h_1 heq => exact absurd (Option.some.inj heq) h
  case h_2 heq => cases heq
  case h_3 heq => exact heq.symm

theorem get?_sourcesContent (p : Parts) :
    p.members.get? (Utf16.ofString "sourcesContent") = p.sourcesContent := by
  rw [Parts.members]
  cases p.sourcesContent <;> rfl

theorem chosenMappings_of_mappings? {value : Json} (h : mappings? input = some value)
    (mappings : Text) : Parts.chosenMappings mappings input 0 = value := by
  unfold Parts.chosenMappings
  rw [h]
  rfl

/-- The parts of a repaired map, from the same script again. -/
theorem repaired_members {p : Parts} (hmappings : p.mappings ≠ .null)
    (hcontents : p.sourcesContent.filter Json.isTruthy = p.sourcesContent)
    (mappings : Text) (fileName sourceName : String) :
    Parts.repaired mappings p.members 0 fileName sourceName = p := by
  have hchosen := chosenMappings_of_mappings? (mappings?_members hmappings) mappings
  have hkept := get?_sourcesContent p
  unfold Parts.repaired
  rw [hchosen, hkept, hcontents]
  rfl

/-- A repaired map is what it is repaired to again where nothing more is joined. -/
theorem repair_repair {sources' names' : List String} {mappings' : Text} (input : Json.Members)
    (joins : Nat) (name name' fileName fileName' sourceName sourceName' : String) :
    repair (encoded sources' names' mappings' name')
        (repair (encoded sources names mappings name) input joins fileName sourceName) 0
        fileName' sourceName' =
      repair (encoded sources names mappings name) input joins fileName sourceName := by
  have hcontents : ∀ contents : Option Json,
      (contents.filter Json.isTruthy).filter Json.isTruthy = contents.filter Json.isTruthy := by
    intro contents
    rw [Option.filter_filter]
    simp only [Bool.and_self]
  rw [repair_encoded, repair_encoded,
    repaired_members (chosenMappings_ne_null mappings input joins) (hcontents _)]

/-! ### What a repair keeps -/

section

variable {levels : Option Nat} {map fresh : Json.Members} {key : Utf16} {value : Json}

/-- What can be read a level further down. -/
abbrev Below (levels : Option Nat) (value : Json) : Prop := Readable (levels.map (· - 1)) value

theorem readable_set (h : Readable levels (.object map)) (key : Utf16)
    (hvalue : Below levels value) : Readable levels (.object (map.set key value)) := by
  refine .object h.ne_zero (Json.Members.nodup_keys_set h.nodup_keys key value) ?_
  intro member hmember
  rcases Json.Members.mem_set hmember with hmember | heq
  · exact h.member hmember
  · exact heq ▸ hvalue

theorem readable_erase (h : Readable levels (.object map)) (key : Utf16) :
    Readable levels (.object (map.erase key)) :=
  .object h.ne_zero (h.nodup_keys.sublist (List.filter_sublist.map _)) fun _ hmember =>
    h.member (List.mem_of_mem_filter hmember)

theorem readable_getD (h : Readable levels (.object input)) (key : Utf16)
    (hvalue : Below levels value) : Below levels ((input.get? key).getD value) := by
  cases hget : input.get? key with
  | none => exact hvalue
  | some found => exact h.get? hget

theorem readable_strings (hlevels : ∀ n ∈ levels, 2 ≤ n) (texts : List String) :
    Below levels (.array (texts.map .ofString)) := by
  refine .array (fun hzero => ?_) fun item hitem => ?_
  · obtain ⟨n, hn, hpred⟩ := Option.map_eq_some_iff.mp hzero
    have := hlevels n hn
    omega
  · obtain ⟨text, -, rfl⟩ := List.mem_map.mp hitem
    exact .string _

/-- A map as encoders make it can be read wherever arrays in an object can. -/
theorem readable_encoded (hlevels : ∀ n ∈ levels, 2 ≤ n) (sources names : List String)
    (mappings : Text) (name : String) :
    Readable levels (.object (encoded sources names mappings name)) := by
  have hzero : levels ≠ some 0 := by
    rintro rfl
    exact absurd (hlevels 0 rfl) (by decide)
  have hkeyed : Readable none (.object (encoded sources names mappings name)) :=
    ⟨keyed_encoded .., Json.fitsIn_none _⟩
  refine .object hzero hkeyed.nodup_keys fun member hmember => ?_
  simp only [encoded, List.mem_cons, List.not_mem_nil, or_false] at hmember
  rcases hmember with rfl | rfl | rfl | rfl | rfl
  exacts [.number _, readable_strings hlevels sources, readable_strings hlevels names, .string _,
    .string _]

/-- The values that stand in for what an input map does not say. -/
theorem readable_inherited {fileName sourceName : String} (hlevels : ∀ n ∈ levels, 2 ≤ n)
    {member : Utf16 × Json} (h : member ∈ inherited fileName sourceName) :
    Below levels member.2 := by
  simp only [inherited, List.mem_cons, List.not_mem_nil, or_false] at h
  rcases h with rfl | rfl | rfl | rfl | rfl
  exacts [.string _, readable_strings hlevels [""], .string _,
    readable_strings hlevels [sourceName], readable_strings hlevels []]

theorem readable_inherit (hfresh : Readable levels (.object fresh))
    (hinput : Readable levels (.object input)) (hlevels : ∀ n ∈ levels, 2 ≤ n)
    (fileName sourceName : String) :
    Readable levels (.object (inherit fresh input fileName sourceName)) := by
  have hfold : ∀ (pairs map : Json.Members), (∀ pair ∈ pairs, Below levels pair.2) →
      Readable levels (.object map) → Readable levels (.object (pairs.foldl
        (fun (m : Json.Members) pair => m.set pair.1 ((input.get? pair.1).getD pair.2)) map)) := by
    intro pairs
    induction pairs with
    | nil => exact fun _ _ h => h
    | cons pair pairs ih =>
      intro map hpairs hmap
      rw [List.forall_mem_cons] at hpairs
      exact ih _ hpairs.2 (readable_set hmap _ (readable_getD hinput _ hpairs.1))
  exact hfold _ fresh (fun _ => readable_inherited hlevels) hfresh

theorem readable_withMappings (h : Readable levels (.object map))
    (hinput : Readable levels (.object input)) (joins : Nat) :
    Readable levels (.object (withMappings map input joins)) := by
  unfold withMappings
  split
  case h_1 hmappings => exact readable_set h _ (hinput.get? (get?_of_mappings? hmappings))
  case h_2 => exact h

theorem readable_withContents (h : Readable levels (.object map)) :
    Readable levels (.object (withContents map)) := by
  rw [withContents]
  split
  · exact h
  · exact readable_erase h _

theorem readable_withVersion (h : Readable levels (.object map)) :
    Readable levels (.object (withVersion map)) := by
  rw [withVersion]
  split
  · exact h
  · exact readable_set h _ (.number _)

/-- What is repaired can be read if both maps can. -/
theorem readable_repair (hfresh : Readable levels (.object fresh))
    (hinput : Readable levels (.object input)) (hlevels : ∀ n ∈ levels, 2 ≤ n) (joins : Nat)
    (fileName sourceName : String) :
    Readable levels (.object (repair fresh input joins fileName sourceName)) := by
  rw [repair_eq]
  exact readable_withVersion (readable_withContents (readable_withMappings
    (readable_inherit hfresh hinput hlevels fileName sourceName) hinput joins))

end

end NamespaceMerge.SourceMap
