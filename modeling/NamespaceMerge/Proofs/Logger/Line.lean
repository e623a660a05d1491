import NamespaceMerge.Logger.Record
import NamespaceMerge.Proofs.Json.OneLine
import NamespaceMerge.Proofs.Json.RoundTrip

/-! Records as JSON lines. A record is written on one line, and what is read from the line is the
record again: an object with a fixed set of fields (`Record.tells_jsonText`). -/

namespace NamespaceMerge.Record

open Json (Keyed)

/-- Whether the context is shown: it is an object, and not an empty one. -/
def hasContext (r : Record) : Bool :=
  match r.context with
  | .object members => !members.isEmpty
  | _ => false

/-- The names of the fields that every record has. -/
def fieldNames : List String := ["ts", "level", "module", "msg", "version"]

/-- The members of an object that says what a record says. -/
structure Tells (r : Record) (members : Json.Members) : Prop where
  keys : members.keys =
    (fieldNames ++ if r.hasContext then ["ctx"] else []).map Utf16.ofString
  created : members.get? (Utf16.ofString "ts") = some (.string (Utf16.ofText r.created.text))
  level : members.get? (Utf16.ofString "level") = some (.ofString r.level)
  logger : members.get? (Utf16.ofString "module") = some (.ofString r.logger)
  message : members.get? (Utf16.ofString "msg") = some (.string (Utf16.ofText r.message))
  version : members.get? (Utf16.ofString "version") = some (.ofString version)
  context : members.get? (Utf16.ofString "ctx") = if r.hasContext then some r.context else none

/-- The fields that every record has. -/
def fields (r : Record) : Json.Members :=
  [(Utf16.ofString "ts", .string (Utf16.ofText r.created.text)),
    (Utf16.ofString "level", .ofString r.level), (Utf16.ofString "module", .ofString r.logger),
    (Utf16.ofString "msg", .string (Utf16.ofText r.message)),
    (Utf16.ofString "version", .ofString Record.version)]

theorem toJson_eq (r : Record) : r.toJson =
    .object (r.fields ++ if r.hasContext then [(Utf16.ofString "ctx", r.context)] else []) := by
  rw [toJson, hasContext]
  cases r.context with
  | object members => cases members <;> rfl
  | _ => rfl

theorem tells_members (r : Record) :
    r.Tells (r.fields ++ if r.hasContext then [(Utf16.ofString "ctx", r.context)] else []) := by
  cases h : r.hasContext with
  | false => exact ⟨by rw [h]; rfl, rfl, rfl, rfl, rfl, rfl, by rw [h]; rfl⟩
  | true => exact ⟨by rw [h]; rfl, rfl, rfl, rfl, rfl, rfl, by rw [h]; rfl⟩

theorem keyed_toJson {r : Record} (h : Keyed r.context) : Keyed r.toJson := by
  rw [toJson_eq]
  refine .object ?_ ?_
  · rw [r.tells_members.keys]
    cases r.hasContext <;> decide
  · intro member hmember
    rcases List.mem_append.mp hmember with hmember | hmember
    · simp only [fields, List.mem_cons, List.not_mem_nil, or_false] at hmember
      rcases hmember with rfl | rfl | rfl | rfl | rfl <;> exact .string _
    · split at hmember
      · rw [List.mem_singleton.mp hmember]
        exact h
      · cases hmember

/-- A record on one line, whatever its message, logger and context hold: reading the line gives an
object that says what the record says. -/
theorem tells_jsonText {r : Record} (h : Keyed r.context) :
    '\n' ∉ r.jsonText ∧ '\r' ∉ r.jsonText ∧
      ∃ members, Json.read r.jsonText = .ok (.object members) ∧ r.Tells members := by
  have hcontrols := Json.noControls_writeUnicode r.toJson
  have hread : Json.read r.jsonText = .ok r.toJson := Json.read_writeAt _ (keyed_toJson h)
  refine ⟨fun hmem => absurd (hcontrols _ hmem) (by decide),
    fun hmem => absurd (hcontrols _ hmem) (by decide), _, ?_, r.tells_members⟩
  rw [hread, toJson_eq]

/-- A message of two lines with a quote and a character outside the basic plane, under a level of
its own. -/
def noticed : Record where
  logger := "tsmerge.\"io\""
  severity := 25
  level := "NOTICE\r"
  message := "a \"b\"\n\\ 😀".toList
  created := 1700000000123000
  context := .object [(Utf16.ofString "paths\n", .array [.ofString "\t", .null, .bool true]),
    (Utf16.ofString "more", .object [(Utf16.ofString "n", .ofNat 2)])]

theorem keyed_noticed : Keyed noticed.context := by
  refine .object (by decide) fun member hmember => ?_
  simp only [List.mem_cons, List.not_mem_nil, or_false] at hmember
  rcases hmember with rfl | rfl
  · refine .array fun item hitem => ?_
    simp only [List.mem_cons, List.not_mem_nil, or_false] at hitem
    rcases hitem with rfl | rfl | rfl
    · exact .string _
    · exact .null
    · exact .bool true
  · refine .object (List.nodup_singleton _) fun member hmember => ?_
    rw [List.mem_singleton.mp hmember]
    exact .number _

theorem tells_jsonText_noticed :
    Keyed noticed.context ∧ noticed.hasContext = true ∧ '\n' ∉ noticed.jsonText ∧
      '\r' ∉ noticed.jsonText ∧
      ∃ members, Json.read noticed.jsonText = .ok (.object members) ∧ noticed.Tells members :=
  ⟨keyed_noticed, rfl, tells_jsonText keyed_noticed⟩

end NamespaceMerge.Record
