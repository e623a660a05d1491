import Mathlib.Data.List.Induction
import NamespaceMerge.Proofs.SourceMap.Repair

/-! What a repaired map says under each key, and scripts that are merged again and again, each time
with the map of the time before as the input map. The first repair settles the metadata, and the
last one that joined blocks settles the mappings (`chained_repairAll`). -/

namespace NamespaceMerge.SourceMap

/-! ### The values of a repaired map -/

def mappingsKey : Utf16 := Utf16.ofString "mappings"

def contentsKey : Utf16 := Utf16.ofString "sourcesContent"

def versionKey : Utf16 := Utf16.ofString "version"

/-- The keys of the metadata that every repaired map has. -/
def metadataKeys : List Utf16 := ["file", "names", "sourceRoot", "sources"].map Utf16.ofString

/-- The metadata of a map that says nothing itself. -/
def placeholders (fileName sourceName : String) : Json.Members :=
  [(Utf16.ofString "file", .ofString fileName),
    (Utf16.ofString "names", .array [.ofString ""]),
    (Utf16.ofString "sourceRoot", .ofString ""),
    (Utf16.ofString "sources", .array [.ofString sourceName])]

theorem keys_placeholders (fileName sourceName : String) :
    (placeholders fileName sourceName).keys = metadataKeys :=
  rfl

theorem mem_metadataKeys {fileName sourceName : String} {member : Utf16 × Json}
    (h : member ∈ placeholders fileName sourceName) : member.1 ∈ metadataKeys := by
  rw [← keys_placeholders fileName sourceName]
  exact List.mem_map_of_mem h

theorem inherited_eq (fileName sourceName : String) :
    inherited fileName sourceName =
      placeholders fileName sourceName ++ [(contentsKey, .array [])] :=
  rfl

theorem keys_inherited (fileName sourceName : String) :
    (inherited fileName sourceName).keys = metadataKeys ++ [contentsKey] :=
  rfl

theorem inherit_eq (fresh input : Json.Members) (fileName sourceName : String) :
    inherit fresh input fileName sourceName =
      (inherited fileName sourceName).foldl
        (fun map pair => map.set pair.1 ((input.get? pair.1).getD pair.2)) fresh :=
  rfl

variable {fresh input map : Json.Members} {joins : Nat} {fileName sourceName : String} {key : Utf16}

theorem get?_inherit {member : Utf16 × Json} (h : member ∈ inherited fileName sourceName) :
    (inherit fresh input fileName sourceName).get? member.1 =
      some ((input.get? member.1).getD member.2) := by
  have hnodup : (inherited fileName sourceName).keys.Nodup := by
    rw [keys_inherited]
    decide
  rw [inherit_eq]
  exact Json.Members.get?_foldl_set_of_mem hnodup h
    (fun pair => (input.get? pair.1).getD pair.2) fresh

theorem get?_inherit_of_notMem (h : key ∉ metadataKeys ++ [contentsKey]) :
    (inherit fresh input fileName sourceName).get? key = fresh.get? key := by
  rw [← keys_inherited fileName sourceName] at h
  rw [inherit_eq]
  exact Json.Members.get?_foldl_set_of_notMem h (fun pair => (input.get? pair.1).getD pair.2) fresh

theorem get?_withMappings_of_ne (h : key ≠ mappingsKey) :
    (withMappings map input joins).get? key = map.get? key := by
  unfold withMappings
  split
  · exact Json.Members.get?_set_of_ne _ _ h
  · rfl

theorem get?_withMappings (map input : Json.Members) (joins : Nat) :
    (withMappings map input joins).get? mappingsKey =
      if joins = 0 then (mappings? input).or (map.get? mappingsKey) else map.get? mappingsKey := by
  unfold withMappings
  split
  case h_1 mappings hmappings =>
    rw [if_pos rfl, hmappings, Option.some_or]
    exact Json.Members.get?_set_self map mappingsKey mappings
  case h_2 hother =>
    split
    case isTrue hjoins =>
      cases hmappings : mappings? input with
      | none => rw [Option.none_or]
      | some mappings => exact (hother mappings hjoins hmappings).elim
    case isFalse => rfl

theorem get?_withContents_of_ne (h : key ≠ contentsKey) :
    (withContents map).get? key = map.get? key := by
  unfold withContents
  split
  · rfl
  · exact Json.Members.get?_erase_of_ne h map

theorem get?_withContents (map : Json.Members) :
    (withContents map).get? contentsKey = (map.get? contentsKey).filter Json.isTruthy := by
  have hcontents : withContents map =
      if (map.get? contentsKey).any Json.isTruthy then map else map.erase contentsKey := rfl
  rw [hcontents]
  cases hget : map.get? contentsKey with
  | none => exact Json.Members.get?_erase_self map contentsKey
  | some contents =>
    rw [Option.any_some, Option.filter_some]
    split
    · exact hget
    · exact Json.Members.get?_erase_self map contentsKey

theorem get?_withVersion (map : Json.Members) (key : Utf16) :
    (withVersion map).get? key =
      (map.get? key).or (if key = versionKey then some (.ofNat 3) else none) := by
  unfold withVersion
  by_cases hkey : key = versionKey
  · subst hkey
    rw [if_pos rfl]
    split
    case h_1 hget => rw [versionKey, hget, Option.some_or]
    case h_2 hget =>
      rw [versionKey, hget, Option.none_or]
      exact Json.Members.get?_set_self map _ _
  · rw [if_neg hkey, Option.or_none]
    split
    · rfl
    · exact Json.Members.get?_set_of_ne _ _ hkey

theorem get?_repair_of_ne (hversion : key ≠ versionKey) (hcontents : key ≠ contentsKey)
    (hmappings : key ≠ mappingsKey) :
    (repair fresh input joins fileName sourceName).get? key =
      (inherit fresh input fileName sourceName).get? key := by
  rw [repair_eq, get?_withVersion, if_neg hversion, Option.or_none,
    get?_withContents_of_ne hcontents, get?_withMappings_of_ne hmappings]

/-- Metadata are those of the input map, where it has them. -/
theorem get?_repair_metadata {member : Utf16 × Json}
    (h : member ∈ placeholders fileName sourceName) :
    (repair fresh input joins fileName sourceName).get? member.1 =
      some ((input.get? member.1).getD member.2) := by
  have hkey := mem_metadataKeys h
  rw [get?_repair_of_ne (ne_of_mem_of_not_mem hkey (by decide))
    (ne_of_mem_of_not_mem hkey (by decide)) (ne_of_mem_of_not_mem hkey (by decide))]
  exact get?_inherit (inherited_eq fileName sourceName ▸ List.mem_append_left _ h)

theorem get?_repair_of_metadata {value : Json} (hkey : key ∈ metadataKeys)
    (h : input.get? key = some value) :
    (repair fresh input joins fileName sourceName).get? key = some value := by
  rw [← keys_placeholders fileName sourceName] at hkey
  obtain ⟨member, hmember, rfl⟩ := List.mem_map.mp hkey
  rw [get?_repair_metadata hmember, h, Option.getD_some]

/-- The contents of the sources are those of the input map, if they count as present. -/
theorem get?_repair_contents :
    (repair fresh input joins fileName sourceName).get? contentsKey =
      (input.get? contentsKey).filter Json.isTruthy := by
  have hmember : (contentsKey, Json.array []) ∈ inherited fileName sourceName := by
    rw [inherited_eq]
    exact List.mem_append_right _ (List.mem_singleton_self _)
  rw [repair_eq, get?_withVersion, if_neg (by decide), Option.or_none, get?_withContents,
    get?_withMappings_of_ne (by decide), get?_inherit hmember]
  cases input.get? contentsKey <;> rfl

/-- The mappings are those of the fresh map, unless nothing was joined and the input map has
some. -/
theorem get?_repair_mappings :
    (repair fresh input joins fileName sourceName).get? mappingsKey =
      if joins = 0 then (mappings? input).or (fresh.get? mappingsKey)
      else fresh.get? mappingsKey := by
  rw [repair_eq, get?_withVersion, if_neg (by decide), Option.or_none,
    get?_withContents_of_ne (by decide), get?_withMappings, get?_inherit_of_notMem (by decide)]

/-- What else the fresh map says is kept, and it gets a version. -/
theorem get?_repair_fresh (h : key ∉ metadataKeys ++ [contentsKey, mappingsKey]) :
    (repair fresh input joins fileName sourceName).get? key =
      (fresh.get? key).or (if key = versionKey then some (.ofNat 3) else none) := by
  simp only [List.mem_append, List.mem_cons, List.not_mem_nil, or_false, not_or] at h
  obtain ⟨hmetadata, hcontents, hmappings⟩ := h
  rw [repair_eq, get?_withVersion, get?_withContents_of_ne hcontents,
    get?_withMappings_of_ne hmappings,
    get?_inherit_of_notMem (by simp [hmetadata, hcontents])]

/-! ### One repair after the other -/

/-- A fresh map that is to be repaired. -/
structure Repair where
  fresh : Json.Members
  joins : Nat
  fileName : String
  sourceName : String

namespace Repair

def apply (r : Repair) (input : Json.Members) : Json.Members :=
  repair r.fresh input r.joins r.fileName r.sourceName

end Repair

/-- The last of the repaired maps, each with the one before it as the input map. -/
def repairAll (input : Json.Members) (repairs : List Repair) : Json.Members :=
  repairs.foldl (fun map r => r.apply map) input

theorem repairAll_concat (input : Json.Members) (repairs : List Repair) (r : Repair) :
    repairAll input (repairs ++ [r]) = r.apply (repairAll input repairs) :=
  List.foldl_concat _ _ _ _

/-- What a chain of repairs makes of an input map. -/
structure Chained (input : Json.Members) (first : Repair) (rest : List Repair) : Prop where
  /-- The metadata stay as the first repair leaves them: those of the input map, or placeholders. -/
  metadata : ∀ member ∈ placeholders first.fileName first.sourceName,
    (repairAll input (first :: rest)).get? member.1 = (first.apply input).get? member.1 ∧
      (first.apply input).get? member.1 = some ((input.get? member.1).getD member.2)
  contents : (repairAll input (first :: rest)).get? contentsKey =
    (input.get? contentsKey).filter Json.isTruthy
  /-- The mappings are those of the last repair that joined blocks. -/
  joined : ∀ before r after, first :: rest = before ++ r :: after → r.joins ≠ 0 →
    (∀ later ∈ after, later.joins = 0) →
    (repairAll input (first :: rest)).get? mappingsKey = r.fresh.get? mappingsKey
  /-- Where none joined any, they are those of the input map or, without these, the first ones. -/
  unjoined : (∀ r ∈ first :: rest, r.joins = 0) →
    (repairAll input (first :: rest)).get? mappingsKey =
      (mappings? input).or (first.fresh.get? mappingsKey)
  /-- All else comes from the last fresh map, and a version that it lacks is added. -/
  others : ∀ key, key ∉ metadataKeys ++ [contentsKey, mappingsKey] →
    (repairAll input (first :: rest)).get? key =
      (((first :: rest).getLast (List.cons_ne_nil _ _)).fresh.get? key).or
        (if key = versionKey then some (.ofNat 3) else none)

theorem mappings?_congr {a b : Json.Members} (h : a.get? mappingsKey = b.get? mappingsKey) :
    mappings? a = mappings? b := by
  have hkey : Utf16.ofString "mappings" = mappingsKey := rfl
  rw [mappings?, mappings?, hkey, h]

/-- Where nothing is joined, a repair keeps the mappings of its input map, wherever they are
from. -/
theorem Repair.get?_apply {r : Repair} {source : Json.Members} (hjoins : r.joins = 0)
    (hsource : mappings? source ≠ none)
    (hinput : input.get? mappingsKey = source.get? mappingsKey) :
    (r.apply input).get? mappingsKey = source.get? mappingsKey := by
  obtain ⟨mappings, hmappings⟩ := Option.ne_none_iff_exists'.mp hsource
  have hget : source.get? mappingsKey = some mappings := get?_of_mappings? hmappings
  rw [apply, get?_repair_mappings, if_pos hjoins, mappings?_congr hinput, hmappings, hget,
    Option.some_or]

theorem chained_single (input : Json.Members) (first : Repair) : Chained input first [] where
  metadata := fun member h => ⟨rfl, get?_repair_metadata h⟩
  contents := get?_repair_contents
  joined := by
    intro before r after hsplit hjoins _
    have hr : r ∈ [first] := hsplit ▸ List.mem_append_right _ List.mem_cons_self
    rw [List.mem_singleton.mp hr] at hjoins ⊢
    exact get?_repair_mappings.trans (if_neg hjoins)
  unjoined := fun h => get?_repair_mappings.trans (if_pos (h first List.mem_cons_self))
  others := fun key h => get?_repair_fresh h

/-- One more repair. -/
theorem Chained.concat {first : Repair} {rest : List Repair} (h : Chained input first rest)
    (hmappings : ∀ s ∈ first :: rest, mappings? s.fresh ≠ none) (r : Repair) :
    Chained input first (rest ++ [r]) := by
  have happly : repairAll input (first :: (rest ++ [r])) =
      r.apply (repairAll input (first :: rest)) := repairAll_concat input (first :: rest) r
  refine ⟨fun member hmember => ?metadata, ?contents, ?joined, fun hjoins => ?unjoined,
    fun key hkey => ?others⟩
  case metadata =>
    obtain ⟨hkept, hfirst⟩ := h.metadata member hmember
    refine ⟨?_, hfirst⟩
    rw [happly, hfirst]
    exact get?_repair_of_metadata (mem_metadataKeys hmember) (hkept.trans hfirst)
  case contents =>
    rw [happly, Repair.apply, get?_repair_contents, h.contents, Option.filter_filter]
    simp only [Bool.and_self]
  case joined =>
    intro before s after hsplit hjoins hlater
    rw [← List.cons_append] at hsplit
    rcases List.eq_nil_or_concat after with rfl | ⟨after, last, rfl⟩
    · obtain ⟨-, hlast⟩ := List.append_inj' hsplit rfl
      cases hlast
      rw [happly]
      exact get?_repair_mappings.trans (if_neg hjoins)
    · rw [List.concat_eq_append, ← List.cons_append, ← List.append_assoc] at hsplit
      obtain ⟨hfront, hlast⟩ := List.append_inj' hsplit rfl
      cases hlast
      have hs : s ∈ first :: rest := hfront ▸ List.mem_append_right _ List.mem_cons_self
      have hkept := h.joined before s after hfront hjoins fun later hmem =>
        hlater later (by simp [hmem])
      rw [happly]
      exact Repair.get?_apply (hlater r (by simp)) (hmappings s hs) hkept
  case unjoined =>
    have hr : r.joins = 0 := hjoins r (by simp)
    have hkept := h.unjoined fun s hs =>
      hjoins s (List.cons_append ▸ List.mem_append_left [r] hs)
    rw [happly]
    cases hinput : mappings? input with
    | none =>
      rw [hinput, Option.none_or] at hkept
      exact Repair.get?_apply hr (hmappings first List.mem_cons_self) hkept
    | some mappings =>
      have hget : input.get? mappingsKey = some mappings := get?_of_mappings? hinput
      rw [hinput, Option.some_or, ← hget] at hkept
      rw [Option.some_or, ← hget]
      exact Repair.get?_apply hr (by rw [hinput]; exact nofun) hkept
  case others =>
    have hlast : (first :: (rest ++ [r])).getLast (List.cons_ne_nil _ _) = r := by
      rw [List.getLast_cons (by simp), List.getLast_concat]
    rw [happly, hlast]
    exact get?_repair_fresh hkey

/-- However often a script is merged, if every fresh map has mappings: the first repair settles the
metadata, the last one that joined blocks the mappings, and the last of all the rest. -/
theorem chained_repairAll (input : Json.Members) (first : Repair) (rest : List Repair)
    (h : ∀ r ∈ first :: rest, mappings? r.fresh ≠ none) : Chained input first rest := by
  induction rest using List.reverseRecOn with
  | nil => exact chained_single input first
  | append_singleton rest r ih =>
    have hfront : ∀ s ∈ first :: rest, mappings? s.fresh ≠ none := fun s hs =>
      h s (List.cons_append ▸ List.mem_append_left [r] hs)
    exact (ih hfront).concat hfront r

/-- An input map whose mappings and names are null, with no contents of its sources. -/
def barren : Json.Members :=
  [(mappingsKey, .null), (Utf16.ofString "names", .null), (contentsKey, .array [])]

/-- A repair of a fresh map that says nothing but its mappings. -/
def repairOf (mappings : String) (joins : Nat) : Repair where
  fresh := [(mappingsKey, .ofString mappings)]
  joins := joins
  fileName := "a.js"
  sourceName := "a.ts"

theorem chained_repairAll_barren :
    let first := repairOf "AAAA" 0
    let rest := [repairOf "CAAC" 2, repairOf "EAAE" 0]
    (∀ r ∈ first :: rest, mappings? r.fresh ≠ none) ∧ Chained barren first rest ∧
      (repairAll barren (first :: rest)).get? mappingsKey = some (.ofString "CAAC") ∧
      (repairAll barren (first :: rest)).get? (Utf16.ofString "names") = some .null := by
  intro first rest
  have hmappings : ∀ r ∈ first :: rest, mappings? r.fresh ≠ none := by
    rw [List.forall_mem_cons, List.forall_mem_cons, List.forall_mem_singleton]
    exact ⟨nofun, nofun, nofun⟩
  have hchained := chained_repairAll barren first rest hmappings
  obtain ⟨hkept, hfirst⟩ := hchained.metadata (Utf16.ofString "names", .array [.ofString ""])
    (List.mem_cons_of_mem _ List.mem_cons_self)
  exact ⟨hmappings, hchained, hchained.joined [first] (repairOf "CAAC" 2) [repairOf "EAAE" 0] rfl
    (by decide) (by decide), hkept.trans hfirst⟩

end NamespaceMerge.SourceMap
