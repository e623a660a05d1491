import NamespaceMerge.Proofs.Json.RoundTrip
import NamespaceMerge.Proofs.SourceMap.Reference
import NamespaceMerge.Proofs.Text.Base64
import NamespaceMerge.Proofs.Text.Utf8
import NamespaceMerge.SourceMap.Repair

/-! Maps that are recovered from a reference. What is written into a data URI has no blank and
nothing outside ASCII, so the data URI gives back the map that it was made from
(`readDataUri_writeDataUri`), and so does a reference line that holds it, behind any text
(`ofText_referenceLine_inline`), for every reader that goes down as far as the map is nested. Every
map that is recovered, from wherever, has distinct keys (`keyed_of_load`). -/

namespace NamespaceMerge.SourceMap

open Json (Keyed Readable)

variable {levels : Option Nat} {map : Json.Members}

/-- Reading a map undoes writing it. -/
theorem readMap_write (h : Readable levels (.object map)) :
    readMap (Json.object map).write levels = .ok map := by
  have hread : Json.read (Json.object map).write levels = .ok (.object map) :=
    Json.read_writeAt_within ⟨.ascii, none⟩ h
  rw [readMap, hread]

/-! ### The payload of a data URI -/

theorem payload?_inlineStart {payload : Text} (h : '\n' ∉ payload) :
    payload? (inlineStart ++ payload) = some payload := by
  have htype : Text.dropCaseless? "data:application/json".toList (inlineStart ++ payload) =
      some (";charset=utf-8;base64,".toList ++ payload) := rfl
  have hcharset : dropCharset (";charset=utf-8;base64,".toList ++ payload) =
      ";base64,".toList ++ payload := rfl
  have hbase : Text.dropCaseless? ";base64,".toList (";base64,".toList ++ payload) =
      some payload := rfl
  have hall : ∀ c ∈ payload, decide (c ≠ '\n') = true := by
    intro c hc
    rw [decide_eq_true_eq]
    rintro rfl
    exact h hc
  have hspan : payload.span (· ≠ '\n') = (payload, []) := by
    rw [List.span_eq_takeWhile_dropWhile, List.takeWhile_eq_self_iff.mpr hall,
      List.dropWhile_eq_nil_iff.mpr hall]
  simp only [payload?, htype, hcharset, hbase, hspan, Option.bind_eq_bind, Option.bind_some,
    true_or, if_true]

/-- What is written into a data URI is printable ASCII without a space. -/
theorem graphic_of_mem_writeDataUri {c : Char} (h : c ∈ writeDataUri map) :
    0x21 ≤ c.toNat ∧ c.toNat < 0x7f := by
  have hstart : inlineStart.all (fun c => 0x21 ≤ c.toNat && c.toNat < 0x7f) = true := rfl
  rcases List.mem_append.mp h with h | h
  · simpa using List.all_eq_true.mp hstart c h
  · exact Base64.graphic_of_mem_encode h

theorem isBlank_eq_false_of_graphic {c : Char} (h : 0x21 ≤ c.toNat ∧ c.toNat < 0x7f) :
    isBlank c = false := by
  simp [isBlank]
  omega

theorem isValue_writeDataUri (map : Json.Members) : IsValue (writeDataUri map) where
  ne_nil := List.cons_ne_nil _ _
  noBlank _ hc := isBlank_eq_false_of_graphic (graphic_of_mem_writeDataUri hc)

/-- A data URI gives back the map that was written into it. -/
theorem readDataUri_writeDataUri (h : Readable levels (.object map)) :
    readDataUri (writeDataUri map) levels = .ok map := by
  have hgraphic : ∀ c ∈ Base64.encode (Utf8.encode (Json.object map).write),
      0x21 ≤ c.toNat ∧ c.toNat < 0x7f := fun c => Base64.graphic_of_mem_encode
  have hnewline : '\n' ∉ Base64.encode (Utf8.encode (Json.object map).write) := fun hmem =>
    absurd (hgraphic _ hmem).1 (by decide)
  have hascii : (Base64.encode (Utf8.encode (Json.object map).write)).any (0x80 ≤ ·.toNat) =
      false := by
    rw [List.any_eq_false]
    intro c hc
    rw [decide_eq_true_eq]
    have := hgraphic c hc
    omega
  rw [readDataUri, writeDataUri, payload?_inlineStart hnewline]
  simp only [hascii, Bool.false_eq_true, if_false, Base64.decode_encode]
  change ((Utf8.decode (Utf8.encode (Json.object map).write)).mapError .encoding >>=
    fun document => readMap document levels) = _
  rw [Utf8.decode_encode]
  exact readMap_write h

/-! ### Reference lines that hold a map -/

namespace Reference

/-- The reference that a value is: a data URI is read at once. -/
def ofValue (value : Text) : Reference :=
  if isData value then ofData value (readDataUri value) else url value

/-- The reference that a value is for a reader that goes down to `levels` levels. -/
def ofValueWithin (levels : Option Nat) (value : Text) : Except MapFault Reference :=
  if isData value then (caught (readDataUri value levels)).map (ofData value) else .ok (url value)

end Reference

theorem ofText_eq (text : Text) :
    Reference.ofText text =
      match findReference text with
      | none => .absent
      | some value => .ofValue value :=
  rfl

theorem ofTextWithin_eq (levels : Option Nat) (text : Text) :
    Reference.ofTextWithin levels text =
      match findReference text with
      | none => .ok .absent
      | some value => Reference.ofValueWithin levels value :=
  rfl

section

variable {text value : Text} (htext : text = [] ∨ text.getLast? = some '\n')

include htext

theorem ofText_append (h : IsValue value) :
    Reference.ofText (text ++ (lineFor value ++ ['\n'])) = .ofValue value := by
  rw [ofText_eq, findReference_append htext h]

theorem ofTextWithin_append (levels : Option Nat) (h : IsValue value) :
    Reference.ofTextWithin levels (text ++ (lineFor value ++ ['\n'])) =
      Reference.ofValueWithin levels value := by
  rw [ofTextWithin_eq, findReference_append htext h]

end

theorem isData_writeDataUri (map : Json.Members) : Reference.isData (writeDataUri map) = true := rfl

theorem ofValue_writeDataUri (h : Keyed (.object map)) :
    Reference.ofValue (writeDataUri map) = .inline (writeDataUri map) map := by
  rw [Reference.ofValue, if_pos (isData_writeDataUri map),
    readDataUri_writeDataUri ⟨h, Json.fitsIn_none _⟩, Reference.ofData]

theorem ofValueWithin_writeDataUri (h : Readable levels (.object map)) :
    Reference.ofValueWithin levels (writeDataUri map) = .ok (.inline (writeDataUri map) map) := by
  rw [Reference.ofValueWithin, if_pos (isData_writeDataUri map), readDataUri_writeDataUri h]
  rfl

/-- A reference line that holds a map is read back as this map, behind any text that ends a line. -/
theorem ofText_referenceLine_inline (h : Keyed (.object map)) (mapName : Text) {text : Text}
    (htext : text = [] ∨ text.getLast? = some '\n') :
    Reference.ofText (text ++ referenceLine .inline map mapName) =
      .inline (writeDataUri map) map :=
  (ofText_append htext (isValue_writeDataUri map)).trans (ofValue_writeDataUri h)

/-- A map with an object within an array, an escape and a character of two units. -/
def nestedMap : Json.Members :=
  [(Utf16.ofString "version", .ofNat 3),
    (Utf16.ofString "a\n😀", .array [.null, .object [(Utf16.ofString "b", .bool true)]])]

theorem keyed_nestedMap : Keyed (.object nestedMap) := by
  refine .object (by decide) fun member hmember => ?_
  simp only [nestedMap, List.mem_cons, List.not_mem_nil, or_false] at hmember
  rcases hmember with rfl | rfl
  · exact .number _
  · refine .array fun item hitem => ?_
    simp only [List.mem_cons, List.not_mem_nil, or_false] at hitem
    rcases hitem with rfl | rfl
    · exact .null
    · refine .object (List.nodup_singleton _) fun member hmember => ?_
      rw [List.mem_singleton.mp hmember]
      exact .bool true

/-- The last reference counts, not the one that the text had before. -/
theorem ofText_referenceLine_inline_second :
    Keyed (.object nestedMap) ∧ "//# sourceMappingURL=old.map\n".toList.getLast? = some '\n' ∧
      Reference.ofText ("//# sourceMappingURL=old.map\n".toList ++
        referenceLine .inline nestedMap "new.js.map".toList) =
          .inline (writeDataUri nestedMap) nestedMap :=
  ⟨keyed_nestedMap, rfl, ofText_referenceLine_inline keyed_nestedMap _ (.inr rfl)⟩

/-! ### Maps from anywhere -/

theorem readable_of_readMap {document : Text} (h : readMap document levels = .ok map) :
    Readable levels (.object map) := by
  rw [readMap] at h
  split at h
  case h_1 | h_3 => cases h
  case h_2 hread =>
    cases h
    exact Json.readable_of_read hread

theorem readable_of_readDataUri {uri : Text} (h : readDataUri uri levels = .ok map) :
    Readable levels (.object map) := by
  rw [readDataUri] at h
  split at h
  · cases h
  · split at h
    · cases h
    · obtain ⟨bytes, -, h⟩ := bind_eq_ok_iff.mp h
      obtain ⟨document, -, h⟩ := bind_eq_ok_iff.mp h
      exact readable_of_readMap h

theorem eq_ok_of_ofData {uri value : Text} {read : Except MapFault Json.Members}
    (h : Reference.ofData uri read = .inline value map) : read = .ok map := by
  cases read with
  | error fault => cases h
  | ok found =>
    cases h
    rfl

/-- The maps that references hold themselves. -/
theorem keyed_of_ofText {text value : Text} (h : Reference.ofText text = .inline value map) :
    Keyed (.object map) := by
  rw [ofText_eq] at h
  split at h
  · cases h
  · rw [Reference.ofValue] at h
    split at h
    · exact (readable_of_readDataUri (eq_ok_of_ofData h)).keyed
    · cases h

theorem eq_of_caught_eq_ok {α : Type} {outcome read : Except MapFault α}
    (h : caught outcome = .ok read) : outcome = read := by
  cases outcome with
  | ok a =>
    cases h
    rfl
  | error fault =>
    rw [caught] at h
    split at h
    · cases h
    · cases h
      rfl

/-- A map that a reference holds itself is nested no deeper than the reader goes. -/
theorem readable_of_ofTextWithin {text value : Text}
    (h : Reference.ofTextWithin levels text = .ok (.inline value map)) :
    Readable levels (.object map) := by
  rw [ofTextWithin_eq] at h
  split at h
  · cases h
  · rw [Reference.ofValueWithin] at h
    split at h
    · obtain ⟨read, hread, hdata⟩ := map_eq_ok_iff.mp h
      obtain rfl := eq_ok_of_ofData hdata
      exact readable_of_readDataUri (eq_of_caught_eq_ok hread)
    · cases h

/-- A map that the reference of a text leads to, whatever the loader has, has distinct keys. -/
theorem keyed_of_load {text : Text} {loader : Option Loader}
    (h : (Reference.ofText text).load loader = .ok (some map)) : Keyed (.object map) := by
  cases href : Reference.ofText text with
  | absent | unreadable value =>
    rw [href, Reference.load.eq_def] at h
    cases h
  | inline value found =>
    rw [href, Reference.load.eq_def] at h
    cases h
    exact keyed_of_ofText href
  | url value =>
    rw [href, Reference.load.eq_def] at h
    simp only at h
    split at h
    · cases h
    · split at h
      · cases h
      · obtain ⟨found, hread, heq⟩ := map_eq_ok_iff.mp (mapError_eq_ok_iff.mp h)
        cases heq
        exact (readable_of_readMap hread).keyed
      · cases h

end NamespaceMerge.SourceMap
