import NamespaceMerge.Proofs.Json.Nesting
import NamespaceMerge.Proofs.SourceMap.Recovery

/-! Maps that are nested deeper than their reader goes. A reader with a limit recovers what a reader
without one recovers, exactly if its limit is not reached in the map of the script, wherever that
is (`recovers_iff`). -/

namespace NamespaceMerge.SourceMap

open Json (Stops)

variable {levels : Option Nat} {loader : Option Loader} {text : Text}

/-! ### Outcomes that are caught -/

/-- The outcome goes past those who expect a failure. -/
def Stopped {α : Type} (outcome : Except MapFault α) : Prop :=
  ∃ fault, outcome = .error fault ∧ fault.isNesting = true

theorem caught_of_stopped {α : Type} {outcome : Except MapFault α} (h : Stopped outcome) :
    ∃ fault, caught outcome = .error fault := by
  obtain ⟨fault, rfl, hnesting⟩ := h
  exact ⟨fault, by rw [caught, if_pos hnesting]⟩

theorem caught_of_not_stopped {α : Type} {outcome : Except MapFault α} (h : ¬ Stopped outcome) :
    caught outcome = .ok outcome := by
  cases outcome with
  | ok a => rfl
  | error fault =>
    rw [caught, if_neg]
    exact fun hnesting => h ⟨fault, rfl, hnesting⟩

/-- What is caught of a reader that agrees with another one but for its stops. -/
theorem eq_of_caught {α : Type} {limited whole read : Except MapFault α}
    (h : limited = whole ∨ Stopped limited) (hcaught : caught limited = .ok read) :
    read = whole := by
  rcases h with rfl | hstopped
  · exact (eq_of_caught_eq_ok hcaught).symm
  · obtain ⟨fault, herror⟩ := caught_of_stopped hstopped
    rw [herror] at hcaught
    cases hcaught

/-! ### Maps and data URIs -/

theorem stopped_readMap_iff {document : Text} :
    Stopped (readMap document levels) ↔ Stops levels document := by
  constructor
  · rintro ⟨fault, hread, hnesting⟩
    rw [readMap] at hread
    split at hread
    case h_1 error herror =>
      cases hread
      exact ⟨error, herror, of_decide_eq_true hnesting⟩
    case h_2 => cases hread
    case h_3 =>
      cases hread
      cases hnesting
  · rintro ⟨error, hread, hcause⟩
    exact ⟨.document error, by rw [readMap, hread], decide_eq_true hcause⟩

theorem readMap_within (document : Text) (levels : Option Nat) :
    readMap document levels = readMap document ∨ Stopped (readMap document levels) := by
  rw [stopped_readMap_iff]
  refine (Json.read_within document levels).imp_left fun heq => ?_
  rw [readMap, readMap, heq]

/-- The data URI holds the document. -/
structure Holds (uri document : Text) : Prop where
  decodes : ∃ payload bytes, payload? uri = some payload ∧
    payload.any (0x80 ≤ ·.toNat) = false ∧ Base64.decode payload = .ok bytes ∧
    Utf8.decode bytes = .ok document

theorem readDataUri_of_decode {uri payload : Text} {bytes : Utf8.Bytes}
    (hpayload : payload? uri = some payload) (hascii : payload.any (0x80 ≤ ·.toNat) = false)
    (hbytes : Base64.decode payload = .ok bytes) (levels : Option Nat) :
    readDataUri uri levels =
      ((Utf8.decode bytes).mapError .encoding >>= fun document => readMap document levels) := by
  rw [readDataUri, hpayload]
  simp only [hascii, Bool.false_eq_true, if_false, hbytes]
  rfl

theorem Holds.readDataUri {uri document : Text} (h : Holds uri document) (levels : Option Nat) :
    readDataUri uri levels = readMap document levels := by
  obtain ⟨payload, bytes, hpayload, hascii, hbytes, hdocument⟩ := h.decodes
  rw [readDataUri_of_decode hpayload hascii hbytes, hdocument]
  rfl

/-- A data URI that holds no document is refused before a map is read. -/
theorem readDataUri_of_not_holds {uri : Text} (h : ∀ document, ¬ Holds uri document) :
    ∃ fault, fault.isNesting = false ∧ ∀ levels, readDataUri uri levels = .error fault := by
  cases hpayload : payload? uri with
  | none => exact ⟨.unsupportedUri uri, rfl, fun _ => by rw [readDataUri, hpayload]⟩
  | some payload =>
    cases hascii : payload.any (0x80 ≤ ·.toNat) with
    | true =>
      refine ⟨.payloadNotAscii, rfl, fun _ => ?_⟩
      rw [readDataUri, hpayload]
      exact if_pos hascii
    | false =>
      cases hbytes : Base64.decode payload with
      | error fault =>
        refine ⟨.payload fault, rfl, fun _ => ?_⟩
        rw [readDataUri, hpayload]
        simp only [hascii, Bool.false_eq_true, if_false, hbytes]
        rfl
      | ok bytes =>
        cases hdocument : Utf8.decode bytes with
        | error error =>
          refine ⟨.encoding error, rfl, fun _ => ?_⟩
          rw [readDataUri_of_decode hpayload hascii hbytes, hdocument]
          rfl
        | ok document =>
          exact absurd ⟨payload, bytes, hpayload, hascii, hbytes, hdocument⟩ (h document)

theorem stopped_readDataUri_iff {uri : Text} :
    Stopped (readDataUri uri levels) ↔ ∃ document, Holds uri document ∧ Stops levels document := by
  constructor
  · rintro ⟨fault, hread, hnesting⟩
    by_cases h : ∃ document, Holds uri document
    · obtain ⟨document, hholds⟩ := h
      rw [hholds.readDataUri] at hread
      exact ⟨document, hholds, stopped_readMap_iff.mp ⟨fault, hread, hnesting⟩⟩
    · obtain ⟨other, hother, hrefused⟩ := readDataUri_of_not_holds (not_exists.mp h)
      rw [hrefused] at hread
      cases hread
      rw [hother] at hnesting
      cases hnesting
  · rintro ⟨document, hholds, hstops⟩
    rw [hholds.readDataUri]
    exact stopped_readMap_iff.mpr hstops

theorem readDataUri_within (uri : Text) (levels : Option Nat) :
    readDataUri uri levels = readDataUri uri ∨ Stopped (readDataUri uri levels) := by
  by_cases h : ∃ document, Holds uri document
  · obtain ⟨document, hholds⟩ := h
    rw [hholds.readDataUri, hholds.readDataUri]
    exact readMap_within document levels
  · obtain ⟨fault, -, hrefused⟩ := readDataUri_of_not_holds (not_exists.mp h)
    exact .inl (by rw [hrefused, hrefused])

/-! ### The map of a script -/

/-- The map of a script is to be read from the document: its reference holds it, or the loader has
it for the url that the reference is. -/
inductive ComesFrom (loader : Option Loader) (text document : Text) : Prop
  | inline {uri : Text} (hreference : findReference text = some uri)
      (hdata : Reference.isData uri = true) (hholds : Holds uri document)
  | loaded {url : Text} {load : Loader} (hreference : findReference text = some url)
      (hdata : Reference.isData url = false) (hloader : loader = some load)
      (hload : load url = .text document)

/-- A map that a loader has is the only one of the script. -/
theorem comesFrom_iff {load : Loader} {url document other : Text}
    (hreference : findReference text = some url) (hdata : Reference.isData url = false)
    (hload : load url = .text document) :
    ComesFrom (some load) text other ↔ other = document := by
  constructor
  · intro h
    cases h with
    | inline hreference' hdata' _ =>
      obtain rfl := Option.some.inj (hreference.symm.trans hreference')
      rw [hdata] at hdata'
      cases hdata'
    | loaded hreference' _ hloader hload' =>
      obtain rfl := Option.some.inj (hreference.symm.trans hreference')
      obtain rfl := Option.some.inj hloader
      rw [hload] at hload'
      cases hload'
      rfl
  · rintro rfl
    exact .loaded hreference hdata rfl hload

/-- What a reader with a limit recovers of a script is what is recovered without one. -/
structure Recovers (levels : Option Nat) (loader : Option Loader) (text : Text) : Prop where
  reference : Reference.ofTextWithin levels text = .ok (Reference.ofText text)
  loaded : (Reference.ofText text).loadWithin levels loader =
    .ok ((Reference.ofText text).load loader)

theorem eq_of_ofTextWithin {reference : Reference}
    (h : Reference.ofTextWithin levels text = .ok reference) : reference = .ofText text := by
  rw [ofTextWithin_eq] at h
  rw [ofText_eq]
  split at h
  · exact (Except.ok.inj h).symm
  · next value _ =>
    rw [Reference.ofValueWithin] at h
    rw [Reference.ofValue]
    split at h
    · next hdata =>
      obtain ⟨read, hread, rfl⟩ := map_eq_ok_iff.mp h
      rw [if_pos hdata, eq_of_caught (readDataUri_within value levels) hread]
    · next hdata =>
      rw [if_neg hdata]
      exact (Except.ok.inj h).symm

theorem eq_of_loadWithin {reference : Reference} {loaded : Except LoadFault (Option Json.Members)}
    (h : reference.loadWithin levels loader = .ok loaded) : loaded = reference.load loader := by
  cases reference with
  | absent | unreadable | inline => exact (Except.ok.inj h).symm
  | url value =>
    cases loader with
    | none => exact (Except.ok.inj h).symm
    | some load =>
      simp only [Reference.loadWithin, Reference.load] at h ⊢
      cases hload : load value with
      | missing | failed =>
        simp only [hload] at h ⊢
        exact (Except.ok.inj h).symm
      | text document =>
        simp only [hload] at h ⊢
        obtain ⟨read, hread, rfl⟩ := map_eq_ok_iff.mp h
        rw [eq_of_caught (readMap_within document levels) hread]

theorem ofValueWithin_eq {value : Text}
    (h : Reference.isData value = true → ¬ Stopped (readDataUri value levels)) :
    Reference.ofValueWithin levels value = .ok (Reference.ofValue value) := by
  rw [Reference.ofValueWithin, Reference.ofValue]
  split
  · next hdata =>
    rw [caught_of_not_stopped (h hdata), (readDataUri_within value levels).resolve_right (h hdata)]
    rfl
  · rfl

theorem loadWithin_eq {reference : Reference}
    (h : ∀ url load document, reference = .url url → loader = some load →
      load url = .text document → ¬ Stopped (readMap document levels)) :
    reference.loadWithin levels loader = .ok (reference.load loader) := by
  cases reference with
  | absent | unreadable | inline => rfl
  | url value =>
    cases loader with
    | none => rfl
    | some load =>
      simp only [Reference.loadWithin, Reference.load]
      cases hload : load value with
      | missing | failed => rfl
      | text document =>
        have hnot := h value load document rfl rfl hload
        simp only
        rw [caught_of_not_stopped hnot, (readMap_within document levels).resolve_right hnot]
        rfl

theorem findReference_of_ofText {url : Text} (h : Reference.ofText text = .url url) :
    findReference text = some url ∧ Reference.isData url = false := by
  rw [ofText_eq] at h
  split at h
  · cases h
  · next value hfound =>
    rw [Reference.ofValue] at h
    split at h
    · cases hread : readDataUri value <;>
      · rw [hread] at h
        cases h
    · next hdata =>
      cases h
      exact ⟨hfound, Bool.eq_false_iff.mpr hdata⟩

/-- A script is recovered as it is without a limit, exactly if the limit is not reached in its
map. -/
theorem recovers_iff :
    Recovers levels loader text ↔
      ∀ document, ComesFrom loader text document → ¬ Stops levels document := by
  constructor
  · rintro ⟨hreference, hloaded⟩ document hcomes hstops
    cases hcomes with
    | inline hfound hdata hholds =>
      obtain ⟨fault, hcaught⟩ := caught_of_stopped
        (stopped_readDataUri_iff.mpr ⟨document, hholds, hstops⟩)
      rw [ofTextWithin_eq, hfound] at hreference
      simp only [Reference.ofValueWithin, hdata, if_true, hcaught] at hreference
      cases hreference
    | loaded hfound hdata hloader hload =>
      obtain ⟨fault, hcaught⟩ := caught_of_stopped (stopped_readMap_iff.mpr hstops)
      subst hloader
      rw [ofText_eq, hfound] at hloaded
      simp only [Reference.ofValue, hdata, Bool.false_eq_true, if_false, Reference.loadWithin,
        hload, hcaught] at hloaded
      cases hloaded
  · refine fun h => ⟨?_, loadWithin_eq ?_⟩
    · rw [ofTextWithin_eq, ofText_eq]
      split
      · rfl
      · next value hfound =>
        refine ofValueWithin_eq fun hdata hstopped => ?_
        obtain ⟨document, hholds, hstops⟩ := stopped_readDataUri_iff.mp hstopped
        exact h document (.inline hfound hdata hholds) hstops
    · intro url load document hurl hloader hload hstopped
      obtain ⟨hfound, hdata⟩ := findReference_of_ofText hurl
      exact h document (.loaded hfound hdata hloader hload) (stopped_readMap_iff.mp hstopped)

theorem load_of_not_isLookedUp {reference : Reference} (h : reference.isLookedUp = false)
    (loader : Option Loader) : reference.load loader = .ok reference.map? := by
  cases reference with
  | absent | unreadable | inline => rfl
  | url _ => cases h

/-- What does not have to be looked up is recovered once the reference is read. -/
theorem recovers_of_ofTextWithin {reference : Reference}
    (h : Reference.ofTextWithin levels text = .ok reference) (hown : reference.isLookedUp = false)
    (loader : Option Loader) : Recovers levels loader text := by
  obtain rfl := eq_of_ofTextWithin h
  refine ⟨h, loadWithin_eq fun url load document hurl => ?_⟩
  rw [hurl] at hown
  cases hown

/-- Without a limit everything is recovered. -/
theorem recovers_none (loader : Option Loader) (text : Text) : Recovers none loader text :=
  recovers_iff.mpr fun document _ => Json.not_stops_none document

end NamespaceMerge.SourceMap
