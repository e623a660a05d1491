import NamespaceMerge.Proofs.Disk.Reading
import NamespaceMerge.Proofs.Json.OneLine
import NamespaceMerge.Proofs.Merging.Again
import NamespaceMerge.Proofs.Worker.Making
import NamespaceMerge.Proofs.Worker.Writing

/-! Reading back the reference that a merged script has to the map that comes with it. The name of
the map is written as it is, so it is read back exactly if it is one that a reference can hold: it
has no blank, and does not start as a data URI does (`ScriptMerger.ofText_merge_url_iff`). From
where both are written, the map is then found, unless the name looks like the url of a site. -/

namespace NamespaceMerge

/-! ### Files beside each other -/

namespace Disk

variable {d : Disk} {here place : Place} {f : File}

/-- A path to a directory leads through directories. -/
theorem findFrom_append_directory {a b : List Text}
    (h : d.findFrom here (a ++ b) = .ok (.directory place)) :
    ∃ base, d.findFrom here a = .ok (.directory base) ∧
      d.findFrom base b = .ok (.directory place) := by
  induction a generalizing here with
  | nil => exact ⟨here, rfl, h⟩
  | cons component rest ih =>
    rw [List.cons_append, findFrom_cons] at h
    rw [findFrom_cons]
    split at h
    · exact ih h
    · split at h <;> cases h
    · cases h

/-- A file that the disk holds is found by its name from its directory, if the name ends properly;
what does is its text, where there are no other line ends than newlines. -/
theorem mapLoader_of_holds (h : d.Holds f) {extension : Text}
    (hextension : extension <:+ f.name.toList) (hslash : '/' ∉ extension)
    (hlength : 2 ≤ extension.length) (hsite : Text.includes "://".toList f.name.toList = false)
    (hreturn : '\r' ∉ f.contents.toList) :
    d.mapLoader f.path.toList f.name.toList = .text f.contents.toList := by
  obtain ⟨above, name, hsplit, hcomponents⟩ :=
    FileName.split_of_suffix hextension hslash hlength
  obtain ⟨place, hfind⟩ := h
  rw [File.components, Worker.target, hcomponents, ← List.append_assoc] at hfind
  obtain ⟨directory, habove, hlast⟩ := findFrom_concat hfind
  obtain ⟨base, hbase, habove⟩ := findFrom_append_directory habove
  have hname : d.findFrom base (FileName.split f.name.toList) = .ok (.file place f.bytes) := by
    rw [hsplit, findFrom_append (findFrom_filter habove)]
    exact hlast
  have htext : textOf f.bytes = .ok f.contents.toList := textOf_encode hreturn
  have hread : d.readMap? f.path.toList f.name.toList = .ok (some f.contents.toList) := by
    rw [readMap?, hsite, if_neg Bool.false_ne_true, find_mapPath hbase, hname]
    simp only [htext]
    rfl
  rw [mapLoader, hread]

end Disk

/-! ### Urls in references -/

namespace SourceMap

/-- A url that a reference line can hold. -/
structure IsUrl (url : Text) : Prop where
  noBlank : ∀ c ∈ url, isBlank c = false
  notData : Reference.isData url = false

theorem isUrl_iff {url : Text} :
    IsUrl url ↔ (url.all (!isBlank ·) && !Reference.isData url) = true := by
  rw [Bool.and_eq_true, List.all_eq_true, Bool.not_eq_true']
  constructor
  · exact fun h => ⟨fun c hc => by rw [h.noBlank c hc]; rfl, h.notData⟩
  · exact fun h => ⟨fun c hc => Bool.not_eq_true' _ ▸ h.1 c hc, h.2⟩

instance (url : Text) : Decidable (IsUrl url) := decidable_of_iff' _ isUrl_iff

theorem noBlank_takeWhile {p : Char → Bool} (hp : ∀ c, p c = true → isBlank c = false)
    (text : Text) : ∀ c ∈ text.takeWhile p, isBlank c = false :=
  fun c hc => hp c (List.mem_takeWhile_imp hc)

/-- The value of a reference has no blank. -/
theorem noBlank_of_referenceValue? {line value : Text} (h : referenceValue? line = some value) :
    ∀ c ∈ value, isBlank c = false := by
  rw [referenceValue?] at h
  split at h
  · obtain ⟨text, -, hvalue⟩ := Option.bind_eq_some_iff.mp h
    simp only [lineValue?, List.span_eq_takeWhile_dropWhile] at hvalue
    split at hvalue
    · cases hvalue
      exact noBlank_takeWhile (fun c hc => by simpa using hc) text
    · cases hvalue
  · obtain ⟨text, -, hvalue⟩ := Option.bind_eq_some_iff.mp h
    simp only [blockValue?, List.span_eq_takeWhile_dropWhile] at hvalue
    split at hvalue
    · split at hvalue
      · cases hvalue
        exact noBlank_takeWhile (fun c hc => by simpa using (Bool.and_eq_true_iff.mp hc).1) text
      · cases hvalue
    · cases hvalue
  · cases h

theorem ofValue_eq_url_iff {value url : Text} :
    Reference.ofValue value = .url url ↔ value = url ∧ Reference.isData url = false := by
  rw [Reference.ofValue]
  split
  · next hdata =>
    constructor
    · intro h
      cases hread : readDataUri value <;>
      · rw [hread] at h
        cases h
    · rintro ⟨rfl, hno⟩
      rw [hno] at hdata
      cases hdata
  · next hdata =>
    rw [Reference.url.injEq]
    constructor
    · rintro rfl
      exact ⟨rfl, Bool.eq_false_iff.mpr hdata⟩
    · exact And.left

/-- A url that is written as a reference line behind a text is read back exactly if it is one that
such a line can hold. -/
theorem ofText_lineFor_iff {text url : Text} (htext : text = [] ∨ text.getLast? = some '\n')
    (hne : url ≠ []) :
    Reference.ofText (text ++ (lineFor url ++ ['\n'])) = .url url ↔ IsUrl url := by
  constructor
  · intro h
    rw [ofText_eq] at h
    split at h
    · cases h
    · next value hvalue =>
      obtain ⟨rfl, hdata⟩ := ofValue_eq_url_iff.mp h
      obtain ⟨line, -, hline⟩ := List.mem_filterMap.mp (List.mem_of_getLast? hvalue)
      exact ⟨noBlank_of_referenceValue? hline, hdata⟩
  · intro h
    rw [ofText_append htext ⟨hne, h.noBlank⟩]
    exact ofValue_eq_url_iff.mpr ⟨rfl, h.notData⟩

end SourceMap

namespace ScriptMerger

open SourceMap (Reference)

variable {m : ScriptMerger}

/-- A script that is read and printed, and whose reference is a url that leads to a map. -/
structure LoadsMap (m : ScriptMerger) (statements : List Script.Statement) (printed : Printed)
    (document : Text) : Prop where
  reads : m.settings.Reads m.file statements printed
  wantsMap : m.settings.skipSourceMaps = false
  refers : ∃ url load, Reference.ofText m.file.contents.toList = .url url ∧
    m.loader = some load ∧ load url = .text document
  isMap : ∃ input, Json.read document = .ok (.object input)

theorem map_suffix {name script : Text} (h : name = FileName.sourceMap script) :
    ".map".toList <:+ name ∧ name ≠ [] := by
  rw [h]
  refine ⟨List.suffix_append _ _, fun hnil => ?_⟩
  cases (List.append_eq_nil_iff.mp hnil).2

/-- The merged script refers to the map that comes with it: its reference is the name of the map. -/
def RefersToMap (m : ScriptMerger) : Prop :=
  ∃ after script companion, m.merge = (after, .ok (some script)) ∧ after.map = some companion ∧
    Reference.ofText script.contents.toList = .url companion.name.toList

namespace LoadsMap

variable {statements : List Script.Statement} {printed : Printed} {document : Text}
  (h : m.LoadsMap statements printed document)

include h

theorem recovers_iff :
    m.settings.Recovers m.loader m.file ↔ ¬ Json.Stops m.settings.toolkit.levels document := by
  obtain ⟨url, load, hurl, hloader, hload⟩ := h.refers
  obtain ⟨hfound, hdata⟩ := SourceMap.findReference_of_ofText hurl
  rw [Settings.Recovers, SourceMap.recovers_iff, hloader]
  simp only [SourceMap.comesFrom_iff hfound hdata hload, forall_eq, h.wantsMap, forall_const]

theorem original_eq :
    ∃ input, m.settings.original m.loader m.file = (.url, some input) := by
  obtain ⟨url, load, hurl, hloader, hload⟩ := h.refers
  obtain ⟨input, hread⟩ := h.isMap
  have hmap : SourceMap.readMap document = .ok input := by rw [SourceMap.readMap, hread]
  refine ⟨input, ?_⟩
  simp only [Settings.original, h.wantsMap, Bool.false_eq_true, if_false, hurl, hloader,
    Reference.load, hload, hmap]
  rfl

/-- What the merged script and the map that comes with it are. -/
theorem exists_companion (hstops : ¬ Json.Stops m.settings.toolkit.levels document) :
    ∃ after script companion code map, m.merge = (after, .ok (some script)) ∧
      after.map = some companion ∧ companion.path = script.path ∧
      companion.name.toList =
        FileName.sourceMap (m.settings.outputName .script m.file.name).toList ∧
      companion.contents = String.ofList (Json.object map).write ∧
      script.contents.toList = Settings.endedCode code ++
        (SourceMap.lineFor companion.name.toList ++ ['\n']) := by
  obtain ⟨input, horiginal⟩ := h.original_eq
  obtain ⟨after, hmerge, -, hmap⟩ := merge_of_reads h.reads (h.recovers_iff.mpr hstops)
  have hmerged : m.mergedScript statements printed = m.settings.mergedScript m.file printed
      (Script.merge statements).joins .url (some input) := by
    rw [mergedScript, horiginal]
  obtain ⟨companion, hcompanion, hcontents, hscript⟩ := m.settings.mergedScript_some m.file printed
    (Script.merge statements).joins .url input
  obtain ⟨-, hscriptPath, hcompanionOf⟩ := m.settings.named_mergedScript m.file printed
    (Script.merge statements).joins .url (some input)
  obtain ⟨hname, hpath⟩ := hcompanionOf companion hcompanion
  rw [hmerged] at hmerge hmap
  refine ⟨after, _, companion, Settings.codeOf printed, _, hmerge, hmap.trans hcompanion,
    hpath.trans hscriptPath.symm, ?_, hcontents, ?_⟩
  · rw [hname, String.toList_ofList]
  · rw [hscript, String.toList_ofList]
    rfl

theorem refersToMap_iff :
    m.RefersToMap ↔ ¬ Json.Stops m.settings.toolkit.levels document ∧ SourceMap.IsUrl
      (FileName.sourceMap (m.settings.outputName .script m.file.name).toList) := by
  by_cases hstops : Json.Stops m.settings.toolkit.levels document
  · obtain ⟨after, hmerge⟩ := merge_of_not_recovers h.reads fun hrecovers =>
      h.recovers_iff.mp hrecovers hstops
    refine iff_of_false ?_ fun hand => hand.1 hstops
    rintro ⟨after', script, companion, hmerge', -⟩
    rw [hmerge] at hmerge'
    cases hmerge'
  · obtain ⟨after, script, companion, code, map, hmerge, hmap, -, hname, -, hscript⟩ :=
      h.exists_companion hstops
    have hiff := SourceMap.ofText_lineFor_iff (.inr (Settings.getLast?_endedCode code))
      (map_suffix hname).2
    rw [← hscript] at hiff
    rw [← hname, ← hiff, and_iff_right hstops]
    constructor
    · rintro ⟨after', script', companion', hmerge', hmap', hreference⟩
      rw [hmerge] at hmerge'
      cases hmerge'
      rw [hmap] at hmap'
      cases hmap'
      exact hreference
    · exact fun hreference => ⟨after, script, companion, hmerge, hmap, hreference⟩

end LoadsMap

/-- The reference to the map that comes with a merged script is read back exactly if the input map
is nested no deeper than the toolkit reads and the name of the map can be a reference. Wherever both
files are written, the name then leads to the map from beside the script, unless it looks like the
url of a site. -/
theorem ofText_merge_url_iff {statements : List Script.Statement} {printed : Printed}
    {document : Text} (h : m.LoadsMap statements printed document) :
    (m.RefersToMap ↔ ¬ Json.Stops m.settings.toolkit.levels document ∧ SourceMap.IsUrl
      (FileName.sourceMap (m.settings.outputName .script m.file.name).toList)) ∧
    (¬ Json.Stops m.settings.toolkit.levels document →
      ∃ after script companion, m.merge = (after, .ok (some script)) ∧
        after.map = some companion ∧ companion.path = script.path ∧
        companion.name.toList =
          FileName.sourceMap (m.settings.outputName .script m.file.name).toList ∧
        ∀ d : Disk, d.Holds companion →
          Text.includes "://".toList companion.name.toList = false →
          d.mapLoader script.path.toList companion.name.toList =
            .text companion.contents.toList) := by
  refine ⟨h.refersToMap_iff, fun hstops => ?_⟩
  obtain ⟨after, script, companion, code, map, hmerge, hmap, hpath, hname, hcontents, -⟩ :=
    h.exists_companion hstops
  refine ⟨after, script, companion, hmerge, hmap, hpath, hname, fun d hholds hsite => ?_⟩
  have hreturn : '\r' ∉ companion.contents.toList := by
    rw [hcontents, String.toList_ofList]
    exact fun hmem => absurd (Json.printable_write _ _ hmem).1 (by decide)
  rw [← hpath]
  exact Disk.mapLoader_of_holds hholds (map_suffix hname).1 (by decide) (by decide) hsite hreturn

/-- The script with a url to an empty map, under another name. -/
def referringAs (name : String) : ScriptMerger :=
  { referring emptyMap with file := { (referring emptyMap).file with name } }

theorem loadsMap_referringAs (name : String) :
    ∃ statements printed, (referringAs name).LoadsMap statements printed emptyMap := by
  obtain ⟨statements, printed, hreads⟩ := reads_referring emptyMap
  refine ⟨statements, printed, ⟨hreads.notSkipped, hreads.parsed, hreads.printed⟩, rfl,
    ⟨"a.js.map".toList, _, ?_, rfl, rfl⟩, [], rfl⟩
  have htext : (referringAs name).file.contents.toList = referringText := toList_referring emptyMap
  rw [htext]
  rfl

theorem ofText_merge_url_iff_referring :
    (∃ statements printed, (referringAs "a.js").LoadsMap statements printed emptyMap) ∧
      (referringAs "a.js").RefersToMap := by
  obtain ⟨statements, printed, hloads⟩ := loadsMap_referringAs "a.js"
  refine ⟨⟨statements, printed, hloads⟩, (ofText_merge_url_iff hloads).1.mpr ?_⟩
  exact ⟨not_stops_emptyMap, by decide +kernel⟩

/-- A name with a blank and one that starts as a data URI cannot be read back. -/
theorem not_refersToMap :
    ¬ (referringAs "my app.js").RefersToMap ∧ ¬ (referringAs "data:app.js").RefersToMap := by
  constructor
  · obtain ⟨statements, printed, hloads⟩ := loadsMap_referringAs "my app.js"
    rw [hloads.refersToMap_iff]
    exact fun hand => absurd hand.2 (by decide +kernel)
  · obtain ⟨statements, printed, hloads⟩ := loadsMap_referringAs "data:app.js"
    rw [hloads.refersToMap_iff]
    exact fun hand => absurd hand.2 (by decide +kernel)

end ScriptMerger

end NamespaceMerge
