import NamespaceMerge.Merging.ScriptMerger
import NamespaceMerge.Proofs.SourceMap.Nesting
import NamespaceMerge.Proofs.SourceMap.Repair
import NamespaceMerge.Toolkit.Standard

/-! What source maps add to a merged script. A script that is merged with source maps skipped is
merged with them as well, to the same code, and at most a reference line to its map stands behind
the code; no failure on the way to the map shows in the script. The exception is a map that is
nested too deeply for its reader, which ends the merge (`keepsCode_iff`). -/

namespace NamespaceMerge

open SourceMap (Reference Loader isReference referenceLine repair)

/-! ### The way of a script through a merge -/

namespace Settings

variable {s : Settings} {loader : Option Loader} {f : File}

/-- The script is read and its merged statements are printed: nothing is skipped and no option is
unknown. -/
structure Reads (s : Settings) (f : File) (statements : List Script.Statement)
    (printed : Printed) : Prop where
  notSkipped : s.skipScripts = false
  parsed : ∃ reading, s.reading = some reading ∧
    s.toolkit.parse reading.keepComments f.contents.toList = .ok statements
  printed : ∃ printing, s.printing = some printing ∧
    s.toolkit.print printing.unit (Script.merge statements).statements = .ok printed

/-- What is recovered of the map of a script, where maps of any nesting are read. -/
def original (s : Settings) (loader : Option Loader) (f : File) :
    SourceMap.Kind × Option Json.Members :=
  let reference := Reference.ofText f.contents.toList
  if s.skipSourceMaps then (.none, none)
  else (reference.kind, (reference.load loader).toOption.join)

/-- The map of the script, if it is wanted, is not nested too deeply. -/
def Recovers (s : Settings) (loader : Option Loader) (f : File) : Prop :=
  s.skipSourceMaps = false → SourceMap.Recovers s.toolkit.levels loader f.contents.toList

theorem result_createScript (h : s.Recovers loader f) (printed : Printed) (joins : Nat) :
    (s.createScript loader f printed joins).result = .ok (some
      (s.mergedScript f printed joins (s.original loader f).1 (s.original loader f).2)) := by
  rw [createScript, original]
  split
  · rfl
  · next hskip =>
    obtain ⟨hreference, hloaded⟩ := h (Bool.eq_false_iff.mpr hskip)
    simp only [hreference, hloaded]

theorem result_createScript_of_not_recovers (h : ¬ s.Recovers loader f) (printed : Printed)
    (joins : Nat) : (s.createScript loader f printed joins).result = .error .nesting := by
  obtain ⟨hskip, hnot⟩ := Classical.not_imp.mp h
  simp only [createScript, hskip, Bool.false_eq_true, if_false]
  split
  · rfl
  · next reference hreference =>
    split
    · rfl
    · next loaded hloaded =>
      obtain rfl := SourceMap.eq_of_ofTextWithin hreference
      obtain rfl := SourceMap.eq_of_loadWithin hloaded
      exact absurd ⟨hreference, hloaded⟩ hnot

theorem result_createScript_cases (s : Settings) (loader : Option Loader) (f : File)
    (printed : Printed) (joins : Nat) :
    (∃ merged, (s.createScript loader f printed joins).result = .ok (some merged)) ∨
      (s.createScript loader f printed joins).result = .error .nesting := by
  by_cases h : s.Recovers loader f
  · exact .inl ⟨_, result_createScript h printed joins⟩
  · exact .inr (result_createScript_of_not_recovers h printed joins)

theorem joins_createScript (s : Settings) (loader : Option Loader) (f : File) (printed : Printed)
    (joins : Nat) : (s.createScript loader f printed joins).joins = joins := by
  rw [createScript]
  split
  · rfl
  · split
    · rfl
    · simp only
      split <;> rfl

/-- Merging ends with the merged statements printed. -/
theorem Reads.mergeScript {statements : List Script.Statement} {printed : Printed}
    (h : s.Reads f statements printed) (loader : Option Loader) :
    (s.mergeScript loader f).joins = (Script.merge statements).joins ∧
      (s.mergeScript loader f).result =
        (s.createScript loader f printed (Script.merge statements).joins).result := by
  obtain ⟨reading, hreading, hparse⟩ := h.parsed
  obtain ⟨printing, hprinting, hprint⟩ := h.printed
  simp only [Settings.mergeScript, h.notSkipped, hreading, hparse, hprinting, finishScript, hprint,
    Bool.false_eq_true, if_false, and_true]
  exact joins_createScript ..

theorem reads_of_result {merged : MergedScript}
    (h : (s.mergeScript loader f).result = .ok (some merged)) :
    ∃ statements printed, s.Reads f statements printed ∧ s.Recovers loader f := by
  have hresult := h
  rw [mergeScript] at h
  split at h
  · cases h
  · next hskip =>
    simp only at h
    split at h
    · cases h
    · next reading hreading =>
      split at h
      · cases h
      · cases h
      · next statements hparse =>
        split at h
        · cases h
        · next printing hprinting =>
          simp only [finishScript] at h
          split at h
          · cases h
          · next printed hprint =>
            have hreads : s.Reads f statements printed :=
              ⟨Bool.eq_false_iff.mpr hskip, ⟨reading, hreading, hparse⟩,
                ⟨printing, hprinting, hprint⟩⟩
            refine ⟨statements, printed, hreads, not_not.mp fun hnot => ?_⟩
            rw [(hreads.mergeScript loader).2, result_createScript_of_not_recovers hnot] at hresult
            cases hresult

/-! ### The merged script and its map -/

/-- The code of the merged script, without references. -/
def codeOf (printed : Printed) : Text := SourceMap.stripReferences printed.text

/-- A text as the code that a reference line is put behind. -/
def endedCode (code : Text) : Text := if code.getLast? = some '\n' then code else code ++ ['\n']

/-- The map that comes with a merged script for the input map. -/
def repairedMap (s : Settings) (f : File) (printed : Printed) (joins : Nat)
    (input : Json.Members) : Json.Members :=
  repair (printed.map (s.scriptName f.name)) input joins (s.scriptName f.name)
    (f.source.getD f).name

variable (s : Settings) (f : File) (printed : Printed) (joins : Nat) (kind : SourceMap.Kind)

/-- Without an input map, the merged script is its code. -/
theorem mergedScript_none :
    (s.mergedScript f printed joins kind none).script.contents = String.ofList (codeOf printed) ∧
      (s.mergedScript f printed joins kind none).map = none :=
  ⟨rfl, rfl⟩

/-- With an input map, a reference line to the repaired map stands behind the code. -/
theorem mergedScript_some (input : Json.Members) :
    ∃ companion, (s.mergedScript f printed joins kind (some input)).map = some companion ∧
      companion.contents =
        String.ofList (Json.object (s.repairedMap f printed joins input)).write ∧
      (s.mergedScript f printed joins kind (some input)).script.contents =
        String.ofList (endedCode (codeOf printed) ++
          referenceLine kind (s.repairedMap f printed joins input) companion.name.toList) := by
  refine ⟨_, rfl, rfl, ?_⟩
  rw [String.toList_ofList]
  rfl

/-- The map that comes with a script is read back from its file. -/
theorem read_repairedMap {input : Json.Members} (h : Json.Keyed (.object input)) :
    Json.read (Json.object (s.repairedMap f printed joins input)).write =
      .ok (.object (s.repairedMap f printed joins input)) := by
  have hfresh : Json.Readable none (.object (printed.map (s.scriptName f.name))) :=
    ⟨printed.keyed _, Json.fitsIn_none _⟩
  have hlevels : ∀ n ∈ (none : Option Nat), 2 ≤ n := fun n hn => by cases hn
  have hrepaired := SourceMap.readable_repair hfresh ⟨h, Json.fitsIn_none _⟩ hlevels joins
    (s.scriptName f.name) (f.source.getD f).name
  exact Json.read_writeAt ⟨.ascii, none⟩ hrepaired.keyed

end Settings

namespace ScriptMerger

variable {m : ScriptMerger}

/-- The merger with source maps skipped, or not. -/
def skippingMaps (m : ScriptMerger) (skip : Bool) : ScriptMerger :=
  { m with settings := { m.settings with skipSourceMaps := skip } }

/-- The merged script of a script that is read and printed. -/
def mergedScript (m : ScriptMerger) (statements : List Script.Statement) (printed : Printed) :
    MergedScript :=
  let (kind, input) := m.settings.original m.loader m.file
  m.settings.mergedScript m.file printed (Script.merge statements).joins kind input

variable {statements : List Script.Statement} {printed : Printed}

theorem merge_of_reads (h : m.settings.Reads m.file statements printed)
    (hrecovers : m.settings.Recovers m.loader m.file) :
    ∃ after, m.merge = (after, .ok (some (m.mergedScript statements printed).script)) ∧
      after.joins = (Script.merge statements).joins ∧
      after.map = (m.mergedScript statements printed).map := by
  obtain ⟨hjoins, hresult⟩ := h.mergeScript m.loader
  rw [Settings.result_createScript hrecovers] at hresult
  refine ⟨m.merge.1, Prod.ext rfl ?_, hjoins, ?_⟩
  · simp only [merge, ScriptOutcome.script, hresult, mergedScript]
    rfl
  · simp only [merge, ScriptOutcome.map?, hresult, mergedScript]

/-- A map that is nested too deeply ends the merge. -/
theorem merge_of_not_recovers (h : m.settings.Reads m.file statements printed)
    (hnot : ¬ m.settings.Recovers m.loader m.file) :
    ∃ after, m.merge = (after, .error .nesting) := by
  obtain ⟨-, hresult⟩ := h.mergeScript m.loader
  rw [Settings.result_createScript_of_not_recovers hnot] at hresult
  refine ⟨m.merge.1, Prod.ext rfl ?_⟩
  simp only [merge, ScriptOutcome.script, hresult]
  rfl

/-- What a merge that makes a script has gone through. -/
theorem reads_of_merge {after : ScriptMerger} {script : File}
    (h : m.merge = (after, .ok (some script))) :
    ∃ statements printed, m.settings.Reads m.file statements printed ∧
      m.settings.Recovers m.loader m.file ∧
      script = (m.mergedScript statements printed).script ∧
      after.joins = (Script.merge statements).joins ∧
      after.map = (m.mergedScript statements printed).map := by
  have hscript : (m.settings.mergeScript m.loader m.file).script = .ok (some script) :=
    congrArg Prod.snd h
  obtain ⟨result, hresult, hmap⟩ := map_eq_ok_iff.mp hscript
  obtain ⟨merged, rfl, -⟩ := Option.map_eq_some_iff.mp hmap
  obtain ⟨statements, printed, hreads, hrecovers⟩ := Settings.reads_of_result hresult
  obtain ⟨after', hafter, hjoins, hmap⟩ := merge_of_reads hreads hrecovers
  obtain ⟨rfl, heq⟩ := Prod.mk.inj (h.symm.trans hafter)
  exact ⟨statements, printed, hreads, hrecovers, Option.some.inj (Except.ok.inj heq), hjoins, hmap⟩

theorem keyed_of_input {text : Text} {loader : Option Loader} {input : Json.Members}
    (h : ((Reference.ofText text).load loader).toOption.join = some input) :
    Json.Keyed (.object input) := by
  cases hload : (Reference.ofText text).load loader with
  | error fault =>
    rw [hload] at h
    cases h
  | ok found =>
    rw [hload] at h
    refine SourceMap.keyed_of_load (hload.trans (congrArg Except.ok ?_))
    rw [← h]
    cases found <;> rfl

/-- Merging with source maps makes a script of the code that is made without them: nothing is put
behind the code, and there is no map, or a line that refers to the map that comes with the
script. -/
def KeepsCode (m bare : ScriptMerger) (code : File) : Prop :=
  ∃ full script, (m.skippingMaps false).merge = (full, .ok (some script)) ∧
    full.joins = bare.joins ∧
    (∀ line ∈ Text.lines code.contents.toList, isReference line = false) ∧
    (script.contents = code.contents ∧ full.map = none ∨
      ∃ companion map, full.map = some companion ∧
        Json.read companion.contents.toList = .ok (.object map) ∧
        script.contents.toList = Settings.endedCode code.contents.toList ++
          referenceLine (Reference.ofText m.file.contents.toList).kind map
            companion.name.toList)

theorem keepsCode_of_recovers {bare : ScriptMerger} {code : File}
    (h : (m.skippingMaps true).merge = (bare, .ok (some code)))
    (hrecovers : SourceMap.Recovers m.settings.toolkit.levels m.loader m.file.contents.toList) :
    m.KeepsCode bare code := by
  obtain ⟨statements, printed, hreads, -, hcode, hbareJoins, -⟩ := reads_of_merge h
  have hreads' : (m.skippingMaps false).settings.Reads m.file statements printed :=
    ⟨hreads.notSkipped, hreads.parsed, hreads.printed⟩
  obtain ⟨full, hfull, hfullJoins, hfullMap⟩ := merge_of_reads hreads' fun _ => hrecovers
  have hcontents : code.contents = String.ofList (Settings.codeOf printed) := by
    rw [hcode]
    rfl
  refine ⟨full, _, hfull, hfullJoins.trans hbareJoins.symm, ?_, ?_⟩
  · rw [hcontents, String.toList_ofList]
    exact fun _ => SourceMap.not_isReference_of_mem_lines
  · have hmerged : (m.skippingMaps false).mergedScript statements printed =
        (m.skippingMaps false).settings.mergedScript m.file printed (Script.merge statements).joins
          (Reference.ofText m.file.contents.toList).kind
          ((Reference.ofText m.file.contents.toList).load m.loader).toOption.join := rfl
    rw [hfullMap, hcontents, String.toList_ofList, hmerged]
    cases hinput : ((Reference.ofText m.file.contents.toList).load m.loader).toOption.join with
    | none => exact .inl ⟨rfl, rfl⟩
    | some input =>
      obtain ⟨companion, hmap, hwritten, hscript⟩ := Settings.mergedScript_some
        (m.skippingMaps false).settings m.file printed (Script.merge statements).joins
        (Reference.ofText m.file.contents.toList).kind input
      refine .inr ⟨companion, (m.skippingMaps false).settings.repairedMap m.file printed
        (Script.merge statements).joins input, hmap, ?_, ?_⟩
      · rw [hwritten, String.toList_ofList]
        exact Settings.read_repairedMap _ _ _ _ (keyed_of_input hinput)
      · rw [hscript, String.toList_ofList]

theorem merge_of_not_recovers_skipped {bare : ScriptMerger} {code : File}
    (h : (m.skippingMaps true).merge = (bare, .ok (some code)))
    (hnot : ¬ SourceMap.Recovers m.settings.toolkit.levels m.loader m.file.contents.toList) :
    ∃ full, (m.skippingMaps false).merge = (full, .error .nesting) := by
  obtain ⟨statements, printed, hreads, -⟩ := reads_of_merge h
  have hreads' : (m.skippingMaps false).settings.Reads m.file statements printed :=
    ⟨hreads.notSkipped, hreads.parsed, hreads.printed⟩
  exact merge_of_not_recovers hreads' fun hrecovers => hnot (hrecovers rfl)

/-- Where a script is merged without source maps, it is merged with them to the same code, however
loading the map goes, exactly if its map is nested no deeper than the toolkit reads. Else the merge
with source maps fails. -/
theorem keepsCode_iff {bare : ScriptMerger} {code : File}
    (h : (m.skippingMaps true).merge = (bare, .ok (some code))) :
    (m.KeepsCode bare code ↔ ∀ document,
      SourceMap.ComesFrom m.loader m.file.contents.toList document →
        ¬ Json.Stops m.settings.toolkit.levels document) ∧
    (m.KeepsCode bare code ∨ ∃ full, (m.skippingMaps false).merge = (full, .error .nesting)) := by
  rw [← SourceMap.recovers_iff]
  by_cases hrecovers : SourceMap.Recovers m.settings.toolkit.levels m.loader m.file.contents.toList
  · have hkeeps := keepsCode_of_recovers h hrecovers
    exact ⟨iff_of_true hkeeps hrecovers, .inl hkeeps⟩
  · obtain ⟨full, hfull⟩ := merge_of_not_recovers_skipped h hrecovers
    refine ⟨iff_of_false ?_ hrecovers, .inr ⟨full, hfull⟩⟩
    rintro ⟨full', script, hfull', -⟩
    rw [hfull] at hfull'
    cases hfull'

/-- A toolkit that reads maps of any nesting keeps the code of every script. -/
theorem keepsCode_of_unlimited {bare : ScriptMerger} {code : File}
    (h : (m.skippingMaps true).merge = (bare, .ok (some code)))
    (hlevels : m.settings.toolkit.levels = none) : m.KeepsCode bare code := by
  refine keepsCode_of_recovers h ?_
  rw [hlevels]
  exact SourceMap.recovers_none m.loader m.file.contents.toList

def referringText : Text := "a;\n//# sourceMappingURL=a.js.map\n".toList

/-- A script with a url, and a loader that has a map for it. -/
def referring (map : Text) : ScriptMerger where
  settings := .standard
  loader := some fun _ => .text map
  file := { contents := String.ofList referringText, name := "a.js" }

theorem toList_referring (map : Text) : (referring map).file.contents.toList = referringText :=
  String.toList_ofList

theorem reads_referring (map : Text) :
    ∃ statements printed,
      (referring map).settings.Reads (referring map).file statements printed := by
  have hparse : (Script.parse true referringText).toOption.isSome = true := by decide +kernel
  obtain ⟨statements, hstatements⟩ := Option.isSome_iff_exists.mp hparse
  refine ⟨statements, _, rfl, ⟨{}, rfl, ?_⟩, {}, rfl, rfl⟩
  rw [toList_referring]
  exact mapError_eq_ok_iff.mpr (eq_ok_of_mem_toOption hstatements)

theorem merge_skippingMaps_referring (map : Text) :
    ∃ bare code, ((referring map).skippingMaps true).merge = (bare, .ok (some code)) := by
  obtain ⟨statements, printed, hreads⟩ := reads_referring map
  have hskipping : ((referring map).skippingMaps true).settings.Reads (referring map).file
      statements printed := ⟨hreads.notSkipped, hreads.parsed, hreads.printed⟩
  obtain ⟨bare, hbare, -⟩ := merge_of_reads (m := (referring map).skippingMaps true) hskipping nofun
  exact ⟨bare, _, hbare⟩

/-- What the loader has is the map of the script. -/
theorem comesFrom_referring_iff {map document : Text} :
    SourceMap.ComesFrom (referring map).loader referringText document ↔ document = map := by
  have hfound : SourceMap.findReference referringText = some "a.js.map".toList := rfl
  exact SourceMap.comesFrom_iff hfound rfl rfl

def emptyMap : Text := ['\x7b', '\x7d']

theorem not_stops_emptyMap : ¬ Json.Stops (some 960) emptyMap := by
  rintro ⟨error, hread, -⟩
  have hempty : Json.read emptyMap (some 960) = .ok (.object []) := rfl
  cases hempty.symm.trans hread

theorem keepsCode_iff_referring :
    ∃ bare code, ((referring emptyMap).skippingMaps true).merge = (bare, .ok (some code)) ∧
      (referring emptyMap).KeepsCode bare code := by
  obtain ⟨bare, code, hbare⟩ := merge_skippingMaps_referring emptyMap
  refine ⟨bare, code, hbare, (keepsCode_iff hbare).1.mpr fun document hcomes => ?_⟩
  rw [toList_referring, comesFrom_referring_iff] at hcomes
  exact hcomes ▸ not_stops_emptyMap

/-- A map of so many brackets ends a merge that is done without it. -/
theorem not_keepsCode_brackets :
    ¬ ∀ bare code,
      ((referring (List.replicate 100000 '[')).skippingMaps true).merge =
        (bare, .ok (some code)) →
      (referring (List.replicate 100000 '[')).KeepsCode bare code := by
  intro h
  obtain ⟨bare, code, hbare⟩ := merge_skippingMaps_referring (List.replicate 100000 '[')
  obtain ⟨full, script, hfull, -⟩ := h bare code hbare
  have hnot : ¬ SourceMap.Recovers (some 960) (referring (List.replicate 100000 '[')).loader
      (referring (List.replicate 100000 '[')).file.contents.toList := by
    rw [SourceMap.recovers_iff, toList_referring]
    exact fun hnone => hnone _ (comesFrom_referring_iff.mpr rfl)
      (Json.stops_brackets (by norm_num))
  obtain ⟨full', hfull'⟩ := merge_of_not_recovers_skipped hbare hnot
  rw [hfull'] at hfull
  cases hfull

end ScriptMerger

end NamespaceMerge
