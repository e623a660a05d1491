import NamespaceMerge.Proofs.Worker.Fate

/-! What ends the work of a worker that goes on after failures: a file that is not in UTF-8, a
script on which the parser or the printer breaks down, and a script with a map that is nested deeper
than the toolkit reads (`Settings.isStopped_fateOf_iff`). -/

namespace NamespaceMerge.Settings

variable {s : Settings} {d : Disk} {kind : FileKind} {item : Item} {loader : SourceMap.Loader}
  {f : File} {reading : ReadingOptions} {printing : PrintingOptions}
  {statements : List Script.Statement} {printed : Printed}

/-- A merge of a script breaks off: the parser breaks down on it, or the printer on what it is
merged to, or its map is nested too deeply. -/
inductive Breaks (s : Settings) (loader : SourceMap.Loader) (f : File) : Prop
  | parser {reading : ReadingOptions} {cause : String} (hskips : s.skipScripts = false)
      (hreading : s.reading = some reading)
      (hparse : s.toolkit.parse reading.keepComments f.contents.toList = .error (.stopped cause))
  | printer {reading : ReadingOptions} {printing : PrintingOptions}
      {statements : List Script.Statement} {cause : String} (hskips : s.skipScripts = false)
      (hreading : s.reading = some reading)
      (hparse : s.toolkit.parse reading.keepComments f.contents.toList = .ok statements)
      (hprinting : s.printing = some printing)
      (hprint : s.toolkit.print printing.unit (Script.merge statements).statements = .error cause)
  | nesting {statements : List Script.Statement} {printed : Printed} {document : Text}
      (hreads : s.Reads f statements printed) (hmaps : s.skipSourceMaps = false)
      (hcomes : SourceMap.ComesFrom (some loader) f.contents.toList document)
      (hstops : Json.Stops s.toolkit.levels document)

/-- An item ends the work: it is a file that is not in UTF-8, or a script whose merge breaks off. -/
inductive Ends (s : Settings) (d : Disk) : FileKind × Item → Prop
  | undecodable {kind : FileKind} {item : Item} {error : Utf8.DecodeError}
      (hread : Worker.readItem d item = .error (.encoding error)) : Ends s d (kind, item)
  | script {item : Item} {f : File} (hread : Worker.readItem d item = .ok f)
      (hbreaks : s.Breaks (d.mapLoader f.path.toList) f.measured) : Ends s d (.script, item)

namespace Breaks

theorem notSkipped (h : s.Breaks loader f) : s.skipScripts = false := by
  cases h with
  | parser hskips | printer hskips => exact hskips
  | nesting hreads => exact hreads.notSkipped

/-- The parser does not refuse a script on which the merge breaks off. -/
theorem parse_ne_refused (h : s.Breaks loader f) (hreading : s.reading = some reading)
    (message : String) :
    s.toolkit.parse reading.keepComments f.contents.toList ≠ .error (.refused message) := by
  intro hrefused
  cases h with
  | parser _ hreading' hparse | printer _ hreading' hparse =>
    cases hreading.symm.trans hreading'
    cases hrefused.symm.trans hparse
  | nesting hreads =>
    obtain ⟨reading', hreading', hparse⟩ := hreads.parsed
    cases hreading.symm.trans hreading'
    cases hrefused.symm.trans hparse

end Breaks

/-- The merge of a script that is read and printed breaks off only at its map. -/
theorem Reads.breaks_iff (h : s.Reads f statements printed) :
    s.Breaks loader f ↔ ¬ s.Recovers (some loader) f := by
  obtain ⟨reading, hreading, hparse⟩ := h.parsed
  obtain ⟨printing, hprinting, hprint⟩ := h.printed
  rw [Recovers, SourceMap.recovers_iff]
  constructor
  · intro hbreaks hnone
    cases hbreaks with
    | parser _ hreading' hparse' =>
      cases hreading.symm.trans hreading'
      cases hparse.symm.trans hparse'
    | printer _ hreading' hparse' hprinting' hprint' =>
      cases hreading.symm.trans hreading'
      cases hparse.symm.trans hparse'
      cases hprinting.symm.trans hprinting'
      cases hprint.symm.trans hprint'
    | nesting _ hmaps hcomes hstops => exact hnone hmaps _ hcomes hstops
  · intro hnot
    obtain ⟨hmaps, hnot⟩ := Classical.not_imp.mp hnot
    obtain ⟨document, hnot⟩ := not_forall.mp hnot
    obtain ⟨hcomes, hstops⟩ := Classical.not_imp.mp hnot
    exact .nesting h hmaps hcomes (not_not.mp hstops)

theorem Reads.isStopped_iff (h : s.Reads f statements printed) :
    (s.fateOfFile d .script f).isStopped = true ↔ s.Breaks (d.mapLoader f.path.toList) f := by
  have hresult := (h.mergeScript (some (d.mapLoader f.path.toList))).2
  rw [h.breaks_iff, fateOfFile, hresult]
  by_cases hrecovers : s.Recovers (some (d.mapLoader f.path.toList)) f
  · rw [result_createScript hrecovers]
    exact iff_of_false Bool.false_ne_true fun hnot => hnot hrecovers
  · rw [result_createScript_of_not_recovers hrecovers]
    exact iff_of_true rfl hrecovers

theorem isStopped_fateOfFile_iff (hreading : s.reading = some reading)
    (hprinting : s.printing = some printing) :
    (s.fateOfFile d .script f).isStopped = true ↔ s.Breaks (d.mapLoader f.path.toList) f := by
  cases hskips : s.skipScripts with
  | true =>
    rw [fateOfFile_of_skips (show s.skips .script = true from hskips)]
    refine iff_of_false Bool.false_ne_true fun hbreaks => ?_
    cases hskips.symm.trans hbreaks.notSkipped
  | false =>
    cases hparse : s.toolkit.parse reading.keepComments f.contents.toList with
    | error fault =>
      cases fault with
      | refused message =>
        refine iff_of_false ?_ fun hbreaks => hbreaks.parse_ne_refused hreading message hparse
        simp [fateOfFile, mergeScript, hskips, hreading, hparse, Fate.isStopped]
      | stopped cause =>
        refine iff_of_true ?_ (.parser hskips hreading hparse)
        simp [fateOfFile, mergeScript, hskips, hreading, hparse, Fate.isStopped]
    | ok statements =>
      cases hprint : s.toolkit.print printing.unit (Script.merge statements).statements with
      | error cause =>
        refine iff_of_true ?_ (.printer hskips hreading hparse hprinting hprint)
        simp [fateOfFile, mergeScript, hskips, hreading, hparse, hprinting, finishScript, hprint,
          Fate.isStopped]
      | ok printed =>
        exact Reads.isStopped_iff
          ⟨hskips, ⟨reading, hreading, hparse⟩, ⟨printing, hprinting, hprint⟩⟩

/-- Where the options are known, this is all that ends the work. -/
theorem isStopped_fateOf_iff (hreading : s.reading = some reading)
    (hprinting : s.printing = some printing) :
    (s.fateOf d kind item).isStopped = true ↔ s.Ends d (kind, item) := by
  cases hread : Worker.readItem d item with
  | error fault =>
    cases fault with
    | disk fault =>
      rw [fateOf, hread]
      refine iff_of_false Bool.false_ne_true fun hends => ?_
      cases hends with
      | undecodable hread' | script hread' => cases hread.symm.trans hread'
    | encoding error =>
      rw [fateOf, hread]
      exact iff_of_true rfl (.undecodable hread)
  | ok f =>
    rw [fateOf_of_read hread]
    cases kind with
    | declaration =>
      refine iff_of_false Bool.false_ne_true fun hends => ?_
      cases hends with
      | undecodable hread' => cases hread.symm.trans hread'
    | script =>
      rw [isStopped_fateOfFile_iff hreading hprinting]
      constructor
      · exact fun hbreaks => .script hread hbreaks
      · intro hends
        cases hends with
        | undecodable hread' => cases hread.symm.trans hread'
        | script hread' hbreaks =>
          cases hread.symm.trans hread'
          exact hbreaks

theorem not_ends_iff (hreading : s.reading = some reading) (hprinting : s.printing = some printing)
    {q : FileKind × Item} : ¬ s.Ends d q ↔ (s.fateOf d q.1 q.2).isStopped = false := by
  rw [← isStopped_fateOf_iff hreading hprinting, Bool.not_eq_true]

end NamespaceMerge.Settings
