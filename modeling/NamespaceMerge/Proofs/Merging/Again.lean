import NamespaceMerge.Proofs.Merging.SourceMaps
import NamespaceMerge.Proofs.Module.NormalForm

/-! Merging a merged script again. Its modules are in normal form however the rest of it reads, so
nothing is joined; its code has no reference but the one that the merge put behind it, which holds
the repaired map, and that map is repaired to itself. So a script whose map does not have to be
looked up comes out as it went in (`merge_merge`). -/

namespace NamespaceMerge

open SourceMap (Reference Loader referenceLine repair)

namespace Script

/-! ### The modules of an outline -/

/-- How module blocks nest in an outline; all other statements count as one. -/
inductive Shape
  | module (name : String) (body : List Shape)
  | other

mutual

def Outline.shape : Outline → Shape
  | .module name body => .module name (shapes body)
  | .other _ => .other

def shapes : List Outline → List Shape
  | [] => []
  | item :: items => item.shape :: shapes items

end

def Shape.moduleName? : Shape → Option String
  | .module name _ => some name
  | .other => none

theorem head?_shapes (items : List Outline) :
    (shapes items).head?.bind Shape.moduleName? = items.head?.bind Outline.moduleName? := by
  match items with
  | [] | .module _ _ :: _ | .other _ :: _ => rfl

/-- Whether an outline is in normal form shows in its modules alone. -/
theorem Settled.of_shapes {items items' : List Outline} (h : Settled items)
    (hshapes : shapes items = shapes items') : Settled items' := by
  match items, items' with
  | [], [] => exact .nil
  | [], _ :: _ | _ :: _, [] => exact nomatch hshapes
  | .module _ _ :: _, .other _ :: _ | .other _ :: _, .module _ _ :: _ =>
    simp [shapes, Outline.shape] at hshapes
  | .other _ :: rest, .other _ :: rest' =>
    simp only [shapes, List.cons.injEq] at hshapes
    exact other_cons_iff.mpr ((other_cons_iff.mp h).of_shapes hshapes.2)
  | .module name body :: rest, .module name' body' :: rest' =>
    simp only [shapes, Outline.shape, List.cons.injEq, Shape.module.injEq] at hshapes
    obtain ⟨⟨rfl, hbody⟩, hrest⟩ := hshapes
    obtain ⟨hapart, hinner, hsettled⟩ := module_cons_iff.mp h
    refine module_cons_iff.mpr ⟨?_, hinner.of_shapes hbody, hsettled.of_shapes hrest⟩
    rwa [← head?_shapes, ← hrest, head?_shapes]
termination_by sizeOf items

/-- Statements whose modules nest as those of merged statements are merged already. -/
theorem merge_of_shapes {statements again : List Statement}
    (h : shapes (outline again) = shapes (outline (merge statements).statements)) :
    (merge again).statements = again ∧ (merge again).joins = 0 :=
  mergeFrom_of_settled 0 ((settled_outline_mergeFrom 0 statements).of_shapes h.symm)

end Script

/-! ### The reference of a merged script -/

namespace SourceMap

theorem ofTextWithin_stripReferences (levels : Option Nat) (text : Text) :
    Reference.ofTextWithin levels (stripReferences text) = .ok .absent := by
  rw [ofTextWithin_eq, findReference_eq_none fun _ => not_isReference_of_mem_lines]

end SourceMap

/-- The maps of printed scripts are as encoders make them. -/
def Toolkit.EncodesMaps (t : Toolkit) : Prop :=
  ∀ unit statements printed, t.print unit statements = .ok printed →
    ∃ sources names mappings, printed.map = SourceMap.encoded sources names mappings

namespace Settings

theorem getLast?_endedCode (code : Text) : (endedCode code).getLast? = some '\n' := by
  rw [endedCode]
  split
  · assumption
  · exact List.getLast?_concat

/-- The reference line behind code is read back as the map that it was made from. -/
theorem ofTextWithin_endedCode {levels : Option Nat} {map : Json.Members}
    (h : Json.Readable levels (.object map)) (code mapName : Text) :
    Reference.ofTextWithin levels (endedCode code ++ referenceLine .inline map mapName) =
      .ok (.inline (SourceMap.writeDataUri map) map) := by
  have hline := SourceMap.ofTextWithin_append (.inr (getLast?_endedCode code)) levels
    (SourceMap.isValue_writeDataUri map)
  exact hline.trans (SourceMap.ofValueWithin_writeDataUri h)

section

variable {s : Settings} {f g : File} {loader loader' : Option Loader} {printed again : Printed}
  {joins : Nat}

theorem original_eq (hown : (Reference.ofText f.contents.toList).isLookedUp = false)
    (loader : Option Loader) :
    s.original loader f =
      let reference := Reference.ofText f.contents.toList
      if s.skipSourceMaps then (.none, none) else (reference.kind, reference.map?) := by
  rw [original]
  simp only [SourceMap.load_of_not_isLookedUp hown]
  rfl

theorem original_of_ofTextWithin {reference : Reference}
    (h : Reference.ofTextWithin s.toolkit.levels f.contents.toList = .ok reference)
    (hown : reference.isLookedUp = false) (loader : Option Loader) :
    s.Recovers loader f ∧
      s.original loader f =
        if s.skipSourceMaps then (.none, none) else (reference.kind, reference.map?) := by
  refine ⟨fun _ => SourceMap.recovers_of_ofTextWithin h hown loader, ?_⟩
  obtain rfl := SourceMap.eq_of_ofTextWithin h
  exact original_eq hown loader

/-- A script whose map does not have to be looked up has none, or one that can be read. -/
theorem original_cases (hown : (Reference.ofText f.contents.toList).isLookedUp = false)
    (hrecovers : s.Recovers loader f) :
    s.original loader f = (.none, none) ∨
      s.skipSourceMaps = false ∧ ∃ map, s.original loader f = (.inline, some map) ∧
        Json.Readable s.toolkit.levels (.object map) := by
  rw [original_eq hown]
  cases hskip : s.skipSourceMaps with
  | true => exact .inl rfl
  | false =>
    have hreference := (hrecovers hskip).reference
    cases href : Reference.ofText f.contents.toList with
    | absent | unreadable _ => exact .inl rfl
    | inline value map =>
      rw [href] at hreference
      exact .inr ⟨rfl, map, rfl, SourceMap.readable_of_ofTextWithin hreference⟩
    | url _ =>
      rw [href] at hown
      cases hown

/-- A repaired map is repaired to itself with the same code. -/
theorem repairedMap_again {sources names sources' names' : List String} {mappings mappings' : Text}
    (hprinted : printed.map = SourceMap.encoded sources names mappings)
    (hagain : again.map = SourceMap.encoded sources' names' mappings') (input : Json.Members) :
    s.repairedMap g again 0 (s.repairedMap f printed joins input) =
      s.repairedMap f printed joins input := by
  rw [repairedMap, repairedMap, hprinted, hagain]
  exact SourceMap.repair_repair _ _ _ _ _ _ _ _

/-- A merged script and the map that came with it, from the merged script again. -/
theorem mergedScript_again {unit : String} {statements statements' : List Script.Statement}
    (hmaps : s.toolkit.EncodesMaps)
    (hprinted : s.toolkit.print unit statements = .ok printed)
    (hagain : s.toolkit.print unit statements' = .ok again)
    (hcode : codeOf again = codeOf printed)
    (hown : (Reference.ofText f.contents.toList).isLookedUp = false)
    (hrecovers : s.Recovers loader f) (loader' : Option Loader) :
    let first := s.mergedScript f printed joins (s.original loader f).1 (s.original loader f).2
    g.contents = first.script.contents →
      let second := s.mergedScript g again 0 (s.original loader' g).1 (s.original loader' g).2
      s.Recovers loader' g ∧ second.script.contents = first.script.contents ∧
        second.map.map (·.contents) = first.map.map (·.contents) := by
  intro first hcontents second
  obtain ⟨sources, names, mappings, hencoded⟩ := hmaps _ _ _ hprinted
  obtain ⟨sources', names', mappings', hencoded'⟩ := hmaps _ _ _ hagain
  rcases original_cases hown hrecovers with horiginal | ⟨hskip, map, horiginal, hreadable⟩
  · have hfirst : first = s.mergedScript f printed joins .none none := by
      simp only [first, horiginal]
    have htext : Reference.ofTextWithin s.toolkit.levels g.contents.toList = .ok .absent := by
      rw [hcontents, hfirst, (mergedScript_none ..).1, String.toList_ofList]
      exact SourceMap.ofTextWithin_stripReferences _ _
    obtain ⟨hrecovers', horiginal'⟩ := original_of_ofTextWithin htext rfl loader'
    have hsecond : second = s.mergedScript g again 0 .none none := by
      have hnone : s.original loader' g = (.none, none) := by
        rw [horiginal']
        split <;> rfl
      simp only [second, hnone]
    rw [hfirst, hsecond]
    exact ⟨hrecovers', congrArg String.ofList hcode, rfl⟩
  · have hfirst : first = s.mergedScript f printed joins .inline (some map) := by
      simp only [first, horiginal]
    have hrepaired : Json.Readable s.toolkit.levels (.object (s.repairedMap f printed joins map)) :=
      SourceMap.readable_repair
        (by rw [hencoded]; exact SourceMap.readable_encoded s.toolkit.two_le_levels ..) hreadable
        s.toolkit.two_le_levels ..
    obtain ⟨companion, hmap, hwritten, hscript⟩ := s.mergedScript_some f printed joins .inline map
    have htext : Reference.ofTextWithin s.toolkit.levels g.contents.toList =
        .ok (.inline (SourceMap.writeDataUri (s.repairedMap f printed joins map))
          (s.repairedMap f printed joins map)) := by
      rw [hcontents, hfirst, hscript, String.toList_ofList]
      exact ofTextWithin_endedCode hrepaired _ _
    obtain ⟨hrecovers', horiginal'⟩ := original_of_ofTextWithin htext rfl loader'
    rw [hskip, if_neg Bool.false_ne_true] at horiginal'
    have hsecond : second = s.mergedScript g again 0 .inline
        (some (s.repairedMap f printed joins map)) := by
      simp only [second, horiginal']
      rfl
    obtain ⟨companion', hmap', hwritten', hscript'⟩ :=
      s.mergedScript_some g again 0 .inline (s.repairedMap f printed joins map)
    rw [repairedMap_again hencoded hencoded'] at hwritten' hscript'
    rw [hfirst, hsecond]
    refine ⟨hrecovers', ?_, ?_⟩
    · -- The name of the map is in no inline reference.
      rw [hscript', hscript, hcode]
      rfl
    · rw [hmap', hmap, Option.map_some, Option.map_some, hwritten', hwritten]

end

/-- What is assumed of the contents of a merged script: they are read as statements whose modules
nest as the merged ones do, and these are printed as the same code. -/
def ReadsBack (s : Settings) (f : File) (contents : String) : Prop :=
  ∀ reading printing statements printed, s.reading = some reading → s.printing = some printing →
    s.toolkit.parse reading.keepComments f.contents.toList = .ok statements →
    s.toolkit.print printing.unit (Script.merge statements).statements = .ok printed →
    ∃ again printed', s.toolkit.parse reading.keepComments contents.toList = .ok again ∧
      Script.shapes (Script.outline again) =
        Script.shapes (Script.outline (Script.merge statements).statements) ∧
      s.toolkit.print printing.unit again = .ok printed' ∧
      SourceMap.stripReferences printed'.text = codeOf printed

end Settings

/-! ### A script of two blocks -/

namespace Script

/-- A module block with one statement in it, which is in no module. -/
theorem shapes_outline_block {d w s : Statement} {name : String}
    (hname : d.moduleName? = some name) (hbody : w.moduleBody? name = some [s]) :
    shapes (outline [d, w]) = [.module name [.other]] := by
  rw [outline_block hname hbody, outline, outline]
  rfl

theorem statements_merge_run {statements : List Statement} {r : Run} {s : Statement}
    (h : Run.ofList? statements = some r) (hrest : r.rest = []) (hjoined : r.joined = [s]) :
    (merge statements).statements = [r.declaration, r.wrapper.withBody [s]] := by
  have hsettled : Settled (outline [s]) := by
    rw [outline]
    exact Settled.other_cons_iff.mpr .nil
  rw [merge, mergeFrom_run 0 h, hrest, mergeFrom_nil, hjoined, (mergeFrom_of_settled 0 hsettled).1]

end Script

namespace ScriptMerger

/-- Two blocks of one module, with an empty map. -/
def twoBlocksText : Text :=
  "var m;(function(m)\x7ba\x7d)(m||(m=\x7b\x7d));".toList ++
    "var m;(function(m)\x7b\x7d)(m||(m=\x7b\x7d));\n".toList ++
    "//# sourceMappingURL=data:application/json;base64,e30=\n".toList

def twoBlocks : ScriptMerger where
  settings := .standard
  file := { contents := String.ofList twoBlocksText, name := "a.js" }

/-- The merged script that the statements `merged` of `twoBlocks` are printed to. -/
def twoBlocksMerged (merged : List Script.Statement) : Text :=
  let printed := Script.Fragment.printed (Script.print "    " merged)
  Settings.endedCode (Settings.codeOf printed) ++
    referenceLine .inline (twoBlocks.settings.repairedMap twoBlocks.file printed 0 []) []

open Script in
theorem parse_twoBlocks :
    ∃ statements ∈ (parse true twoBlocksText).toOption,
      ∃ r ∈ Run.ofList? statements, r.rest.length = 0 ∧ r.joined.length = 1 ∧
        let merged := [r.declaration, r.wrapper.withBody r.joined]
        ∃ again ∈ (parse true (twoBlocksMerged merged)).toOption, again.length = 2 ∧
          ∃ r' ∈ Run.ofList? again, r'.body.length = 1 ∧ r'.name = r.name ∧
            SourceMap.stripReferences (Fragment.textOf (print "    " again)) =
              SourceMap.stripReferences (Fragment.textOf (print "    " merged)) := by
  decide +kernel

theorem toList_twoBlocks : twoBlocks.file.contents.toList = twoBlocksText := String.toList_ofList

/-- The toolkit of the program parses what its parser does. -/
theorem parse_program {keepComments : Bool} {text : Text} {statements : List Script.Statement}
    (h : statements ∈ (Script.parse keepComments text).toOption) :
    Toolkit.program.parse keepComments text = .ok statements :=
  mapError_eq_ok_iff.mpr (eq_ok_of_mem_toOption h)

theorem encodesMaps_program : Toolkit.program.EncodesMaps := by
  intro unit statements printed hprint
  cases hprint
  exact ⟨_, _, _, rfl⟩

theorem original_twoBlocks :
    (Reference.ofText twoBlocks.file.contents.toList).isLookedUp = false ∧
      twoBlocks.settings.Recovers twoBlocks.loader twoBlocks.file ∧
      twoBlocks.settings.original twoBlocks.loader twoBlocks.file = (.inline, some []) := by
  have hempty : ((Reference.ofTextWithin (some 960) twoBlocksText).toOption.bind (·.map?)).map
      List.length = some 0 := by
    decide +kernel
  obtain ⟨map, hmap, hlength⟩ := Option.map_eq_some_iff.mp hempty
  obtain ⟨reference, hreference, hmap⟩ := Option.bind_eq_some_iff.mp hmap
  have htext : Reference.ofTextWithin twoBlocks.settings.toolkit.levels
      twoBlocks.file.contents.toList = .ok reference := by
    rw [toList_twoBlocks]
    exact eq_ok_of_mem_toOption hreference
  obtain rfl := List.length_eq_zero_iff.mp hlength
  cases reference with
  | absent | unreadable _ | url _ => cases hmap
  | inline value found =>
    cases hmap
    obtain ⟨hrecovers, horiginal⟩ := Settings.original_of_ofTextWithin htext rfl twoBlocks.loader
    exact ⟨by rw [← SourceMap.eq_of_ofTextWithin htext]; rfl, hrecovers, horiginal⟩

/-- The map has no mappings, so the count of the joined blocks does not show. -/
theorem contents_mergedScript_twoBlocks (statements merged : List Script.Statement) :
    (twoBlocks.mergedScript statements
      (Script.Fragment.printed (Script.print "    " merged))).script.contents =
        String.ofList (twoBlocksMerged merged) := by
  have hjoins : ∀ fresh joins fileName, repair fresh [] joins fileName "a.js" =
      repair fresh [] 0 fileName "a.js" := by
    intro fresh joins fileName
    cases joins <;> rfl
  rw [mergedScript, original_twoBlocks.2.2]
  obtain ⟨companion, -, -, hscript⟩ :=
    twoBlocks.settings.mergedScript_some twoBlocks.file
      (Script.Fragment.printed (Script.print "    " merged)) (Script.merge statements).joins
      .inline []
  rw [hscript, Settings.repairedMap]
  exact congrArg (fun map => String.ofList (_ ++ referenceLine .inline map [])) (hjoins _ _ _)

theorem readsBack_twoBlocks :
    ∃ statements printed, twoBlocks.settings.Reads twoBlocks.file statements printed ∧
      twoBlocks.settings.ReadsBack twoBlocks.file
        (twoBlocks.mergedScript statements printed).script.contents := by
  obtain ⟨statements, hparse, r, hrun, hrest, hjoined, again, hagain, hlength, r', hrun', hbody,
    hname, hprinted⟩ := parse_twoBlocks
  obtain ⟨s, hs⟩ := List.length_eq_one_iff.mp hjoined
  obtain ⟨s', hs'⟩ := List.length_eq_one_iff.mp hbody
  obtain ⟨_, -, hdeclared, hwrapped, -⟩ := Script.Run.ofList?_eq_some_iff.mp hrun
  obtain ⟨rest, rfl, hdeclared', hwrapped', -⟩ := Script.Run.ofList?_eq_some_iff.mp hrun'
  obtain rfl : rest = [] := by simpa using hlength
  rw [hs] at hagain hprinted
  have hmerged := Script.statements_merge_run hrun (List.length_eq_zero_iff.mp hrest) hs
  have hparsed := toList_twoBlocks.symm ▸ parse_program hparse
  refine ⟨statements, Script.Fragment.printed (Script.print "    " _),
    ⟨rfl, ⟨{}, rfl, hparsed⟩, ⟨{}, rfl, by rw [hmerged]; rfl⟩⟩, ?_⟩
  intro reading printing statements' printed hreading hprinting hparsed' hprint
  cases hreading
  cases hprinting
  obtain rfl : statements = statements' := Except.ok.inj (hparsed.symm.trans hparsed')
  rw [hmerged] at hprint
  cases hprint
  refine ⟨[r'.declaration, r'.wrapper], _, ?_, ?_, rfl, hprinted⟩
  · rw [contents_mergedScript_twoBlocks, String.toList_ofList]
    exact parse_program hagain
  · rw [hmerged, Script.shapes_outline_block hdeclared' (hs' ▸ hwrapped'), hname,
      Script.shapes_outline_block hdeclared (Script.Statement.moduleBody?_withBody hwrapped _)]

/-! ### Merging again -/

variable {m next : ScriptMerger}

/-- A merged script that is merged again, with the same settings, stays as it is, and the same map
comes with it. Its map must not have to be looked up, and it must be read back. -/
theorem merge_merge {first : ScriptMerger} {script : File}
    (hfirst : m.merge = (first, .ok (some script)))
    (hown : (Reference.ofText m.file.contents.toList).isLookedUp = false)
    (hsettings : next.settings = m.settings) (hcontents : next.file.contents = script.contents)
    (hmaps : m.settings.toolkit.EncodesMaps)
    (hback : m.settings.ReadsBack m.file script.contents) :
    ∃ second same, next.merge = (second, .ok (some same)) ∧ second.joins = 0 ∧
      same.contents = script.contents ∧
      second.map.map (·.contents) = first.map.map (·.contents) := by
  obtain ⟨statements, printed, hreads, hrecovers, rfl, -, hmap⟩ := reads_of_merge hfirst
  obtain ⟨reading, hreading, hparse⟩ := hreads.parsed
  obtain ⟨printing, hprinting, hprint⟩ := hreads.printed
  obtain ⟨again, printed', hagain, hshapes, hprint', hcode⟩ :=
    hback reading printing statements printed hreading hprinting hparse hprint
  obtain ⟨hsame, hjoins⟩ := Script.merge_of_shapes hshapes
  obtain ⟨hrecovers', hscript, hmap'⟩ :=
    Settings.mergedScript_again hmaps hprint hprint' hcode hown hrecovers next.loader hcontents
  have hreads' : next.settings.Reads next.file again printed' := by
    rw [hsettings]
    exact ⟨hreads.notSkipped, ⟨reading, hreading, hcontents ▸ hagain⟩,
      ⟨printing, hprinting, hsame.symm ▸ hprint'⟩⟩
  obtain ⟨second, hsecond, hsecondJoins, hsecondMap⟩ :=
    merge_of_reads hreads' (hsettings ▸ hrecovers')
  have hmerged : next.mergedScript again printed' = m.settings.mergedScript next.file printed' 0
      (m.settings.original next.loader next.file).1
      (m.settings.original next.loader next.file).2 := by
    rw [mergedScript, hsettings, hjoins]
  refine ⟨second, _, hsecond, hsecondJoins.trans hjoins, ?_⟩
  rw [hsecondMap, hmap, hmerged]
  exact ⟨hscript, hmap'⟩

theorem merge_merge_twoBlocks :
    ∃ first script, twoBlocks.merge = (first, .ok (some script)) ∧
      (Reference.ofText twoBlocks.file.contents.toList).isLookedUp = false ∧
      twoBlocks.settings.toolkit.EncodesMaps ∧
      twoBlocks.settings.ReadsBack twoBlocks.file script.contents ∧
      ∃ second same, { twoBlocks with file := script }.merge = (second, .ok (some same)) ∧
        second.joins = 0 ∧ same.contents = script.contents ∧
        second.map.map (·.contents) = first.map.map (·.contents) := by
  obtain ⟨statements, printed, hreads, hback⟩ := readsBack_twoBlocks
  obtain ⟨hown, hrecovers, -⟩ := original_twoBlocks
  obtain ⟨first, hfirst, -⟩ := merge_of_reads hreads hrecovers
  generalize twoBlocks.mergedScript statements printed = merged at hfirst hback
  exact ⟨first, merged.script, hfirst, hown, encodesMaps_program, hback,
    merge_merge hfirst hown rfl rfl encodesMaps_program hback⟩

end ScriptMerger

end NamespaceMerge
