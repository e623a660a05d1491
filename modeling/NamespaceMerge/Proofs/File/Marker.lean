import NamespaceMerge.Proofs.File.Name

/-! The marker in the names of merged files. Doubled points become one where the marker is put in
front of an extension, so it is found again there exactly if there are none in it or around it
(`hasMarker_output`, `undoubled_of_hasMarker_output`). -/

namespace NamespaceMerge.FileName

/-- A marker that has no doubled points once it stands between two points. -/
def Undoubled (marker : Text) : Prop := ¬ ['.', '.'] <:+: '.' :: (marker ++ ['.'])

instance (marker : Text) : Decidable (Undoubled marker) := inferInstanceAs (Decidable (¬ _))

/-- The marker between two points, as it is written: with one point for doubled ones. -/
def pointed (marker : Text) : Text := Text.replacePair '.' '.' ['.'] ('.' :: (marker ++ ['.']))

/-- A point, and behind it something that does not start with a point and has none doubled. -/
structure IsExtension (extension : Text) : Prop where
  eq_cons : ∃ c rest, extension = '.' :: c :: rest ∧ c ≠ '.' ∧ ¬ ['.', '.'] <:+: rest

theorem isExtension_declaration : IsExtension declarationExtension :=
  ⟨'d', ".ts".toList, rfl, by decide, by decide⟩

theorem isExtension_script : IsExtension scriptExtension :=
  ⟨'j', "s".toList, rfl, by decide, by decide⟩

theorem markedExtension_eq {extension : Text} (h : IsExtension extension) (marker : Text) :
    markedExtension marker extension = pointed marker ++ extension.tail := by
  obtain ⟨c, rest, rfl, hc, hrest⟩ := h.eq_cons
  have hsplit := Text.replacePair_append_cons hc hc ['.'] ('.' :: (marker ++ ['.'])) rest
  rw [Text.replacePair_of_not_infix hrest] at hsplit
  rw [List.tail_cons, pointed, ← hsplit, markedExtension]
  simp

theorem pointed_of_undoubled {marker : Text} (h : Undoubled marker) :
    pointed marker = '.' :: (marker ++ ['.']) :=
  Text.replacePair_of_not_infix h _

theorem Undoubled.ne_nil {marker : Text} (h : Undoubled marker) : marker ≠ [] := by
  rintro rfl
  exact h (by decide)

/-- Where doubled points were taken out, the marker is too long to stand between points. -/
theorem undoubled_of_infix_pointed {marker : Text}
    (h : '.' :: (marker ++ ['.']) <:+: pointed marker) : Undoubled marker := fun hdoubled =>
  absurd h.length_le (Nat.not_le.mpr (Text.length_replacePair_lt hdoubled '.'))

/-! ### Marked names -/

theorem hasMarker_iff {name marker : Text} :
    hasMarker name marker = true ↔ marker ≠ [] ∧ '.' :: (marker ++ ['.']) <:+: name := by
  rw [hasMarker, Bool.and_eq_true, Text.includes_iff_infix]
  simp

theorem hasMarker_of_infix {name other marker : Text} (h : hasMarker name marker = true)
    (hpart : name <:+: other) : hasMarker other marker = true := by
  rw [hasMarker_iff] at h ⊢
  exact ⟨h.1, h.2.trans hpart⟩

/-- A name with the extension gets the marker in front of it. -/
theorem output_of_hasExtension {name extension : Text} (h : hasExtension extension name = true)
    (hextension : IsExtension extension) (marker : Text) :
    output name extension marker =
      name.take (name.length - extension.length) ++ (pointed marker ++ extension.tail) := by
  rw [output, if_pos h, markedExtension_eq hextension]

theorem hasMarker_output {name extension marker : Text} (h : hasExtension extension name = true)
    (hextension : IsExtension extension) (hmarker : Undoubled marker) :
    hasMarker (output name extension marker) marker = true := by
  rw [output_of_hasExtension h hextension, pointed_of_undoubled hmarker, hasMarker_iff]
  exact ⟨hmarker.ne_nil, List.infix_append' _ _ _⟩

theorem notMem_output {c : Char} {name extension marker : Text}
    (h : hasExtension extension name = true) (hc : c ≠ '.') (hname : c ∉ name)
    (hextension : c ∉ extension) (hmarker : c ∉ marker) : c ∉ output name extension marker := by
  rw [output, if_pos h, List.mem_append, not_or]
  exact ⟨fun hmem => hname (List.mem_of_mem_take hmem),
    notMem_markedExtension hc hmarker hextension⟩

/-- What ends with a point does not reach to another character at the end. -/
theorem infix_of_infix_concat {c : Char} (hc : c ≠ '.') {part text : Text}
    (h : part ++ ['.'] <:+: text ++ [c]) : part ++ ['.'] <:+: text := by
  refine (List.infix_concat_iff.mp h).resolve_left fun hsuffix => ?_
  rcases List.suffix_concat_iff.mp hsuffix with hnil | ⟨front, hfront, -⟩
  · simp at hnil
  · exact hc (List.singleton_inj.mp (List.append_inj' hfront rfl).2).symm

/-- In a name without other points there is no other place for the marker. -/
theorem undoubled_of_hasMarker_output {marker : Text}
    (h : hasMarker (output "a.js".toList scriptExtension marker) marker = true) :
    Undoubled marker := by
  have houtput : output "a.js".toList scriptExtension marker =
      'a' :: (pointed marker ++ ['j'] ++ ['s']) := by
    rw [output_of_hasExtension (by decide) isExtension_script, List.append_assoc]
    rfl
  rw [houtput, hasMarker_iff] at h
  have hstart : ('.' :: marker) ++ ['.'] <:+: pointed marker ++ ['j'] ++ ['s'] := by
    refine (List.infix_cons_iff.mp h.2).resolve_left fun hprefix => ?_
    exact absurd (List.cons_prefix_cons.mp hprefix).1 (by decide)
  exact undoubled_of_infix_pointed
    (infix_of_infix_concat (by decide) (infix_of_infix_concat (by decide) hstart))

/-! ### The names at the end of paths -/

theorem hasExtension_iff {extension name : Text} :
    hasExtension extension name = true ↔
      ∃ stem ending, name = stem ++ ending ∧ Text.lower ending = Text.lower extension := by
  rw [hasExtension, List.isSuffixOf_iff_suffix]
  constructor
  · rintro ⟨front, h⟩
    obtain ⟨stem, ending, rfl, -, hending⟩ := List.map_eq_append_iff.mp h.symm
    exact ⟨stem, ending, rfl, hending⟩
  · rintro ⟨stem, ending, rfl, hending⟩
    rw [← hending, Text.lower, Text.lower, List.map_append]
    exact List.suffix_append _ _

theorem slash_notMem_of_lower {ending extension : Text}
    (h : Text.lower ending = Text.lower extension) (hextension : '/' ∉ Text.lower extension) :
    '/' ∉ ending := fun hmem => hextension (h ▸ List.mem_map_of_mem (f := Char.toLower) hmem)

/-- The last component of a path to declarations is a name of declarations. -/
theorem isDeclarationPath_last {path : Text} (h : isDeclarationPath path = true) :
    ∃ name ∈ (components path).getLast?, isDeclarationPath name = true := by
  obtain ⟨stem, ending, rfl, hlower⟩ := hasExtension_iff.mp h
  have hlength : ending.length = 5 := by
    simpa [Text.lower, declarationExtension] using congrArg List.length hlower
  obtain ⟨front, hcomponents, -⟩ := components_of_suffix (List.suffix_append stem ending)
    (slash_notMem_of_lower hlower (by decide)) (by rw [hlength]; decide)
  refine ⟨front ++ ending, ?_, hasExtension_iff.mpr ⟨front, ending, rfl, hlower⟩⟩
  rw [hcomponents, List.getLast?_concat]
  rfl

theorem suffix_suffix (component : Text) : suffix component <:+ component := by
  unfold suffix
  split
  · split
    · exact List.nil_suffix
    · exact List.drop_suffix _ _
  · exact List.nil_suffix

theorem components_of_mem {path component : Text} (h : component ∈ components path) :
    components component = [component] := by
  rcases eq_root_or_notMem h with rfl | hslash
  · rfl
  · rw [components, split_of_relative (head?_ne_slash hslash), Text.splitAll_of_notMem hslash,
      List.filter_eq_self]
    intro c hc
    rw [List.mem_singleton.mp hc]
    exact (List.mem_filter.mp h).2

/-- The last component of a path to a script is a name of scripts. -/
theorem isScriptPath_last {path : Text} (h : isScriptPath path = true) :
    ∃ name ∈ (components path).getLast?, isScriptPath name = true := by
  cases hlast : (components path).getLast? with
  | none =>
    rw [isScriptPath, hlast] at h
    exact absurd h (by decide)
  | some name =>
    refine ⟨name, rfl, ?_⟩
    rw [isScriptPath, hlast] at h
    rwa [isScriptPath, components_of_mem (List.mem_of_getLast? hlast)]

theorem hasExtension_of_isScriptPath {name : Text} (h : isScriptPath name = true)
    (hslash : '/' ∉ name) : hasExtension scriptExtension name = true := by
  have hlower := eq_of_beq h
  cases hlast : (components name).getLast? with
  | none =>
    rw [hlast] at hlower
    cases hlower
  | some component =>
    have hmem := (List.mem_filter.mp (List.mem_of_getLast? hlast)).1
    rw [split_of_relative (head?_ne_slash hslash), Text.splitAll_of_notMem hslash,
      List.mem_singleton] at hmem
    subst hmem
    rw [hlast] at hlower
    obtain ⟨stem, hname⟩ := suffix_suffix component
    exact hasExtension_iff.mpr ⟨stem, suffix component, hname.symm, hlower⟩

end NamespaceMerge.FileName
