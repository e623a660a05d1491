import NamespaceMerge.Proofs.File.Marker

/-! Which outputs take the name of their input. An output is its stem, the marker between points and
the rest of the extension, so with a marker its name is longer than that of the input. Only two
kinds of names do not follow the marker (`overwritesOnRequest_iff`): an extension in other letters
is written anew, and of a marker of points nothing is left behind a name without a suffix. -/

namespace NamespaceMerge

theorem Text.dropTrailing_eq_nil_iff {mark : Char} {text : Text} :
    dropTrailing mark text = [] ↔ ∀ c ∈ text, c = mark := by
  rw [dropTrailing, List.reverse_eq_nil_iff, List.dropWhile_eq_nil_iff]
  simp only [List.mem_reverse, beq_iff_eq]

namespace FileName

/-! ### The marker between points -/

theorem markedExtension_cons {rest : Text} (h : '.' ∉ rest) (marker : Text) :
    markedExtension marker ('.' :: rest) = pointed marker ++ rest := by
  cases rest with
  | nil =>
    rw [List.append_nil]
    rfl
  | cons c rest =>
    rw [List.mem_cons, not_or] at h
    refine markedExtension_eq ⟨c, rest, rfl, Ne.symm h.1, fun hdoubled => ?_⟩ marker
    exact h.2 (hdoubled.mem List.mem_cons_self)

theorem two_le_length_pointed {marker : Text} (h : marker ≠ []) : 2 ≤ (pointed marker).length := by
  have hmarker := List.length_pos_iff.mpr h
  have hhalf := Text.length_le_two_mul_replacePair '.' '.' '.' ('.' :: (marker ++ ['.']))
  simp only [List.length_cons, List.length_append, List.length_nil] at hhalf
  rw [pointed]
  omega

theorem pointed_eq_singleton_iff {marker : Text} : pointed marker = ['.'] ↔ marker = [] := by
  constructor
  · intro h
    by_contra hne
    have hlength := two_le_length_pointed hne
    rw [h] at hlength
    exact absurd hlength (by decide)
  · rintro rfl
    rfl

/-- Behind a name without a suffix nothing is left of a marker of points, and of no other. -/
theorem dropTrailing_markedExtension_eq_nil_iff {marker : Text} :
    Text.dropTrailing '.' (markedExtension marker []) = [] ↔ ∀ c ∈ marker, c = '.' := by
  rw [Text.dropTrailing_eq_nil_iff, markedExtension, List.append_nil]
  constructor
  · intro h c hc
    by_contra hne
    exact hne (h c (Text.mem_replacePair_of_ne hne hne _ (List.mem_cons_of_mem _ hc)))
  · intro h c hc
    rcases Text.mem_replacePair hc with hc | hc
    · exact List.mem_singleton.mp hc
    · exact (List.mem_cons.mp hc).elim id (h c)

/-! ### Names with and without a suffix -/

theorem lastComponent_suffix (path : Text) : lastComponent path <:+ path := by
  rw [← List.reverse_prefix, lastComponent, List.reverse_reverse]
  exact List.takeWhile_prefix _

/-- A path has no suffix, or it is a stem and a suffix that starts with its only point. -/
theorem splitSuffix_cases (path : Text) :
    splitSuffix path = (path, []) ∨ ∃ stem rest,
      splitSuffix path = (stem, '.' :: rest) ∧ path = stem ++ '.' :: rest ∧ '.' ∉ rest := by
  obtain ⟨front, hpath⟩ := lastComponent_suffix path
  simp only [splitSuffix]
  by_cases hpoint : '.' ∈ lastComponent path
  · obtain ⟨a, b, hcomponent, hb⟩ := Text.exists_eq_append_cons_of_mem hpoint
    rw [hcomponent] at hpath ⊢
    rw [Text.lastIndexOf_append_cons a hb]
    simp only
    split
    · exact .inl rfl
    · have hlength : path.length - ((a ++ '.' :: b).length - a.length) = (front ++ a).length := by
        rw [← hpath]
        simp only [List.length_append, List.length_cons]
        omega
      have hwhole : path = (front ++ a) ++ '.' :: b := by rw [← hpath, List.append_assoc]
      refine .inr ⟨front ++ a, b, ?_, hwhole, hb⟩
      rw [hlength, hwhole, List.splitAt_eq, List.take_left, List.drop_left]
  · rw [Text.lastIndexOf_eq_none_iff.mpr hpoint]
    exact .inl rfl

variable {name extension stem rest : Text}

theorem output_of_noSuffix (h : hasExtension extension name = false)
    (hsplit : splitSuffix name = (name, [])) (marker : Text) :
    output name extension marker = name ++ Text.dropTrailing '.' (markedExtension marker []) := by
  rw [output, h, if_neg Bool.false_ne_true, hsplit]

theorem output_of_suffix (h : hasExtension extension name = false)
    (hsplit : splitSuffix name = (stem, '.' :: rest)) (hrest : '.' ∉ rest) (marker : Text) :
    output name extension marker = stem ++ (pointed marker ++ rest) := by
  rw [output, h, if_neg Bool.false_ne_true, hsplit, ← markedExtension_cons hrest]

/-! ### Outputs under the name of their input -/

theorem output_eq_self_of_hasExtension (h : hasExtension extension name = true)
    (hextension : IsExtension extension) (marker : Text) :
    output name extension marker = name ↔ marker = [] ∧ extension <:+ name := by
  obtain ⟨stem, ending, rfl, hlower⟩ := hasExtension_iff.mp h
  obtain ⟨c, rest, rfl, -⟩ := hextension.eq_cons
  have hlength : ending.length = ('.' :: c :: rest).length := by
    simpa [Text.lower] using congrArg List.length hlower
  rw [output_of_hasExtension h hextension, ← hlength, List.length_append, Nat.add_sub_cancel,
    List.take_left, List.append_cancel_left_eq]
  constructor
  · intro heq
    have hmarker : marker = [] := by
      by_contra hne
      have hpointed := two_le_length_pointed hne
      have hwhole := congrArg List.length heq
      simp only [List.length_append, List.length_cons, List.tail_cons, hlength] at hwhole
      omega
    subst hmarker
    exact ⟨rfl, stem, by rw [← heq]; rfl⟩
  · rintro ⟨rfl, front, hsuffix⟩
    exact (List.append_inj' hsuffix hlength.symm).2

theorem output_eq_self_of_suffix (h : hasExtension extension name = false)
    (hsplit : splitSuffix name = (stem, '.' :: rest)) (hname : name = stem ++ '.' :: rest)
    (hrest : '.' ∉ rest) (marker : Text) : output name extension marker = name ↔ marker = [] := by
  rw [output_of_suffix h hsplit hrest, ← pointed_eq_singleton_iff]
  conv_lhs => rhs; rw [hname]
  rw [List.append_cancel_left_eq, ← List.singleton_append, List.append_cancel_right_eq]

theorem output_eq_self_of_noSuffix (h : hasExtension extension name = false)
    (hsplit : splitSuffix name = (name, [])) (marker : Text) :
    output name extension marker = name ↔ ∀ c ∈ marker, c = '.' := by
  rw [output_of_noSuffix h hsplit, List.append_right_eq_self,
    dropTrailing_markedExtension_eq_nil_iff]

/-- The output takes the name of its input exactly if the marker is empty. -/
def OverwritesOnRequest (name extension marker : Text) : Prop :=
  output name extension marker = name ↔ marker = []

/-- A name that follows the marker. Without a marker, it spells its extension as the outputs do;
if it has no suffix, the marker is not made of points. -/
structure FollowsMarker (name extension marker : Text) : Prop where
  spelled : hasExtension extension name = true → marker = [] → extension <:+ name
  seen : hasExtension extension name = false → (splitSuffix name).2 = [] → marker ≠ [] →
    ∃ c ∈ marker, c ≠ '.'

theorem overwritesOnRequest_of_isExtension (hextension : IsExtension extension)
    (name marker : Text) :
    OverwritesOnRequest name extension marker ↔ FollowsMarker name extension marker := by
  rw [OverwritesOnRequest]
  cases h : hasExtension extension name with
  | true =>
    rw [output_eq_self_of_hasExtension h hextension, and_iff_left_iff_imp]
    exact ⟨fun hspelled => ⟨fun _ => hspelled, fun hnone => by simp [h] at hnone⟩,
      fun hfollows => hfollows.spelled h⟩
  | false =>
    rcases splitSuffix_cases name with hsplit | ⟨stem, rest, hsplit, hname, hrest⟩
    · rw [output_eq_self_of_noSuffix h hsplit]
      constructor
      · intro hpoints
        refine ⟨fun hsome => by simp [h] at hsome, fun _ _ hne => ?_⟩
        by_contra hnone
        exact hne (hpoints.mp fun c hc => by_contra fun hcne => hnone ⟨c, hc, hcne⟩)
      · intro hfollows
        constructor
        · intro hpoints
          by_contra hne
          obtain ⟨c, hc, hcne⟩ := hfollows.seen h (by rw [hsplit]) hne
          exact hcne (hpoints c hc)
        · rintro rfl c hc
          cases hc
    · rw [output_eq_self_of_suffix h hsplit hname hrest]
      exact iff_of_true Iff.rfl
        ⟨fun hsome => by simp [h] at hsome, fun _ hnil => by simp [hsplit] at hnil⟩

/-- For both extensions, just the outputs of names that follow the marker take the name of their
input on request, and on request only. -/
theorem overwritesOnRequest_iff (name marker : Text) :
    (OverwritesOnRequest name declarationExtension marker ↔
        FollowsMarker name declarationExtension marker) ∧
      (OverwritesOnRequest name scriptExtension marker ↔
        FollowsMarker name scriptExtension marker) :=
  ⟨overwritesOnRequest_of_isExtension isExtension_declaration name marker,
    overwritesOnRequest_of_isExtension isExtension_script name marker⟩

/-- Without a marker, an extension in capitals is written in small letters; and a marker of points
leaves a name without a suffix as it is. -/
theorem not_overwritesOnRequest :
    ¬ OverwritesOnRequest "Widget.D.TS".toList declarationExtension [] ∧
      ¬ OverwritesOnRequest "README".toList scriptExtension ['.'] := by
  constructor
  · intro h
    exact absurd (h.mpr rfl) (by decide)
  · intro h
    exact absurd (h.mp (by decide)) (by decide)

end FileName

end NamespaceMerge
