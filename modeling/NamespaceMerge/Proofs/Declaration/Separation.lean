import NamespaceMerge.Proofs.Declaration.Tiling

/-! Kept text and namespaces in groups of their own. If no block has a name of the form that the
keys of kept text have, a group holds either one kept region or all blocks of a name, and just the
latter are written as namespaces (`Separates`). A block with such a name is taken for kept text, so
that its wrapper is lost: organizing separates exactly the texts without one
(`separates_organize?_iff`). -/

namespace NamespaceMerge

namespace Declaration

/-! ### Statement of separation -/

/-- A group of one region that is kept from around the blocks of a text. -/
def Group.IsExtra (g : Group) (text : Text) : Prop :=
  ∃ n r, (keptRegions text ((scan text).map Block.strip))[n]? = some r ∧ g.key = extraKey n ∧
    g.blocks = [r.piece text]

/-- A group of all blocks of a text that are named by its key. -/
def Group.IsNamespace (g : Group) (text : Text) : Prop :=
  g.key ∈ (scan text).map (·.name) ∧
    g.blocks = ((scan text).map Block.strip).filter (·.name = g.key)

/-- The group is written as one block of the namespace that its key names. -/
def Group.IsWrapped (g : Group) : Prop :=
  g.render = blockText g.key (g.blocks.map fun b => b.body.getD [])

/-- The group is written as the text that it holds, without anything around it. -/
def Group.IsPlain (g : Group) : Prop :=
  g.render = g.blocks.flatMap fun b => keptText (b.body.getD [])

instance : DecidablePred Group.IsWrapped := fun g =>
  inferInstanceAs (Decidable (g.render = blockText g.key (g.blocks.map fun b => b.body.getD [])))

/-- Kept text and namespaces have groups of their own, and just the namespaces are written as
blocks, each once. -/
structure Separates (text : Text) (groups : Groups) : Prop where
  apart : ∀ g ∈ groups, g.IsExtra text ∨ g.IsNamespace text
  wrapped : (groups.filter fun g => g.IsWrapped).map (·.key) = ((scan text).map (·.name)).eraseDups
  plain : ∀ g ∈ groups, g.IsExtra text → g.IsPlain

/-! ### How groups are written -/

/-- A wrapper makes the text longer, so that a group is written in it or without it. -/
theorem Group.isWrapped_iff {g : Group} : g.IsWrapped ↔ isAdditional g.key = false := by
  constructor
  · intro h
    by_contra hkey
    rw [Bool.not_eq_false] at hkey
    rw [IsWrapped, Group.render, if_pos hkey, joinBodies, Text.join_nil] at h
    have hlength := congrArg List.length h
    have hle := Text.length_flatten_le_length_join ['\t']
      ((g.blocks.map fun b => b.body.getD []).filter fun body => !(Text.trim body).isEmpty)
    have hword : 0 < keyword.length := by decide
    simp only [blockText, isBlankText, List.length_append] at hlength
    omega
  · intro h
    rw [IsWrapped, Group.render, if_neg (by simp [h])]
    rfl

theorem Group.isPlain_of_isAdditional {g : Group} (h : isAdditional g.key = true) : g.IsPlain := by
  rw [IsPlain, Group.render, if_pos h, joinBodies, Text.join_nil]
  induction g.blocks with
  | nil => rfl
  | cons b rest ih =>
    rw [List.flatMap_cons, ← ih, List.map_cons, keptText, isBlankText]
    cases hblank : (Text.trim (b.body.getD [])).isEmpty with
    | true => simp [hblank]
    | false => simp [hblank]

/-! ### Groups of entries -/

theorem filter_eq_singleton {α β : Type} [DecidableEq β] {f : α → β} {l : List α} {a : α}
    (hnodup : (l.map f).Nodup) (ha : a ∈ l) : l.filter (fun x => f x = f a) = [a] := by
  induction l with
  | nil => cases ha
  | cons x rest ih =>
    rw [List.map_cons, List.nodup_cons] at hnodup
    rcases List.mem_cons.mp ha with rfl | hrest
    · rw [List.filter_cons_of_pos (by simp), List.filter_eq_nil_iff.mpr]
      exact fun y hy heq => hnodup.1 (of_decide_eq_true heq ▸ List.mem_map_of_mem hy)
    · have hne : f x ≠ f a := fun heq => hnodup.1 (heq ▸ List.mem_map_of_mem hrest)
      rw [List.filter_cons_of_neg (by simpa using hne), ih hnodup.2 hrest]

theorem filter_eraseDups (p : Text → Bool) (names : List Text) :
    names.eraseDups.filter p = (names.filter p).eraseDups := by
  induction names using List.reverseRecOn with
  | nil => rfl
  | append_singleton names name ih =>
    rw [List.eraseDups_append, List.filter_append, List.filter_append, ih, List.eraseDups_append]
    congr 1
    by_cases hp : p name = true
    · by_cases hmem : name ∈ names <;> simp [List.removeAll, List.eraseDups_cons, hp, hmem]
    · by_cases hmem : name ∈ names <;> simp [List.removeAll, List.eraseDups_cons, hp, hmem]

/-- The entries under keys of kept text, and those under other keys, if no block has such a name. -/
structure Files.Parted (text : Text) (regions : List Region) (blocks : List Block)
    (entries : List (Text × Block)) : Prop where
  regions : entries.filter (fun e => isAdditional e.1) = regions.mapIdx (regionEntry text)
  blocks : entries.filter (fun e => !isAdditional e.1) = blocks.map fun b => (b.name, b)

theorem Files.parted {text : Text} {regions : List Region} {blocks : List Block}
    {entries : List (Text × Block)} (h : Files text regions blocks entries)
    (hplain : ∀ b ∈ blocks, isAdditional b.name = false) :
    Files.Parted text regions blocks entries := by
  -- An entry has the key of kept text exactly if its block is not named by the key.
  have hkey : ∀ e ∈ entries, isAdditional e.1 = decide (e.2.name ≠ e.1) := by
    intro e he
    by_cases hname : e.2.name = e.1
    · have hmem : e ∈ blocks.map fun b => (b.name, b) :=
        h.blocks ▸ List.mem_filter.mpr ⟨he, by simpa using hname⟩
      obtain ⟨b, hb, rfl⟩ := List.mem_map.mp hmem
      simp [hplain b hb]
    · have hmem : e ∈ regions.mapIdx (regionEntry text) :=
        h.regions ▸ List.mem_filter.mpr ⟨he, by simpa using hname⟩
      obtain ⟨n, hn, rfl⟩ := List.mem_mapIdx.mp hmem
      rw [decide_eq_true hname]
      exact isAdditional_extraKey n
  constructor
  · rw [← h.regions]
    exact List.filter_congr hkey
  · rw [← h.blocks]
    refine List.filter_congr fun e he => ?_
    rw [hkey e he]
    simp

namespace Files.Parted

variable {text : Text} {regions : List Region} {blocks : List Block}
  {entries : List (Text × Block)} {key : Text}

/-- Under a key of kept text there is one region. -/
theorem blocksUnder_of_isAdditional (h : Files.Parted text regions blocks entries)
    (hkey : isAdditional key = true) (hmem : key ∈ entries.map (·.1)) :
    ∃ n r, regions[n]? = some r ∧ key = extraKey n ∧ blocksUnder key entries = [r.piece text] := by
  obtain ⟨e, he, rfl⟩ := List.mem_map.mp hmem
  have hregion : e ∈ regions.mapIdx (regionEntry text) :=
    h.regions ▸ List.mem_filter.mpr ⟨he, hkey⟩
  obtain ⟨n, hn, rfl⟩ := List.mem_mapIdx.mp hregion
  refine ⟨n, regions[n], List.getElem?_eq_getElem hn, rfl, ?_⟩
  have hnodup : ((regions.mapIdx (regionEntry text)).map (·.1)).Nodup := by
    refine List.pairwise_iff_getElem.mpr fun i j hi hj hlt heq => ?_
    simp only [List.getElem_map, List.getElem_mapIdx] at heq
    exact Nat.ne_of_lt hlt (extraKey_inj heq)
  rw [← blocksUnder_filter hkey, h.regions, blocksUnder, filter_eq_singleton hnodup hregion]
  rfl

/-- Under another key there are the blocks of this name. -/
theorem blocksUnder_of_not_isAdditional (h : Files.Parted text regions blocks entries)
    (hkey : isAdditional key = false) :
    blocksUnder key entries = blocks.filter (·.name = key) := by
  have hplain : (!isAdditional key) = true := by rw [hkey, Bool.not_false]
  rw [← blocksUnder_filter (p := fun key => !isAdditional key) hplain, h.blocks, blocksUnder,
    List.filter_map, List.map_map]
  exact List.map_id _

/-- The keys that are none of kept text are the names of the blocks. -/
theorem filter_keys (h : Files.Parted text regions blocks entries) :
    (entries.map (·.1)).filter (fun key => !isAdditional key) = blocks.map (·.name) := by
  rw [List.filter_map, show ((fun key => !isAdditional key) ∘ fun e : Text × Block => e.1) =
    fun e => !isAdditional e.1 from rfl, h.blocks, List.map_map]
  rfl

end Files.Parted

theorem map_name_strip (blocks : List Block) :
    (blocks.map Block.strip).map (·.name) = blocks.map (·.name) := by
  rw [List.map_map]
  refine List.map_congr_left fun b _ => ?_
  rw [Function.comp_apply, Block.strip]
  split <;> rfl

/-- Entries of a text whose names are plain are separated. -/
theorem separates_ofEntries {text : Text} {entries : List (Text × Block)}
    (h : Files.Parted text (keptRegions text ((scan text).map Block.strip))
      ((scan text).map Block.strip) entries) : Separates text (.ofEntries entries) := by
  have hgroup : ∀ g ∈ Groups.ofEntries entries,
      g.key ∈ entries.map (·.1) ∧ g.blocks = blocksUnder g.key entries := by
    intro g hg
    obtain ⟨key, hkey, rfl⟩ := List.mem_map.mp hg
    exact ⟨List.mem_eraseDups.mp hkey, rfl⟩
  refine ⟨fun g hg => ?apart, ?wrapped, fun g hg hextra => ?plain⟩
  case apart =>
    obtain ⟨hmem, hblocks⟩ := hgroup g hg
    cases hkey : isAdditional g.key with
    | true =>
      obtain ⟨n, r, hr, hn, hunder⟩ := h.blocksUnder_of_isAdditional hkey hmem
      exact .inl ⟨n, r, hr, hn, hblocks.trans hunder⟩
    | false =>
      refine .inr ⟨?_, hblocks.trans (h.blocksUnder_of_not_isAdditional hkey)⟩
      rw [← map_name_strip, ← h.filter_keys]
      exact List.mem_filter.mpr ⟨hmem, by simp [hkey]⟩
  case wrapped =>
    have hwrapped : (Groups.ofEntries entries).filter (fun g => g.IsWrapped) =
        (Groups.ofEntries entries).filter fun g => !isAdditional g.key :=
      List.filter_congr fun g _ => by
        rw [Bool.eq_iff_iff, decide_eq_true_eq, Group.isWrapped_iff, Bool.not_eq_true']
    rw [hwrapped, Groups.ofEntries, List.filter_map, List.map_map, ← map_name_strip,
      ← h.filter_keys, ← filter_eraseDups]
    exact List.map_id _
  case plain =>
    obtain ⟨n, -, -, hkey, -⟩ := hextra
    exact Group.isPlain_of_isAdditional (hkey ▸ isAdditional_extraKey n)

/-- Where kept text and namespaces are separated, no namespace has the name of kept text. -/
theorem Separates.plainNames {text : Text} {groups : Groups} (h : Separates text groups) :
    ∀ b ∈ scan text, isAdditional b.name = false := by
  intro b hb
  have hname : b.name ∈ ((scan text).map (·.name)).eraseDups :=
    List.mem_eraseDups.mpr (List.mem_map_of_mem hb)
  rw [← h.wrapped] at hname
  obtain ⟨g, hg, hkey⟩ := List.mem_map.mp hname
  rw [← hkey]
  exact Group.isWrapped_iff.mp (of_decide_eq_true (List.mem_filter.mp hg).2)

/-- Organizing separates kept text and namespaces exactly if no namespace has the name of kept
text. -/
theorem separates_organize?_iff {text : Text} (h : scan text ≠ []) :
    ∃ groups, organize? text (scan text) = some groups ∧
      (Separates text groups ↔ ∀ b ∈ scan text, isAdditional b.name = false) := by
  obtain ⟨entries, horganize, hfiles⟩ := exists_organize?_files h (tiles_scan h).forall_mem
  refine ⟨_, horganize, fun hseparates => hseparates.plainNames, fun hplain => ?_⟩
  refine separates_ofEntries (hfiles.parted fun b hb => ?_)
  have hname : b.name ∈ (scan text).map (·.name) := map_name_strip _ ▸ List.mem_map_of_mem hb
  obtain ⟨raw, hraw, hname⟩ := List.mem_map.mp hname
  exact hname ▸ hplain raw hraw

/-- Two namespaces among kept text, one of them named like kept text but for the number. -/
def numbered : Text :=
  ("//\n\n" ++ "declare namespace __additionalDeclaration \x7b a \x7d\n;\n" ++
    "declare namespace A \x7b b \x7d\n" ++
    "declare namespace __additionalDeclaration \x7b c \x7d;\n").toList

theorem separates_organize?_iff_numbered :
    scan numbered ≠ [] ∧ ∃ groups, organize? numbered (scan numbered) = some groups ∧
      Separates numbered groups ∧
      groups.map (fun g => (g.key, g.blocks.length)) =
        [(extraKey 0, 1), (additionalName, 2), (extraKey 1, 1), ("A".toList, 1),
          (extraKey 2, 1)] := by
  have hne : scan numbered ≠ [] := by decide +kernel
  have hplain : ∀ b ∈ scan numbered, isAdditional b.name = false := by decide +kernel
  have hkeys : (organize? numbered (scan numbered)).map
      (List.map fun g => (g.key, g.blocks.length)) = some
        [(extraKey 0, 1), (additionalName, 2), (extraKey 1, 1), ("A".toList, 1),
          (extraKey 2, 1)] := by
    decide +kernel
  obtain ⟨groups, horganize, hiff⟩ := separates_organize?_iff hne
  rw [horganize, Option.map_some, Option.some.injEq] at hkeys
  exact ⟨hne, groups, horganize, hiff.mpr hplain, hkeys⟩

/-- A namespace that is named like the first text that is kept. -/
def colliding : Text := "//\n\ndeclare namespace __additionalDeclaration0 \x7b a \x7d\n".toList

/-- The kept text and the namespace come under one key, and the wrapper of the namespace is lost. -/
theorem not_separates :
    ¬ (∃ groups, organize? colliding (scan colliding) = some groups ∧
      Separates colliding groups) ∧
    (organize? colliding (scan colliding)).map
        (List.map fun g => (g.key, g.blocks.map fun b => b.name)) =
      some [(extraKey 0, [additionalName, extraKey 0])] ∧
    (organize? colliding (scan colliding)).map (·.flatMap Group.render) =
      some "//\n\n a ".toList := by
  refine ⟨?_, by decide +kernel, by decide +kernel⟩
  rintro ⟨groups, -, hseparates⟩
  have hnames : ¬ ∀ b ∈ scan colliding, isAdditional b.name = false := by decide +kernel
  exact hnames hseparates.plainNames

end Declaration

end NamespaceMerge
